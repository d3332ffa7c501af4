import TransactionKey.Json
import TransactionKey.Reply

/-!
# Reports

What is shown of a reply that grants a key, in one of two forms:

* `Reply.lines`, `Reply.text`   one line for each property of the key and for each other record;
* `Reply.json`                  everything, as a JSON value.
-/

namespace TransactionKey

/-! ## lines -/

/-- the mode of a key in words, or its number if the number means nothing -/
def Tkey.modeText (t : Tkey) : String :=
  match Tkey.Mode.ofValue? t.mode with
  | some mode => mode.text
  | none => s!"{t.mode}"

def Tkey.lines (t : Tkey) : List String :=
  [s!"Key name:   {t.name}",
   s!"Algorithm:  {t.algorithm}",
   s!"Mode:       {t.modeText}",
   s!"Inception:  {t.inception}",
   s!"Expiration: {t.expiration}",
   s!"Key ({t.keySize} bytes): {t.key}"]
  ++ if 0 < t.otherSize then [s!"Other data ({t.otherSize} bytes): {t.otherData}"] else []

namespace Reply

/-- the report, a line for each item -/
def lines (r : Reply) : List String :=
  r.tkey.lines ++ r.others.map fun record => s!"Additional: {record.text}"

def text (r : Reply) : String := String.join (r.lines.map (· ++ "\n"))

end Reply

/-! ## JSON -/

/-- the mnemonic of a type, or its code -/
def RecordType.json : RecordType → Json
  | .unknown => .text "Unknown"
  | .other code => .object [("Other", .number code.toNat)]
  | type => .text type.text

/-- the mnemonic of a class, or its code -/
def RecordClass.json : RecordClass → Json
  | .other code => .object [("Other", .number code.toNat)]
  | rclass => .text rclass.text

/-- the fields of a record, its data in hexadecimal -/
def ResourceRecord.json (r : ResourceRecord) : Json := .object [
  ("labels", .list (r.name.map .text)),
  ("rtype", r.type.json),
  ("rclass", r.rclass.json),
  ("ttl", .number r.ttl.toNat),
  ("rdlength", .number r.rdlength.toNat),
  ("rdata", .text (Hex.encode r.rdata))]

def Tkey.json (t : Tkey) : Json := .object [
  ("name", .text t.name),
  ("algorithm", .text t.algorithm),
  ("mode", .number t.mode.toNat),
  ("inception", .number t.inception.toNat),
  ("expiration", .number t.expiration.toNat),
  ("key_size", .number t.keySize.toNat),
  ("key", .text t.key),
  ("error", .number t.error.toNat),
  ("other_size", .number t.otherSize.toNat),
  ("other_data", .text t.otherData)]

def Reply.json (r : Reply) : Json := .object [
  ("tkey", r.tkey.json),
  ("additional_records", .list (r.others.map ResourceRecord.json))]

end TransactionKey
