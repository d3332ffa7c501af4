import TransactionKey.Name.Decode
import TransactionKey.RecordType
import TransactionKey.RecordClass

/-!
# Resource records

A record owns opaque data.  The data of some types embeds domain names (`RecordType.layout?`), which
a message may compress; reading a record writes those names out in full, so that the record stays
readable outside its message.  Data whose names do not decode is kept as it stands.

* `ofText`        a record for a dotted owner name;
* `toWire`        the wire form; the length field is computed from the data;
* `decode`        reads a record, with `expand` for its data;
* `text`          the generic presentation form.
-/

namespace TransactionKey

/-- record data that embeds names: bytes before the names, and how many names follow -/
structure NameLayout where
  fixed : Nat
  names : Nat
deriving DecidableEq, Repr

/-- where the data of a type embeds names -/
def RecordType.layout? : RecordType → Option NameLayout
  | .ns | .cname | .ptr | .tkey => some ⟨0, 1⟩
  | .mx => some ⟨2, 1⟩
  | .srv => some ⟨6, 1⟩
  | .soa => some ⟨0, 2⟩
  | _ => none

/-- a resource record; `rdlength` is what was read or computed when the record was made -/
structure ResourceRecord where
  name : Name := []
  type : RecordType := .unknown
  rclass : RecordClass := .internet
  ttl : UInt32 := 0
  rdlength : UInt16 := 0
  rdata : Bytes := []
deriving DecidableEq, Repr

namespace ResourceRecord

def maxData : Nat := 65535

/-- a record for a dotted owner name, if the data fits -/
def ofText (owner : String) (type : RecordType) (rclass : RecordClass) (ttl : UInt32)
    (rdata : Bytes) : Except WireError ResourceRecord :=
  let size := rdata.length
  if maxData < size then .error (.badRdata (.tooLong size))
  else .ok ⟨Name.ofText owner, type, rclass, ttl, UInt16.ofNat size, rdata⟩

def owner (r : ResourceRecord) : String := r.name.toText

/-! ## writing -/

/-- the wire form, without compression -/
def toWire (r : ResourceRecord) : Except WireError Bytes := do
  let name ← r.name.toWire
  return name ++ bigEndian 2 r.type.code.toNat ++ bigEndian 2 r.rclass.code.toNat
    ++ bigEndian 4 r.ttl.toNat ++ bigEndian 2 r.rdata.length ++ r.rdata

/-- the generic presentation form: owner, time to live, class, type, and the data in hexadecimal -/
def text (r : ResourceRecord) : String :=
  s!"{r.owner} {r.ttl} {r.rclass.text} {r.type.text} \\# {r.rdata.length} {Hex.encode r.rdata}"

/-! ## reading -/

/-- writes out `names` names at the head of `rest`, which must end within `room` bytes, and copies
what is left of the room; a name is written as its dotted text spells it -/
def expandNames (message : Bytes) : (names room : Nat) → (rest : Bytes) → Option Bytes
  | 0, room, rest => some (rest.take room)
  | names + 1, room, rest =>
    match Name.decode message rest with
    | .error _ => none
    | .ok (name, n) =>
      if room < n then none
      else
        match (Name.ofText name.toText).toWire with
        | .error _ => none
        | .ok wire => (expandNames message names (room - n) (rest.drop n)).map (wire ++ ·)

/-- the `size` bytes of data at the head of `rest` with the embedded names of the type written out,
if they all decode -/
def expand (message : Bytes) (type : RecordType) (size : Nat) (rest : Bytes) : Option Bytes :=
  match type.layout? with
  | none => some (rest.take size)
  | some layout =>
    if size < layout.fixed then none
    else
      (expandNames message layout.names (size - layout.fixed) (rest.drop layout.fixed)).map
        (rest.take layout.fixed ++ ·)

/-- the fields and the data after the owner name of a record -/
def decodeFields (name : Name) : Decoder ResourceRecord := fun message rest =>
  match rest with
  | t1 :: t0 :: c1 :: c0 :: l3 :: l2 :: l1 :: l0 :: n1 :: n0 :: body =>
    let type := RecordType.ofCode (UInt16.ofNat (ofBigEndian [t1, t0]))
    let size := ofBigEndian [n1, n0]
    match Bytes.take? size body with
    | none => .error .badRecord
    | some (raw, _) =>
      let rdata := (expand message type size body).getD raw
      if maxData < rdata.length then .error (.badRdata (.tooLong rdata.length))
      else
        .ok ({ name, type, rdata
               rclass := .ofCode (UInt16.ofNat (ofBigEndian [c1, c0]))
               ttl := UInt32.ofNat (ofBigEndian [l3, l2, l1, l0])
               rdlength := UInt16.ofNat rdata.length }, 10 + size)
  | _ => .error .badRecord

def decode : Decoder ResourceRecord := Name.decode.bind decodeFields

end ResourceRecord

end TransactionKey
