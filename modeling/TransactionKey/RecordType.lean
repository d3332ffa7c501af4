/-!
# Record types

The record types that have a name here, and every other one by its code.  `ofCode` never gives a
named type the form `other`, so on its values equality of types is equality of codes.
-/

namespace TransactionKey

inductive RecordType where
  | unknown | a | ns | cname | soa | ptr | mx | txt | key | aaaa | srv | opt | ds | rrsig
  | nsec | dnskey | tkey | tsig | axfr | any
  | other (code : UInt16)
deriving DecidableEq, Repr, Inhabited

namespace RecordType

def ofCode (code : UInt16) : RecordType :=
  match code.toNat with
  | 0 => .unknown
  | 1 => .a
  | 2 => .ns
  | 5 => .cname
  | 6 => .soa
  | 12 => .ptr
  | 15 => .mx
  | 16 => .txt
  | 25 => .key
  | 28 => .aaaa
  | 33 => .srv
  | 41 => .opt
  | 43 => .ds
  | 46 => .rrsig
  | 47 => .nsec
  | 48 => .dnskey
  | 249 => .tkey
  | 250 => .tsig
  | 252 => .axfr
  | 255 => .any
  | _ => .other code

def code : RecordType → UInt16
  | .unknown => 0
  | .a => 1
  | .ns => 2
  | .cname => 5
  | .soa => 6
  | .ptr => 12
  | .mx => 15
  | .txt => 16
  | .key => 25
  | .aaaa => 28
  | .srv => 33
  | .opt => 41
  | .ds => 43
  | .rrsig => 46
  | .nsec => 47
  | .dnskey => 48
  | .tkey => 249
  | .tsig => 250
  | .axfr => 252
  | .any => 255
  | .other code => code

/-- the mnemonic, or the generic notation for a type without one -/
def text : RecordType → String
  | .unknown => "TYPE0"
  | .a => "A"
  | .ns => "NS"
  | .cname => "CNAME"
  | .soa => "SOA"
  | .ptr => "PTR"
  | .mx => "MX"
  | .txt => "TXT"
  | .key => "KEY"
  | .aaaa => "AAAA"
  | .srv => "SRV"
  | .opt => "OPT"
  | .ds => "DS"
  | .rrsig => "RRSIG"
  | .nsec => "NSEC"
  | .dnskey => "DNSKEY"
  | .tkey => "TKEY"
  | .tsig => "TSIG"
  | .axfr => "AXFR"
  | .any => "ANY"
  | .other code => s!"TYPE{code}"

theorem code_ofCode (code : UInt16) : (ofCode code).code = code := by
  unfold ofCode
  split <;> first | rfl | (rename_i h; exact (UInt16.toNat_inj.1 h).symm)

end RecordType

end TransactionKey
