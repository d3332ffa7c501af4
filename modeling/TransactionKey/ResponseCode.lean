/-!
# Response codes

The codes of message headers and of the error fields inside key and signature records.  Code 16 is
read as `badSig`, its meaning in those records.
-/

namespace TransactionKey

inductive ResponseCode where
  | noError | formErr | servFail | nxDomain | notImp | refused | yxDomain | yxRRSet | nxRRSet
  | notAuth | notZone | badSig | badKey | badTime | badMode | badName | badAlg | badTrunc
  | badCookie
  | unknown (code : UInt16)
deriving DecidableEq, Repr

namespace ResponseCode

def ofValue (value : UInt16) : ResponseCode :=
  match value.toNat with
  | 0 => .noError
  | 1 => .formErr
  | 2 => .servFail
  | 3 => .nxDomain
  | 4 => .notImp
  | 5 => .refused
  | 6 => .yxDomain
  | 7 => .yxRRSet
  | 8 => .nxRRSet
  | 9 => .notAuth
  | 10 => .notZone
  | 16 => .badSig
  | 17 => .badKey
  | 18 => .badTime
  | 19 => .badMode
  | 20 => .badName
  | 21 => .badAlg
  | 22 => .badTrunc
  | 23 => .badCookie
  | _ => .unknown value

def value : ResponseCode → UInt16
  | .noError => 0
  | .formErr => 1
  | .servFail => 2
  | .nxDomain => 3
  | .notImp => 4
  | .refused => 5
  | .yxDomain => 6
  | .yxRRSet => 7
  | .nxRRSet => 8
  | .notAuth => 9
  | .notZone => 10
  | .badSig => 16
  | .badKey => 17
  | .badTime => 18
  | .badMode => 19
  | .badName => 20
  | .badAlg => 21
  | .badTrunc => 22
  | .badCookie => 23
  | .unknown value => value

def mnemonic : ResponseCode → String
  | .noError => "NOERROR"
  | .formErr => "FORMERR"
  | .servFail => "SERVFAIL"
  | .nxDomain => "NXDOMAIN"
  | .notImp => "NOTIMP"
  | .refused => "REFUSED"
  | .yxDomain => "YXDOMAIN"
  | .yxRRSet => "YXRRSET"
  | .nxRRSet => "NXRRSET"
  | .notAuth => "NOTAUTH"
  | .notZone => "NOTZONE"
  | .badSig => "BADSIG"
  | .badKey => "BADKEY"
  | .badTime => "BADTIME"
  | .badMode => "BADMODE"
  | .badName => "BADNAME"
  | .badAlg => "BADALG"
  | .badTrunc => "BADTRUNC"
  | .badCookie => "BADCOOKIE"
  | .unknown _ => "RESERVED"

def isSuccess (c : ResponseCode) : Bool := c == .noError

def text (c : ResponseCode) : String := s!"{c.mnemonic} ({c.value})"

theorem value_ofValue (value : UInt16) : (ofValue value).value = value := by
  unfold ofValue
  split <;> first | rfl | (rename_i h; exact (UInt16.toNat_inj.1 h).symm)

end ResponseCode

end TransactionKey
