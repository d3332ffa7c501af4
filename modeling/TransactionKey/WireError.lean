import TransactionKey.Hex

/-!
# Why a message cannot be read or written

`WireError` lists the causes and `WireError.message` words them.
-/

namespace TransactionKey

inductive RdataFault where
  | tooLong (bytes : Nat)
  | keyTooLong (bytes : Nat)
  | keyText (fault : Hex.Fault)
  | keySizeMismatch (stated actual : Nat)
  | otherText (fault : Hex.Fault)
  | otherTooLong (bytes : Nat)
  | truncated
  | surplus (bytes : Nat)
  | notTkey (found : String)
deriving DecidableEq, Repr

def RdataFault.message : RdataFault → String
  | .tooLong bytes => s!"{bytes} bytes of RDATA"
  | .keyTooLong bytes => s!"key of {bytes} bytes"
  | .keyText fault => s!"key data: {fault.message}"
  | .keySizeMismatch stated actual => s!"key size {stated} does not match {actual} bytes of key data"
  | .otherText fault => s!"other data: {fault.message}"
  | .otherTooLong bytes => s!"other data of {bytes} bytes"
  | .truncated => "TKEY RDATA truncated"
  | .surplus bytes => s!"{bytes} bytes after TKEY RDATA"
  | .notTkey found => s!"expected TKEY, found {found}"

/-- why a message, or a part of one, cannot be read or written -/
inductive WireError where
  | badHeader
  | badLabel
  | labelTooLong (bytes : Nat)
  | nameTooLong
  | badQuestion
  | badRecord
  | badRdata (fault : RdataFault)
  | trailing (bytes : Nat)
  | fieldTooWide
  | sectionTooLong (records : Nat)
deriving DecidableEq, Repr

def WireError.message : WireError → String
  | .badHeader => "Invalid DNS header"
  | .badLabel => "Invalid DNS label"
  | .labelTooLong bytes => s!"DNS label of {bytes} bytes exceeds 63"
  | .nameTooLong => "DNS name exceeds 255 bytes"
  | .badQuestion => "Invalid question section"
  | .badRecord => "Invalid answer section"
  | .badRdata fault => s!"Invalid RDATA: {fault.message}"
  | .trailing bytes => s!"{bytes} trailing bytes after message"
  | .fieldTooWide => "Invalid bit stream: excessive value for bits written"
  | .sectionTooLong records => s!"Invalid bit stream: {records} records in one section"

end TransactionKey
