import TransactionKey.Hash.Sha1
import TransactionKey.Hash.Sha2
import TransactionKey.Text.Lowercase

/-!
# Signature algorithms

The four keyed hashes that sign messages, with their domain names.
-/

namespace TransactionKey.Tsig

inductive Algorithm where
  | sha1 | sha256 | sha384 | sha512
deriving DecidableEq, Repr

namespace Algorithm

def name : Algorithm → String
  | .sha1 => "hmac-sha1."
  | .sha256 => "hmac-sha256."
  | .sha384 => "hmac-sha384."
  | .sha512 => "hmac-sha512."

def hash : Algorithm → Hash
  | .sha1 => Hash.sha1
  | .sha256 => Hash.sha256
  | .sha384 => Hash.sha384
  | .sha512 => Hash.sha512

/-- a text without the dots at its end -/
def trimDots (s : String) : String :=
  String.ofList (s.toList.reverse.dropWhile (· = '.')).reverse

/-- the algorithm that a text names, in any case and with any number of final dots -/
def ofName? (s : String) : Option Algorithm :=
  match trimDots (Text.lowercase s) with
  | "hmac-sha1" => some .sha1
  | "hmac-sha256" => some .sha256
  | "hmac-sha384" => some .sha384
  | "hmac-sha512" => some .sha512
  | _ => none

end Algorithm

end TransactionKey.Tsig
