/-!
# Internet addresses

Addresses of both versions, and endpoints, which are an address, a port and, for version 6, a zone: the
network link on which a link-local address is meant.

* `Address.text`    four decimal numbers with dots, or eight hexadecimal groups with colons;
* `Endpoint.text`   an address and a port; brackets keep the colons of version 6 apart, and hold the
                    number of the zone too.
-/

namespace TransactionKey

/-- an Internet address: four bytes, or eight groups of sixteen bits -/
inductive Address where
  | v4 (a b c d : UInt8)
  | v6 (groups : Vector UInt16 8)
deriving DecidableEq, Repr

namespace Address

def dotted (a b c d : UInt8) : String := s!"{a}.{b}.{c}.{d}"

/-- a group in hexadecimal, without leading zeros -/
def groupText (g : UInt16) : String := String.ofList (Nat.toDigits 16 g.toNat)

def colons (groups : List UInt16) : String := String.intercalate ":" (groups.map groupText)

/-- how many zero groups stand at position `i` and after it without a gap -/
def zerosAt (groups : List UInt16) (i : Nat) : Nat := ((groups.drop i).takeWhile (· == 0)).length

/-- position and length of the longest run of zero groups, the first of equal ones -/
def longestZeros (groups : List UInt16) : Nat × Nat :=
  (List.range groups.length).foldl
    (fun best i => if best.2 < zerosAt groups i then (i, zerosAt groups i) else best) (0, 0)

/-- eight groups, where two colons stand for the longest run of at least two zeros -/
def shortened (groups : List UInt16) : String :=
  let (start, size) := longestZeros groups
  if 1 < size then colons (groups.take start) ++ "::" ++ colons (groups.drop (start + size))
  else colons groups

def bytesOf (g : UInt16) : UInt8 × UInt8 := (g >>> 8 |>.toUInt8, g.toUInt8)

/-- the text of an address; an address of version 4 that is mapped into version 6 keeps its dots -/
def text : Address → String
  | v4 a b c d => dotted a b c d
  | v6 groups =>
    match groups.toList with
    | [0, 0, 0, 0, 0, 0xffff, high, low] =>
      let (a, b) := bytesOf high
      let (c, d) := bytesOf low
      "::ffff:" ++ dotted a b c d
    | groups => shortened groups

end Address

/-- where a server is contacted; zone 0 is the default one, and the only one of version 4 -/
structure Endpoint where
  address : Address
  port : UInt16
  zone : UInt32 := 0
deriving DecidableEq, Repr

namespace Endpoint

/-- the mark of a zone after an address; the default zone has none -/
def zoneText (zone : UInt32) : String := if zone = 0 then "" else s!"%{zone}"

def text (e : Endpoint) : String :=
  match e.address with
  | .v4 .. => s!"{e.address.text}:{e.port}"
  | .v6 _ => s!"[{e.address.text}{zoneText e.zone}]:{e.port}"

end Endpoint

end TransactionKey
