import TransactionKey.Exchange

/-!
# Scripted worlds

A `Script` answers an exchange by fixed functions, and `Script.exchange` gives the outcome together with
the `Trace` of what the exchange did: the hosts that it looked up and what it sent where.
-/

namespace TransactionKey

/-- answers for an exchange; the clock and the deliveries are numbered from zero -/
structure Script where
  clock : Nat → UInt64
  id : UInt16
  lookup : String → Except String (List Address)
  deliver : Nat → Endpoint → Bytes → Except TransportError Bytes

structure Trace where
  readings : Nat := 0
  lookups : List String := []
  sent : List (Endpoint × Bytes) := []
  doubts : List (Endpoint × TsigError) := []
deriving DecidableEq, Repr

namespace Script

def world (s : Script) : World (StateM Trace) where
  now := modifyGet fun t => (s.clock t.readings, { t with readings := t.readings + 1 })
  newId := pure s.id
  lookup host := modifyGet fun t => (s.lookup host, { t with lookups := t.lookups ++ [host] })
  deliver endpoint query := modifyGet fun t =>
    (s.deliver t.sent.length endpoint query, { t with sent := t.sent ++ [(endpoint, query)] })
  doubt endpoint fault := modify fun t => { t with doubts := t.doubts ++ [(endpoint, fault)] }

def exchange (s : Script) (port : UInt16) (r : Request) : Except ExchangeError Reply × Trace :=
  (TransactionKey.exchange s.world port r).run {}

end Script

end TransactionKey
