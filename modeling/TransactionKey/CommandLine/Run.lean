import TransactionKey.CommandLine
import TransactionKey.Exchange
import TransactionKey.Report

/-!
# Running a command line

`CommandLine.run` makes the exchange that a command line asks for and gives the report to be printed.
-/

namespace TransactionKey

inductive Failure where
  | settings (fault : SettingsError)
  | keyData (fault : KeyDataError)
  | exchange (fault : ExchangeError)
deriving DecidableEq, Repr

def Failure.message : Failure → String
  | .settings fault => fault.message
  | .keyData fault => fault.message
  | .exchange fault => fault.message

namespace CommandLine

/-- the report on a reply in the form that is asked for -/
def report (c : CommandLine) (reply : Reply) : String :=
  if c.json then reply.json.pretty ++ "\n" else reply.text

/-- makes the exchange under the settings of the command line, given the texts of files and the
environment variables -/
def run {m : Type → Type} [Monad m] (c : CommandLine) (world : Settings → World m)
    (read : String → Except String String) (value? : String → Option String) :
    m (Except Failure String) := do
  match c.settings read value? with
  | .error e => return .error (.settings e)
  | .ok settings =>
    match c.request with
    | .error e => return .error (.keyData e)
    | .ok request =>
      match ← exchange (world settings) settings.port request with
      | .error e => return .error (.exchange e)
      | .ok reply => return .ok (c.report reply)

end CommandLine

end TransactionKey
