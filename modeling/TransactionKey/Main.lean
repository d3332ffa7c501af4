import Std.Async.DNS
import Std.Async.TCP
import Std.Async.Timer
import TransactionKey.Address.Read
import TransactionKey.CommandLine.Parse
import TransactionKey.CommandLine.Run
import TransactionKey.Frame

/-!
# The program

Negotiates a key with a server as the arguments ask, and prints the report.  Everything here is input
and output; what is sent and what replies mean is decided by the library.
-/

namespace TransactionKey.Main

open Std.Async (Async)

instance : Inhabited TransportError := ⟨.notAResponse⟩

/-! ## texts -/

/-- what is shown when help is asked for -/
def help : String := String.intercalate "\n" [
  "Negotiate a shared key with a nameserver using TKEY",
  "",
  "  -s, --server NAME          nameserver host name or address",
  "  -k, --key-name NAME        name of the key to negotiate",
  "  -a, --algorithm NAME       TKEY algorithm name (gss-tsig.)",
  "  -m, --mode MODE            server, dh, gss, resolver, delete or a number (gss)",
  "  -l, --lifetime SECONDS     requested key lifetime (3600)",
  "      --key-hex DATA         key exchange data as hex",
  "      --key-base64 DATA      key exchange data as base64",
  "      --tsig-name NAME       TSIG key name used to sign the query",
  "      --tsig-algorithm NAME  TSIG algorithm, for example hmac-sha256",
  "      --tsig-secret DATA     TSIG shared secret as base64",
  "  -p, --port PORT            nameserver port",
  "      --timeout-ms TIME      connect and read timeout in milliseconds",
  "  -c, --config FILE          TOML file with client settings",
  "      --json                 print the result as JSON",
  "  -v, --verbose              report each attempt",
  "  -h, --help                 print this text",
  "  -V, --version              print the version",
  ""]

/-- what is wrong with the arguments -/
def complaint : Usage → String
  | .missingArgument => "a required argument is missing"
  | .unknownArgument => "an argument is not known"
  | .badValue => "a value is not valid"
  | .missingValue => "an option lacks its value"
  | .surplusValue => "a flag takes no value"
  | .conflict => "an argument is given twice or conflicts with another"
  | .help | .version => ""

/-- the number of a system error, which some calls give with the opposite sign -/
def errorNumber (code : UInt32) : UInt32 := if code < 0x80000000 then code else 0 - code

/-- why a system call failed -/
def reason : IO.Error → String
  | .noFileOrDirectory _ code _ => s!"No such file or directory (os error {errorNumber code})"
  | .noSuchThing _ code details => s!"{details} (os error {errorNumber code})"
  | e => toString e

/-! ## the network -/

/-- a socket address for an endpoint -/
def socketAddress (e : Endpoint) : Std.Net.SocketAddress :=
  match e.address with
  | .v4 a b c d => .v4 ⟨⟨#v[a, b, c, d]⟩, e.port⟩
  | .v6 groups => .v6 ⟨⟨groups⟩, e.port⟩

/-- an address that the system found -/
def ofSystem : Std.Net.IPAddr → Address
  | .v4 ip => .v4 ip.octets[0] ip.octets[1] ip.octets[2] ip.octets[3]
  | .v6 ip => .v6 ip.segments

/-- an action that is given up after some milliseconds -/
def within {α : Type} (milliseconds : UInt64) (action : Async α) :
    Async (Except TransportError α) := do
  let guarded : Async (Except TransportError α) := do
    try return .ok (← action)
    catch e => return .error (.io (reason e))
  Async.race guarded do
    Std.Async.sleep (.ofNat milliseconds.toNat)
    return .error (.timeout milliseconds.toNat)

/-- receives chunks until they decide the reply -/
partial def receive (limit : Nat) (socket : Std.Async.TCP.Socket.Client) (received : Bytes) :
    Async (Except TransportError Bytes) := do
  match Frame.reply? limit received with
  | some result => return result
  | none =>
    match ← socket.recv? 4096 with
    | some chunk => receive limit socket (received ++ chunk.data.toList)
    | none => return .error (Frame.endingError 0 .closed)

/-- sends a query to an endpoint and waits for the reply -/
def deliver (s : Settings) (endpoint : Endpoint) (query : Bytes) :
    Async (Except TransportError Bytes) := do
  let socket ← Std.Async.TCP.Socket.Client.mk
  match ← within s.connectTimeout (socket.connect (socketAddress endpoint)) with
  | .error e => return .error e
  | .ok () =>
    match Frame.frame? query with
    | .error e => return .error e
    | .ok bytes =>
      let reply ← within s.readTimeout do
        socket.send ⟨bytes.toArray⟩
        receive s.maxReply.toNat socket []
      return reply.bind id

/-- the addresses of a host, which may be written as an address itself -/
def lookup (host : String) : IO (Except String (List Address)) := do
  match Address.ofHost? host with
  | some address => return .ok [address]
  | none =>
    try return .ok ((← (Std.Async.DNS.getAddrInfo host "").block).toList.map ofSystem)
    catch e => return .error (reason e)

def world (verbose : Bool) (s : Settings) : World IO where
  now := return (← Std.Time.Timestamp.now).toSecondsSinceUnixEpoch.toInt.toNat.toUInt64
  newId := return UInt16.ofNat (← IO.rand 0 65535)
  lookup := lookup
  deliver endpoint query := do
    if verbose then IO.eprintln s!"Sending {query.length} byte TKEY query to {endpoint.text}"
    (deliver s endpoint query).block
  doubt endpoint e :=
    IO.eprintln s!"Response from {endpoint.text} failed TSIG verification: {e.message}"

/-! ## files and variables -/

def readText (path : String) : IO (Except String String) := do
  try
    match String.fromUTF8? (← IO.FS.readBinFile path) with
    | some text => return .ok text
    | none => return .error "stream did not contain valid UTF-8"
  catch e => return .error (reason e)

/-- runs a command line; the answer is the exit code -/
def perform (c : CommandLine) : IO UInt32 := do
  let file ← match c.config with
    | some path => readText path
    | none => pure (.ok "")
  let names := ["TKEY_PORT", "TKEY_CONNECT_TIMEOUT_MS", "TKEY_READ_TIMEOUT_MS"]
  let environment ← names.mapM fun name => return (name, ← IO.getEnv name)
  match ← c.run (world c.verbose) (fun _ => file) fun name => (environment.lookup name).join with
  | .ok report =>
    IO.print report
    return 0
  | .error e =>
    IO.eprintln s!"TKEY exchange failed: {e.message}"
    return 1

end TransactionKey.Main

open TransactionKey in
/-- the program; its arguments are the command line -/
def main (args : List String) : IO UInt32 := do
  match CommandLine.parse args with
  | .ok c => Main.perform c
  | .error .help => IO.print Main.help; return 0
  | .error .version => IO.println "TransactionKey 0.1.0"; return 0
  | .error u =>
    IO.eprintln s!"error: {Main.complaint u}"
    return 2
