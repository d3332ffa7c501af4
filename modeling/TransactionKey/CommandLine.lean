import TransactionKey.Base64
import TransactionKey.Request
import TransactionKey.Settings.File

/-!
# The command line

What the command line asks for: `CommandLine.request` is the request for a key and
`CommandLine.settings` are the settings under which it is sent.
-/

namespace TransactionKey

structure CommandLine where
  server : String
  keyName : String
  algorithm : String := "gss-tsig."
  mode : UInt16 := Tkey.Mode.gss.value
  lifetime : UInt32 := 3600
  keyHex : Option String := none
  keyBase64 : Option String := none
  credentials : Credentials := {}
  port : Option UInt16 := none
  timeout : Option UInt64 := none
  config : Option String := none
  json : Bool := false
  verbose : Bool := false
deriving DecidableEq, Repr

/-- why the key data of a command line does not decode -/
inductive KeyDataError where
  | hex (fault : Hex.Fault)
  | base64 (fault : Base64.Fault)
deriving DecidableEq, Repr

def KeyDataError.message : KeyDataError → String
  | .hex fault => fault.message
  | .base64 fault => fault.message

namespace CommandLine

/-- the key data, which may stand between blanks; hexadecimal text goes before base64 -/
def keyMaterial (c : CommandLine) : Except KeyDataError Bytes :=
  match c.keyHex, c.keyBase64 with
  | some text, _ => (Hex.decode (Text.trim text)).mapError .hex
  | none, some text => (Base64.decode (Text.trim text)).mapError .base64
  | none, none => .ok []

def request (c : CommandLine) : Except KeyDataError Request := do
  let keyMaterial ← c.keyMaterial
  return {
    host := c.server
    keyName := c.keyName
    algorithm := c.algorithm
    mode := c.mode
    lifetime := c.lifetime
    keyMaterial
    credentials := c.credentials }

/-- the settings that the flags supply; one time serves for connecting and for reading -/
def flags (c : CommandLine) : Layer where
  port := c.port
  connectTimeout := c.timeout
  readTimeout := c.timeout

/-- the settings that the named file supplies, if one is named; `read` gives the text of a file and
`decode` the settings in a text -/
def fileLayer (c : CommandLine) (decode : String → Except SettingsError Layer)
    (read : String → Except String String) : Except SettingsError Layer :=
  match c.config with
  | none => .ok {}
  | some path =>
    match read path with
    | .error reason => .error (.unreadable path reason)
    | .ok text => decode text

/-- the settings, given how files are decoded, the texts of files and the environment variables -/
def settingsBy (c : CommandLine) (decode : String → Except SettingsError Layer)
    (read : String → Except String String) (value? : String → Option String) :
    Except SettingsError Settings := do
  Settings.ofLayers (← c.fileLayer decode read) value? c.flags

/-- the settings, given the texts of files and the environment variables -/
def settings (c : CommandLine) (read : String → Except String String)
    (value? : String → Option String) : Except SettingsError Settings :=
  c.settingsBy Layer.ofFile read value?

end CommandLine

end TransactionKey
