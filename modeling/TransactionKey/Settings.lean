import TransactionKey.Text.Blank
import TransactionKey.Text.Numeral

/-!
# Settings

How a server is contacted.  A `Layer` supplies some of the settings, and a higher layer overrides a
lower one; no layer may leave a setting at zero.

* `Settings.check`       settings without a zero, or which kind of setting is zero;
* `Settings.overlay`     settings with a layer on top, checked;
* `Layer.ofVariables`    the layer of the environment variables;
* `Settings.ofLayers`    the defaults under a file, the environment and the command line.
-/

namespace TransactionKey

/-- how a server is contacted; times are in milliseconds and sizes in bytes -/
structure Settings where
  port : UInt16 := 53
  connectTimeout : UInt64 := 2000
  readTimeout : UInt64 := 2000
  maxReply : UInt64 := 65535
deriving DecidableEq, Repr

inductive SettingsError where
  | zeroPort
  | zeroTimeout
  | zeroSize
  | badPort (text : String)
  | badTimeout (text : String)
  | unreadable (path reason : String)
  | malformed
deriving DecidableEq, Repr

def SettingsError.message : SettingsError → String
  | .zeroPort => "Invalid port: Port must be greater than 0"
  | .zeroTimeout => "Invalid timeout: Timeout must be greater than 0"
  | .zeroSize => "Parse error: Max response size must be greater than 0"
  | .badPort text => s!"Invalid port: {text}"
  | .badTimeout text => s!"Invalid timeout: {text}"
  | .unreadable path reason => s!"Failed to read config file {path}: {reason}"
  | .malformed => "Parse error: not a table of known settings"

structure Layer where
  port : Option UInt16 := none
  connectTimeout : Option UInt64 := none
  readTimeout : Option UInt64 := none
  maxReply : Option UInt64 := none
deriving DecidableEq, Repr

namespace Settings

/-- the settings themselves, if none is zero -/
def check (s : Settings) : Except SettingsError Settings :=
  if s.port = 0 then .error .zeroPort
  else if s.connectTimeout = 0 ∨ s.readTimeout = 0 then .error .zeroTimeout
  else if s.maxReply = 0 then .error .zeroSize
  else .ok s

/-- settings with those of a layer put in their place -/
def under (s : Settings) (l : Layer) : Settings where
  port := l.port.getD s.port
  connectTimeout := l.connectTimeout.getD s.connectTimeout
  readTimeout := l.readTimeout.getD s.readTimeout
  maxReply := l.maxReply.getD s.maxReply

/-- checked settings with a layer on top -/
def overlay (s : Settings) (l : Layer) : Except SettingsError Settings := (s.under l).check

end Settings

namespace Layer

def portOf (text : String) : Except SettingsError UInt16 :=
  match Text.unsigned16? text with
  | some port => .ok port
  | none => .error (.badPort text)

/-- a time that a variable gives, perhaps between blanks -/
def timeOf (text : String) : Except SettingsError UInt64 :=
  match Text.unsigned64? (Text.trim text) with
  | some time => .ok time
  | none => .error (.badTimeout text)

def optional {α : Type} (read : String → Except SettingsError α) :
    Option String → Except SettingsError (Option α)
  | none => .ok none
  | some text => (read text).map some

/-- the layer of the environment variables -/
def ofVariables (value? : String → Option String) : Except SettingsError Layer := do
  let port ← optional portOf (value? "TKEY_PORT")
  let connectTimeout ← optional timeOf (value? "TKEY_CONNECT_TIMEOUT_MS")
  let readTimeout ← optional timeOf (value? "TKEY_READ_TIMEOUT_MS")
  return { port, connectTimeout, readTimeout }

end Layer

/-- the defaults under the layers of a file, of the environment and of the command line; each layer is
checked before the next one covers it -/
def Settings.ofLayers (file : Layer) (value? : String → Option String) (flags : Layer) :
    Except SettingsError Settings := do
  let s ← ({} : Settings).overlay file
  let s ← s.overlay (← Layer.ofVariables value?)
  s.overlay flags

end TransactionKey
