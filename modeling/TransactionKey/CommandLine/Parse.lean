import TransactionKey.CommandLine

/-!
# Reading the command line

An option takes a value: the rest of its own argument (`--port=53`, `-p53`, `-p=53`) or the whole next
argument, unless that looks like an option itself.  A flag takes none, and short flags may share an
argument.  Nothing may be given twice, and there are no other arguments.

Arguments are read from left to right.  The value of an option that stands in the next argument is
checked only when the argument after it is read, so an unknown argument there is reported first.

* `Parameter`, `Flag`      what can be given;
* `Given`                  what has been given so far;
* `CommandLine.parse`      the command line that arguments spell, or why they spell none.
-/

namespace TransactionKey

/-- why arguments are no command line; asking for help or for the version is such a reason too -/
inductive Usage where
  | missingArgument
  | unknownArgument
  | badValue
  | missingValue
  | surplusValue
  | conflict
  | help
  | version
deriving DecidableEq, Repr

namespace CommandLine

inductive Parameter where
  | server | keyName | algorithm | mode | lifetime | keyHex | keyBase64 | tsigName | tsigAlgorithm
  | tsigSecret | port | timeout | config
deriving DecidableEq, Repr

inductive Flag where
  | json | verbose | help | version
deriving DecidableEq, Repr

inductive Item where
  | parameter (p : Parameter)
  | flag (f : Flag)
deriving DecidableEq, Repr

/-- what a word after two dashes names -/
def Item.ofLong? : String → Option Item
  | "server" => some (.parameter .server)
  | "key-name" => some (.parameter .keyName)
  | "algorithm" => some (.parameter .algorithm)
  | "mode" => some (.parameter .mode)
  | "lifetime" => some (.parameter .lifetime)
  | "key-hex" => some (.parameter .keyHex)
  | "key-base64" => some (.parameter .keyBase64)
  | "tsig-name" => some (.parameter .tsigName)
  | "tsig-algorithm" => some (.parameter .tsigAlgorithm)
  | "tsig-secret" => some (.parameter .tsigSecret)
  | "port" => some (.parameter .port)
  | "timeout-ms" => some (.parameter .timeout)
  | "config" => some (.parameter .config)
  | "json" => some (.flag .json)
  | "verbose" => some (.flag .verbose)
  | "help" => some (.flag .help)
  | "version" => some (.flag .version)
  | _ => none

/-- what a letter after one dash names -/
def Item.ofShort? : Char → Option Item
  | 's' => some (.parameter .server)
  | 'k' => some (.parameter .keyName)
  | 'a' => some (.parameter .algorithm)
  | 'm' => some (.parameter .mode)
  | 'l' => some (.parameter .lifetime)
  | 'p' => some (.parameter .port)
  | 'c' => some (.parameter .config)
  | 'v' => some (.flag .verbose)
  | 'h' => some (.flag .help)
  | 'V' => some (.flag .version)
  | _ => none

structure Given where
  server : Option String := none
  keyName : Option String := none
  algorithm : Option String := none
  mode : Option UInt16 := none
  lifetime : Option UInt32 := none
  keyHex : Option String := none
  keyBase64 : Option String := none
  tsigName : Option String := none
  tsigAlgorithm : Option String := none
  tsigSecret : Option String := none
  port : Option UInt16 := none
  timeout : Option UInt64 := none
  config : Option String := none
  json : Bool := false
  verbose : Bool := false
deriving DecidableEq, Repr

namespace Given

/-! ## giving -/

def once {α : Type} (old : Option α) (value : Except Usage α) : Except Usage (Option α) :=
  match old with
  | some _ => .error .conflict
  | none => value.map some

def valid {α : Type} : Option α → Except Usage α
  | some value => .ok value
  | none => .error .badValue

def path (text : String) : Except Usage String :=
  if text.isEmpty then .error .missingValue else .ok text

def set (g : Given) (p : Parameter) (text : String) : Except Usage Given :=
  match p with
  | .server => return { g with server := ← once g.server (.ok text) }
  | .keyName => return { g with keyName := ← once g.keyName (.ok text) }
  | .algorithm => return { g with algorithm := ← once g.algorithm (.ok text) }
  | .mode => return { g with mode := ← once g.mode (valid (Tkey.Mode.number? text)) }
  | .lifetime =>
    let value := (Text.natural? 4294967295 text).map UInt32.ofNat
    return { g with lifetime := ← once g.lifetime (valid value) }
  | .keyHex => return { g with keyHex := ← once g.keyHex (.ok text) }
  | .keyBase64 => return { g with keyBase64 := ← once g.keyBase64 (.ok text) }
  | .tsigName => return { g with tsigName := ← once g.tsigName (.ok text) }
  | .tsigAlgorithm => return { g with tsigAlgorithm := ← once g.tsigAlgorithm (.ok text) }
  | .tsigSecret => return { g with tsigSecret := ← once g.tsigSecret (.ok text) }
  | .port =>
    let value := (Text.natural? 65535 text).map UInt16.ofNat
    return { g with port := ← once g.port (valid value) }
  | .timeout => return { g with timeout := ← once g.timeout (valid (Text.unsigned64? text)) }
  | .config => return { g with config := ← once g.config (path text) }

def raise (g : Given) : Flag → Except Usage Given
  | .json => if g.json then .error .conflict else .ok { g with json := true }
  | .verbose => if g.verbose then .error .conflict else .ok { g with verbose := true }
  | .help => .error .help
  | .version => .error .version

/-- the last parameter and its value, if they are not checked yet; the value may still be to come -/
abbrev Pending := Option (Parameter × Option String)

/-- gives the pending parameter its value -/
def settle (g : Given) : Pending → Except Usage Given
  | none => .ok g
  | some (_, none) => .error .missingValue
  | some (p, some text) => g.set p text

/-! ## arguments -/

/-- reads an argument of two dashes, a word and perhaps a value after `=` -/
def long (g : Given) (pending : Pending) (text : List Char) : Except Usage (Given × Pending) :=
  let (word, value) := text.span (· != '=')
  match Item.ofLong? (String.ofList word), value with
  | none, _ => .error .unknownArgument
  | some (.parameter p), [] => return (← g.settle pending, some (p, none))
  | some (.parameter p), _ :: value =>
    return (← (← g.settle pending).set p (String.ofList value), none)
  | some (.flag f), [] => return (← (← g.settle pending).raise f, none)
  | some (.flag _), _ :: _ => .error .surplusValue

/-- the value that follows a letter in its argument; `=` may stand before it -/
def attached : List Char → String
  | '=' :: value => String.ofList value
  | value => String.ofList value

/-- reads the letters of an argument of one dash; the letter of a parameter is the last one -/
def short (g : Given) (pending : Pending) : List Char → Except Usage (Given × Pending)
  | [] => .ok (g, pending)
  | c :: cs =>
    match Item.ofShort? c with
    | none => .error .unknownArgument
    | some (.parameter p) =>
      if cs.isEmpty then return (← g.settle pending, some (p, none))
      else return (← (← g.settle pending).set p (attached cs), none)
    | some (.flag f) => do short (← (← g.settle pending).raise f) none cs

/-- reads an argument without dashes, or one dash alone, which can only be a value -/
def value (g : Given) (pending : Pending) (text : String) : Except Usage (Given × Pending) :=
  match pending with
  | some (p, none) => .ok (g, some (p, some text))
  | _ => .error .unknownArgument

/-- reads arguments; two dashes alone end them -/
def scan (g : Given) (pending : Pending) : List String → Except Usage Given
  | [] => g.settle pending
  | arg :: args => do
    match arg.toList with
    | ['-', '-'] => if args.isEmpty then g.settle pending else throw .unknownArgument
    | '-' :: '-' :: text =>
      let (g, pending) ← g.long pending text
      scan g pending args
    | '-' :: c :: cs =>
      let (g, pending) ← g.short pending (c :: cs)
      scan g pending args
    | _ =>
      let (g, pending) ← g.value pending arg
      scan g pending args

/-! ## the whole -/

/-- key data may be given in one form only -/
def consistent (g : Given) : Bool := g.keyHex.isNone || g.keyBase64.isNone

/-- a shared key that is named needs its algorithm and its secret -/
def sufficient (g : Given) : Bool :=
  g.tsigName.isNone || (g.tsigAlgorithm.isSome && g.tsigSecret.isSome)

/-- the command line, if everything needed is given -/
def complete (g : Given) : Except Usage CommandLine :=
  if !g.consistent then .error .conflict
  else
    match g.server, g.keyName, g.sufficient with
    | some server, some keyName, true => .ok {
        server, keyName
        algorithm := g.algorithm.getD "gss-tsig."
        mode := g.mode.getD Tkey.Mode.gss.value
        lifetime := g.lifetime.getD 3600
        keyHex := g.keyHex
        keyBase64 := g.keyBase64
        credentials := ⟨g.tsigName, g.tsigAlgorithm, g.tsigSecret⟩
        port := g.port
        timeout := g.timeout
        config := g.config
        json := g.json
        verbose := g.verbose }
    | _, _, _ => .error .missingArgument

end Given

def parse (args : List String) : Except Usage CommandLine := do
  (← ({} : Given).scan none args).complete

end CommandLine

end TransactionKey
