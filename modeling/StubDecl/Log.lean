import StubDecl.Failure
import StubDecl.Json.Text
import StubDecl.Text.Lower

/-!
# Log lines

An entry has a level, a message and named values. It is written as one JSON object, or for a terminal
with columns divided by tabs and the level in colour. Entries below the level of the log are dropped.
Names and values are given as one list of arguments; those that make no pair of a name and a value are
left out, which an entry of its own complains about. The clock is left to the caller.
-/

namespace StubDecl

/-- Levels of a log, in increasing order. -/
inductive LogLevel where
  | debug
  | info
  | warn
  | error
  | developmentPanic
  | panic
  | fatal
  deriving DecidableEq, Repr

namespace LogLevel

/-- The rank of a level; 0 is the usual one. -/
def rank : LogLevel → Int
  | .debug => -1
  | .info => 0
  | .warn => 1
  | .error => 2
  | .developmentPanic => 3
  | .panic => 4
  | .fatal => 5

/-- The name of a level. -/
def name : LogLevel → Text
  | .debug => "debug"
  | .info => "info"
  | .warn => "warn"
  | .error => "error"
  | .developmentPanic => "dpanic"
  | .panic => "panic"
  | .fatal => "fatal"

/-- All levels. -/
def all : List LogLevel := [.debug, .info, .warn, .error, .developmentPanic, .panic, .fatal]

/-- The level with a name; case does not count, and no name is the usual level. -/
def parse (t : Text) : Outcome LogLevel :=
  let small := t.toSmall
  if small.isEmpty then .ok .info
  else if small = "warning" then .ok .warn
  else match all.find? fun l => l.name = small with
    | some l => .ok l
    | none => .error (Failure.ofMessage ("unrecognized level: " ++ small.quoted))

/-- The number of a level's colour on a terminal. -/
def colour : LogLevel → Nat
  | .debug => 35
  | .info => 34
  | .warn => 33
  | _ => 31

end LogLevel

/-- A value in a log entry. -/
inductive LogValue where
  | null
  | bool (b : Bool)
  | int (n : Int)
  | text (t : Text)
  | list (items : List LogValue)
  | object (fields : List (Text × LogValue))
  deriving Repr, Inhabited

/-- Two arguments of which the first is no name, and where they stand. -/
structure NamelessPair where
  position : Nat
  key : LogValue
  value : LogValue
  deriving Repr

/-- What stands behind a name in an entry: a value, or arguments that have no name. -/
inductive LogContent where
  | value (v : LogValue)
  | nameless (ps : List NamelessPair)
  deriving Repr

/-- An entry of a log. -/
structure LogEntry where
  level : LogLevel
  message : Text
  fields : List (Text × LogContent) := []
  deriving Repr

/-- The arguments of an entry, sorted out: names with values, pairs without a name, and a last
argument without a partner. -/
structure LogArguments where
  fields : List (Text × LogContent) := []
  nameless : List NamelessPair := []
  unpaired : Option LogValue := none

/-- Arguments come in pairs of a name and a value; the first stands at `position`. -/
def LogArguments.ofList (position : Nat) : List LogValue → LogArguments
  | [] => {}
  | [v] => { unpaired := some v }
  | k :: v :: r =>
    let a := ofList (position + 2) r
    match k with
    | .text name => { a with fields := (name, .value v) :: a.fields }
    | k => { a with nameless := ⟨position, k, v⟩ :: a.nameless }

namespace LogEntry

/-- An entry with arguments. In front of it stand complaints about arguments that are left out. -/
def ofArguments (level : LogLevel) (message : Text) (arguments : List LogValue) : List LogEntry :=
  let a := LogArguments.ofList 0 arguments
  let complaint := fun (message name : Text) (c : LogContent) =>
    ({ level := .error, message := message, fields := [(name, c)] } : LogEntry)
  a.unpaired.toList.map (fun v => complaint "Ignored key without a value." "ignored" (.value v)) ++
    (if a.nameless.isEmpty then []
      else [complaint "Ignored key-value pairs with non-string keys." "invalid" (.nameless a.nameless)]) ++
    [{ level := level, message := message, fields := a.fields }]

end LogEntry

namespace Log

/-- A piece of a text inside a string: quotes, backslashes and control characters are escaped, and a
stray byte becomes U+FFFD. -/
def escape : Text.Unit → Text
  | .stray _ => "\\ufffd"
  | .char c bytes =>
    let n := c.toNat
    if n = 0x22 || n = 0x5c then 0x5c :: bytes
    else if n = 0x0a then "\\n"
    else if n = 0x0d then "\\r"
    else if n = 0x09 then "\\t"
    else if n < 0x20 then "\\u" ++ Text.hexOfNat 4 n
    else bytes

/-- A text as a string. -/
def string (t : Text) : Text := 0x22 :: t.units.flatMap escape ++ [0x22]

mutual

/-- A value inside another one in JSON. -/
def inner : LogValue → Text
  | .null => "null"
  | .bool b => if b then "true" else "false"
  | .int n => Text.ofInt n
  | .text t => Json.plainString t
  | .list items => "[" ++ Text.joinWith "," (innerItems items) ++ "]"
  | .object fields => "\x7b" ++ Text.joinWith "," (innerFields fields) ++ "\x7d"

/-- The items of a list in JSON. -/
def innerItems : List LogValue → List Text
  | [] => []
  | v :: vs => inner v :: innerItems vs

/-- The fields of an object in JSON. -/
def innerFields : List (Text × LogValue) → List Text
  | [] => []
  | (k, v) :: fs => (Json.plainString k ++ ":" ++ inner v) :: innerFields fs

end

/-- A value in JSON. -/
def value : LogValue → Text
  | .text t => string t
  | v => inner v

/-- An object in JSON, with `gap` behind colons and commas. -/
def object (gap : Text) (fields : List (Text × Text)) : Text :=
  "\x7b" ++ Text.joinWith ("," ++ gap) (fields.map fun (k, v) => string k ++ ":" ++ gap ++ v) ++ "\x7d"

/-- What stands behind a name in JSON. -/
def content (gap : Text) : LogContent → Text
  | .value v => value v
  | .nameless ps =>
    let pair := fun (p : NamelessPair) =>
      object gap [("position", Text.ofNat p.position), ("key", value p.key), ("value", value p.value)]
    "[" ++ Text.joinWith ("," ++ gap) (ps.map pair) ++ "]"

/-- An entry as a JSON object, without the clock. -/
def jsonLine (e : LogEntry) : Text :=
  object [] (("level", string e.level.name) :: ("msg", string e.message) ::
    e.fields.map fun (k, c) => (k, content [] c))

/-- An entry for a terminal; `clock` is the first column. -/
def consoleLine (clock : Text) (e : LogEntry) : Text :=
  let level := "\x1b[" ++ Text.ofNat e.level.colour ++ "m" ++ e.level.name.map Ascii.toUpper ++ "\x1b[0m"
  Text.joinWith "\t" ([clock, level, e.message] ++
    (if e.fields.isEmpty then [] else [object " " (e.fields.map fun (k, c) => (k, content " " c))]))

/-- The entries that are not below the level of a log. -/
def kept (level : LogLevel) (entries : List LogEntry) : List LogEntry :=
  entries.filter fun e => level.rank ≤ e.level.rank

/-- A call of the log: a level, a message and arguments. -/
structure Call where
  level : LogLevel
  message : Text
  arguments : List LogValue := []

/-- The lines of the calls that are not below the level of the log. A line end in a message starts a
new line. -/
def lines (level : LogLevel) (json : Bool) (clock : Text) (calls : List Call) : List Text :=
  let heard := calls.filter fun c => level.rank ≤ c.level.rank
  let entries := heard.flatMap fun c => LogEntry.ofArguments c.level c.message c.arguments
  (kept level entries).flatMap fun e =>
    (if json then jsonLine e else consoleLine clock e).splitOn 0x0a

end Log

end StubDecl
