import StubDecl.Command.Help

/-!
# Requests

What a call of the program asks for: a command with options and at most one path, or help. The
command is the first word among the arguments. Where it is looked for, only the flags that all
commands share are known; every other flag counts as one that takes the next argument.
-/

namespace StubDecl

/-- What a call asks for. -/
inductive Request where
  | help (topic : Topic)
  /-- Help about what some words name, which is looked up in a project. -/
  | explain (options : Options) (words : List Text)
  | run (command : Command) (options : Options) (path : Option Text)
  deriving DecidableEq, Repr

namespace Request

/-- The plain words among arguments. A flag that takes the next argument ends the search if at most
one argument is left. -/
def wordsAmong (flags : List Flag) : List Text → List Text
  | [] => []
  | a :: args =>
    if a = Flag.terminator then []
    else if Flag.takesNext flags a then
      match args with
      | _ :: b :: rest => wordsAmong flags (b :: rest)
      | _ => []
    else if a.isEmpty || Flag.isDashed a then wordsAmong flags args
    else a :: wordsAmong flags args

/-- The arguments without the first plain word `w`. -/
def withoutWord (flags : List Flag) (w : Text) : List Text → List Text
  | [] => []
  | a :: args =>
    if a = Flag.terminator then a :: args
    else if Flag.takesNext flags a then
      match args with
      | v :: rest => a :: v :: withoutWord flags w rest
      | [] => [a]
    else if a = w then args
    else a :: withoutWord flags w args

/-- The words that may follow a command. -/
def pathOf (c : Command) (words : List Text) : Except Misuse (Option Text) :=
  match c, words with
  | .init, w :: _ => .error (.unexpectedWord w c.word)
  | _, [] => .ok none
  | _, [w] => .ok (some w)
  | _, ws => .error (.tooManyWords 1 ws.length)

/-- What the arguments of a command ask for. -/
def ofCommand (c : Command) (args : List Text) : Except Misuse Request := do
  let r ← Arguments.read c.flags args
  if r.options.help then return .help (.command c)
  return .run c r.options (← pathOf c r.words)

/-- The topic that some words name; no word names the whole program. -/
def topic? (words : List Text) : Option Topic :=
  match wordsAmong Command.sharedFlags words with
  | [] => some .program
  | w :: _ => Topic.all.find? fun t => t.word = w

/-- What the arguments of a call ask for. -/
def parse (args : List Text) : Except Misuse Request :=
  match wordsAmong Command.sharedFlags args with
  | [] => do
    let _ ← Arguments.read Topic.program.flags args
    return .help .program
  | w :: _ =>
    let rest := withoutWord Command.sharedFlags w args
    match Topic.all.find? fun t => t.word = w with
    | some (.command c) => ofCommand c rest
    | some .help => do
      let r ← Arguments.read Topic.help.flags rest
      return if r.options.help then .help .help else .explain r.options r.words
    | some t => do
      let _ ← Arguments.read t.flags rest
      return .help t
    | none => .error (.unknownCommand w (Command.similarTo w))

end Request

end StubDecl
