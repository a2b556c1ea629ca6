import StubDecl.Duration
import StubDecl.Text.Quoted

/-!
# Flags

The arguments of a command are flags and plain words in any order. A flag has a long name after two
dashes, and some have a letter after one dash too. Switches take a value only behind an equals sign;
other flags take one there or from the next argument.

* `Flag.takesNext`: whether an argument takes the next one, by its form;
* `Arguments.read`: the values of the flags and the plain words, or what is wrong with the first
  argument that cannot be read.
-/

namespace StubDecl

/-- All that flags can set. -/
structure Options where
  config : Text := []
  dir : Text := []
  output : Text := []
  noCache : Bool := false
  noProgress : Bool := false
  list : Bool := false
  force : Bool := false
  debounce : Duration := 200000000
  help : Bool := false
  deriving DecidableEq, Repr

/-- A flag: its long name, its letter, whether it is a switch, what it is for, the word for its
value, and what a value does; a value that cannot be read gives a reason. -/
structure Flag where
  name : Text
  letter : Option UInt8 := none
  isSwitch : Bool := false
  purpose : Text := []
  valueWord : Text := []
  set : Options → Text → Except Text Options

/-- Ways to call the program that it does not understand. -/
inductive Misuse where
  | malformedFlag (argument : Text)
  | unknownFlag (name : Text)
  /-- A letter that is no flag, with the letters that start with it. -/
  | unknownLetter (letter : UInt8) (letters : Text)
  | missingValue (argument : Text)
  | missingLetterValue (letter : UInt8) (letters : Text)
  /-- A value that cannot be read, the flag as it is shown, and the reason. -/
  | invalidValue (value flag reason : Text)
  /-- A word that is no command, with the commands that are similar. -/
  | unknownCommand (word : Text) (similar : List Text)
  /-- A word behind a command that takes none. -/
  | unexpectedWord (word command : Text)
  | tooManyWords (most given : Nat)
  deriving DecidableEq, Repr

namespace Misuse

/-- The name that the program is called by. -/
def program : Text := "stubconv"

/-- The commands that may be meant, one a line. -/
def suggestion (similar : List Text) : Text :=
  let line := fun (c : Text) => (0x09 :: (c ++ [0x0a]) : Text)
  let lines : Text := similar.flatMap line
  if similar.isEmpty then [] else "\n\nDid you mean this?\n" ++ lines

/-- What is said about a misuse. -/
def message : Misuse → Text
  | .malformedFlag a => "bad flag syntax: " ++ a
  | .unknownFlag n => "unknown flag: --" ++ n
  | .unknownLetter l ls =>
    "unknown shorthand flag: " ++ Text.quotedChar (Char.ofNat l.toNat) ++ " in -" ++ ls
  | .missingValue a => "flag needs an argument: " ++ a
  | .missingLetterValue l ls =>
    "flag needs an argument: " ++ Text.quotedChar (Char.ofNat l.toNat) ++ " in -" ++ ls
  | .invalidValue v f r => "invalid argument " ++ v.quoted ++ " for " ++ f.quoted ++ " flag: " ++ r
  | .unknownCommand w similar =>
    "unknown command " ++ w.quoted ++ " for " ++ program.quoted ++ suggestion similar
  | .unexpectedWord w c =>
    "unknown command " ++ w.quoted ++ " for " ++ (program ++ " " ++ c).quoted
  | .tooManyWords most given =>
    "accepts at most " ++ Text.ofNat most ++ " arg(s), received " ++ Text.ofNat given

end Misuse

namespace Flag

/-- The words for true and false. -/
def truths : List (Text × Bool) :=
  [("1", true), ("t", true), ("T", true), ("true", true), ("TRUE", true), ("True", true),
    ("0", false), ("f", false), ("F", false), ("false", false), ("FALSE", false), ("False", false)]

/-- Reads the value of a switch. -/
def readTruth (v : Text) : Except Text Bool :=
  match (truths.find? fun e => e.1 = v).map (·.2) with
  | some b => .ok b
  | none => .error ("strconv.ParseBool: parsing " ++ v.quoted ++ ": invalid syntax")

/-- A flag that holds a text. -/
def ofText (name : Text) (letter : Option UInt8) (purpose : Text) (put : Options → Text → Options) : Flag :=
  { name := name, letter := letter, purpose := purpose, valueWord := "string"
    set := fun o v => .ok (put o v) }

/-- A flag that is a switch. -/
def ofSwitch (name : Text) (letter : Option UInt8) (purpose : Text) (put : Options → Bool → Options) : Flag :=
  { name := name, letter := letter, isSwitch := true, purpose := purpose
    set := fun o v => (readTruth v).map (put o) }

/-- A flag that holds a duration. -/
def ofDuration (name : Text) (purpose : Text) (put : Options → Duration → Options) : Flag :=
  { name := name, purpose := purpose, valueWord := "duration"
    set := fun o v => ((Duration.parse v).mapError (Duration.Fault.message v)).map (put o) }

/-- The flag as it is shown: the letter, if there is one, and the name. -/
def shown (f : Flag) : Text :=
  match f.letter with
  | some l => [0x2d, l] ++ ", --" ++ f.name
  | none => "--" ++ f.name

/-- The options after a flag is given a value. -/
def apply (f : Flag) (o : Options) (v : Text) : Except Misuse Options :=
  (f.set o v).mapError fun reason => .invalidValue v f.shown reason

/-- The value of a flag that is given none. -/
def bare? (f : Flag) : Option Text := if f.isSwitch then some "true" else none

/-- Whether an argument starts with a dash. -/
def isDashed (a : Text) : Bool := a.head? = some 0x2d

/-- The argument after which nothing is a flag. -/
def terminator : Text := "--"

/-- Whether an argument takes the next one as its value. What is not known takes one too. -/
def takesNext (flags : List Flag) (a : Text) : Bool :=
  !a.contains 0x3d &&
    match a with
    | 0x2d :: 0x2d :: name => !(flags.any fun f => f.name = name && f.isSwitch)
    | [0x2d, l] => !(flags.any fun f => f.letter = some l && f.isSwitch)
    | _ => false

end Flag

/-- Options and plain words. -/
structure Arguments where
  options : Options := {}
  words : List Text := []
  deriving DecidableEq, Repr

namespace Arguments

/-- Reads the argument made of two dashes and `body`. The flag says whether the next argument has been
used up. -/
def readLong (flags : List Flag) (o : Options) (body : Text) (next : Option Text) :
    Except Misuse (Options × Bool) :=
  let name := body.takeWhile (· ≠ 0x3d)
  let value := body.drop name.length
  if name.isEmpty || Flag.isDashed name then .error (.malformedFlag ("--" ++ body))
  else match flags.find? fun f => f.name = name with
    | none => .error (.unknownFlag name)
    | some f =>
      match value, f.bare?, next with
      | _ :: v, _, _ => (f.apply o v).map (·, false)
      | [], some v, _ => (f.apply o v).map (·, false)
      | [], none, some v => (f.apply o v).map (·, true)
      | [], none, none => .error (.missingValue ("--" ++ body))

/-- Reads the letters behind a dash. Letters that start with `test.` mean nothing. -/
def readLetters (flags : List Flag) (o : Options) (next : Option Text) :
    Text → Except Misuse (Options × Bool)
  | [] => .ok (o, false)
  | l :: rest =>
    if Text.startsWith (l :: rest) "test." then .ok (o, false)
    else match flags.find? fun f => f.letter = some l with
      | none => .error (.unknownLetter l (l :: rest))
      | some f =>
        match rest, f.bare?, next with
        | 0x3d :: b :: v, _, _ => (f.apply o (b :: v)).map (·, false)
        | rest, some v, _ => do readLetters flags (← f.apply o v) next rest
        | b :: v, none, _ => (f.apply o (b :: v)).map (·, false)
        | [], none, some v => (f.apply o v).map (·, true)
        | [], none, none => .error (.missingLetterValue l (l :: rest))

theorem length_drop_le (args : List Text) (n : Nat) : (args.drop n).length ≤ args.length := by
  rw [List.length_drop]
  exact Nat.sub_le _ _

/-- Reads arguments from left to right. -/
def readFrom (flags : List Flag) (r : Arguments) : List Text → Except Misuse Arguments
  | [] => .ok r
  | a :: args =>
    match a with
    | 0x2d :: 0x2d :: [] => .ok { r with words := r.words ++ args }
    | 0x2d :: 0x2d :: body =>
      match readLong flags r.options body args.head? with
      | .error m => .error m
      | .ok (o, used) => readFrom flags { r with options := o } (args.drop used.toNat)
    | 0x2d :: l :: letters =>
      match readLetters flags r.options args.head? (l :: letters) with
      | .error m => .error m
      | .ok (o, used) => readFrom flags { r with options := o } (args.drop used.toNat)
    | word => readFrom flags { r with words := r.words ++ [word] } args
termination_by args => args.length
decreasing_by
  · exact Nat.lt_succ_of_le (length_drop_le _ _)
  · exact Nat.lt_succ_of_le (length_drop_le _ _)
  · exact Nat.lt_succ_self _

/-- Reads arguments. -/
def read (flags : List Flag) (args : List Text) : Except Misuse Arguments := readFrom flags {} args

end Arguments

end StubDecl
