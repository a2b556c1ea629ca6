import StubDecl.Command.Basic

/-!
# Help

What is printed about the program and its commands: what they do, how they are called, and their
flags in a table.

* `Topic.usage`: how something is called;
* `Topic.text`: that, with what it does in front.
-/

namespace StubDecl

/-- What there is help about. -/
inductive Topic where
  | program
  | command (c : Command)
  | help
  | completion
  deriving DecidableEq, Repr

/-- Blanks behind a text, up to a number of characters. -/
def Text.padRight (t : Text) (width : Nat) : Text := t ++ Text.blanks (width - t.units.length)

/-- The flag with its letter and the word for its value. -/
def Flag.synopsis (f : Flag) : Text :=
  let letter : Text := match f.letter with
    | some l => [0x2d, l] ++ ", "
    | none => "    "
  "  " ++ letter ++ "--" ++ f.name ++ (if f.valueWord.isEmpty then [] else 0x20 :: f.valueWord)

/-- Flags with what they are for, one a line in the order of their names, in two columns. -/
def Flag.table (flags : List Flag) : Text :=
  let sorted := flags.mergeSort fun f g => Text.le f.name g.name
  let width := (sorted.map fun f => f.synopsis.length).foldl max 0
  sorted.flatMap fun f => f.synopsis.padRight (width + 3) ++ f.purpose ++ "\n"

/-- Words with what they are for, one a line, in two columns. -/
def wordTable (entries : List (Text × Text)) : Text :=
  entries.flatMap fun (w, purpose) => "  " ++ w.padRight 11 ++ " " ++ purpose ++ "\n"

namespace Topic

/-- The topics with a word of their own, in the order in which they are listed. -/
def all : List Topic :=
  [.command .check, .completion, .command .convert, .help, .command .init, .command .watch]

/-- The word for a topic. -/
def word : Topic → Text
  | .program => Misuse.program
  | .command c => c.word
  | .help => "help"
  | .completion => "completion"

/-- What something does, in a few words. -/
def purpose : Topic → Text
  | .program => "Stub converter - Turn documented JavaScript API stubs into TypeScript declarations"
  | .command c => c.purpose
  | .help => "Help about any command"
  | .completion => "Generate the autocompletion script for the specified shell"

/-- What something does. -/
def description : Topic → Text
  | .program =>
    "stubconv reads JavaScript stub files that describe a scripting API\n" ++
    "(one class per file, JSDoc-typed methods) and writes a single TypeScript\n" ++
    "declaration file with one \"declare class\" block per stub file.\n\n" ++
    "Example usage:\n" ++
    "  stubconv init                  # Write a default stubconv.yaml\n" ++
    "  stubconv convert ./stubs       # Convert every stub file below ./stubs\n" ++
    "  stubconv check ./stubs         # Validate stub files without writing output\n" ++
    "  stubconv watch ./stubs         # Re-convert whenever a stub file changes"
  | .command c => c.description
  | .help =>
    "Help provides help for any command in the application.\n" ++
    "Simply type stubconv help [path to command] for full details."
  | .completion =>
    "Generate the autocompletion script for stubconv for the specified shell.\n" ++
    "See each sub-command's help for details on how to use the generated script."

/-- How something is called, on one line. -/
def callLine : Topic → Text
  | .program => "stubconv [command]"
  | .command c =>
    "stubconv " ++ c.word ++ (if c.takesPath then (" [path]" : Text) else []) ++ " [flags]"
  | .help => "stubconv help [command] [flags]"
  | .completion => "stubconv completion [command]"

/-- The words that may follow, with what they are for. -/
def subcommands : Topic → List (Text × Text)
  | .program => all.map fun t => (t.word, t.purpose)
  | .completion =>
    ["bash", "fish", "powershell", "zsh"].map fun shell =>
      (Text.ofString shell, "Generate the autocompletion script for " ++ Text.ofString shell)
  | _ => []

/-- The flags that only this topic has. -/
def ownFlags : Topic → List Flag
  | .command c => c.ownFlags ++ [Command.helpFlag c.word]
  | t => [Command.helpFlag t.word]

/-- All flags. -/
def flags (t : Topic) : List Flag := t.ownFlags ++ Command.sharedFlags

/-- How something is called. The flags of the whole program are listed apart from others. -/
def usage (t : Topic) : Text :=
  let commands : Text :=
    if t.subcommands.isEmpty then [] else "\nAvailable Commands:\n" ++ wordTable t.subcommands
  let flags : Text :=
    if t = .program then "\nFlags:\n" ++ Flag.table t.flags
    else "\nFlags:\n" ++ Flag.table t.ownFlags ++ "\nGlobal Flags:\n" ++ Flag.table Command.sharedFlags
  let path : Text := if t = .program then "stubconv" else "stubconv " ++ t.word
  let more : Text :=
    if t.subcommands.isEmpty then []
    else "\nUse \"" ++ path ++ " [command] --help\" for more information about a command.\n"
  "Usage:\n  " ++ t.callLine ++ "\n" ++ commands ++ flags ++ more

/-- What something does and how it is called. -/
def text (t : Topic) : Text := t.description ++ "\n\n" ++ t.usage

/-- Whether a text can stand between backquotes as it is. -/
def allowsBackquotes (t : Text) : Bool :=
  t.isUtf8 && t.chars.all fun c =>
    (0x20 ≤ c.toNat || c = '\t') && c.toNat ≠ 0x60 && c.toNat ≠ 0x7f && c.toNat ≠ 0xfeff

/-- What is said about words that name no topic. -/
def unknown (words : List Text) : Text :=
  let shown := words.map fun w => if allowsBackquotes w then (0x60 :: w ++ [0x60] : Text) else w.quoted
  "Unknown help topic [" ++ Text.joinWith " " shown ++ "]\n" ++ usage .program

end Topic

end StubDecl
