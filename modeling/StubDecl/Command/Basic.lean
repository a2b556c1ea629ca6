import StubDecl.Command.Flag
import StubDecl.Text.Distance
import StubDecl.Text.Lower

/-!
# Commands

The commands of the program, with the flags they take and what is said about them.
-/

namespace StubDecl

/-- The commands. -/
inductive Command where
  /-- Converts in memory and reports what a conversion would come to. -/
  | check
  | convert
  /-- Writes the default settings. -/
  | init
  /-- Converts again whenever a file changes. -/
  | watch
  deriving DecidableEq, Repr

namespace Command

/-- The commands in the order in which they are listed. -/
def all : List Command := [.check, .convert, .init, .watch]

/-- The word for a command. -/
def word : Command → Text
  | .check => "check"
  | .convert => "convert"
  | .init => "init"
  | .watch => "watch"

/-- What a command does, in a few words. -/
def purpose : Command → Text
  | .check => "Validate stub files without writing output"
  | .convert => "Convert stub files into a declaration file"
  | .init => "Write a default stubconv.yaml"
  | .watch => "Re-convert stub files whenever they change"

/-- What a command does. -/
def description : Command → Text
  | .check =>
    "Run the full conversion over the stub files in memory and report the\n" ++
    "first malformed file with its line number. Nothing is written and the block\n" ++
    "cache is not touched.\n\n" ++
    "Examples:\n" ++
    "  stubconv check ./stubs          # Validate all stubs\n" ++
    "  stubconv check ./stubs --list   # Also list what each file declares"
  | .convert =>
    "Convert every stub file in the specified directory into one TypeScript\n" ++
    "declaration file. Files are processed in path order and the first malformed\n" ++
    "file aborts the run; declarations of earlier files stay in the output.\n\n" ++
    "Rendered blocks are cached in .stubconv/cache.db and reused while a file is\n" ++
    "unchanged.\n\n" ++
    "Examples:\n" ++
    "  stubconv convert .                      # Convert stubs in current directory\n" ++
    "  stubconv convert ./stubs -o api.d.ts    # Write to a specific file\n" ++
    "  stubconv convert ./stubs --no-cache     # Re-render every file"
  | .init =>
    "Write the default configuration to stubconv.yaml in the project directory.\n" ++
    "An existing file is kept unless --force is given."
  | .watch =>
    "Convert the stub files once, then watch the directory and rewrite the\n" ++
    "declaration file after every change. A malformed file is reported and the\n" ++
    "watcher keeps running; the output then holds the declarations written before\n" ++
    "the failing file.\n\n" ++
    "Examples:\n" ++
    "  stubconv watch ./stubs\n" ++
    "  stubconv watch ./stubs -o types/api.d.ts"

/-- Whether a command takes a path. -/
def takesPath : Command → Bool
  | .init => false
  | _ => true

/-- The flags that all commands share. -/
def sharedFlags : List Flag :=
  [Flag.ofText "config" none "config file (default is ./stubconv.yaml)" fun o v => { o with config := v },
    Flag.ofText "dir" (some 0x64) "project directory (default is current directory)" fun o v =>
      { o with dir := v }]

/-- The flag that asks for help about a command. -/
def helpFlag (about : Text) : Flag :=
  Flag.ofSwitch "help" (some 0x68) ("help for " ++ about) fun o v => { o with help := v }

/-- The flag for the output file. -/
def outputFlag : Flag :=
  Flag.ofText "output" (some 0x6f) "output file (default from config)" fun o v => { o with output := v }

/-- The flags of a command besides those that all share. -/
def ownFlags : Command → List Flag
  | .check => [Flag.ofSwitch "list" none "list the class declared by each file" fun o v => { o with list := v }]
  | .convert =>
    [outputFlag,
      Flag.ofSwitch "no-cache" none "ignore and do not update the block cache" fun o v => { o with noCache := v },
      Flag.ofSwitch "no-progress" none "disable the progress bar" fun o v => { o with noProgress := v }]
  | .init => [Flag.ofSwitch "force" none "overwrite an existing config file" fun o v => { o with force := v }]
  | .watch =>
    [outputFlag,
      Flag.ofDuration "debounce" "quiet period before re-converting (default 200ms)" fun o v =>
        { o with debounce := v }]

/-- All flags of a command. -/
def flags (c : Command) : List Flag := c.ownFlags ++ sharedFlags ++ [helpFlag c.word]

/-- The words that are suggested for a similar one: those at most two edits away, and those that start
with it, whatever the case. -/
def similarTo (w : Text) : List Text :=
  let typed := w.toSmall
  (all.map word ++ [Text.ofString "completion"]).filter fun c => typed.distance c ≤ 2 || c.startsWith typed

end Command

end StubDecl
