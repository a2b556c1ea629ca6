import StubDecl.Text.Quoted
import StubDecl.Yaml.Problem

/-!
# Failures

What can go wrong, as causes. A `Failure` is a cause together with what was wrapped around it on
the way: contexts that precede the message, hints and details for the reader.
-/

namespace StubDecl

/-- The ways in which a stub file can violate its dialect. -/
inductive DefectKind where
  | unrecognizedLine
  | duplicateClass
  | unterminatedBlock
  | missingClass
  | orphanDoc
  | extendsBeforeClass
  /-- Something else, described by a text. -/
  | other (description : Text)
  deriving DecidableEq, Repr

/-- A description of a kind of defect. -/
def DefectKind.description : DefectKind → Text
  | .unrecognizedLine => "unexpected file format"
  | .duplicateClass => "duplicate class declaration"
  | .unterminatedBlock => "unterminated block"
  | .missingClass => "missing class declaration"
  | .orphanDoc => "doc block without declaration"
  | .extendsBeforeClass => "extension statement before class declaration"
  | .other d => d

/-- A defect of a stub file: where it is and the text it is about. Line 0 means no single line. -/
structure Defect where
  kind : DefectKind
  file : Text
  line : Int
  text : Text
  deriving DecidableEq, Repr

/-- The line number is shown only if it is positive, and the text only if there is one. -/
def Defect.message (d : Defect) : Text :=
  let place := if 0 < d.line then d.file ++ ":" ++ Text.ofInt d.line else d.file
  let head := d.kind.description ++ ": " ++ place
  if d.text.isEmpty then head else head ++ ": " ++ d.text.quoted

/-- Why a file operation was refused. -/
inductive PathFault where
  | missing
  | isDirectory
  | notDirectory
  | tooManyLinks
  | alreadyExists
  deriving DecidableEq, Repr

/-- A description of a refused file operation. -/
def PathFault.description : PathFault → Text
  | .missing => "no such file or directory"
  | .isDirectory => "is a directory"
  | .notDirectory => "not a directory"
  | .tooManyLinks => "too many levels of symbolic links"
  | .alreadyExists => "file exists"

/-- A refused file operation: what was tried, on which path, and why it failed. -/
structure PathError where
  operation : Text
  path : Text
  fault : PathFault
  deriving DecidableEq, Repr

/-- The operation, the path and the reason. -/
def PathError.message (e : PathError) : Text :=
  e.operation ++ " " ++ e.path ++ ": " ++ e.fault.description

/-- Root causes of failures. -/
inductive Cause where
  | defect (d : Defect)
  /-- Violated field constraints of the settings, one message each. -/
  | invalidSettings (messages : List Text)
  /-- Values of the wrong type in a YAML document, one message each. -/
  | mistyped (messages : List Text)
  | malformedYaml (fault : Yaml.Fault)
  | damagedRecord
  | path (e : PathError)
  | canceled
  | deadlineExceeded
  | other (message : Text)
  deriving DecidableEq, Repr

/-- What a cause says by itself. -/
def Cause.message : Cause → Text
  | .defect d => d.message
  | .invalidSettings ms => Text.joinWith "\n" ms
  | .mistyped ms => "yaml: unmarshal errors:\n  " ++ Text.joinWith "\n  " ms
  | .malformedYaml f => f.message
  | .damagedRecord => "damaged record"
  | .path e => e.message
  | .canceled => "context canceled"
  | .deadlineExceeded => "context deadline exceeded"
  | .other m => m

/-- A failure: a cause with the contexts around it (the outermost first), hints and details. -/
structure Failure where
  cause : Cause
  contexts : List Text := []
  hints : List Text := []
  details : List Text := []
  deriving DecidableEq, Repr

namespace Failure

instance : Coe Cause Failure := ⟨fun c => ⟨c, [], [], []⟩⟩

/-- A failure that is only a message. -/
def ofMessage (m : Text) : Failure := Cause.other m

/-- The failure with one more context in front. An empty context adds nothing. -/
def within (context : Text) (f : Failure) : Failure :=
  if context.isEmpty then f else { f with contexts := context :: f.contexts }

/-- The failure with a hint for the reader. -/
def withHint (hint : Text) (f : Failure) : Failure := { f with hints := f.hints ++ [hint] }

/-- The failure with a detail for the reader. -/
def withDetail (detail : Text) (f : Failure) : Failure :=
  { f with details := f.details ++ [detail] }

/-- The contexts and the cause, divided by colons. -/
def message (f : Failure) : Text :=
  f.contexts.foldr (fun c m => c ++ ": " ++ m) f.cause.message

/-- The defect of a stub file that a failure is about. -/
def defect? (f : Failure) : Option Defect :=
  match f.cause with
  | .defect d => some d
  | _ => none

/-- The hints of a failure without empty ones and repeats. -/
def hintTexts (f : Failure) : List Text :=
  (f.hints.filter fun h => !h.isEmpty).foldl (fun hs h => if hs.contains h then hs else hs ++ [h]) []

/-- All hints as one text. -/
def hint (f : Failure) : Text := Text.joinWith "\n--\n" f.hintTexts

/-- The details of a failure without empty ones. -/
def detailTexts (f : Failure) : List Text := f.details.filter fun d => !d.isEmpty

end Failure

/-- What may fail. -/
abbrev Outcome := Except Failure

namespace Outcome

variable {ε α β : Type} {x : Except ε α}

/-- A sequence of steps succeeds if the first one does and the others do after it. -/
theorem bind_eq_ok {f : α → Except ε β} {b : β} (h : x >>= f = .ok b) : ∃ a, x = .ok a ∧ f a = .ok b := by
  cases x with
  | error e => cases h
  | ok a => exact ⟨a, rfl, h⟩

theorem map_eq_ok {f : α → β} {b : β} (h : x.map f = .ok b) : ∃ a, x = .ok a ∧ f a = b := by
  cases x with
  | error e => cases h
  | ok a => exact ⟨a, rfl, Except.ok.inj h⟩

theorem mapError_eq_ok {ε' : Type} {f : ε → ε'} {a : α} (h : x.mapError f = .ok a) : x = .ok a := by
  cases x with
  | error e => cases h
  | ok a => exact congrArg Except.ok (Except.ok.inj h)

end Outcome

end StubDecl
