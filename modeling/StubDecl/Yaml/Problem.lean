import StubDecl.Text.Basic

/-!
# What can be wrong with a YAML document

The problems that reading a document can meet, with their wording, and faults: a problem together
with the line it is reported for.
-/

namespace StubDecl.Yaml

/-- A place in a stream: the number of characters before it, its line and its column, all counted
from 0. -/
structure Mark where
  index : Nat := 0
  line : Nat := 0
  column : Nat := 0
  deriving DecidableEq, Repr

/-- Byte sequences that spell no character. -/
inductive EncodingProblem where
  | leadOctet
  | cutOctets
  | trailOctet
  | overlong
  | noCharacter
  | cutUnit
  | strayLowSurrogate
  | cutPair
  | missingLowSurrogate
  | controlCharacter
  deriving DecidableEq, Repr

/-- The wording of an encoding problem. -/
def EncodingProblem.message : EncodingProblem → Text
  | .leadOctet => "invalid leading UTF-8 octet"
  | .cutOctets => "incomplete UTF-8 octet sequence"
  | .trailOctet => "invalid trailing UTF-8 octet"
  | .overlong => "invalid length of a UTF-8 sequence"
  | .noCharacter => "invalid Unicode character"
  | .cutUnit => "incomplete UTF-16 character"
  | .strayLowSurrogate => "unexpected low surrogate area"
  | .cutPair => "incomplete UTF-16 surrogate pair"
  | .missingLowSurrogate => "expected low surrogate area"
  | .controlCharacter => "control characters are not allowed"

/-- What has to stand at a place and does not. -/
inductive Missing where
  | documentStart
  | nodeContent
  | dash
  | key
  | commaOrBracket
  | commaOrBrace
  | colon
  | lineEnd
  | directiveName
  | digitOrPoint
  | versionNumber
  | gap
  | wordEnd
  | nameCharacter
  | closingAngle
  | exclamationMark
  | uri
  | uriEscape
  | hexNumber
  deriving DecidableEq, Repr

/-- The wording for what is missing. -/
def Missing.message : Missing → Text
  | .documentStart => "did not find expected <document start>"
  | .nodeContent => "did not find expected node content"
  | .dash => "did not find expected '-' indicator"
  | .key => "did not find expected key"
  | .commaOrBracket => "did not find expected ',' or ']'"
  | .commaOrBrace => "did not find expected ',' or '\x7d'"
  | .colon => "could not find expected ':'"
  | .lineEnd => "did not find expected comment or line break"
  | .directiveName => "could not find expected directive name"
  | .digitOrPoint => "did not find expected digit or '.' character"
  | .versionNumber => "did not find expected version number"
  | .gap => "did not find expected whitespace"
  | .wordEnd => "did not find expected whitespace or line break"
  | .nameCharacter => "did not find expected alphabetic or numeric character"
  | .closingAngle => "did not find the expected '>'"
  | .exclamationMark => "did not find expected '!'"
  | .uri => "did not find expected tag URI"
  | .uriEscape => "did not find URI escaped octet"
  | .hexNumber => "did not find expected hexdecimal number"

/-- What stands at a place and must not. -/
inductive Unexpected where
  | undefinedHandle
  | secondVersion
  | otherVersion
  | secondHandle
  | strayCharacter
  | unknownDirective
  | nameCharacter
  | longVersion
  | zeroIndent
  | tabIndent
  | documentMarker
  | streamEnd
  | unknownEscape
  | noCharacter
  | tabInScalar
  | leadOctet
  | trailOctet
  deriving DecidableEq, Repr

/-- The wording for what is unexpected. -/
def Unexpected.message : Unexpected → Text
  | .undefinedHandle => "found undefined tag handle"
  | .secondVersion => "found duplicate %YAML directive"
  | .otherVersion => "found incompatible YAML document"
  | .secondHandle => "found duplicate %TAG directive"
  | .strayCharacter => "found character that cannot start any token"
  | .unknownDirective => "found unknown directive name"
  | .nameCharacter => "found unexpected non-alphabetical character"
  | .longVersion => "found extremely long version number"
  | .zeroIndent => "found an indentation indicator equal to 0"
  | .tabIndent => "found a tab character where an indentation space is expected"
  | .documentMarker => "found unexpected document indicator"
  | .streamEnd => "found unexpected end of stream"
  | .unknownEscape => "found unknown escape character"
  | .noCharacter => "found invalid Unicode character escape code"
  | .tabInScalar => "found a tab character that violates indentation"
  | .leadOctet => "found an incorrect leading UTF-8 octet"
  | .trailOctet => "found an incorrect trailing UTF-8 octet"

/-- Indicators that the context does not allow. -/
inductive Misplaced where
  | blockEntry
  | key
  | value
  deriving DecidableEq, Repr

/-- The wording for a misplaced indicator. -/
def Misplaced.message : Misplaced → Text
  | .blockEntry => "block sequence entries are not allowed in this context"
  | .key => "mapping keys are not allowed in this context"
  | .value => "mapping values are not allowed in this context"

/-- How deep collections may be nested. -/
def maxDepth : Nat := 10000

/-- The problems of a document. -/
inductive Problem where
  | encoding (p : EncodingProblem)
  | missing (p : Missing)
  | unexpected (p : Unexpected)
  | misplaced (p : Misplaced)
  | tooDeep
  | unknownAnchor (name : Text)
  /-- A node contains an alias of itself. -/
  | endlessAlias (name : Text)
  /-- Reading the aliases takes too large a part of the work. -/
  | tooManyAliases
  | mergeOfOther
  /-- A collection is a key of a mapping that merges others. -/
  | collectionKey
  | brokenBase64
  /-- A scalar does not fit its tag. -/
  | unfit (spelled value tag : Text)
  deriving DecidableEq, Repr

/-- The wording of a problem. -/
def Problem.message : Problem → Text
  | .encoding p => p.message
  | .missing p => p.message
  | .unexpected p => p.message
  | .misplaced p => p.message
  | .tooDeep => "exceeded max depth of " ++ Text.ofNat maxDepth
  | .unknownAnchor name => "unknown anchor '" ++ name ++ "' referenced"
  | .endlessAlias name => "anchor '" ++ name ++ "' value contains itself"
  | .tooManyAliases => "document contains excessive aliasing"
  | .mergeOfOther => "map merge requires map or sequence of maps as the value"
  | .collectionKey => "a key of a merging map must be a scalar"
  | .brokenBase64 => "!!binary value contains invalid base64 data"
  | .unfit spelled value tag => "cannot decode " ++ spelled ++ " \x60" ++ value ++ "\x60 as a " ++ tag

/-- A problem and the line it is reported for, if one is. -/
structure Fault where
  problem : Problem
  line : Option Nat := none
  deriving DecidableEq, Repr

namespace Fault

/-- A problem of the tokens: the line on which its context starts, else the line it is on, counted
from 1. The first line is not named. -/
def ofToken (context place : Mark) (p : Problem) : Fault :=
  if context.line ≠ 0 then ⟨p, some (context.line + 1)⟩
  else if place.line ≠ 0 then ⟨p, some (place.line + 1)⟩
  else ⟨p, none⟩

/-- A problem of how nodes are put together: the same lines, counted from 0. -/
def ofNode (context place : Nat) (p : Problem) : Fault :=
  if context ≠ 0 then ⟨p, some context⟩
  else if place ≠ 0 then ⟨p, some place⟩
  else ⟨p, none⟩

/-- The line and the problem. -/
def message (f : Fault) : Text :=
  match f.line with
  | some n => "yaml: line " ++ Text.ofNat n ++ ": " ++ f.problem.message
  | none => "yaml: " ++ f.problem.message

end Fault

end StubDecl.Yaml
