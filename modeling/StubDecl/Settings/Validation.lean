import StubDecl.Settings.Basic

/-!
# Constraints on settings

`Settings.violations` lists the violated constraints, in the order of the fields. A field that
violates two constraints is listed with the first only.
-/

namespace StubDecl

/-- A violated constraint: the section, the field in it, and the name of the constraint. -/
structure Violation where
  sectionName : Text
  field : Text
  constraint : Text
  deriving DecidableEq, Repr

/-- A description of a violated constraint. -/
def Violation.message (v : Violation) : Text :=
  "Key: 'Config." ++ v.sectionName ++ "." ++ v.field ++ "' Error:Field validation for '" ++ v.field ++
    "' failed on the '" ++ v.constraint ++ "' tag"

namespace Settings

/-- A violation if the condition fails. -/
def require (holds : Bool) (sectionName field constraint : Text) : List Violation :=
  if holds then [] else [⟨sectionName, field, constraint⟩]

/-- There is at least one include pattern, and none is empty. -/
def includesViolations (includes : List Text) : List Violation :=
  require (!includes.isEmpty) "convert" "includes" "min" ++
    includes.zipIdx.flatMap fun (p, i) =>
      require (!p.isEmpty) "convert" ("includes[" ++ Text.ofNat i ++ "]") "required"

/-- No override has an empty source or an empty target. -/
def overridesViolations (overrides : TextMap) : List Violation :=
  overrides.flatMap fun (k, v) =>
    let field := "overrides[" ++ k ++ "]"
    require (!k.isEmpty) "types" field "required" ++ require (!v.isEmpty) "types" field "required"

/-- The indentation is between 0 and 16. -/
def indentViolations (indent : Int64) : List Violation :=
  if indent < 0 then [⟨"render", "indent", "gte"⟩]
  else if 16 < indent then [⟨"render", "indent", "lte"⟩]
  else []

/-- The names of levels that settings may use. -/
def levels : List Text := ["debug", "info", "warn", "error"]

/-- The violated constraints. -/
def violations (s : Settings) : List Violation :=
  includesViolations s.convert.includes ++
    require (!s.convert.output.isEmpty) "convert" "output" "required" ++
    indentViolations s.render.indent ++
    require (!s.render.restType.isEmpty) "render" "rest_type" "required" ++
    overridesViolations s.types.overrides ++
    require (!(s.cache.enabled && s.cache.path.isEmpty)) "cache" "path" "required_if" ++
    require (s.log.level.isEmpty || levels.contains s.log.level) "logging" "level" "oneof"

/-- Fails with all violated constraints, if there are any. -/
def validate (s : Settings) : Outcome PUnit :=
  match s.violations with
  | [] => .ok ⟨⟩
  | vs => .error (Cause.invalidSettings (vs.map Violation.message))

end Settings

end StubDecl
