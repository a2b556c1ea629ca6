import StubDecl.Declaration

/-!
# Settings

What a project can set: which files are converted and where to, how declarations are written, type
substitutions, the block cache, and the log.
-/

namespace StubDecl

/-- Which stub files are converted, and the file the declarations go to. -/
structure ConvertSettings where
  includes : List Text := ["*.js"]
  excludes : List Text := ["**/*.min.js"]
  output : Text := "api-stubs.d.ts"
  header : Text := ""
  deriving DecidableEq, Repr

/-- How declarations are written. -/
structure RenderSettings where
  indent : Int64 := 4
  restType : Text := "string[]"
  deriving DecidableEq, Repr

/-- Type substitutions on top of the built-in ones. -/
structure TypeSettings where
  overrides : TextMap := []
  deriving DecidableEq, Repr

/-- Whether blocks are kept between runs, and where. -/
structure CacheSettings where
  enabled : Bool := true
  path : Text := ".stubconv/cache.db"
  deriving DecidableEq, Repr

/-- How much is logged, and whether as JSON. -/
structure LogSettings where
  level : Text := "info"
  json : Bool := false
  deriving DecidableEq, Repr

/-- All settings of a project. -/
structure Settings where
  convert : ConvertSettings := {}
  render : RenderSettings := {}
  types : TypeSettings := {}
  cache : CacheSettings := {}
  log : LogSettings := {}
  deriving DecidableEq, Repr

namespace Settings

/-- The name of the settings file in a project directory. -/
def fileName : Text := "stubconv.yaml"

/-- The directory for the cache, which may hold the settings file too. -/
def stateDirectory : Text := ".stubconv"

/-- How declarations are written under these settings. -/
def style (s : Settings) : Style := Style.ofSettings s.render.indent.toInt s.render.restType

/-- The type substitutions of these settings. -/
def typeTable (s : Settings) : TypeTable := ⟨s.types.overrides⟩

end Settings

end StubDecl
