import StubDecl.Settings.Validation
import StubDecl.Yaml.Decode
import StubDecl.Yaml.Print

/-!
# Settings as a document

Settings are kept in a YAML document with a section for each group. `Settings.parse` reads one on
top of the default settings; `Settings.print` writes all fields.
-/

namespace StubDecl

open Yaml.Decode

/-- The fields of the sections. -/
def ConvertSettings.record : Record ConvertSettings where
  type := "config.ConvertConfig"
  field? k :=
    if k = "includes" then some (replacing texts fun v s => { s with includes := v })
    else if k = "excludes" then some (replacing texts fun v s => { s with excludes := v })
    else if k = "output" then some (replacing text fun v s => { s with output := v })
    else if k = "header" then some (replacing text fun v s => { s with header := v })
    else none

@[inherit_doc ConvertSettings.record]
def RenderSettings.record : Record RenderSettings where
  type := "config.RenderConfig"
  field? k :=
    if k = "indent" then some (replacing int fun v s => { s with indent := v })
    else if k = "rest_type" then some (replacing text fun v s => { s with restType := v })
    else none

@[inherit_doc ConvertSettings.record]
def TypeSettings.record : Record TypeSettings where
  type := "config.TypesConfig"
  field? k :=
    if k = "overrides" then
      some fun path i s => do return { s with overrides := ← textMap path i s.overrides }
    else none

@[inherit_doc ConvertSettings.record]
def CacheSettings.record : Record CacheSettings where
  type := "config.CacheConfig"
  field? k :=
    if k = "enabled" then some (replacing bool fun v s => { s with enabled := v })
    else if k = "path" then some (replacing text fun v s => { s with path := v })
    else none

@[inherit_doc ConvertSettings.record]
def LogSettings.record : Record LogSettings where
  type := "config.LoggingConfig"
  field? k :=
    if k = "level" then some (replacing text fun v s => { s with level := v })
    else if k = "json" then some (replacing bool fun v s => { s with json := v })
    else none

namespace Settings

/-- The sections. -/
def record : Record Settings where
  type := "config.Config"
  field? k :=
    if k = "convert" then
      some fun path i s => do return { s with convert := ← Yaml.Decode.record ConvertSettings.record path i s.convert }
    else if k = "render" then
      some fun path i s => do return { s with render := ← Yaml.Decode.record RenderSettings.record path i s.render }
    else if k = "types" then
      some fun path i s => do return { s with types := ← Yaml.Decode.record TypeSettings.record path i s.types }
    else if k = "cache" then
      some fun path i s => do return { s with cache := ← Yaml.Decode.record CacheSettings.record path i s.cache }
    else if k = "logging" then
      some fun path i s => do return { s with log := ← Yaml.Decode.record LogSettings.record path i s.log }
    else none

/-- The settings that a document gives, checked. What it does not mention has its default. -/
def parse (document : Text) : Outcome Settings :=
  match Yaml.decode record document {} with
  | .error fault => .error (Cause.malformedYaml fault)
  | .ok (s, []) => do
    s.validate
    return s
  | .ok (_, notes) => .error (Cause.mistyped notes)

/-- All settings as a document. -/
def print (s : Settings) : Text :=
  Yaml.print [
    ("convert", [("includes", .texts s.convert.includes), ("excludes", .texts s.convert.excludes),
      ("output", .text s.convert.output), ("header", .text s.convert.header)]),
    ("render", [("indent", .int s.render.indent.toInt), ("rest_type", .text s.render.restType)]),
    ("types", [("overrides", .textMap s.types.overrides)]),
    ("cache", [("enabled", .bool s.cache.enabled), ("path", .text s.cache.path)]),
    ("logging", [("level", .text s.log.level), ("json", .bool s.log.json)])]

end Settings

end StubDecl
