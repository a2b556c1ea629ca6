import StubDecl.Digest.Sha256
import StubDecl.Json.Text
import StubDecl.Settings.Basic

/-!
# The hash of the render settings

Blocks rendered under other settings are stale. `Settings.hash` identifies the settings that shape a
block: indentation, rest type and type overrides, the overrides in bytewise order.
-/

namespace StubDecl

/-- The digest of a file's content, in hexadecimal. -/
def contentHash (content : Text) : Text := (Sha256.digest content).toHex

namespace Settings

/-- The overrides as sorted equations. -/
def overrideEquations (s : Settings) : List Text :=
  Text.sort (s.types.overrides.map fun (k, v) => k ++ "=" ++ v)

/-- The settings that shape a block, as a JSON object. -/
def renderingRecord (s : Settings) : Text :=
  "\x7b\"indent\":" ++ Text.ofInt s.render.indent.toInt ++ ",\"rest_type\":" ++
    Json.string s.render.restType ++ ",\"overrides\":[" ++
    Text.joinWith "," (s.overrideEquations.map Json.string) ++ "]\x7d"

/-- The first eight bytes of the digest of the settings that shape a block, in hexadecimal. -/
def hash (s : Settings) : Text := Text.toHex ((Sha256.digest s.renderingRecord).take 8)

end Settings

end StubDecl
