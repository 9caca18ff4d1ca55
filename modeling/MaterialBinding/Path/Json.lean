import MaterialBinding.Path.Parse
import MaterialBinding.Json.Reader
import MaterialBinding.Json.Printer

/-!
# Paths as JSON

A path is a JSON text with the path's written form.
-/

namespace MaterialBinding.ScenePath

open Json

/-- Reads a path from JSON. -/
def reader : Reader ScenePath :=
  readString.refine fun text =>
    match ScenePath.parse text with
    | .ok path => .ok path
    | .error cause => .error (.refused cause.message)

/-- Writes a path as JSON. -/
def printer (path : ScenePath) : Printer := .string path.text

end MaterialBinding.ScenePath
