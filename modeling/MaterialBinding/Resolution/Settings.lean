import MaterialBinding.Error
import MaterialBinding.Json.Reader
import MaterialBinding.Json.Printer

/-!
# Settings

The settings of a search for materials, and their JSON form: an object with the list
`allowedPurposes`.
-/

namespace MaterialBinding

open Json

/-- How materials are searched. -/
structure Settings where
  /-- The purposes that may be asked for; bindings for every purpose are always searched. -/
  allowed : List Purpose := Purpose.all
deriving DecidableEq

/-- Reads a purpose from JSON. -/
def Purpose.reader : Reader Purpose :=
  readString.refine fun token =>
    match Purpose.ofToken? token with
    | some purpose => .ok purpose
    | none => .error (.refused (Error.unknownPurpose token).message)

/-- Writes a purpose as JSON. -/
def Purpose.printer (purpose : Purpose) : Printer := .string purpose.token

namespace Settings

/-- The purpose may be asked for. -/
def allows (settings : Settings) (purpose : Purpose) : Bool := purpose ∈ settings.allowed

/-- Reads settings. -/
def reader : Reader Settings :=
  readRecord nestingLimit
    [.optional "allowedPurposes" (readList (nestingLimit - 1) Purpose.reader)
      fun _ allowed => { allowed }]
    {}

/-- Writes settings. -/
def printer (settings : Settings) : Printer :=
  .object [("allowedPurposes", .list (settings.allowed.map Purpose.printer))]

/-- Reads settings from JSON. -/
def ofJson (text : String) : Except Error Settings :=
  match readText reader text with
  | .ok settings => .ok settings
  | .error problem => .error (.json problem)

end Settings

end MaterialBinding
