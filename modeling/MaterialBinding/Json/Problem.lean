/-!
# Why a JSON text is not read

A reader goes through the text from left to right and stops at the first thing that is wrong.
Either the text is no JSON so far, or it ends too early, or it is JSON of a kind that was not
asked for.
-/

namespace MaterialBinding.Json

/-- The first thing wrong with a JSON text. -/
inductive Problem where
  /-- The text is no JSON. -/
  | malformed
  /-- The text ends before the value does. -/
  | cutShort
  /-- The value is of another kind than the one asked for. -/
  | wrongKind
  /-- The object lacks a member that it must have. -/
  | missingField (name : String)
  /-- The object has a member twice. -/
  | duplicateField (name : String)
  /-- The value is of the right kind but means nothing, for the reason given. -/
  | refused (reason : String)
deriving DecidableEq

/-- What can be told about a value that is well formed but not the one asked for. -/
def Problem.message? : Problem → Option String
  | missingField name => some ("missing field \x60" ++ name ++ "\x60")
  | duplicateField name => some ("duplicate field \x60" ++ name ++ "\x60")
  | refused reason => some reason
  | _ => none

end MaterialBinding.Json
