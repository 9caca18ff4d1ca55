import MaterialBinding.Description.Json
import MaterialBinding.Resolution.Settings

/-!
# Scenes and settings in files

What is read from files is read through a function `Files`, which says where a path leads: to
nothing, or to a file with a canonical path, which may or may not hold text.  A path may be too
long to be opened, and still lead to a file.  So reading a scene is a computation like any other,
and the files themselves are somebody else's concern.
-/

namespace MaterialBinding

/-- Where the path of a file leads. -/
inductive Lookup where
  /-- There is nothing at the path. -/
  | missing
  /-- There is something, with that canonical path; `content` is its text, if it is a file with
  text. -/
  | found (canonical : String) (content : Option String)
  /-- There is something, with that canonical path, but the path is too long to be opened. -/
  | outOfReach (canonical : String)
deriving DecidableEq

/-- Where each path leads. -/
abbrev Files := String → Lookup

/-- Reads the file at the path, with its canonical path. -/
def Files.read (files : Files) (file : String) : Except Error (String × String) :=
  match files file with
  | .missing | .outOfReach _ => .error (.fileNotFound file)
  | .found _ none => .error .fileUnusable
  | .found canonical (some text) => .ok (canonical, text)

/-- Reads a stage from a file; the stage is called like the file. -/
def Stage.openFile (files : Files) (file : String) : Except Error Stage :=
  match files.read file with
  | .error error => .error error
  | .ok (canonical, text) =>
    match Stage.ofJson text with
    | .error error => .error error
    | .ok stage => .ok { stage with name := canonical, source := some canonical }

/-- Reads settings from a file. -/
def Settings.load (files : Files) (file : String) : Except Error Settings :=
  match files.read file with
  | .error error => .error error
  | .ok (_, text) => Settings.ofJson text

end MaterialBinding
