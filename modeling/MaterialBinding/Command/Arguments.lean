import MaterialBinding.Files.Basic

/-!
# Arguments of a command

A command takes positional arguments and three options, each followed by its value.  The value is
whatever argument comes next, even one that looks like an option; of several values of one option
the last counts.  Any other argument that begins with two hyphens is refused.  Options may stand
anywhere among the positional arguments.
-/

namespace MaterialBinding.Command

/-- Why a command is not carried out. -/
inductive Failure where
  /-- An option stands at the end, where it has no value. -/
  | missingValue (option : String)
  /-- There is no such option. -/
  | unknownOption (argument : String)
  /-- A positional argument is missing. -/
  | missingArgument (usage : String)
  /-- The path of the prim is refused. -/
  | badPrimPath (text : String) (cause : PathError)
  /-- The scene is not read. -/
  | scene (file : String) (cause : Error)
  /-- The settings are not read. -/
  | settings (file : String) (cause : Error)
  /-- There is no prim at the path. -/
  | primNotFound (path : ScenePath)
  /-- The library refuses what it is asked. -/
  | refused (cause : Error)
deriving DecidableEq

/-- The wording of a failure: what was being done, then why it failed. -/
def Failure.message : Failure → String
  | missingValue option => "missing value for " ++ option
  | unknownOption argument => "unknown option " ++ argument
  | missingArgument usage => "missing argument\nUsage: " ++ usage
  | badPrimPath text cause => "bad prim path " ++ text ++ ": " ++ cause.message
  | scene file cause => "failed to open " ++ file ++ ": " ++ cause.message
  | settings file cause => "failed to load settings " ++ file ++ ": " ++ cause.message
  | primNotFound path => "prim " ++ path.text ++ " not found"
  | refused cause => cause.message

/-- The options that take a value. -/
inductive OptionName where
  | purpose
  | collection
  | settings
deriving DecidableEq

/-- Reads the name of an option, in its long or its short spelling. -/
def OptionName.ofSpelling? (argument : String) : Option OptionName :=
  if argument = "--purpose" || argument = "-p" then some purpose
  else if argument = "--collection" || argument = "-c" then some collection
  else if argument = "--settings" || argument = "-s" then some settings
  else none

/-- The argument begins like a long option. -/
def looksLikeOption (argument : String) : Bool := ['-', '-'].isPrefixOf argument.toList

/-- The arguments of a command, taken apart. -/
structure Arguments where
  /-- The positional arguments, in their order. -/
  positional : List String := []
  /-- The token of the purpose. -/
  purpose : String := ""
  /-- The name that collections must have; any, if it is empty. -/
  collection : String := ""
  /-- The file with the settings. -/
  settings : Option String := none
deriving DecidableEq

namespace Arguments

/-- Gives an option a value. -/
def set (arguments : Arguments) (option : OptionName) (value : String) : Arguments :=
  match option with
  | .purpose => { arguments with purpose := value }
  | .collection => { arguments with collection := value }
  | .settings => { arguments with settings := some value }

/-- Appends a positional argument. -/
def push (arguments : Arguments) (value : String) : Arguments :=
  { arguments with positional := arguments.positional ++ [value] }

/-- Takes apart what follows the arguments so far. -/
def parseFrom (arguments : Arguments) : List String → Except Failure Arguments
  | [] => .ok arguments
  | argument :: rest =>
    match OptionName.ofSpelling? argument, rest with
    | some _, [] => .error (.missingValue argument)
    | some option, value :: rest => parseFrom (arguments.set option value) rest
    | none, rest =>
      if looksLikeOption argument then .error (.unknownOption argument)
      else parseFrom (arguments.push argument) rest

/-- Takes arguments apart. -/
def parse (arguments : List String) : Except Failure Arguments := parseFrom {} arguments

/-- The positional argument with that index. -/
def require (arguments : Arguments) (index : Nat) (usage : String) : Except Failure String :=
  match arguments.positional[index]? with
  | some value => .ok value
  | none => .error (.missingArgument usage)

/-- The settings that the arguments ask for. -/
def loadSettings (arguments : Arguments) (files : Files) : Except Failure Settings :=
  match arguments.settings with
  | none => .ok {}
  | some file =>
    match Settings.load files file with
    | .ok settings => .ok settings
    | .error cause => .error (.settings file cause)

end Arguments

end MaterialBinding.Command
