import MaterialBinding.Command.Arguments
import MaterialBinding.Command.Report

/-!
# Running a command

A run takes the command line and the files, and ends with an exit code and two texts.  Flags that
set how much is logged may stand anywhere and are taken out first; the log itself is left out (see
`Outcome`).

Each command first takes its arguments apart and checks what can be checked without a file; the
order of the checks decides which of several faults is reported.
-/

namespace MaterialBinding.Command

/-- The commands. -/
inductive Name where
  | tree
  | bindings
  | resolve
  | resolveAll
  | version
  | help
deriving DecidableEq

/-- Reads the name of a command. -/
def Name.ofSpelling? (spelling : String) : Option Name :=
  if spelling ∈ ["tree", "t"] then some tree
  else if spelling ∈ ["bindings", "b"] then some bindings
  else if spelling ∈ ["resolve", "r"] then some resolve
  else if spelling ∈ ["resolve-all", "ra"] then some resolveAll
  else if spelling ∈ ["-V", "--version", "version"] then some version
  else if spelling ∈ ["h", "help", "-h", "--help"] then some help
  else none

/-- The arguments that say how much is logged.  They are dropped, since the log is left out. -/
def verbosityFlags : List String := ["-v", "--verbose", "-vv", "--trace", "-q", "--quiet"]

/-- How a run ends.  The log, which goes to standard error too, is left out: the lines that tell
what was opened, bound, resolved and skipped, as far as the verbosity flags and the environment ask
for them, and the warning that the members of a bound collection cannot be computed because it
includes itself.  No result depends on it. -/
structure Outcome where
  /-- The exit code. -/
  exit : Nat
  /-- What is printed. -/
  out : String
  /-- What is said about a failure, on standard error. -/
  err : String
deriving DecidableEq

/-- Lines, each with its end. -/
def unlines (lines : List String) : String :=
  String.join (lines.map (· ++ "\n"))

/-- A run that succeeds. -/
def Outcome.success (lines : List String) : Outcome := ⟨0, unlines lines, ""⟩

/-- A run that fails after some lines were printed. -/
def Outcome.failure (lines : List String) (failure : Failure) : Outcome :=
  ⟨1, unlines lines, unlines ["Error: " ++ failure.message]⟩

/-- The version of the program. -/
def versionLine : String := "matbind 0.1.0 (built Jan  1 2024 00:00:00)"

/-- The help. -/
def helpLines : List String :=
  ["matbind - Material binding resolver",
   "",
   "USAGE:",
   "    matbind [OPTIONS] <COMMAND> [ARGS]",
   "",
   "COMMANDS:",
   "    t, tree        <scene>               Show prim hierarchy",
   "    b, bindings    <scene> <prim>        List authored bindings per purpose",
   "    r, resolve     <scene> <prim>        Resolve the bound material of a prim",
   "    ra, resolve-all <scene>              Resolve every prim in the scene",
   "    -V, --version                        Show version and build date",
   "    h, help                              Show this help",
   "",
   "RESOLVE OPTIONS:",
   "    --purpose <p>       full, preview or allPurpose (default)",
   "    --collection <c>    Only consider collection bindings of this collection",
   "    --settings <file>   Resolver settings (JSON)",
   "",
   "OPTIONS:",
   "    -v, --verbose    Show debug output",
   "    -vv, --trace     Show trace output (very verbose)",
   "    -q, --quiet      Suppress log output",
   "",
   "EXAMPLES:",
   "    matbind tree office_set.json",
   "    matbind resolve office_set.json /Office_set/Desk_Assembly/Cup_grp --purpose full",
   "    matbind resolve-all office_set.json --collection Erasers",
   "",
   "NOTES:",
   "    - RUST_LOG overrides -v / -vv / -q"]

/-- How `tree` is called. -/
def treeUsage : String := "matbind tree <scene>"

/-- How `bindings` is called. -/
def bindingsUsage : String := "matbind bindings <scene> <prim>"

/-- How `resolve` is called. -/
def resolveUsage : String :=
  "matbind resolve <scene> <prim> [--purpose P] [--collection C] [--settings F]"

/-- How `resolve-all` is called. -/
def resolveAllUsage : String :=
  "matbind resolve-all <scene> [--purpose P] [--collection C] [--settings F]"

/-- Reads the path of a prim. -/
def parsePrimPath (text : String) : Except Failure ScenePath :=
  match ScenePath.parse text with
  | .ok path => .ok path
  | .error cause => .error (.badPrimPath text cause)

/-- Reads a scene. -/
def openScene (files : Files) (file : String) : Except Failure Stage :=
  match Stage.openFile files file with
  | .ok stage => .ok stage
  | .error cause => .error (.scene file cause)

/-- Turns a refusal of the library into a failure of the command. -/
def orRefuse {α : Type} : Except Error α → Except Failure α
  | .ok value => .ok value
  | .error cause => .error (.refused cause)

/-- Shows the tree of prims. -/
def runTree (files : Files) (arguments : List String) : Except Failure (List String) := do
  let arguments ← Arguments.parse arguments
  let file ← arguments.require 0 treeUsage
  let stage ← openScene files file
  .ok (("Scene: " ++ stage.name) :: "" :: treeLines 0 stage.tree)

/-- Lists the bindings of a prim. -/
def runBindings (files : Files) (arguments : List String) : Except Failure (List String) := do
  let arguments ← Arguments.parse arguments
  let file ← arguments.require 0 bindingsUsage
  let prim ← parsePrimPath (← arguments.require 1 bindingsUsage)
  let stage ← openScene files file
  if stage.hasPrim prim then .ok (bindingLines stage prim) else .error (.primNotFound prim)

/-- Searches the material of a prim. -/
def runResolve (files : Files) (arguments : List String) : Except Failure (List String) := do
  let arguments ← Arguments.parse arguments
  let file ← arguments.require 0 resolveUsage
  let prim ← parsePrimPath (← arguments.require 1 resolveUsage)
  let settings ← arguments.loadSettings files
  let stage ← openScene files file
  let material ← orRefuse (stage.resolveToken settings prim arguments.purpose arguments.collection)
  .ok [materialText material]

/-- Searches the materials of all prims, and tells which search was refused after the lines of
those before it. -/
def runResolveAll (files : Files) (arguments : List String) :
    Except Failure (List String × Option Error) := do
  let arguments ← Arguments.parse arguments
  let file ← arguments.require 0 resolveAllUsage
  let settings ← arguments.loadSettings files
  let purpose ← orRefuse (Purpose.parse arguments.purpose)
  let stage ← openScene files file
  let prims := stage.traverse
  let materials :=
    stage.resolveMany settings (prims.map ScenePath.ofPrim) purpose arguments.collection
  .ok (materialLines (columnWidth prims) (prims.zip materials))

/-- The outcome of a command that prints all of its lines or none. -/
def Outcome.ofLines : Except Failure (List String) → Outcome
  | .ok lines => .success lines
  | .error failure => .failure [] failure

/-- Carries out a command with its arguments. -/
def Name.run (files : Files) (arguments : List String) : Name → Outcome
  | tree => .ofLines (runTree files arguments)
  | bindings => .ofLines (runBindings files arguments)
  | resolve => .ofLines (runResolve files arguments)
  | resolveAll =>
    match runResolveAll files arguments with
    | .error failure => .failure [] failure
    | .ok (lines, some cause) => .failure lines (.refused cause)
    | .ok (lines, none) => .success lines
  | version => .success [versionLine]
  | help => .success helpLines

/-- Carries out a command line. -/
def run (files : Files) (commandLine : List String) : Outcome :=
  match commandLine.filter (· ∉ verbosityFlags) with
  | [] => .success helpLines
  | spelling :: arguments =>
    match Name.ofSpelling? spelling with
    | some name => name.run files arguments
    | none => ⟨1, unlines helpLines, unlines ["Unknown command: " ++ spelling, ""]⟩

/-- The files that a command line may read: the scene and the settings. -/
def filesNamed (commandLine : List String) : List String :=
  match commandLine.filter (· ∉ verbosityFlags) with
  | [] => []
  | _ :: arguments =>
    match Arguments.parse arguments with
    | .ok arguments => arguments.positional.take 1 ++ arguments.settings.toList
    | .error _ => []

end MaterialBinding.Command
