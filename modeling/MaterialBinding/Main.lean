import MaterialBinding.Command.Run

/-!
# The program

Looks up the files that the command line names and carries it out.
-/

namespace MaterialBinding

/-- The text of a file, if it has one. -/
def contentOf? (file : String) : IO (Option String) := do
  try
    let content ← IO.FS.readFile file
    return some content
  catch _ =>
    return none

/-- Where a path leads among the files of the machine. -/
def lookUp (file : String) : IO Lookup := do
  try
    let canonical ← IO.FS.realPath file
    let content ← contentOf? file
    return .found canonical.toString content
  catch _ =>
    return .missing

end MaterialBinding

/-- Runs the program. -/
def main (commandLine : List String) : IO UInt32 := do
  let names := MaterialBinding.Command.filesNamed commandLine
  let known ← names.mapM fun file => do return (file, ← MaterialBinding.lookUp file)
  let files : MaterialBinding.Files := fun file => (known.lookup file).getD .missing
  let outcome := MaterialBinding.Command.run files commandLine
  IO.print outcome.out
  IO.eprint outcome.err
  return outcome.exit.toUInt32
