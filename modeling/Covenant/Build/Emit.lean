/-
Writing a crate. Its directory is replaced as a whole, unless that would delete
the directory that is to be kept; then its files are written one after the other.
-/
import Covenant.Build.Job
import Covenant.Crate.Files

namespace Covenant

namespace Emission

def logger : String := "codegen.project"

/-- Whether replacing the output directory would delete the directory to be kept. -/
def deletes (output kept : Path) : Bool :=
  FileTree.isWithin (output.resolveFrom []) (kept.resolveFrom [])

/-- Takes away what stands at the output directory. -/
def removePrevious (output : Path) : Job Unit := do
  let tree ← Job.tree
  if tree.hasEntry output then
    Job.debug logger s!"Removing previous output {output.text}"
    Job.settle (fun e => .fault (.cannotPrepare output e)) (tree.removeDirectory output)

/-- Leaves the output directory empty. -/
def resetDirectory (output : Path) (kept? : Option Path) : Job Unit := do
  match kept? with
  | some kept => if deletes output kept then throw (.fault (.wouldDelete output kept))
  | none => pure ()
  removePrevious output
  Job.settle (fun e => .fault (.cannotPrepare output e))
    ((← Job.tree).makeDirectories false output)

/-- Writes a file and makes the directories it needs. -/
def writeFile (output : Path) (file : Crate.SourceFile) : Job Path := do
  let path := output.below file.path
  let cannotWrite := fun e => BuildError.fault (.cannotWrite path e)
  Job.settle cannotWrite ((← Job.tree).makeDirectories true path.parent)
  let tree ← Job.ofExcept cannotWrite ((← Job.tree).writeText path file.text)
  Job.setTree tree
  Job.debug logger s!"Wrote {path.text}"
  return path

end Emission

/-- Replaces a directory by a crate of these files and returns what was written, in order. -/
def emit (output : Path) (kept? : Option Path) (files : List Crate.SourceFile) :
    Job (List Path) := do
  Emission.resetDirectory output kept?
  let written ← files.mapM (Emission.writeFile output)
  Job.info Emission.logger s!"Wrote {written.length} file(s) to {output.text}"
  return written

end Covenant
