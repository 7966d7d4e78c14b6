/-
Texts as lists of lines.
-/
namespace Covenant.Text

/-- The lines with a line end after each. -/
def unlines (lines : List String) : String :=
  "\n".intercalate lines ++ "\n"

/-- The lines moved right by four blanks; empty lines stay empty. -/
def indent (lines : List String) : List String :=
  lines.map fun line => if line.isEmpty then "" else "    " ++ line

end Covenant.Text
