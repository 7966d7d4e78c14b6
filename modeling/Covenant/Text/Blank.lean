/-
White space of every script, Unicode 14: the separators, the line and paragraph
controls and the information separators.
-/
import Covenant.Text.Table

namespace Covenant.Text

def blankTable : CharTable :=
  [(0x9, 0xd), (0x1c, 0x20), (0x85, 0x85), (0xa0, 0xa0), (0x1680, 0x1680), (0x2000, 0x200a),
   (0x2028, 0x2029), (0x202f, 0x202f), (0x205f, 0x205f), (0x3000, 0x3000)]

/-- A white space character. -/
def isBlank (c : Char) : Bool :=
  blankTable.contains c

end Covenant.Text
