/-
Sets of characters given as tables of code point ranges. A table is a list of
closed ranges in ascending order; a look-up stops at the first range that
starts beyond the character.
-/
namespace Covenant.Text

/-- A set of characters: closed ranges of code points in ascending order. -/
abbrev CharTable := List (Nat × Nat)

/-- Whether the code point `n` lies in one of the ranges. -/
def CharTable.covers (n : Nat) : CharTable → Bool
  | [] => false
  | (first, last) :: rest =>
    if n < first then false else if n ≤ last then true else covers n rest

/-- Whether the character lies in one of the ranges. -/
def CharTable.contains (table : CharTable) (c : Char) : Bool :=
  table.covers c.toNat

end Covenant.Text
