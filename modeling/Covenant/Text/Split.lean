/-
Taking texts apart at a separating character. Two parts that are put together with it come out
again: the first if it does not hold the character, or both if the second does not.
-/
namespace Covenant.Text

/-- What stands before the first `sep`, or the whole text. -/
def beforeFirst (sep : Char) (s : String) : String :=
  String.ofList (s.toList.takeWhile (· ≠ sep))

/-- What stands after the first `sep`, or nothing. -/
def afterFirst (sep : Char) (s : String) : String :=
  String.ofList ((s.toList.dropWhile (· ≠ sep)).drop 1)

/-- What stands before the last `sep`, or nothing. -/
def beforeLast (sep : Char) (s : String) : String :=
  String.ofList ((s.toList.reverse.dropWhile (· ≠ sep)).drop 1).reverse

/-- What stands after the last `sep`, or the whole text. -/
def afterLast (sep : Char) (s : String) : String :=
  String.ofList (s.toList.reverse.takeWhile (· ≠ sep)).reverse

section

variable {α : Type} {test : α → Bool} {run rest : List α}

/-- A run ends before the first element that fails its test. -/
theorem takeWhile_run (hrun : ∀ a ∈ run, test a = true)
    (hrest : ∀ a ∈ rest.head?, test a = false) : (run ++ rest).takeWhile test = run := by
  have hnone : rest.takeWhile test = [] := by
    cases rest with
    | nil => rfl
    | cons a rest => rw [List.takeWhile_cons, hrest a rfl, if_neg Bool.false_ne_true]
  rw [List.takeWhile_append_of_pos hrun, hnone, List.append_nil]

theorem dropWhile_run (hrun : ∀ a ∈ run, test a = true)
    (hrest : ∀ a ∈ rest.head?, test a = false) : (run ++ rest).dropWhile test = rest := by
  rw [List.dropWhile_append_of_pos hrun]
  cases rest with
  | nil => rfl
  | cons a rest => rw [List.dropWhile_cons, hrest a rfl, if_neg Bool.false_ne_true]

variable [DecidableEq α] {sep : α} {before : List α}

theorem forall_ne_of_not_mem (h : sep ∉ before) : ∀ a ∈ before, decide (a ≠ sep) = true :=
  fun _ ha => decide_eq_true fun he => h (he ▸ ha)

theorem takeWhile_ne_append (h : sep ∉ before) (after : List α) :
    (before ++ sep :: after).takeWhile (· ≠ sep) = before :=
  takeWhile_run (forall_ne_of_not_mem h) (by simp)

theorem dropWhile_ne_append (h : sep ∉ before) (after : List α) :
    (before ++ sep :: after).dropWhile (· ≠ sep) = sep :: after :=
  dropWhile_run (forall_ne_of_not_mem h) (by simp)

end

section

variable {sep : Char} {s before after : String}

theorem beforeFirst_eq (hs : s.toList = before.toList ++ sep :: after.toList)
    (h : sep ∉ before.toList) : beforeFirst sep s = before := by
  rw [beforeFirst, hs, takeWhile_ne_append h, String.ofList_toList]

theorem beforeLast_eq (hs : s.toList = before.toList ++ sep :: after.toList)
    (h : sep ∉ after.toList) : beforeLast sep s = before := by
  have hreverse : s.toList.reverse = after.toList.reverse ++ sep :: before.toList.reverse := by
    simp [hs]
  rw [beforeLast, hreverse, dropWhile_ne_append (by simpa using h), List.drop_succ_cons,
    List.drop_zero, List.reverse_reverse, String.ofList_toList]

theorem afterLast_eq (hs : s.toList = before.toList ++ sep :: after.toList)
    (h : sep ∉ after.toList) : afterLast sep s = after := by
  have hreverse : s.toList.reverse = after.toList.reverse ++ sep :: before.toList.reverse := by
    simp [hs]
  rw [afterLast, hreverse, takeWhile_ne_append (by simpa using h), List.reverse_reverse,
    String.ofList_toList]

end

/-- The pieces of a text between separators; `current` holds the characters before it that belong
to its first piece, latest first. -/
def splitFrom (sep : Char) (current : List Char) : List Char → List (List Char)
  | [] => [current.reverse]
  | c :: cs =>
    if c = sep then current.reverse :: splitFrom sep [] cs else splitFrom sep (c :: current) cs

/-- The pieces of a text between separators. -/
def splitAll (sep : Char) (cs : List Char) : List (List Char) :=
  splitFrom sep [] cs

/-- What starts otherwise is another text. -/
theorem append_ne_of_head {front back text : String} {c : Char}
    (hfront : front.toList.head? = some c) (htext : text.toList.head? ≠ some c) :
    front ++ back ≠ text := by
  rintro rfl
  rw [String.toList_append, List.head?_append, hfront] at htext
  exact htext rfl

/-- Whether `part` occurs in the text. -/
def occursIn (part : List Char) : List Char → Bool
  | [] => part.isEmpty
  | c :: cs => part.isPrefixOf (c :: cs) || occursIn part cs

end Covenant.Text
