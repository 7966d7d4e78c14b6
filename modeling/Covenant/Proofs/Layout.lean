/-
What stands between tokens: blanks and complete comments (`Lexer.Layout`). The scanner
skips exactly this. What it has skipped is layout, and no layout follows
(`Lexer.layoutLength_cases`); layout in front of a text is skipped, whatever the text is
(`Lexer.Layout.layoutLength_append`).
-/
import Covenant.Text.Split
import Covenant.Token.Lexer

namespace Covenant.Lexer

open Covenant.Text

/-- Neither a blank nor a comment stands at the front. -/
def Bare : List Char → Prop
  | [] => True
  | c :: cs => isLayoutBlank c = false ∧ (c = '/' → ∀ d ∈ cs.head?, d ≠ '/' ∧ d ≠ '*')

/-- Blanks and complete comments. A comment of a single line is complete if the line is ended, or
if the text ends here. -/
inductive Layout (atEnd : Bool) : List Char → Prop
  | nil : Layout atEnd []
  | blank {c : Char} {cs : List Char} : isLayoutBlank c = true → Layout atEnd cs →
    Layout atEnd (c :: cs)
  | line {body cs : List Char} : '\n' ∉ body → Layout atEnd ('\n' :: cs) →
    Layout atEnd ('/' :: '/' :: (body ++ '\n' :: cs))
  | lastLine {body : List Char} : atEnd = true → '\n' ∉ body → Layout atEnd ('/' :: '/' :: body)
  | block {body cs : List Char} : ¬ ['*', '/'] <:+: body → Layout atEnd cs →
    Layout atEnd ('/' :: '*' :: (body ++ '*' :: '/' :: cs))

/-! ## Counting layout -/

theorem shift_eq_ok {n m : Nat} {r : Except Nat Nat} :
    layoutLength.shift n r = .ok m ↔ ∃ k, r = .ok k ∧ m = k + n := by
  cases r with
  | error e => simp [layoutLength.shift]
  | ok k => simp [layoutLength.shift, eq_comm]

theorem shift_shift (n m : Nat) (r : Except Nat Nat) :
    layoutLength.shift n (layoutLength.shift m r) = layoutLength.shift (m + n) r := by
  cases r <;> simp [layoutLength.shift, Nat.add_assoc]

theorem layoutLength_line (cs : List Char) :
    layoutLength ('/' :: '/' :: cs) = layoutLength.shift ((cs.takeWhile (· ≠ '\n')).length + 2)
      (layoutLength (cs.drop (cs.takeWhile (· ≠ '\n')).length)) := by
  rw [layoutLength.eq_def]
  rfl

theorem layoutLength_block {cs : List Char} {n : Nat} (h : commentLength? cs = some n) :
    layoutLength ('/' :: '*' :: cs) = layoutLength.shift (n + 2) (layoutLength (cs.drop n)) := by
  rw [layoutLength.eq_def]
  simp [h]

theorem layoutLength_blank {c : Char} (cs : List Char) (h : isLayoutBlank c = true) :
    layoutLength (c :: cs) = layoutLength.shift 1 (layoutLength cs) := by
  have hc : c ≠ '/' := by
    rintro rfl
    exact absurd h (by decide)
  rw [layoutLength.eq_def]
  simp [hc, h]

theorem Bare.layoutLength {cs : List Char} (h : Bare cs) : layoutLength cs = .ok 0 := by
  cases cs with
  | nil => rw [Lexer.layoutLength.eq_def]
  | cons c cs =>
    obtain ⟨hblank, hslash⟩ := h
    rw [Lexer.layoutLength.eq_def]
    split
    · rfl
    · rename_i heq
      cases heq
      exact absurd rfl (hslash rfl '/' (by simp)).1
    · rename_i heq
      cases heq
      exact absurd rfl (hslash rfl '*' (by simp)).2
    · rename_i heq
      cases heq
      simp [hblank]

theorem Bare.cut {c : Char} {cs s : List Char} (h : Bare (c :: cs))
    (hd : ∀ d ∈ s.head?, d ≠ '/' ∧ d ≠ '*') (k : Nat) : Bare (c :: (cs.take k ++ s)) := by
  refine ⟨h.1, fun hc d hmem => ?_⟩
  cases cs with
  | nil => exact hd d (by simpa using hmem)
  | cons e es =>
    cases k with
    | zero => exact hd d hmem
    | succ k => exact h.2 hc d hmem

/-! ## Comments -/

theorem commentLength?_cons (c : Char) (cs : List Char) :
    commentLength? (c :: cs) =
      if c = '*' ∧ cs.head? = some '/' then some 2 else (commentLength? cs).map (· + 1) := by
  rw [commentLength?.eq_def]
  split
  · rename_i heq
    cases heq
    simp
  · rename_i hne heq
    cases heq
    rw [if_neg]
    rintro ⟨rfl, hd⟩
    obtain ⟨ds, rfl⟩ := List.head?_eq_some_iff.mp hd
    exact hne ds rfl rfl
  · rename_i heq
    cases heq

/-- The mark that closes a comment stands at the front. -/
theorem isPrefix_close {c : Char} {cs : List Char} :
    ['*', '/'] <+: c :: cs ↔ c = '*' ∧ cs.head? = some '/' := by
  cases cs with
  | nil => simp [List.cons_prefix_cons]
  | cons d ds => simp [List.cons_prefix_cons, eq_comm]

/-- A comment ends with the first mark that closes it. -/
theorem commentLength?_eq_some_iff {cs : List Char} {n : Nat} :
    commentLength? cs = some n ↔ ∃ body rest, cs = body ++ '*' :: '/' :: rest ∧
      ¬ ['*', '/'] <:+: body ∧ n = body.length + 2 := by
  induction cs generalizing n with
  | nil => simp [commentLength?]
  | cons c cs ih =>
    rw [commentLength?_cons]
    split
    · rename_i hclose
      obtain ⟨rest, hrest⟩ := isPrefix_close.mpr hclose
      constructor
      · rintro ⟨⟩
        exact ⟨[], rest, hrest.symm, by simp, rfl⟩
      · rintro ⟨body, rest', heq, hbody, rfl⟩
        cases body with
        | nil => rfl
        | cons d body =>
          -- the mark at the front would lie inside the comment
          cases heq
          obtain ⟨rfl, hhead⟩ := hclose
          cases body with
          | nil => simp at hhead
          | cons e body =>
            obtain rfl : e = '/' := by simpa using hhead
            exact absurd ⟨[], body, rfl⟩ hbody
    · rename_i hclose
      rw [Option.map_eq_some_iff]
      constructor
      · rintro ⟨m, hm, rfl⟩
        obtain ⟨body, rest, rfl, hbody, rfl⟩ := ih.mp hm
        refine ⟨c :: body, rest, rfl, ?_, by simp⟩
        rw [List.infix_cons_iff, not_or]
        refine ⟨fun hfront => hclose ?_, hbody⟩
        exact isPrefix_close.mp (hfront.trans (List.prefix_append _ _))
      · rintro ⟨body, rest, heq, hbody, rfl⟩
        cases body with
        | nil =>
          cases heq
          simp at hclose
        | cons d body =>
          cases heq
          refine ⟨body.length + 2, ih.mpr ⟨body, rest, rfl, ?_, rfl⟩, rfl⟩
          exact fun h => hbody (List.infix_cons h)

/-- A line goes up to its end or to the end of the text. -/
theorem takeWhile_line_cases (cs : List Char) :
    ∃ rest, cs = cs.takeWhile (· ≠ '\n') ++ rest ∧ '\n' ∉ cs.takeWhile (· ≠ '\n') ∧
      ∀ c ∈ rest.head?, c = '\n' := by
  refine ⟨cs.dropWhile (· ≠ '\n'), List.takeWhile_append_dropWhile.symm, fun hmem => ?_, ?_⟩
  · simpa using List.all_eq_true.mp List.all_takeWhile _ hmem
  · intro c hc
    have := List.head?_dropWhile_not (· ≠ '\n') cs
    rw [Option.mem_def.mp hc] at this
    simpa using this

/-! ## What is skipped -/

/-- Layout is skipped, whatever stands behind it. -/
theorem Layout.layoutLength_append {atEnd : Bool} {gap s : List Char} (h : Layout atEnd gap)
    (hs : atEnd = true → ∀ c ∈ s.head?, c = '\n') :
    layoutLength (gap ++ s) = layoutLength.shift gap.length (layoutLength s) := by
  induction h with
  | nil => cases hr : layoutLength s <;> simp [layoutLength.shift, hr]
  | blank hc _ ih =>
    rw [List.cons_append, layoutLength_blank _ hc, ih, shift_shift, List.length_cons]
  | @line body cs hbody _ ih =>
    simp only [List.cons_append, List.append_assoc] at ih ⊢
    rw [layoutLength_line, takeWhile_ne_append hbody, List.drop_left, ih, shift_shift]
    congr 1
    simp
    omega
  | @lastLine body hend hbody =>
    have hline : (body ++ s).takeWhile (· ≠ '\n') = body :=
      takeWhile_run (forall_ne_of_not_mem hbody) fun c hc => by simp [hs hend c hc]
    rw [List.cons_append, List.cons_append, layoutLength_line, hline, List.drop_left]
    rfl
  | @block body cs hbody _ ih =>
    have hclose : commentLength? (body ++ '*' :: '/' :: (cs ++ s)) = some (body.length + 2) :=
      commentLength?_eq_some_iff.mpr ⟨body, _, rfl, hbody, rfl⟩
    have hrest : (body ++ '*' :: '/' :: (cs ++ s)).drop (body.length + 2) = cs ++ s := by
      rw [← List.drop_drop, List.drop_left]
      rfl
    simp only [List.cons_append, List.append_assoc]
    rw [layoutLength_block hclose, hrest, ih, shift_shift]
    congr 1
    simp
    omega

/-- What the scanner skips is layout, and what it stops at is none. -/
theorem layoutLength_cases {cs : List Char} {n : Nat} (h : layoutLength cs = .ok n) :
    ∃ gap rest, cs = gap ++ rest ∧ n = gap.length ∧ Bare rest ∧ Layout rest.isEmpty gap := by
  fun_induction layoutLength cs generalizing n with
  | case1 =>
    cases h
    exact ⟨[], [], rfl, rfl, trivial, .nil⟩
  | case2 =>
    rename_i cs line ih
    obtain ⟨k, hk, rfl⟩ := shift_eq_ok.mp h
    obtain ⟨gap, rest, hrest, rfl, hbare, hgap⟩ := ih hk
    obtain ⟨others, hcs, hline, hend⟩ :
        ∃ others, cs = line ++ others ∧ '\n' ∉ line ∧ ∀ c ∈ others.head?, c = '\n' :=
      takeWhile_line_cases cs
    obtain rfl : others = gap ++ rest := by rw [← hrest, hcs, List.drop_left]
    refine ⟨'/' :: '/' :: (line ++ gap), rest, ?_, ?_, hbare, ?_⟩
    · simpa only [List.cons_append, List.append_assoc, List.cons.injEq, true_and] using hcs
    · simp only [List.length_cons, List.length_append]
      omega
    · cases gap with
      | nil =>
        -- a comment without a line end behind it reaches the end of the text
        cases rest with
        | nil =>
          rw [List.append_nil]
          exact .lastLine rfl hline
        | cons c rest =>
          obtain rfl : c = '\n' := hend c rfl
          exact absurd hbare.1 (by decide)
      | cons c gap =>
        obtain rfl : c = '\n' := hend c rfl
        exact .line hline hgap
  | case3 => cases h
  | case4 cs n hn ih =>
    obtain ⟨k, hk, rfl⟩ := shift_eq_ok.mp h
    obtain ⟨gap, rest, hrest, rfl, hbare, hgap⟩ := ih hk
    obtain ⟨body, others, rfl, hbody, rfl⟩ := commentLength?_eq_some_iff.mp hn
    obtain rfl : others = gap ++ rest := by
      rw [← hrest, ← List.drop_drop, List.drop_left]
      rfl
    refine ⟨'/' :: '*' :: (body ++ '*' :: '/' :: gap), rest, by simp, ?_, hbare, .block hbody hgap⟩
    simp only [List.length_cons, List.length_append]
    omega
  | case5 c cs _ _ hblank ih =>
    obtain ⟨k, hk, rfl⟩ := shift_eq_ok.mp h
    obtain ⟨gap, rest, rfl, rfl, hbare, hgap⟩ := ih hk
    exact ⟨c :: gap, rest, rfl, rfl, hbare, .blank hblank hgap⟩
  | case6 c cs hline hblock hblank =>
    cases h
    refine ⟨[], c :: cs, rfl, rfl, ⟨by simpa using hblank, fun hc d hd => ?_⟩, .nil⟩
    obtain ⟨ds, rfl⟩ := List.head?_eq_some_iff.mp hd
    exact ⟨fun he => hline ds hc (by rw [he]), fun he => hblock ds hc (by rw [he])⟩

/-- Layout goes on as far as it can. -/
theorem bare_drop {cs : List Char} {n : Nat} (h : layoutLength cs = .ok n) : Bare (cs.drop n) := by
  obtain ⟨gap, rest, rfl, rfl, hbare, -⟩ := layoutLength_cases h
  rwa [List.drop_left]

theorem layoutLength_le {cs : List Char} {n : Nat} (h : layoutLength cs = .ok n) :
    n ≤ cs.length := by
  obtain ⟨gap, rest, rfl, rfl, -, -⟩ := layoutLength_cases h
  simp

/-- The layout in front of a text that does not end there is complete. -/
theorem Layout.of_layoutLength {gap rest : List Char}
    (h : layoutLength (gap ++ rest) = .ok gap.length) : Layout rest.isEmpty gap := by
  obtain ⟨gap', rest', heq, hlen, -, hgap⟩ := layoutLength_cases h
  obtain ⟨rfl, rfl⟩ := List.append_inj heq hlen
  exact hgap

end Covenant.Lexer
