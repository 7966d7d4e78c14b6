/-
A lexeme ends for good: once the characters it takes are known, what stands
behind them can be cut off and replaced by a blank, by a line end, by the mark of a
decorator or by nothing, and the same characters still make the same lexeme
(`Lexer.Ordinary.cut`, `Lexer.versionLength_cut`). Every scanner looks ahead a
little, so each of them has to be shown to take no character whose reason lies in
the part that is cut off.

There is one exception. A point inside a version is taken if a lower-case
character follows, and a few of these characters cannot stand in a version or
start a lexeme at all; the text then breaks off there in any case.
-/
import Covenant.Token.Lexer
import Mathlib.Data.List.TakeWhile

namespace Covenant.Lexer

open Covenant.Text

/-- The characters behind which a text can be cut: a blank, a line end and the mark of a
decorator go on with no lexeme. -/
def haltChars : List Char :=
  [' ', '\n', '@']

/-- One of these characters or the end. -/
def Halts (s : List Char) : Prop :=
  ∀ b ∈ s.head?, b ∈ haltChars

theorem Halts.nil : Halts [] := by simp [Halts]

theorem Halts.blank (s : List Char) : Halts (' ' :: s) := by simp [Halts, haltChars]

/-- A test that none of the characters passes stops there. -/
theorem Halts.fails {s : List Char} {test : Char → Bool} (h : Halts s)
    (htest : haltChars.all (!test ·) = true) : ∀ b ∈ s.head?, test b = false := by
  intro b hm
  simpa using List.all_eq_true.mp htest b (h b hm)

theorem Halts.head {b : Char} {s : List Char} (h : Halts (b :: s)) :
    b = ' ' ∨ b = '\n' ∨ b = '@' := by
  simpa [haltChars] using h b rfl

/-! ## Runs of characters -/

theorem take_takeWhile_length (test : Char → Bool) (cs : List Char) :
    cs.take (cs.takeWhile test).length = cs.takeWhile test :=
  (List.prefix_iff_eq_take.mp (List.takeWhile_prefix test)).symm

/-- A run that ends before the cut is the same run after it. -/
theorem takeWhile_cut {test : Char → Bool} {cs s : List Char} {k : Nat}
    (hs : ∀ b ∈ s.head?, test b = false) (hk : (cs.takeWhile test).length ≤ k) :
    (cs.take k ++ s).takeWhile test = cs.takeWhile test := by
  induction cs generalizing k with
  | nil =>
    cases s with
    | nil => simp
    | cons b s => simp [hs b (by simp)]
  | cons c cs ih =>
    by_cases hc : test c = true
    · rw [List.takeWhile_cons_of_pos hc, List.length_cons] at hk
      obtain ⟨k, rfl⟩ : ∃ j, k = j + 1 := ⟨k - 1, by omega⟩
      rw [List.take_succ_cons, List.cons_append, List.takeWhile_cons_of_pos hc,
        List.takeWhile_cons_of_pos hc, ih (by omega)]
    · cases k with
      | zero =>
        rw [List.takeWhile_cons_of_neg hc]
        cases s with
        | nil => simp
        | cons b s => simp [hs b (by simp)]
      | succ k => simp [hc]

/-- What is left behind the first characters after a cut. -/
theorem drop_cut {cs s : List Char} {n k : Nat} (hn : n ≤ k) (hl : n ≤ cs.length) :
    (cs.take k ++ s).drop n = (cs.drop n).take (k - n) ++ s := by
  rw [List.drop_append_of_le_length (by rw [List.length_take]; omega), List.drop_take]

theorem take_cut {cs s : List Char} {n k : Nat} (hn : n ≤ k) (hl : n ≤ cs.length) :
    (cs.take k ++ s).take n = cs.take n := by
  rw [List.take_append_of_le_length (by rw [List.length_take]; omega), List.take_take,
    Nat.min_eq_left hn]

theorem isDigit_halts : haltChars.all (!isDigit ·) = true := by decide

theorem Halts.not_digit {s : List Char} (h : Halts s) : startsWithDigit s = false := by
  cases s with
  | nil => rfl
  | cons b s => exact h.fails isDigit_halts b rfl

theorem digitsLength_le (cs : List Char) : digitsLength cs ≤ cs.length :=
  (List.takeWhile_sublist _).length_le

theorem digitsLength_cut {cs s : List Char} {k : Nat} (hs : Halts s) (hk : digitsLength cs ≤ k) :
    digitsLength (cs.take k ++ s) = digitsLength cs := by
  rw [digitsLength, takeWhile_cut (hs.fails isDigit_halts) hk, digitsLength]

theorem digitsLength_pos {cs : List Char} : 0 < digitsLength cs ↔ startsWithDigit cs = true := by
  cases cs with
  | nil => simp [digitsLength, startsWithDigit]
  | cons c cs => by_cases hc : isDigit c = true <;> simp [digitsLength, startsWithDigit, hc]

theorem startsWithDigit_cut {cs s : List Char} {k : Nat} (hs : Halts s)
    (hk : startsWithDigit cs = true → 0 < k) :
    startsWithDigit (cs.take k ++ s) = startsWithDigit cs := by
  cases cs with
  | nil => simpa [startsWithDigit] using hs.not_digit
  | cons c cs =>
    cases k with
    | zero =>
      have hc : startsWithDigit (c :: cs) = false := by
        cases h : startsWithDigit (c :: cs) with
        | false => rfl
        | true => exact absurd (hk h) (by simp)
      simpa [hc] using hs.not_digit
    | succ k => rfl

/-! ## Numerals -/

theorem fractionLength_le (cs : List Char) : fractionLength cs ≤ cs.length := by
  unfold fractionLength
  split
  · have := digitsLength_le ‹List Char›
    split <;> simp only [List.length_cons] <;> omega
  · omega

theorem Halts.fractionLength {s : List Char} (h : Halts s) : fractionLength s = 0 := by
  cases s with
  | nil => rfl
  | cons b s => rcases h.head with rfl | rfl | rfl <;> rfl

theorem fractionLength_cut {cs s : List Char} {k : Nat} (hs : Halts s)
    (hk : fractionLength cs ≤ k) :
    fractionLength (cs.take k ++ s) = fractionLength cs := by
  cases k with
  | zero =>
    rw [List.take_zero, List.nil_append, hs.fractionLength]
    omega
  | succ k =>
    cases cs with
    | nil => exact hs.fractionLength
    | cons c cs =>
      rw [List.take_succ_cons, List.cons_append]
      by_cases hc : c = '.'
      · subst hc
        simp only [Lexer.fractionLength] at hk ⊢
        by_cases hd : startsWithDigit cs = true
        · have := digitsLength_pos.mpr hd
          rw [if_pos hd] at hk
          rw [startsWithDigit_cut hs (by omega), digitsLength_cut hs (by omega)]
        · rw [startsWithDigit_cut hs (fun h => absurd h hd), if_neg hd, if_neg hd]
      · simp [Lexer.fractionLength, hc]

theorem signLength_le (cs : List Char) : signLength cs ≤ cs.length := by
  cases cs with
  | nil => simp [signLength]
  | cons c cs =>
    simp only [signLength, List.length_cons]
    split <;> omega

theorem exponentLength_le (cs : List Char) : exponentLength cs ≤ cs.length := by
  cases cs with
  | nil => simp [exponentLength]
  | cons c cs =>
    rw [exponentLength]
    have := digitsLength_le (cs.drop (signLength cs))
    have := signLength_le cs
    simp only [List.length_drop, List.length_cons] at *
    repeat' split
    all_goals omega

theorem Halts.signLength {s : List Char} (h : Halts s) : signLength s = 0 := by
  cases s with
  | nil => rfl
  | cons b s => rcases h.head with rfl | rfl | rfl <;> rfl

theorem Halts.exponentLength {s : List Char} (h : Halts s) : exponentLength s = 0 := by
  cases s with
  | nil => rfl
  | cons b s => rcases h.head with rfl | rfl | rfl <;> rfl

theorem signLength_cut {cs s : List Char} {k : Nat} (hs : Halts s) (hk : signLength cs ≤ k) :
    signLength (cs.take k ++ s) = signLength cs := by
  cases k with
  | zero =>
    rw [List.take_zero, List.nil_append, hs.signLength]
    omega
  | succ k =>
    cases cs with
    | nil => exact hs.signLength
    | cons c cs => rfl

theorem exponentLength_cut {cs s : List Char} {k : Nat} (hs : Halts s)
    (hk : exponentLength cs ≤ k) :
    exponentLength (cs.take k ++ s) = exponentLength cs := by
  cases k with
  | zero =>
    rw [List.take_zero, List.nil_append, hs.exponentLength]
    omega
  | succ k =>
    cases cs with
    | nil => exact hs.exponentLength
    | cons c cs =>
      rw [List.take_succ_cons, List.cons_append]
      rw [exponentLength] at hk ⊢
      rw [exponentLength]
      split
      · rename_i hc
        rw [if_pos hc] at hk
        by_cases hd : startsWithDigit (cs.drop (signLength cs)) = true
        · have := digitsLength_pos.mpr hd
          rw [if_pos hd] at hk
          rw [signLength_cut hs (by omega), drop_cut (by omega) (signLength_le cs),
            startsWithDigit_cut hs (by omega), digitsLength_cut hs (by omega)]
        · rw [if_neg hd]
          refine if_neg ?_
          -- A sign may lie before the cut or not; in neither case does a digit follow it.
          by_cases hsign : signLength cs ≤ k
          · rw [signLength_cut hs hsign, drop_cut hsign (signLength_le cs),
              startsWithDigit_cut hs (fun h => absurd h hd)]
            exact hd
          · obtain rfl : k = 0 := by
              have : signLength cs ≤ 1 := by
                cases cs with
                | nil => simp [signLength]
                | cons c cs => simp only [signLength]; split <;> omega
              omega
            rw [List.take_zero, List.nil_append, hs.signLength, List.drop_zero, hs.not_digit]
            simp
      · rfl

theorem numeralLength_le (cs : List Char) : (numeralLength cs).1 ≤ cs.length := by
  have h₁ := digitsLength_le cs
  have h₂ := fractionLength_le (cs.drop (digitsLength cs))
  have h₃ :=
    exponentLength_le (cs.drop (digitsLength cs + fractionLength (cs.drop (digitsLength cs))))
  simp only [numeralLength, List.length_drop] at *
  omega

theorem numeralLength_cut {cs s : List Char} {k : Nat} (hs : Halts s)
    (hk : (numeralLength cs).1 ≤ k) : numeralLength (cs.take k ++ s) = numeralLength cs := by
  have h₁ := digitsLength_le cs
  have h₂ := fractionLength_le (cs.drop (digitsLength cs))
  simp only [numeralLength, List.length_drop] at *
  rw [digitsLength_cut hs (by omega), drop_cut (by omega) h₁, fractionLength_cut hs (by omega),
    drop_cut (by omega) (by omega), exponentLength_cut hs (by omega)]

theorem numeral_kind (c : Char) (cs : List Char) :
    (numeral c cs).kind = .float ∨ (numeral c cs).kind = .integer := by
  have hkind : ∀ b : Bool, (if b then TokenKind.float else .integer) = .float ∨
      (if b then TokenKind.float else .integer) = .integer := by decide
  exact hkind _

theorem numeral_extent_le (c : Char) (cs : List Char) : (numeral c cs).extent ≤ cs.length := by
  simp only [numeral, verbatim]
  split
  · exact numeralLength_le cs
  · have := numeralLength_le (c :: cs)
    simp only [List.length_cons] at this ⊢
    omega

theorem numeral_cut {c : Char} {cs s : List Char} {k : Nat} (hs : Halts s)
    (hk : (numeral c cs).extent ≤ k) : numeral c (cs.take k ++ s) = numeral c cs := by
  have hl := numeral_extent_le c cs
  simp only [numeral, verbatim] at *
  split at hk
  · rename_i hc
    simp only [if_pos hc] at hl ⊢
    rw [numeralLength_cut hs hk, take_cut hk hl]
  · rename_i hc
    simp only [if_neg hc] at hl ⊢
    have : numeralLength ((c :: cs).take (k + 1) ++ s) = numeralLength (c :: cs) :=
      numeralLength_cut hs (by omega)
    rw [List.take_succ_cons, List.cons_append] at this
    rw [this, take_cut hk hl]

/-! ## Versions -/

theorem map_eq_ok {ε α β : Type} {x : Except ε α} {f : α → β} {b : β} :
    x.map f = .ok b ↔ ∃ a, x = .ok a ∧ f a = b := by
  cases x <;> simp [Except.map]

/-- A version ends with the run of digits at its front. -/
def LastPart (parts : Nat) (cs : List Char) : Prop :=
  ∀ rest, cs.drop (digitsLength cs) = '.' :: rest → parts = 0 ∨ startsWithDigit rest = false

theorem versionCoreLength_more {parts : Nat} {cs rest : List Char} (hpos : 0 < digitsLength cs)
    (hrest : cs.drop (digitsLength cs) = '.' :: rest) (hparts : parts ≠ 0)
    (hd : startsWithDigit rest = true) :
    versionCoreLength (parts + 1) cs =
      (versionCoreLength parts rest).map (· + (digitsLength cs + 1)) := by
  simp [versionCoreLength, hrest, hparts, hd, Nat.ne_of_gt hpos]

theorem versionCoreLength_last {parts : Nat} {cs : List Char} (hpos : 0 < digitsLength cs)
    (hlast : LastPart parts cs) : versionCoreLength (parts + 1) cs = .ok (digitsLength cs) := by
  simp only [versionCoreLength, if_neg (Nat.ne_of_gt hpos)]
  split
  · rename_i rest hrest
    rcases hlast rest hrest with h | h <;> simp [h]
  · rfl

/-- A version either goes on behind a point with one part less, or ends with its first part. -/
theorem versionCoreLength_cases {parts r : Nat} {cs : List Char}
    (h : versionCoreLength (parts + 1) cs = .ok r) : 0 < digitsLength cs ∧
      ((∃ rest n, cs.drop (digitsLength cs) = '.' :: rest ∧ parts ≠ 0 ∧
          startsWithDigit rest = true ∧ versionCoreLength parts rest = .ok n ∧
          r = n + (digitsLength cs + 1)) ∨
        (LastPart parts cs ∧ r = digitsLength cs)) := by
  have hpos : 0 < digitsLength cs := by
    refine Nat.pos_of_ne_zero fun hzero => ?_
    simp [versionCoreLength, hzero] at h
  refine ⟨hpos, ?_⟩
  by_cases hlast : LastPart parts cs
  · rw [versionCoreLength_last hpos hlast] at h
    cases h
    exact .inr ⟨hlast, rfl⟩
  · simp only [LastPart, Classical.not_forall, not_or, Bool.not_eq_false] at hlast
    obtain ⟨rest, hrest, hparts, hd⟩ := hlast
    rw [versionCoreLength_more hpos hrest hparts hd] at h
    obtain ⟨n, hn, rfl⟩ := map_eq_ok.mp h
    exact .inl ⟨rest, n, hrest, hparts, hd, hn, rfl⟩

theorem versionCoreLength_le {parts r : Nat} {cs : List Char}
    (h : versionCoreLength parts cs = .ok r) :
    r ≤ cs.length := by
  induction parts generalizing cs r with
  | zero =>
    simp only [versionCoreLength, Except.ok.injEq] at h
    omega
  | succ parts ih =>
    have hrun := digitsLength_le cs
    obtain ⟨-, ⟨rest, n, hrest, -, -, hcore, rfl⟩ | ⟨-, rfl⟩⟩ := versionCoreLength_cases h
    · have := ih hcore
      have := congrArg List.length hrest
      simp only [List.length_drop, List.length_cons] at this
      omega
    · exact hrun

theorem versionCoreLength_pos {parts r : Nat} {cs : List Char}
    (h : versionCoreLength (parts + 1) cs = .ok r) : 0 < r := by
  obtain ⟨hpos, ⟨rest, n, -, -, -, -, rfl⟩ | ⟨-, rfl⟩⟩ := versionCoreLength_cases h <;> omega

theorem Halts.head_ne {s rest : List Char} {c : Char} (h : Halts s) (hc : c ∉ haltChars) :
    s ≠ c :: rest := by
  rintro rfl
  exact hc (h c rfl)

theorem LastPart.cut {parts k : Nat} {cs s : List Char} (h : LastPart parts cs) (hs : Halts s)
    (hk : digitsLength cs ≤ k) : LastPart parts (cs.take k ++ s) := by
  intro rest hrest
  rw [digitsLength_cut hs hk, drop_cut hk (digitsLength_le cs)] at hrest
  cases hj : k - digitsLength cs with
  | zero =>
    rw [hj, List.take_zero, List.nil_append] at hrest
    exact absurd hrest (hs.head_ne (by decide))
  | succ j =>
    rw [hj] at hrest
    cases hcs : cs.drop (digitsLength cs) with
    | nil =>
      rw [hcs, List.take_nil, List.nil_append] at hrest
      exact absurd hrest (hs.head_ne (by decide))
    | cons c cs' =>
      rw [hcs, List.take_succ_cons, List.cons_append, List.cons.injEq] at hrest
      obtain ⟨rfl, rfl⟩ := hrest
      refine (h cs' hcs).imp_right fun hd => ?_
      rw [startsWithDigit_cut hs (by simp [hd]), hd]

theorem versionCoreLength_cut {parts r k : Nat} {cs s : List Char} (hs : Halts s)
    (h : versionCoreLength parts cs = .ok r) (hk : r ≤ k) :
    versionCoreLength parts (cs.take k ++ s) = .ok r := by
  induction parts generalizing cs r k with
  | zero => simpa [versionCoreLength] using h
  | succ parts ih =>
    obtain ⟨hpos, ⟨rest, n, hrest, hparts, hd, hcore, rfl⟩ | ⟨hlast, rfl⟩⟩ :=
      versionCoreLength_cases h
    · have hrun : digitsLength (cs.take k ++ s) = digitsLength cs := digitsLength_cut hs (by omega)
      obtain ⟨j, hj⟩ : ∃ j, k - digitsLength cs = j + 1 := ⟨k - digitsLength cs - 1, by omega⟩
      have hcut : (cs.take k ++ s).drop (digitsLength cs) = '.' :: (rest.take j ++ s) := by
        rw [drop_cut (by omega) (digitsLength_le cs), hrest, hj]
        rfl
      obtain ⟨parts, rfl⟩ : ∃ p, parts = p + 1 := ⟨parts - 1, by omega⟩
      have := versionCoreLength_pos hcore
      rw [versionCoreLength_more (hrun ▸ hpos) (hrun ▸ hcut) hparts
        (by rw [startsWithDigit_cut hs (by omega), hd]), ih hcore (by omega), hrun]
      rfl
    · rw [versionCoreLength_last (by rwa [digitsLength_cut hs hk]) (hlast.cut hs hk),
        digitsLength_cut hs hk]

/-- Not one of the few lower-case characters that can stand in no version and start no lexeme. -/
def Regular (c : Char) : Prop :=
  isLowerCase c = true → isAlphanumeric c = true

theorem isAlphanumeric_of_isDigit {c : Char} (h : isDigit c = true) : isAlphanumeric c = true := by
  simp [isAlphanumeric, h]

theorem isAlphanumeric_halts : haltChars.all (!isAlphanumeric ·) = true := by decide

theorem Halts.suffixLength {s : List Char} (h : Halts s) : suffixLength s = 0 := by
  cases s with
  | nil => simp [Lexer.suffixLength]
  | cons b s =>
    have hb := h.fails isAlphanumeric_halts b rfl
    rcases h.head with rfl | rfl | rfl <;> simp [Lexer.suffixLength, isSuffixChar, hb]

theorem suffixLength_le (cs : List Char) : suffixLength cs ≤ cs.length := by
  induction cs with
  | nil => simp [suffixLength]
  | cons c cs ih =>
    rw [suffixLength, List.length_cons]
    repeat' split
    all_goals omega

theorem Halts.pointGoesOn {s : List Char} (h : Halts s) : pointGoesOn s = false := by
  cases s with
  | nil => rfl
  | cons b s => rcases h.head with rfl | rfl | rfl <;> rfl

theorem pointGoesOn_cut {cs s : List Char} {k : Nat} (hs : Halts s)
    (hk : pointGoesOn cs = true → 0 < k) : pointGoesOn (cs.take k ++ s) = pointGoesOn cs := by
  cases cs with
  | nil => simpa [Lexer.pointGoesOn] using hs.pointGoesOn
  | cons c cs =>
    cases k with
    | zero =>
      cases h : Lexer.pointGoesOn (c :: cs) with
      | false => simpa using hs.pointGoesOn
      | true => exact absurd (hk h) (by simp)
    | succ k => rfl

/-- A point that is taken has a character behind it that is taken too, unless that character is
not regular. -/
theorem suffixLength_pos_of_pointGoesOn {cs : List Char} (h : pointGoesOn cs = true)
    (hr : ∀ d ∈ cs.head?, Regular d) : 0 < suffixLength cs := by
  cases cs with
  | nil => simp [pointGoesOn] at h
  | cons d cs =>
    have hd : isAlphanumeric d = true := by
      simp only [pointGoesOn, Bool.or_eq_true] at h
      exact h.elim isAlphanumeric_of_isDigit (hr d (by simp))
    rw [suffixLength, if_pos (by simp [isSuffixChar, hd])]
    omega

theorem suffixLength_cut {cs s : List Char} {k : Nat} (hs : Halts s) (hk : suffixLength cs ≤ k)
    (hr : ∀ d ∈ (cs.drop (suffixLength cs)).head?, Regular d) :
    suffixLength (cs.take k ++ s) = suffixLength cs := by
  induction cs generalizing k with
  | nil => simpa [Lexer.suffixLength] using hs.suffixLength
  | cons c cs ih =>
    cases k with
    | zero =>
      rw [List.take_zero, List.nil_append, hs.suffixLength]
      omega
    | succ k =>
      rw [List.take_succ_cons, List.cons_append]
      rw [suffixLength] at hk hr ⊢
      rw [suffixLength]
      split
      · rename_i hc
        rw [if_pos hc] at hk hr
        rw [ih (by omega) hr]
      · rename_i hc
        rw [if_neg hc] at hk hr
        split
        · rename_i hpoint
          rw [if_pos hpoint] at hk hr
          by_cases hgo : pointGoesOn cs = true
          · rw [if_pos hgo] at hk hr ⊢
            have hpos : 0 < suffixLength cs := by
              refine Nat.pos_of_ne_zero fun hzero => ?_
              rw [hzero] at hr
              have := suffixLength_pos_of_pointGoesOn hgo (by simpa using hr)
              omega
            rw [pointGoesOn_cut hs (by omega), if_pos hgo, ih (by omega) hr]
          · rw [if_neg hgo, pointGoesOn_cut hs (fun h => absurd h hgo), if_neg hgo]
        · rfl

theorem markedSuffixLength_le (cs : List Char) : markedSuffixLength cs ≤ cs.length := by
  unfold markedSuffixLength
  split
  · have := suffixLength_le (‹Char› :: ‹List Char›)
    split <;> simp only [List.length_cons] at * <;> omega
  · omega

theorem Halts.markedSuffixLength {s : List Char} (h : Halts s) : markedSuffixLength s = 0 := by
  unfold Lexer.markedSuffixLength
  split
  · rename_i mark next rest
    rcases h.head with rfl | rfl | rfl <;> simp
  · rfl

/-- A mark of a suffix alone makes none. -/
theorem Halts.markedSuffixLength_cons {s : List Char} (h : Halts s) (mark : Char) :
    Lexer.markedSuffixLength (mark :: s) = 0 := by
  cases s with
  | nil => rfl
  | cons b s => simp [Lexer.markedSuffixLength, h.fails isAlphanumeric_halts b rfl]

theorem markedSuffixLength_cut {cs s : List Char} {k : Nat} (hs : Halts s)
    (hk : markedSuffixLength cs ≤ k)
    (hr : ∀ d ∈ (cs.drop (markedSuffixLength cs)).head?, Regular d) :
    markedSuffixLength (cs.take k ++ s) = markedSuffixLength cs := by
  match cs, k with
  | _, 0 =>
    rw [List.take_zero, List.nil_append, hs.markedSuffixLength]
    omega
  | [], _ + 1 => exact hs.markedSuffixLength
  | [mark], _ + 1 => simpa [markedSuffixLength] using hs.markedSuffixLength_cons mark
  | mark :: next :: rest, 1 =>
    have hzero : markedSuffixLength (mark :: next :: rest) = 0 := by
      simp only [markedSuffixLength] at hk ⊢
      split at hk
      · rename_i hgo
        have hnext : isSuffixChar next = true := by
          simp only [Bool.and_eq_true] at hgo
          simp [isSuffixChar, hgo.2]
        rw [suffixLength, if_pos hnext] at hk
        omega
      · exact if_neg ‹_›
    rw [hzero]
    exact hs.markedSuffixLength_cons mark
  | mark :: next :: rest, k + 2 =>
    rw [List.take_succ_cons, List.take_succ_cons, List.cons_append, List.cons_append]
    simp only [markedSuffixLength] at hk hr ⊢
    split
    · rename_i hgo
      rw [if_pos hgo] at hk hr
      have hsuffix :
          suffixLength ((next :: rest).take (k + 1) ++ s) = suffixLength (next :: rest) :=
        suffixLength_cut hs (by omega) (by rw [Nat.add_comm] at hr; exact hr)
      rw [List.take_succ_cons, List.cons_append] at hsuffix
      rw [hsuffix]
    · rfl

theorem versionLength_le {cs : List Char} {r : Nat} (h : versionLength cs = .ok r) :
    r ≤ cs.length := by
  obtain ⟨core, hcore, rfl⟩ := map_eq_ok.mp h
  have := versionCoreLength_le hcore
  have := markedSuffixLength_le (cs.drop core)
  rw [List.length_drop] at this
  omega

theorem versionLength_pos {cs : List Char} {r : Nat} (h : versionLength cs = .ok r) : 0 < r := by
  obtain ⟨core, hcore, rfl⟩ := map_eq_ok.mp h
  have := versionCoreLength_pos hcore
  omega

theorem versionLength_cut {cs s : List Char} {r k : Nat} (hs : Halts s)
    (h : versionLength cs = .ok r) (hk : r ≤ k) (hr : ∀ d ∈ (cs.drop r).head?, Regular d) :
    versionLength (cs.take k ++ s) = .ok r := by
  obtain ⟨core, hcore, rfl⟩ := map_eq_ok.mp h
  have hle := versionCoreLength_le hcore
  rw [versionLength, versionCoreLength_cut hs hcore (by omega)]
  simp only [Except.map]
  rw [drop_cut (by omega) hle, markedSuffixLength_cut hs (by omega) (by rwa [List.drop_drop])]

/-- The characters that versions are made of. -/
def isVersionChar (c : Char) : Bool :=
  isSuffixChar c || c = '.' || c = '+'

theorem isVersionChar_digits {cs : List Char} :
    ∀ c ∈ cs.take (digitsLength cs), isVersionChar c = true := by
  intro c hc
  rw [digitsLength, take_takeWhile_length] at hc
  simp [isVersionChar, isSuffixChar, isAlphanumeric_of_isDigit (List.mem_takeWhile_imp hc)]

theorem isVersionChar_core {parts r : Nat} {cs : List Char}
    (h : versionCoreLength parts cs = .ok r) :
    ∀ c ∈ cs.take r, isVersionChar c = true := by
  induction parts generalizing cs r with
  | zero =>
    cases h
    simp
  | succ parts ih =>
    obtain ⟨-, ⟨rest, n, hrest, -, -, hcore, rfl⟩ | ⟨-, rfl⟩⟩ := versionCoreLength_cases h
    · rw [Nat.add_comm, Nat.add_assoc, Nat.add_comm 1, List.take_add, hrest, List.take_succ_cons]
      intro c hc
      rcases List.mem_append.mp hc with hc | hc
      · exact isVersionChar_digits c hc
      · rcases List.mem_cons.mp hc with rfl | hc
        · rfl
        · exact ih hcore c hc
    · exact isVersionChar_digits

theorem isVersionChar_suffix (cs : List Char) : ∀ c ∈ cs.take (suffixLength cs),
    isVersionChar c = true := by
  induction cs with
  | nil => simp
  | cons c cs ih =>
    rw [suffixLength]
    split
    · rename_i hc
      simpa [isVersionChar, hc] using ih
    · split
      · rename_i hc
        split
        · simpa [isVersionChar, hc] using ih
        · simp
      · simp

theorem isVersionChar_markedSuffix (cs : List Char) :
    ∀ c ∈ cs.take (markedSuffixLength cs), isVersionChar c = true := by
  unfold markedSuffixLength
  split
  · rename_i mark next rest
    split
    · rename_i hmark
      rw [Nat.add_comm, List.take_succ_cons, List.forall_mem_cons]
      refine ⟨?_, isVersionChar_suffix (next :: rest)⟩
      simp only [Bool.and_eq_true, Bool.or_eq_true, decide_eq_true_eq] at hmark
      rcases hmark.1 with rfl | rfl <;> simp [isVersionChar, isSuffixChar]
    · simp
  · simp

theorem isVersionChar_version {cs : List Char} {r : Nat} (h : versionLength cs = .ok r) :
    ∀ c ∈ cs.take r, isVersionChar c = true := by
  obtain ⟨core, hcore, rfl⟩ := map_eq_ok.mp h
  intro c hc
  rw [List.take_add] at hc
  exact (List.mem_append.mp hc).elim (isVersionChar_core hcore c) (isVersionChar_markedSuffix _ c)

/-! ## Patterns and strings -/

theorem patternLength?_le {cs : List Char} {r : Nat} (h : patternLength? cs = some r) :
    r ≤ cs.length := by
  fun_induction patternLength? cs generalizing r with
  | case1 => cases h
  | case2 => cases h
  | case3 => cases h; simp
  | case4 => cases h
  | case5 => cases h
  | case6 _ _ _ _ _ ih =>
    obtain ⟨n, hn, rfl⟩ := Option.map_eq_some_iff.mp h
    have := ih hn
    simp only [List.length_cons]
    omega
  | case7 c cs _ _ _ ih =>
    obtain ⟨n, hn, rfl⟩ := Option.map_eq_some_iff.mp h
    have := ih hn
    simp only [List.length_cons]
    omega

theorem patternLength?_cut {cs s : List Char} {r k : Nat} (h : patternLength? cs = some r)
    (hk : r ≤ k) : patternLength? (cs.take k ++ s) = some r := by
  fun_induction patternLength? cs generalizing r k with
  | case1 => cases h
  | case2 => cases h
  | case3 cs hne =>
    cases h
    obtain ⟨k, rfl⟩ : ∃ j, k = j + 1 := ⟨k - 1, by omega⟩
    rw [List.take_succ_cons, List.cons_append, patternLength?.eq_def]
    simp
  | case4 => cases h
  | case5 => cases h
  | case6 d ds hd _ _ ih =>
    obtain ⟨n, hn, rfl⟩ := Option.map_eq_some_iff.mp h
    obtain ⟨k, rfl⟩ : ∃ j, k = j + 2 := ⟨k - 2, by omega⟩
    have := ih (k := k) hn (by omega)
    rw [List.take_succ_cons, List.take_succ_cons, List.cons_append, List.cons_append,
      patternLength?.eq_def]
    simp [hd, this]
  | case7 c cs hline hslash hback ih =>
    obtain ⟨n, hn, rfl⟩ := Option.map_eq_some_iff.mp h
    obtain ⟨k, rfl⟩ : ∃ j, k = j + 1 := ⟨k - 1, by omega⟩
    have := ih (k := k) hn (by omega)
    rw [List.take_succ_cons, List.cons_append, patternLength?.eq_def]
    simp [hline, hslash, hback, this]

/-- The characters of a string, its closing quote included, are counted up from `n`. -/
theorem stringBody_le {quote : Char} {n m : Nat} {cs ds : List Char}
    (h : stringBody quote n cs = .ok (ds, m)) : n < m ∧ m ≤ n + cs.length := by
  fun_induction stringBody quote n cs generalizing ds m with
  | case1 => cases h
  | case2 => cases h; simp
  | case3 => cases h
  | case4 => cases h
  | case5 => cases h
  | case6 n _ _ _ _ _ _ ih =>
    obtain ⟨⟨ds', m'⟩, hrest, heq⟩ := map_eq_ok.mp h
    cases heq
    have := ih hrest
    simp only [List.length_cons]
    omega
  | case7 n c cs _ _ _ ih =>
    obtain ⟨⟨ds', m'⟩, hrest, heq⟩ := map_eq_ok.mp h
    cases heq
    have := ih hrest
    simp only [List.length_cons]
    omega

theorem stringBody_cut {quote : Char} {n m k : Nat} {cs ds s : List Char}
    (h : stringBody quote n cs = .ok (ds, m)) (hk : m ≤ n + k) :
    stringBody quote n (cs.take k ++ s) = .ok (ds, m) := by
  fun_induction stringBody quote n cs generalizing ds m k with
  | case1 => cases h
  | case2 n cs =>
    cases h
    obtain ⟨k, rfl⟩ : ∃ j, k = j + 1 := ⟨k - 1, by omega⟩
    rw [List.take_succ_cons, List.cons_append, stringBody.eq_def]
    simp
  | case3 => cases h
  | case4 => cases h
  | case5 => cases h
  | case6 n e cs d he hquote _ ih =>
    obtain ⟨⟨ds', m'⟩, hrest, heq⟩ := map_eq_ok.mp h
    cases heq
    have hm := stringBody_le hrest
    obtain ⟨k, rfl⟩ : ∃ j, k = j + 2 := ⟨k - 2, by omega⟩
    have := ih (k := k) hrest (by omega)
    rw [List.take_succ_cons, List.take_succ_cons, List.cons_append, List.cons_append,
      stringBody.eq_def]
    simp [hquote, he, this, Except.map]
  | case7 n c cs hquote hline hback ih =>
    obtain ⟨⟨ds', m'⟩, hrest, heq⟩ := map_eq_ok.mp h
    cases heq
    have hm := stringBody_le hrest
    obtain ⟨k, rfl⟩ : ∃ j, k = j + 1 := ⟨k - 1, by omega⟩
    have := ih (k := k) hrest (by omega)
    rw [List.take_succ_cons, List.cons_append, stringBody.eq_def]
    simp [hquote, hline, hback, this, Except.map]

/-! ## Lexemes -/

/-- What an ordinary lexeme can be. -/
inductive Ordinary (c : Char) (cs : List Char) : Lexeme → Prop
  | mark {m : Mark} : Mark.ofChar? c = some m → Ordinary c cs ⟨.mark m, [c], 0⟩
  | arrow : c = '-' → ['-', '>'] <+: cs → Ordinary c cs ⟨.mark .arrow, ['-', '-', '>'], 2⟩
  | negative : c = '-' → startsWithDigit cs = true → Ordinary c cs (numeral c cs)
  | numeral : isDigit c = true → Ordinary c cs (numeral c cs)
  | pattern {n : Nat} : c = '/' → patternLength? cs = some n →
    Ordinary c cs (verbatim .pattern c cs (n + ((cs.drop n).takeWhile isLetter).length))
  | string {value : List Char} {n : Nat} : c = '"' ∨ c = '\'' → stringBody c 0 cs = .ok (value, n) →
    Ordinary c cs ⟨.string, value, n⟩
  | word : isIdentifierStart c = true → isDigit c = false →
    Ordinary c cs (verbatim (wordKind (c :: cs.takeWhile isIdentifierChar)) c cs
      (cs.takeWhile isIdentifierChar).length)

theorem Ordinary.of_ordinary {c : Char} {cs : List Char} {x : Lexeme} (h : ordinary c cs = .ok x) :
    Ordinary c cs x := by
  unfold ordinary at h
  split at h
  · cases h
    exact .mark ‹_›
  split at h
  · rename_i hc
    split at h
    · rename_i hp
      cases h
      have hp := List.isPrefixOf_iff_prefix.mp hp
      have : verbatim (.mark .arrow) c cs 2 = ⟨.mark .arrow, ['-', '-', '>'], 2⟩ := by
        obtain ⟨rest, rfl⟩ := hp
        subst hc
        rfl
      rw [this]
      exact .arrow hc hp
    split at h
    · cases h
      exact .negative hc ‹_›
    · cases h
  split at h
  · split at h
    · cases h
    · cases h
      exact .pattern ‹_› ‹_›
  split at h
  · rename_i hc
    obtain ⟨⟨value, n⟩, hbody, rfl⟩ := map_eq_ok.mp h
    exact .string (by simpa using hc) hbody
  split at h
  · cases h
    exact .numeral ‹_›
  · rename_i hd
    split at h
    · cases h
      exact .word ‹_› (by simpa using hd)
    · cases h

/-- The characters that make marks, arrows, patterns and strings. -/
def signChars : List Char :=
  ['\x7b', '\x7d', '[', ']', '(', ')', ',', '.', '=', '@', '*', '-', '/', '"', '\'']

theorem ofChar?_eq_none {c : Char} (h : c ∉ signChars) : Mark.ofChar? c = none := by
  simp only [signChars, List.mem_cons, List.not_mem_nil, or_false, not_or] at h
  simp [Mark.ofChar?, h]

theorem not_mem_signChars {test : Char → Bool} {c : Char} (h : test c = true)
    (hs : signChars.all (!test ·) = true) : c ∉ signChars := by
  intro hm
  have := List.all_eq_true.mp hs c hm
  simp [h] at this

theorem digit_not_sign {c : Char} (h : isDigit c = true) : c ∉ signChars :=
  not_mem_signChars h (by decide)

theorem identifierStart_not_sign {c : Char} (h : isIdentifierStart c = true) : c ∉ signChars :=
  not_mem_signChars h (by decide)

theorem Ordinary.eq {c : Char} {cs : List Char} {x : Lexeme} (h : Ordinary c cs x) :
    ordinary c cs = .ok x := by
  cases h with
  | mark hm => simp [ordinary, hm, verbatim]
  | arrow hc hp =>
    subst hc
    obtain ⟨rest, rfl⟩ := hp
    rfl
  | negative hc hd =>
    subst hc
    have hp : ['-', '>'].isPrefixOf cs = false := by
      cases cs with
      | nil => rfl
      | cons d cs =>
        have : d ≠ '-' := by
          rintro rfl
          simp only [startsWithDigit] at hd
          exact absurd hd (by decide)
        simp [List.isPrefixOf, this.symm]
    simp [ordinary, Mark.ofChar?, hp, hd]
  | numeral hd =>
    have hs := digit_not_sign hd
    have hm := ofChar?_eq_none hs
    simp only [signChars, List.mem_cons, List.not_mem_nil, or_false, not_or] at hs
    simp [ordinary, hm, hs, hd]
  | pattern hc hn =>
    subst hc
    simp [ordinary, Mark.ofChar?, hn]
  | string hc hbody =>
    rcases hc with rfl | rfl <;> simp [ordinary, Mark.ofChar?, hbody, Except.map]
  | word hi hd =>
    have hs := identifierStart_not_sign hi
    have hm := ofChar?_eq_none hs
    simp only [signChars, List.mem_cons, List.not_mem_nil, or_false, not_or] at hs
    simp [ordinary, hm, hs, hd, hi]

theorem numeral_extent_pos {cs : List Char} (h : startsWithDigit cs = true) :
    0 < (numeral '-' cs).extent := by
  have := digitsLength_pos.mpr h
  simp only [numeral, verbatim, if_true, numeralLength]
  omega

theorem takeWhile_length_le (test : Char → Bool) (cs : List Char) :
    (cs.takeWhile test).length ≤ cs.length :=
  (List.takeWhile_sublist _).length_le

/-- An ordinary lexeme stays what it is if the text is cut anywhere behind it. -/
theorem Ordinary.cut {c : Char} {cs s : List Char} {x : Lexeme} {k : Nat} (h : Ordinary c cs x)
    (hs : Halts s) (hk : x.extent ≤ k) : Ordinary c (cs.take k ++ s) x := by
  cases h with
  | mark hm => exact .mark hm
  | arrow hc hp =>
    refine .arrow hc ?_
    obtain ⟨rest, rfl⟩ := hp
    obtain ⟨k, rfl⟩ : ∃ j, k = j + 2 := ⟨k - 2, by simp only at hk; omega⟩
    exact ⟨rest.take k ++ s, rfl⟩
  | negative hc hd =>
    subst hc
    have := numeral_extent_pos hd
    rw [← numeral_cut hs hk]
    exact .negative rfl (by rw [startsWithDigit_cut hs (by omega), hd])
  | numeral hd =>
    rw [← numeral_cut hs hk]
    exact .numeral hd
  | @pattern n hc hn =>
    have hle := patternLength?_le hn
    have hflags := takeWhile_length_le isLetter (cs.drop n)
    simp only [verbatim, List.length_drop] at hk hflags
    have hcut := patternLength?_cut (s := s) hn (k := k) (by omega)
    have hsame : ((cs.take k ++ s).drop n).takeWhile isLetter = (cs.drop n).takeWhile isLetter := by
      rw [drop_cut (by omega) hle, takeWhile_cut (hs.fails (by decide)) (by omega)]
    have := Ordinary.pattern hc hcut
    rw [hsame, verbatim, take_cut hk (by omega)] at this
    exact this
  | string hc hbody => exact .string hc (stringBody_cut hbody (by simpa using hk))
  | word hi hd =>
    simp only [verbatim] at hk
    have hstop : ∀ b ∈ s.head?, isIdentifierChar b = false := hs.fails (by decide)
    have hsame := takeWhile_cut hstop hk
    have : Ordinary c (cs.take k ++ s) _ := .word hi hd
    rw [hsame, verbatim, take_cut hk (takeWhile_length_le ..)] at this
    exact this

end Covenant.Lexer
