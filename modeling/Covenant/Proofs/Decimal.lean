/-
Integers in ASCII decimal. An integer that was read, in the digits of whatever script,
has few enough of them to be read again from its ASCII form
(`Number.readInteger_repr`), and that form is a single word (`Lexer.Legible.integer`).
-/
import Covenant.Proofs.Spelling
import Mathlib.Algebra.Group.Nat.Defs

namespace Covenant

open Covenant.Text Covenant.Number

namespace Number

theorem decimalValue?_lt {c : Char} {d : Nat} (h : decimalValue? c = some d) : d < 10 := by
  obtain ⟨first, hfind, rfl⟩ := Option.map_eq_some_iff.mp h
  have := List.find?_some hfind
  simp only [Bool.and_eq_true, decide_eq_true_eq] at this
  omega

theorem decimalValue?_digitChar {d : Nat} (h : d < 10) : decimalValue? d.digitChar = some d := by
  have : ∀ d < 10, decimalValue? (Nat.digitChar d) = some d := by decide
  exact this d h

theorem mem_toDigits {n : Nat} {c : Char} (h : c ∈ Nat.toDigits 10 n) :
    ∃ d < 10, c = Nat.digitChar d := by
  induction n using Nat.strongRecOn with
  | ind n ih =>
    rw [Nat.toDigits_eq_if (by decide)] at h
    split at h
    · exact ⟨n, ‹_›, by simpa using h⟩
    · rw [List.mem_append, List.mem_singleton] at h
      rcases h with h | h
      · exact ih (n / 10) (by omega) h
      · exact ⟨n % 10, by omega, h⟩

theorem decimalValue?_of_mem_toDigits {n : Nat} {c : Char} (h : c ∈ Nat.toDigits 10 n) :
    (decimalValue? c).isSome = true := by
  obtain ⟨d, hd, rfl⟩ := mem_toDigits h
  rw [decimalValue?_digitChar hd]
  rfl

theorem decimalNat_snoc (cs : List Char) (c : Char) :
    decimalNat (cs ++ [c]) = 10 * decimalNat cs + (decimalValue? c).getD 0 := by
  simp [decimalNat]

theorem decimalNat_toDigits (n : Nat) : decimalNat (Nat.toDigits 10 n) = n := by
  induction n using Nat.strongRecOn with
  | ind n ih =>
    rw [Nat.toDigits_eq_if (by decide)]
    split
    · rename_i hn
      simp [decimalNat, decimalValue?_digitChar hn]
    · rw [decimalNat_snoc, ih (n / 10) (by omega), decimalValue?_digitChar (by omega)]
      simp only [Option.getD_some]
      omega

theorem decimalValue?_getD_le (c : Char) : (decimalValue? c).getD 0 ≤ 9 := by
  cases h : decimalValue? c with
  | none => exact Nat.zero_le _
  | some d => exact Nat.le_of_lt_succ (decimalValue?_lt h)

theorem decimalNat_lt (cs : List Char) : decimalNat cs < 10 ^ cs.length := by
  have hfold : ∀ n, cs.foldl (fun n c => 10 * n + (decimalValue? c).getD 0) n <
      (n + 1) * 10 ^ cs.length := by
    induction cs with
    | nil => intro n; simp
    | cons c cs ih =>
      intro n
      have hc := decimalValue?_getD_le c
      calc _ < (10 * n + (decimalValue? c).getD 0 + 1) * 10 ^ cs.length := ih _
        _ ≤ ((n + 1) * 10) * 10 ^ cs.length := Nat.mul_le_mul_right _ (by omega)
        _ = (n + 1) * 10 ^ (c :: cs).length := by
          rw [List.length_cons, Nat.pow_succ', Nat.mul_assoc]
  simpa [decimalNat] using hfold 0

/-- An integer that was read has no more digits than an integer may have. -/
theorem readInteger_bound {text : String} {n : Int} (h : readInteger text = .ok n) :
    n.natAbs < 10 ^ maxIntegerDigits := by
  unfold readInteger at h
  generalize splitSign (text.toList.dropWhile isPadding) = parts at h
  obtain ⟨negative, cs⟩ := parts
  dsimp only at h
  split at h
  · cases h
  · rename_i digits _
    split at h
    · cases h
    · rename_i hmost
      split at h
      · cases h
      · cases h
        have hpow : 10 ^ digits.length ≤ 10 ^ maxIntegerDigits :=
          Nat.pow_le_pow_right (by decide) (Nat.not_lt.mp hmost)
        have := decimalNat_lt digits
        split <;> omega

/-! ## Texts without padding and underscores -/

theorem withoutUnderscores?_of_not_mem {cs : List Char} (h : '_' ∉ cs) (afterDigit : Bool) :
    withoutUnderscores? afterDigit cs = some cs := by
  induction cs generalizing afterDigit with
  | nil => rfl
  | cons c cs ih =>
    rw [List.mem_cons, not_or] at h
    simp [withoutUnderscores?, Ne.symm h.1, ih h.2]

/-- The code points of a table. -/
def codes (table : CharTable) : List Nat :=
  table.flatMap fun (first, last) => List.range' first (last + 1 - first)

theorem mem_codes_of_covers {table : CharTable} {n : Nat} (h : table.covers n = true) :
    n ∈ codes table := by
  induction table with
  | nil => cases h
  | cons range table ih =>
    obtain ⟨first, last⟩ := range
    simp only [CharTable.covers] at h
    rw [codes, List.flatMap_cons, List.mem_append, List.mem_range'_1]
    split at h
    · cases h
    · split at h
      · exact .inl (by omega)
      · exact .inr (ih h)

/-- No digit has one of these code points, so a character that has one is no digit. -/
theorem isDigit_of_code {codes : List Nat} (h : ∀ n ∈ codes, isDigit (Char.ofNat n) = false)
    {c : Char} (hc : c.toNat ∈ codes) : isDigit c = false := by
  simpa only [Char.ofNat_toNat] using h c.toNat hc

theorem isPadding_of_isDigit {c : Char} (h : isDigit c = true) : isPadding c = false := by
  have hblank : ∀ n ∈ codes blankTable, isDigit (Char.ofNat n) = false := by decide
  cases hpadding : isPadding c with
  | false => rfl
  | true =>
    have hcovers := (Bool.and_eq_true_iff.mp hpadding).1
    exact absurd h (by simp [isDigit_of_code hblank (mem_codes_of_covers hcovers)])

theorem dropWhile_isPadding {cs : List Char} (h : ∀ c ∈ cs, isPadding c = false) :
    cs.dropWhile isPadding = cs := by
  cases cs with
  | nil => rfl
  | cons c cs => rw [List.dropWhile_cons_of_neg (by simp [h c List.mem_cons_self])]

theorem all_isPadding {cs : List Char} (h : ∀ c ∈ cs, isPadding c = false) :
    cs.all isPadding = cs.isEmpty := by
  cases cs with
  | nil => rfl
  | cons c cs => simp [h c List.mem_cons_self]

theorem span_isIntegerChar {cs : List Char} (h : '_' ∉ cs) :
    cs.takeWhile isIntegerChar = cs.takeWhile isDecimal ∧
      cs.dropWhile isIntegerChar = cs.dropWhile isDecimal := by
  induction cs with
  | nil => exact ⟨rfl, rfl⟩
  | cons c cs ih =>
    rw [List.mem_cons, not_or] at h
    have hc : isIntegerChar c = isDecimal c := by simp [isIntegerChar, Ne.symm h.1]
    obtain ⟨htake, hdrop⟩ := ih h.2
    rw [List.takeWhile_cons, List.takeWhile_cons, List.dropWhile_cons,
      List.dropWhile_cons, hc, htake, hdrop]
    exact ⟨rfl, rfl⟩

theorem mem_of_mem_splitSign {cs : List Char} {c : Char} (h : c ∈ (splitSign cs).2) : c ∈ cs := by
  unfold splitSign at h
  split at h
  · exact List.mem_cons_of_mem _ h
  · exact List.mem_cons_of_mem _ h
  · exact h

/-- A text without white space and underscores is read as an integer by its digits up to the first
character that is none. -/
theorem readInteger_of_plain {text : String} (hpadding : ∀ c ∈ text.toList, isPadding c = false)
    (hunderscore : '_' ∉ text.toList) :
    let cs := (splitSign text.toList).2
    let digits := cs.takeWhile isDecimal
    readInteger text =
      if maxIntegerDigits < digits.length then .error (.tooManyDigits digits.length)
      else if digits.isEmpty || !(cs.dropWhile isDecimal).isEmpty then .error (.notInteger text)
      else .ok (if (splitSign text.toList).1 then -decimalNat digits else decimalNat digits) := by
  unfold readInteger
  rw [dropWhile_isPadding hpadding]
  have hcs (c : Char) (hc : c ∈ (splitSign text.toList).2) : c ∈ text.toList :=
    mem_of_mem_splitSign hc
  generalize splitSign text.toList = parts at hcs
  obtain ⟨negative, cs⟩ := parts
  dsimp only at hcs ⊢
  obtain ⟨htake, hdrop⟩ := span_isIntegerChar (mt (hcs '_') hunderscore)
  have hdigits : '_' ∉ cs.takeWhile isDecimal := fun hmem =>
    hunderscore (hcs _ ((List.takeWhile_sublist _).subset hmem))
  have hrest : ∀ c ∈ cs.dropWhile isDecimal, isPadding c = false := fun c hc =>
    hpadding c (hcs c ((List.dropWhile_sublist _).subset hc))
  rw [htake, hdrop, withoutUnderscores?_of_not_mem hdigits, all_isPadding hrest]

/-! ## ASCII digits -/

theorem repr_toList (n : Int) :
    n.repr.toList = if n < 0 then '-' :: Nat.toDigits 10 n.natAbs
      else Nat.toDigits 10 n.natAbs := by
  rw [Int.repr_eq_if]
  split <;> split
  · omega
  · rw [Nat.toList_repr, show n.toNat = n.natAbs by omega]
  · rw [String.toList_append, Nat.toList_repr, show (-n).toNat = n.natAbs by omega]
    rfl
  · omega

theorem splitSign_of_digit {c : Char} {cs : List Char} (h : isDigit c = true) :
    splitSign (c :: cs) = (false, c :: cs) := by
  unfold splitSign
  split
  · simp_all [show isDigit '-' = false by decide]
  · simp_all [show isDigit '+' = false by decide]
  · rfl

theorem isDigit_of_mem_toDigits {n : Nat} {c : Char} (h : c ∈ Nat.toDigits 10 n) :
    isDigit c = true := by
  simp [isDigit, decimalValue?_of_mem_toDigits h]

theorem splitSign_repr (n : Int) :
    splitSign n.repr.toList = (decide (n < 0), Nat.toDigits 10 n.natAbs) := by
  rw [repr_toList]
  split
  · rename_i hn
    simp [splitSign, hn]
  · rename_i hn
    obtain ⟨d, ds, hdigits⟩ :=
      List.exists_cons_of_ne_nil (List.ne_nil_of_length_pos (@Nat.length_toDigits_pos 10 n.natAbs))
    have hd : isDigit d = true :=
      isDigit_of_mem_toDigits (show d ∈ Nat.toDigits 10 n.natAbs by simp [hdigits])
    rw [hdigits, splitSign_of_digit hd, decide_eq_false hn]

/-- The ASCII form of an integer is read as that integer, unless it is too long. -/
theorem readInteger_repr {n : Int} (h : n.natAbs < 10 ^ maxIntegerDigits) :
    readInteger n.repr = .ok n := by
  have hlen : (Nat.toDigits 10 n.natAbs).length ≤ maxIntegerDigits :=
    (Nat.length_toDigits_le_iff (by decide) (by decide)).mpr h
  have hdecimal : ∀ c ∈ Nat.toDigits 10 n.natAbs, isDecimal c = true := fun c hc =>
    decimalValue?_of_mem_toDigits hc
  have hchars : ∀ c ∈ n.repr.toList, c = '-' ∨ isDigit c = true := by
    intro c hc
    rw [repr_toList] at hc
    split at hc
    · exact (List.mem_cons.mp hc).imp_right isDigit_of_mem_toDigits
    · exact .inr (isDigit_of_mem_toDigits hc)
  have hpadding : ∀ c ∈ n.repr.toList, isPadding c = false := by
    intro c hc
    obtain rfl | hdigit := hchars c hc
    · decide
    · exact isPadding_of_isDigit hdigit
  have hunderscore : '_' ∉ n.repr.toList := fun hmem => absurd (hchars _ hmem) (by decide)
  rw [readInteger_of_plain hpadding hunderscore, splitSign_repr]
  dsimp only
  rw [List.takeWhile_eq_self_iff.mpr hdecimal, List.dropWhile_eq_nil_iff.mpr hdecimal,
    if_neg (by omega), decimalNat_toDigits, if_neg]
  · congr 1
    by_cases hn : n < 0
    · rw [if_pos (decide_eq_true hn)]
      omega
    · rw [if_neg (by simpa using hn)]
      omega
  · simp [Nat.toDigits_ne_nil]

end Number

namespace Lexer

theorem numeralLength_digits {ds rest : List Char} (h : ∀ d ∈ ds, isDigit d = true)
    (hs : Ends rest) : numeralLength (ds ++ rest) = (ds.length, false) := by
  have hwhole : digitsLength (ds ++ rest) = ds.length := by
    rw [digitsLength, takeWhile_ends hs (by decide), List.takeWhile_eq_self_iff.mpr h]
  simp [numeralLength, hwhole, hs.halts.fractionLength, hs.halts.exponentLength]

theorem Ordinary.digits {c : Char} {ds rest : List Char} (h : ∀ d ∈ c :: ds, isDigit d = true)
    (hs : Ends rest) : Ordinary c (ds ++ rest) ⟨.integer, c :: ds, ds.length⟩ := by
  have hc : isDigit c = true := h c (by simp)
  have hsign : c ≠ '-' := by
    rintro rfl
    exact absurd hc (by decide)
  have hlength := numeralLength_digits h hs
  rw [List.cons_append] at hlength
  have : Ordinary c (ds ++ rest) _ := .numeral hc
  simpa [Lexer.numeral, hsign, hlength, verbatim] using this

theorem Ordinary.negativeDigits {ds rest : List Char} (hne : ds ≠ [])
    (h : ∀ d ∈ ds, isDigit d = true) (hs : Ends rest) :
    Ordinary '-' (ds ++ rest) ⟨.integer, '-' :: ds, ds.length⟩ := by
  have hstart : startsWithDigit (ds ++ rest) = true := by
    cases ds with
    | nil => exact absurd rfl hne
    | cons d ds => exact h d (by simp)
  have := Ordinary.negative rfl hstart
  simpa [Lexer.numeral, numeralLength_digits h hs, verbatim] using this

/-- The ASCII form of an integer is a single word. -/
theorem Legible.integer {previous : Option TokenKind} (h : Plain previous) (n : Int) :
    Legible previous ⟨.integer, n.repr⟩ := by
  have hdigits : ∀ d ∈ Nat.toDigits 10 n.natAbs, isDigit d = true :=
    fun d hd => isDigit_of_mem_toDigits hd
  have htext := repr_toList n
  split at htext
  · refine .of_ordinary '-' (Nat.toDigits 10 n.natAbs) htext
      (fun rest _ => bare_cons _ (by decide) (by decide)) (fun rest _ => h.locates _)
      (fun ha => absurd ha h.2) (fun rest hs => ?_)
    rw [htext]
    exact .negativeDigits Nat.toDigits_ne_nil hdigits hs
  · cases hds : Nat.toDigits 10 n.natAbs with
    | nil => exact absurd hds Nat.toDigits_ne_nil
    | cons d ds =>
      rw [hds] at hdigits htext
      have hd : isDigit d = true := hdigits d (by simp)
      have hslash : d ≠ '/' := by
        rintro rfl
        exact absurd hd (by decide)
      refine .of_ordinary d ds htext
        (fun rest _ => bare_cons _ (not_blank_of_test hd (by decide +kernel)) hslash)
        (fun rest _ => h.locates _) (fun ha => absurd ha h.2) (fun rest hs => ?_)
      rw [htext]
      exact .digits hdigits hs

end Lexer

end Covenant
