/-
Numerals are taken from a text by their digits and read by the values of these. Since some
digits have no value, and since an integer may not be too long, a numeral that was taken
from a text need not name a number. When it does not is seen from its characters alone
(`Reader.nameless_iff_unreadable`).

Both sides follow the way numerals are written: a sign, digits, a fraction and an exponent
(`Number.Signed`).
-/
import Covenant.Proofs.Decimal
import Covenant.Proofs.ReaderSound

namespace Covenant

open Covenant.Text Covenant.Number

namespace Number

/-! ## How numerals are written -/

/-- A digit without a decimal value, such as a superscript. -/
def isValueless (c : Char) : Bool :=
  isDigit c && (decimalValue? c).isNone

/-- Digits, one at least. -/
structure Digits (cs : List Char) : Prop where
  nonempty : cs ≠ []
  all : ∀ c ∈ cs, isDigit c = true

/-- A point with digits behind it, or nothing. -/
inductive FractionPart : List Char → Prop
  | absent : FractionPart []
  | present {ds : List Char} : Digits ds → FractionPart ('.' :: ds)

/-- The mark of an exponent, with or without a sign, and digits behind it; or nothing. -/
inductive ExponentPart : List Char → Prop
  | absent : ExponentPart []
  | present {mark : Char} {sign ds : List Char} : mark = 'e' ∨ mark = 'E' →
    sign ∈ [[], ['+'], ['-']] → Digits ds → ExponentPart (mark :: (sign ++ ds))

/-- How a numeral without a sign is written, and whether it is a floating point one. -/
inductive Unsigned : Bool → List Char → Prop
  | integer {whole : List Char} : Digits whole → Unsigned false whole
  | float {whole fraction exponent : List Char} : Digits whole → FractionPart fraction →
    ExponentPart exponent → fraction ++ exponent ≠ [] →
    Unsigned true (whole ++ (fraction ++ exponent))

/-- How a numeral is written. -/
inductive Signed (isFloat : Bool) : List Char → Prop
  | plain {cs : List Char} : Unsigned isFloat cs → Signed isFloat cs
  | negative {cs : List Char} : Unsigned isFloat cs → Signed isFloat ('-' :: cs)

theorem ne_of_test {test : Char → Bool} {c d : Char} (hc : test c = true) (hd : test d = false) :
    c ≠ d := by
  rintro rfl
  simp [hd] at hc

theorem Unsigned.starts {isFloat : Bool} {cs : List Char} (h : Unsigned isFloat cs) :
    ∃ c rest, cs = c :: rest ∧ isDigit c = true := by
  have first {ds : List Char} (hds : Digits ds) (rest : List Char) :
      ∃ c more, ds ++ rest = c :: more ∧ isDigit c = true := by
    obtain ⟨c, ds, rfl⟩ := List.exists_cons_of_ne_nil hds.nonempty
    exact ⟨c, ds ++ rest, rfl, hds.all c List.mem_cons_self⟩
  cases h with
  | integer hwhole => simpa using first hwhole []
  | float hwhole => exact first hwhole _

/-- A minus sign is split off, and nothing else is. -/
theorem Signed.splitSign {isFloat : Bool} {cs : List Char} (h : Signed isFloat cs) :
    Unsigned isFloat (splitSign cs).2 ∧ cs.any isValueless = (splitSign cs).2.any isValueless := by
  cases h with
  | negative hcs => exact ⟨hcs, by simp [Number.splitSign, show isValueless '-' = false by decide]⟩
  | plain hcs =>
    obtain ⟨c, rest, rfl, hc⟩ := hcs.starts
    rw [splitSign_of_digit hc]
    exact ⟨hcs, rfl⟩

/-- The characters of a numeral other than digits. -/
def numeralMarks : List Char :=
  ['.', 'e', 'E', '+', '-']

theorem FractionPart.chars {cs : List Char} (h : FractionPart cs) :
    ∀ c ∈ cs, isDigit c = true ∨ c ∈ numeralMarks := by
  cases h with
  | absent => simp
  | present hds =>
    exact List.forall_mem_cons.mpr ⟨.inr (by decide), fun c hc => .inl (hds.all c hc)⟩

theorem ExponentPart.chars {cs : List Char} (h : ExponentPart cs) :
    ∀ c ∈ cs, isDigit c = true ∨ c ∈ numeralMarks := by
  cases h with
  | absent => simp
  | @present mark sign ds hmark hsign hds =>
    have hsign' : ∀ c ∈ sign, c ∈ numeralMarks := by
      simp only [List.mem_cons, List.not_mem_nil, or_false] at hsign
      rcases hsign with rfl | rfl | rfl <;> simp [numeralMarks]
    refine List.forall_mem_cons.mpr ⟨.inr ?_, List.forall_mem_append.mpr
      ⟨fun c hc => .inr (hsign' c hc), fun c hc => .inl (hds.all c hc)⟩⟩
    rcases hmark with rfl | rfl <;> decide

theorem Signed.chars {isFloat : Bool} {cs : List Char} (h : Signed isFloat cs) :
    ∀ c ∈ cs, isDigit c = true ∨ c ∈ numeralMarks := by
  have hunsigned {cs : List Char} (h : Unsigned isFloat cs) :
      ∀ c ∈ cs, isDigit c = true ∨ c ∈ numeralMarks := by
    cases h with
    | integer hwhole => exact fun c hc => .inl (hwhole.all c hc)
    | float hwhole hfraction hexponent =>
      exact List.forall_mem_append.mpr ⟨fun c hc => .inl (hwhole.all c hc),
        List.forall_mem_append.mpr ⟨hfraction.chars, hexponent.chars⟩⟩
  cases h with
  | plain hcs => exact hunsigned hcs
  | negative hcs => exact List.forall_mem_cons.mpr ⟨.inr (by decide), hunsigned hcs⟩

/-- No white space stands around a numeral or in it. -/
theorem Signed.isPadding {isFloat : Bool} {cs : List Char} (h : Signed isFloat cs) :
    ∀ c ∈ cs, isPadding c = false := by
  have hmarks : numeralMarks.any Number.isPadding = false := by decide
  intro c hc
  exact (h.chars c hc).elim isPadding_of_isDigit fun hmark =>
    Bool.eq_false_iff.mpr (List.any_eq_false.mp hmarks c hmark)

theorem Signed.underscore_not_mem {isFloat : Bool} {cs : List Char} (h : Signed isFloat cs) :
    '_' ∉ cs :=
  fun hmem => absurd (h.chars '_' hmem) (by decide)

/-! ## Reading them -/

theorem isDecimal_of_digit {c : Char} (hdigit : isDigit c = true) (hvalue : isValueless c = false) :
    isDecimal c = true := by
  simpa [isValueless, hdigit, isDecimal] using hvalue

theorem not_decimal_of_valueless {c : Char} (h : isValueless c = true) : isDecimal c = false := by
  simp only [isValueless, Bool.and_eq_true, Option.isNone_iff_eq_none] at h
  simp [isDecimal, h.2]

/-- A run of digits that all have a value is taken whole. -/
theorem span_of_valued {ds rest : List Char} (hds : ∀ d ∈ ds, isDigit d = true)
    (hvalued : ds.any isValueless = false) (hrest : ∀ c ∈ rest.head?, isDecimal c = false) :
    (ds ++ rest).takeWhile isDecimal = ds ∧ (ds ++ rest).dropWhile isDecimal = rest := by
  have hall : ∀ d ∈ ds, isDecimal d = true := fun d hd =>
    isDecimal_of_digit (hds d hd) (by simpa using List.any_eq_false.mp hvalued d hd)
  exact ⟨takeWhile_run hall hrest, dropWhile_run hall hrest⟩

/-- One with a digit that has none is left there. -/
theorem dropWhile_of_valueless {ds : List Char} (hds : ∀ d ∈ ds, isDigit d = true)
    (hvalueless : ds.any isValueless = true) (rest : List Char) :
    ∃ c more, (ds ++ rest).dropWhile isDecimal = c :: more ∧ isValueless c = true := by
  induction ds with
  | nil => cases hvalueless
  | cons d ds ih =>
    rw [List.forall_mem_cons] at hds
    cases hd : isValueless d with
    | true =>
      refine ⟨d, ds ++ rest, ?_, hd⟩
      rw [List.cons_append, List.dropWhile_cons_of_neg (by simp [not_decimal_of_valueless hd])]
    | false =>
      rw [List.cons_append, List.dropWhile_cons_of_pos (isDecimal_of_digit hds.1 hd)]
      exact ih hds.2 (by simpa [hd] using hvalueless)

theorem withExponent?_of_valueless {c : Char} (h : isValueless c = true)
    (whole fraction more : List Char) : withExponent? whole fraction (c :: more) = none := by
  have he : c ≠ 'e' := ne_of_test h (by decide)
  have hE : c ≠ 'E' := ne_of_test h (by decide)
  simp [withExponent?, readExponent?, he, hE]

theorem all_decimal_eq {ds : List Char} (h : ∀ d ∈ ds, isDigit d = true) :
    ds.all isDecimal = !ds.any isValueless := by
  induction ds with
  | nil => rfl
  | cons d ds ih =>
    rw [List.forall_mem_cons] at h
    rw [List.all_cons, List.any_cons, ih h.2, Bool.not_or]
    cases hv : isValueless d with
    | true => simp [not_decimal_of_valueless hv]
    | false => simp [isDecimal_of_digit h.1 hv]

theorem splitSign_digits {sign ds : List Char} (hsign : sign ∈ [[], ['+'], ['-']])
    (hds : Digits ds) : (splitSign (sign ++ ds)).2 = ds := by
  simp only [List.mem_cons, List.not_mem_nil, or_false] at hsign
  rcases hsign with rfl | rfl | rfl
  · obtain ⟨d, ds, rfl⟩ := List.exists_cons_of_ne_nil hds.nonempty
    exact congrArg Prod.snd (splitSign_of_digit (hds.all d List.mem_cons_self))
  · rfl
  · rfl

theorem readExponent?_isSome {exponent : List Char} (h : ExponentPart exponent) :
    (readExponent? exponent).isSome = !exponent.any isValueless := by
  cases h with
  | absent => rfl
  | @present mark sign ds hmark hsign hds =>
    have hmark' : isValueless mark = false := by rcases hmark with rfl | rfl <;> decide
    have hsign' : sign.any isValueless = false := by
      simp only [List.mem_cons, List.not_mem_nil, or_false] at hsign
      rcases hsign with rfl | rfl | rfl <;> decide
    have he : (mark = 'e' || mark = 'E') = true := by simpa using hmark
    have hsome : (readExponent? (mark :: (sign ++ ds))).isSome = ds.all isDecimal := by
      simp only [readExponent?, splitSign_digits hsign hds, he, if_true]
      split <;> simp_all [hds.nonempty]
    rw [hsome, all_decimal_eq hds.all]
    simp [hmark', hsign']

theorem withExponent?_isSome {exponent : List Char} (h : ExponentPart exponent)
    {whole : List Char} (hwhole : whole ≠ []) (fraction : List Char) :
    (withExponent? whole fraction exponent).isSome = !exponent.any isValueless := by
  simpa [withExponent?, hwhole] using readExponent?_isSome h

theorem ExponentPart.head_not_decimal {exponent : List Char} (h : ExponentPart exponent) :
    ∀ c ∈ exponent.head?, isDecimal c = false := by
  cases h with
  | absent => simp
  | present hmark => rcases hmark with rfl | rfl <;> simp <;> decide

/-- What stands behind a run of digits decides only if they all have a value. -/
theorem isSome_behind_run (outcome : List Char → List Char → Option FloatParts)
    {ds rest : List Char} (hds : ∀ d ∈ ds, isDigit d = true)
    (hrest : ∀ c ∈ rest.head?, isDecimal c = false)
    (hvalueless : ∀ c known more, isValueless c = true → outcome known (c :: more) = none)
    (hvalued : (outcome ds rest).isSome = !rest.any isValueless) :
    (outcome ((ds ++ rest).takeWhile isDecimal) ((ds ++ rest).dropWhile isDecimal)).isSome =
      !(ds ++ rest).any isValueless := by
  rw [List.any_append]
  cases hv : ds.any isValueless with
  | false =>
    obtain ⟨htake, hdrop⟩ := span_of_valued hds hv hrest
    rw [htake, hdrop, hvalued, Bool.false_or]
  | true =>
    obtain ⟨c, more, hdrop, hc⟩ := dropWhile_of_valueless hds hv rest
    rw [hdrop, hvalueless c _ more hc]
    rfl

/-- A floating point numeral has its parts if all its digits have a value. -/
theorem floatParts?_isSome {whole fraction exponent : List Char} (hwhole : Digits whole)
    (hfraction : FractionPart fraction) (hexponent : ExponentPart exponent) :
    (floatParts? (whole ++ (fraction ++ exponent))).isSome =
      !(whole ++ (fraction ++ exponent)).any isValueless := by
  refine isSome_behind_run
    (fun known rest => withExponent? known (splitFraction rest).1 (splitFraction rest).2)
    hwhole.all ?_ ?_ ?_
  · cases hfraction with
    | absent => exact hexponent.head_not_decimal
    | present => simp [show isDecimal '.' = false by decide]
  · intro c known more hc
    have hsplit : splitFraction (c :: more) = ([], c :: more) := by
      have hpoint : c ≠ '.' := ne_of_test hc (by decide)
      simp [splitFraction, hpoint]
    rw [hsplit]
    exact withExponent?_of_valueless hc known [] more
  · cases hfraction with
    | absent =>
      have hsplit : splitFraction exponent = ([], exponent) := by
        cases hexponent with
        | absent => rfl
        | present hmark => rcases hmark with rfl | rfl <;> rfl
      simpa [hsplit] using withExponent?_isSome hexponent hwhole.nonempty []
    | @present ds hds =>
      have hpoint : isValueless '.' = false := by decide
      simp only [List.cons_append, List.any_cons, hpoint, Bool.false_or]
      exact isSome_behind_run (withExponent? whole) hds.all hexponent.head_not_decimal
        (fun c known more hc => withExponent?_of_valueless hc whole known more)
        (withExponent?_isSome hexponent hwhole.nonempty ds)

/-- The digits that an integer starts with before the first without a value. -/
def leadingDecimals (text : String) : List Char :=
  (splitSign text.toList).2.takeWhile isDecimal

theorem unfinished_eq {ds : List Char} (h : Digits ds) :
    ((ds.takeWhile isDecimal).isEmpty || !(ds.dropWhile isDecimal).isEmpty) =
      ds.any isValueless := by
  cases hv : ds.any isValueless with
  | false =>
    have hspan : (ds ++ []).takeWhile isDecimal = ds ∧ (ds ++ []).dropWhile isDecimal = [] :=
      span_of_valued h.all hv (by simp)
    obtain ⟨htake, hdrop⟩ := List.append_nil ds ▸ hspan
    simp [htake, hdrop, h.nonempty]
  | true =>
    obtain ⟨c, more, hdrop, -⟩ := dropWhile_of_valueless h.all hv []
    rw [List.append_nil] at hdrop
    simp [hdrop]

/-- An integer is refused for its length first, and then for a digit without a value. -/
theorem readInteger_eq_error_iff {text : String} {e : NumeralError} (h : Signed false text.toList) :
    readInteger text = .error e ↔
      (maxIntegerDigits < (leadingDecimals text).length ∧
        e = .tooManyDigits (leadingDecimals text).length) ∨
      ((leadingDecimals text).length ≤ maxIntegerDigits ∧ text.toList.any isValueless = true ∧
        e = .notInteger text) := by
  obtain ⟨hunsigned, hany⟩ := h.splitSign
  have hdigits : Digits (splitSign text.toList).2 := by
    generalize (splitSign text.toList).2 = digits at hunsigned
    cases hunsigned with
    | integer hwhole => exact hwhole
  rw [readInteger_of_plain h.isPadding h.underscore_not_mem, unfinished_eq hdigits, ← hany]
  unfold leadingDecimals
  split
  · rename_i hlong
    simp [hlong, Nat.not_le.mpr hlong, @eq_comm _ e]
  · rename_i hlong
    split
    · rename_i hvalueless
      simp only [hlong, Nat.not_lt.mp hlong, hvalueless, false_and, true_and, false_or,
        Except.error.injEq, @eq_comm _ e]
    · rename_i hvalued
      simp [hlong, hvalued]

/-! ## Floating point numbers -/

theorem toLower_of_isDigit {c : Char} (h : isDigit c = true) : c.toLower = c := by
  have hletters : ∀ n ∈ List.range' 65 26, isDigit (Char.ofNat n) = false := by decide
  unfold Char.toLower
  split
  · rename_i hupper
    have hcode : c.toNat ∈ List.range' 65 26 := by
      have hfirst : 65 ≤ c.toNat := hupper.1
      have hlast : c.toNat ≤ 90 := hupper.2
      rw [List.mem_range'_1]
      omega
    exact absurd h (by simp [isDigit_of_code hletters hcode])
  · rfl

/-- A text that starts with a digit is not a word. -/
theorem wordBits?_of_digit {c : Char} (h : isDigit c = true) (cs : List Char) :
    wordBits? (c :: cs) = none := by
  have hword (first : Char) (word : List Char) (hfirst : isDigit first = false) :
      c.toLower :: cs.map Char.toLower ≠ first :: word := by
    rw [toLower_of_isDigit h]
    exact fun heq => ne_of_test h hfirst (List.cons.inj heq).1
  have hinf := hword 'i' ['n', 'f'] (by decide)
  have hinfinity := hword 'i' ['n', 'f', 'i', 'n', 'i', 't', 'y'] (by decide)
  have hnan := hword 'n' ['a', 'n'] (by decide)
  unfold wordBits?
  dsimp only [List.map_cons]
  rw [if_neg, if_neg]
  · exact hnan
  · rw [Bool.or_eq_true, not_or, decide_eq_true_eq, decide_eq_true_eq]
    exact ⟨hinf, hinfinity⟩

/-- A text without white space and underscores is read by what stands behind its sign. -/
theorem readFloat_of_plain {text : String} (hpadding : ∀ c ∈ text.toList, isPadding c = false)
    (hunderscore : '_' ∉ text.toList) :
    readFloat text =
      match magnitude? (splitSign text.toList).2 with
      | some bits => .ok (if (splitSign text.toList).1 then bits + Nat.pow 2 63 else bits)
      | none => .error (.notFloat text) := by
  have hreverse : ∀ c ∈ text.toList.reverse, isPadding c = false := by simpa using hpadding
  unfold readFloat
  rw [dropWhile_isPadding hpadding, dropWhile_isPadding hreverse, List.reverse_reverse]
  simp only [withoutUnderscores?_of_not_mem hunderscore, Option.bind_eq_bind, Option.bind_some]
  cases magnitude? (splitSign text.toList).2 <;> rfl

theorem magnitude?_isSome {cs : List Char} (h : Unsigned true cs) :
    (magnitude? cs).isSome = !cs.any isValueless := by
  obtain ⟨c, rest, hstart, hc⟩ := h.starts
  have hword : wordBits? cs = none := hstart ▸ wordBits?_of_digit hc rest
  rw [magnitude?, hword]
  cases h with
  | float hwhole hfraction hexponent => simpa using floatParts?_isSome hwhole hfraction hexponent

/-- A floating point numeral is refused for a digit without a value only. -/
theorem readFloat_eq_error_iff {text : String} {e : NumeralError} (h : Signed true text.toList) :
    readFloat text = .error e ↔ text.toList.any isValueless = true ∧ e = .notFloat text := by
  obtain ⟨hunsigned, hany⟩ := h.splitSign
  have hsome := magnitude?_isSome hunsigned
  rw [← hany] at hsome
  rw [readFloat_of_plain h.isPadding h.underscore_not_mem]
  cases hbits : magnitude? (splitSign text.toList).2 with
  | none =>
    rw [hbits] at hsome
    simp [show text.toList.any isValueless = true by simpa using hsome, @eq_comm _ e]
  | some bits =>
    rw [hbits] at hsome
    simp [show text.toList.any isValueless = false by simpa using hsome]

end Number

/-! ## Taking them from a text -/

namespace Lexer

theorem digits_take {cs : List Char} (h : startsWithDigit cs = true) :
    Digits (cs.take (digitsLength cs)) := by
  rw [digitsLength, take_takeWhile_length]
  refine ⟨fun hnil => ?_, fun c hc => List.mem_takeWhile_imp hc⟩
  have hpos := digitsLength_pos.mpr h
  simp [digitsLength, hnil] at hpos

theorem fractionPart_take (cs : List Char) : FractionPart (cs.take (fractionLength cs)) := by
  unfold fractionLength
  split
  · split
    · rw [List.take_succ_cons]
      exact .present (digits_take ‹_›)
    · exact .absent
  · exact .absent

theorem sign_take (cs : List Char) : cs.take (signLength cs) ∈ [[], ['+'], ['-']] := by
  cases cs with
  | nil => simp
  | cons c cs =>
    simp only [signLength]
    split
    · rename_i hc
      rcases (by simpa using hc : c = '+' ∨ c = '-') with rfl | rfl <;> simp
    · simp

theorem exponentPart_take (cs : List Char) : ExponentPart (cs.take (exponentLength cs)) := by
  cases cs with
  | nil => exact .absent
  | cons c cs =>
    rw [exponentLength]
    split
    · rename_i hmark
      split
      · rename_i hdigit
        rw [List.take_succ_cons, Nat.add_comm, List.take_add]
        exact .present (by simpa using hmark) (sign_take cs) (digits_take hdigit)
      · exact .absent
    · exact .absent

/-- What is taken as a numeral without a sign is written like one. -/
theorem unsigned_take {cs : List Char} (h : startsWithDigit cs = true) :
    Unsigned (numeralLength cs).2 (cs.take (numeralLength cs).1) := by
  have hwhole := digits_take h
  have hfraction := fractionPart_take (cs.drop (digitsLength cs))
  have hfractionLength := fractionLength_le (cs.drop (digitsLength cs))
  unfold numeralLength
  dsimp only
  generalize fractionLength (cs.drop (digitsLength cs)) = n at hfraction hfractionLength
  have hexponent := exponentPart_take (cs.drop (digitsLength cs + n))
  have hexponentLength := exponentLength_le (cs.drop (digitsLength cs + n))
  generalize exponentLength (cs.drop (digitsLength cs + n)) = m at hexponent hexponentLength
  by_cases hzero : n + m = 0
  · obtain ⟨rfl, rfl⟩ : n = 0 ∧ m = 0 := by omega
    simpa using Unsigned.integer hwhole
  · have htake : cs.take (digitsLength cs + n + m) = cs.take (digitsLength cs) ++
        ((cs.drop (digitsLength cs)).take n ++ (cs.drop (digitsLength cs + n)).take m) := by
      rw [List.take_add, List.take_add, List.append_assoc]
    have hsome :
      (cs.drop (digitsLength cs)).take n ++ (cs.drop (digitsLength cs + n)).take m ≠ [] := by
      intro hnil
      have hlength := congrArg List.length hnil
      simp only [List.length_append, List.length_take, List.length_nil] at hlength
      omega
    rw [htake, decide_eq_true hzero]
    exact .float hwhole hfraction hexponent hsome

/-- A lexeme that is a numeral is written like one. -/
theorem Ordinary.signed {c : Char} {cs : List Char} {x : Lexeme} (h : Ordinary c cs x)
    (hk : x.kind ∈ Reader.numberKinds) : Signed (x.kind = .float) x.value := by
  have hkind (b : Bool) : decide ((if b then TokenKind.float else .integer) = .float) = b := by
    cases b <;> rfl
  cases h with
  | mark | arrow | pattern | string => simp [Reader.numberKinds, verbatim] at hk
  | word => exact absurd hk (Reader.not_number_of_isName (isName_wordKind _))
  | negative hc hd =>
    subst hc
    have hcs := unsigned_take hd
    simp only [Lexer.numeral, verbatim, if_true, hkind]
    exact .negative hcs
  | numeral hd =>
    have hsign : c ≠ '-' := ne_of_test hd (by decide)
    have hcs := @unsigned_take (c :: cs) hd
    have hpos : 0 < (numeralLength (c :: cs)).1 := by
      have := digitsLength_pos.mpr (show startsWithDigit (c :: cs) = true from hd)
      simp only [numeralLength]
      omega
    rw [← Nat.sub_add_cancel hpos, List.take_succ_cons] at hcs
    simp only [Lexer.numeral, verbatim, hsign, if_false, hkind]
    exact .plain hcs

theorem lexeme_signed {previous : Option TokenKind} {c : Char} {cs : List Char} {x : Lexeme}
    (h : lexeme previous c cs = .ok x) (hk : x.kind ∈ Reader.numberKinds) :
    Signed (x.kind = .float) x.value := by
  rw [lexeme] at h
  split at h
  · cases h
    simp [Reader.numberKinds, verbatim] at hk
  split at h
  · split at h <;> cases h
    simp [Reader.numberKinds, verbatim] at hk
  · exact (Ordinary.of_ordinary h).signed hk

/-- The numerals of a text are written like numerals. -/
theorem Scans.signed {previous : Option TokenKind} {p : Position} {cs : List Char}
    {stream : TokenStream} (h : Scans previous p cs stream) :
    ∀ t ∈ stream.tokens, t.kind ∈ Reader.numberKinds → Signed (t.kind = .float) t.text.toList := by
  induction h with
  | done => simp
  | token _ hx _ ih =>
    rw [List.forall_mem_cons]
    exact ⟨fun hk => by simpa using lexeme_signed hx hk, ih⟩

end Lexer

/-! ## Numerals that name no number -/

/-- The numeral cannot be read: it is an integer that starts with too many digits, or it holds a
digit without a value. -/
inductive Token.Unreadable (t : Token) : NumeralError → Prop
  | long : t.kind = .integer → maxIntegerDigits < (leadingDecimals t.text).length →
    Unreadable t (.tooManyDigits (leadingDecimals t.text).length)
  | integer : t.kind = .integer → (leadingDecimals t.text).length ≤ maxIntegerDigits →
    (∃ c ∈ t.text.toList, isValueless c = true) → Unreadable t (.notInteger t.text)
  | float : t.kind = .float → (∃ c ∈ t.text.toList, isValueless c = true) →
    Unreadable t (.notFloat t.text)

namespace Reader

theorem nameless_iff {t : Token} {e : NumeralError} :
    Nameless t e ↔ (t.kind = .integer ∧ readInteger t.text = .error e) ∨
      (t.kind = .float ∧ readFloat t.text = .error e) := by
  have hint : (.int <$> readInteger t.text : Except NumeralError Number) = .error e ↔
      readInteger t.text = .error e := by
    cases readInteger t.text <;> simp
  have hfloat : (.float <$> readFloat t.text : Except NumeralError Number) = .error e ↔
      readFloat t.text = .error e := by
    cases readFloat t.text <;> simp
  constructor
  · rintro ⟨hk, hvalue⟩
    simp only [numberKinds, List.mem_cons, List.not_mem_nil, or_false] at hk
    rcases hk with hk | hk <;> simp only [numberOf, hk, reduceCtorEq, if_true, if_false] at hvalue
    · exact .inl ⟨hk, hint.mp hvalue⟩
    · exact .inr ⟨hk, hfloat.mp hvalue⟩
  · rintro (⟨hk, hvalue⟩ | ⟨hk, hvalue⟩)
    · exact ⟨by simp [numberKinds, hk], by rwa [numberOf, if_pos hk, hint]⟩
    · exact ⟨by simp [numberKinds, hk], by rwa [numberOf, if_neg (by simp [hk]), hfloat]⟩

/-- Of the numerals of a text those name no number that cannot be read. -/
theorem nameless_iff_unreadable {source : String} {stream : TokenStream} {t : Token}
    {e : NumeralError} (htokens : tokenize source = .ok stream) (ht : t ∈ stream.tokens) :
    Nameless t e ↔ t.Unreadable e := by
  have hsigned := (Lexer.Scans.of_scan htokens).signed t ht
  have hinteger (hk : t.kind = .integer) : Signed false t.text.toList := by
    simpa [hk] using hsigned (by simp [numberKinds, hk])
  have hfloat (hk : t.kind = .float) : Signed true t.text.toList := by
    simpa [hk] using hsigned (by simp [numberKinds, hk])
  rw [nameless_iff]
  constructor
  · rintro (⟨hk, herror⟩ | ⟨hk, herror⟩)
    · obtain ⟨hlong, rfl⟩ | ⟨hshort, hvalueless, rfl⟩ :=
        (readInteger_eq_error_iff (hinteger hk)).mp herror
      · exact .long hk hlong
      · exact .integer hk hshort (List.any_eq_true.mp hvalueless)
    · obtain ⟨hvalueless, rfl⟩ := (readFloat_eq_error_iff (hfloat hk)).mp herror
      exact .float hk (List.any_eq_true.mp hvalueless)
  · rintro (⟨hk, hlong⟩ | ⟨hk, hshort, hvalueless⟩ | ⟨hk, hvalueless⟩)
    · exact .inl ⟨hk, (readInteger_eq_error_iff (hinteger hk)).mpr (.inl ⟨hlong, rfl⟩)⟩
    · exact .inl ⟨hk, (readInteger_eq_error_iff (hinteger hk)).mpr
        (.inr ⟨hshort, List.any_eq_true.mpr hvalueless, rfl⟩)⟩
    · exact .inr ⟨hk, (readFloat_eq_error_iff (hfloat hk)).mpr
        ⟨List.any_eq_true.mpr hvalueless, rfl⟩⟩

end Reader

end Covenant
