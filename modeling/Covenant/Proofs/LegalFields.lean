/-
Which properties get a legal field. The field of a property is its name without leading dollar
signs, in snake case and in small letters, and marked if it is a reserved word. Small letters are
no problem in general: the small form of a letter starts with a letter, that of a digit is a
digit, and so on, for every character but one. The dotted capital `İ` becomes two characters, of
which the second stands in no name (`Text.lowerChar_keeps`).

So a field is illegal in four cases, and in no other (`Target.fieldName_isLegal_iff`): nothing
with which a field can start stands behind the dollar signs of the name, or another dollar sign
does, or a dotted capital, or the field is one of the keywords that the list of reserved words
lacks.
-/
import Covenant.Proofs.FieldNames
import Covenant.Proofs.WellFormed

namespace Covenant

open Covenant.Lexer Covenant.Text

namespace Text

/-! ## Runs of characters -/

/-- All code points from `first` to `last` lie in one range of the table. -/
def CharTable.spans (first last : Nat) : CharTable → Bool
  | [] => false
  | (low, high) :: rest =>
    low.ble first && (last.ble high || high.blt first && spans first last rest)

/-- No code point from `first` to `last` lies in the table. -/
def CharTable.misses (first last : Nat) : CharTable → Bool
  | [] => true
  | (low, high) :: rest =>
    last.blt low || high.blt first && misses first last rest

section

variable {table : CharTable} {first last n : Nat}

theorem CharTable.covers_of_spans (h : table.spans first last = true) (hfirst : first ≤ n)
    (hlast : n ≤ last) : table.covers n = true := by
  induction table with
  | nil => cases h
  | cons range rest ih =>
    obtain ⟨low, high⟩ := range
    simp only [spans, Bool.and_eq_true, Bool.or_eq_true, Nat.ble_eq, Nat.blt_eq] at h
    unfold covers
    grind

theorem CharTable.covers_of_misses (h : table.misses first last = true) (hfirst : first ≤ n)
    (hlast : n ≤ last) : table.covers n = false := by
  induction table with
  | nil => rfl
  | cons range rest ih =>
    obtain ⟨low, high⟩ := range
    simp only [misses, Bool.and_eq_true, Bool.or_eq_true, Nat.blt_eq] at h
    unfold covers
    grind

end

/-- No code point from `first` to `last` is a letter, a digit or another numeral. -/
def outsideNames (first last : Nat) : Bool :=
  letterTable.misses first last && numeralTable.misses first last
    && valuelessDigitTable.misses first last
    && decimalZeros.all fun start => last < start || start + 10 ≤ first

/-- From `first` to `last`, code points and those that lie `shift` further on are all letters, all
numerals, or all neither. -/
def keepsClass (first last : Nat) (shift : Int) : Bool :=
  let first' := (first + shift).toNat
  let last' := (last + shift).toNat
  (last' < 0xd800 || 0xdfff < first' && last' < 0x110000)
    && (letterTable.spans first last && letterTable.spans first' last'
      || letterTable.misses first last && letterTable.misses first' last'
        && (numeralTable.spans first last && numeralTable.spans first' last')
      || outsideNames first last && outsideNames first' last')

/-- The run keeps the class of its characters; if not as a whole, then one by one. -/
def runKeepsClass : Nat × Nat × Nat × Int → Bool
  | (first, last, stride, shift) =>
    keepsClass first last shift || (List.range (last + 1 - first)).all fun i =>
      i % stride ≠ 0 || keepsClass (first + i) (first + i) shift

theorem lowerRuns_keepClass : lowerRuns.all runKeepsClass = true := by decide +kernel

/-- The characters are of the same class. -/
structure SameClass (c d : Char) : Prop where
  letter : isLetter d = isLetter c
  alphanumeric : isAlphanumeric d = isAlphanumeric c

theorem isAlphanumeric_of_outsideNames {first last : Nat} {c : Char}
    (h : outsideNames first last = true) (hfirst : first ≤ c.toNat) (hlast : c.toNat ≤ last) :
    isAlphanumeric c = false := by
  simp only [outsideNames, Bool.and_eq_true, List.all_eq_true, Bool.or_eq_true,
    decide_eq_true_eq] at h
  obtain ⟨⟨⟨hletter, hnumeral⟩, hvalueless⟩, hdecimal⟩ := h
  have hnone : decimalValue? c = none := by
    rw [decimalValue?, Option.map_eq_none_iff, List.find?_eq_none]
    intro start hstart
    have := hdecimal start hstart
    simp only [Bool.and_eq_true, decide_eq_true_eq]
    omega
  simp [isAlphanumeric, isLetter, isDigit, CharTable.contains, hnone,
    CharTable.covers_of_misses hletter hfirst hlast,
    CharTable.covers_of_misses hnumeral hfirst hlast,
    CharTable.covers_of_misses hvalueless hfirst hlast]

theorem sameClass_of_keepsClass {first last : Nat} {shift : Int} {c d : Char}
    (h : keepsClass first last shift = true) (hfirst : first ≤ c.toNat) (hlast : c.toNat ≤ last)
    (hd : d.toNat = (c.toNat + shift).toNat) : SameClass c d := by
  have hfirst' : (first + shift).toNat ≤ d.toNat := by omega
  have hlast' : d.toNat ≤ (last + shift).toNat := by omega
  simp only [keepsClass, Bool.and_eq_true, Bool.or_eq_true] at h
  rcases h.2 with (⟨hc, hd⟩ | ⟨⟨hc, hd⟩, hc', hd'⟩) | ⟨hc, hd⟩
  · have hc := CharTable.covers_of_spans hc hfirst hlast
    have hd := CharTable.covers_of_spans hd hfirst' hlast'
    constructor <;> simp [isAlphanumeric, isLetter, CharTable.contains, hc, hd]
  · have hc := CharTable.covers_of_misses hc hfirst hlast
    have hd := CharTable.covers_of_misses hd hfirst' hlast'
    have hc' := CharTable.covers_of_spans hc' hfirst hlast
    have hd' := CharTable.covers_of_spans hd' hfirst' hlast'
    constructor <;> simp [isAlphanumeric, isLetter, CharTable.contains, hc, hd, hc', hd']
  · have hc := isAlphanumeric_of_outsideNames hc hfirst hlast
    have hd := isAlphanumeric_of_outsideNames hd hfirst' hlast'
    refine ⟨?_, hd.trans hc.symm⟩
    simp only [isAlphanumeric, Bool.or_eq_false_iff] at hc hd
    rw [hc.1.1, hd.1.1]

/-- A code point that is moved along a run stays one. -/
theorem toNat_ofNat_of_keepsClass {first last n : Nat} {shift : Int}
    (h : keepsClass first last shift = true) (hfirst : first ≤ n) (hlast : n ≤ last) :
    (Char.ofNat (n + shift).toNat).toNat = (n + shift).toNat := by
  simp only [keepsClass, Bool.and_eq_true, Bool.or_eq_true, decide_eq_true_eq] at h
  have hvalid : (n + shift).toNat.isValidChar := by
    unfold Nat.isValidChar
    omega
  rw [Char.ofNat, dif_pos hvalid]
  rfl

theorem sameClass_image {c : Char} {k : Nat} (h : lowerRuns.image? c.toNat = some k) :
    SameClass c (Char.ofNat k) := by
  obtain ⟨first, last, stride, shift, hrun, hfirst, hlast, hstride, rfl⟩ := CaseRuns.mem_of_image? h
  have hkeeps := List.all_eq_true.mp lowerRuns_keepClass _ hrun
  simp only [runKeepsClass, Bool.or_eq_true, List.all_eq_true, List.mem_range,
    decide_eq_true_eq] at hkeeps
  rcases hkeeps with hkeeps | hkeeps
  · exact sameClass_of_keepsClass hkeeps hfirst hlast
      (toNat_ofNat_of_keepsClass hkeeps hfirst hlast)
  · have hpoint := (hkeeps (c.toNat - first) (by omega)).resolve_left (not_not_intro hstride)
    rw [Nat.add_sub_cancel' hfirst] at hpoint
    exact sameClass_of_keepsClass hpoint (Nat.le_refl _) (Nat.le_refl _)
      (toNat_ofNat_of_keepsClass hpoint (Nat.le_refl _) (Nat.le_refl _))

/-! ## Characters of fields -/

/-- The characters that a field can start with. -/
def isFieldStart (c : Char) : Bool :=
  isLetter c || c = '_'

/-- The characters that a field can hold. -/
def isFieldChar (c : Char) : Bool :=
  isAlphanumeric c || c = '_'

/-- Every character but the dotted capital becomes one character. That is the same in what fields
can start with and in what they can hold. -/
theorem lowerChar_keeps {c : Char} (h : c ≠ 'İ') (before after : List Char) :
    ∃ d, lowerChar before c after = [d] ∧ isFieldStart d = isFieldStart c ∧
      isFieldChar d = isFieldChar c := by
  have hsame {d : Char} (hclass : SameClass c d) (hunder : d = '_' ↔ c = '_') :
      isFieldStart d = isFieldStart c ∧ isFieldChar d = isFieldChar c := by
    simp [isFieldStart, isFieldChar, hclass.letter, hclass.alphanumeric, hunder]
  unfold lowerChar
  split
  · subst_vars
    split <;> exact ⟨_, rfl, by decide⟩
  · split
    · rename_i k hk
      refine ⟨_, rfl, hsame (sameClass_image hk) ⟨fun hd => ?_, fun hc => ?_⟩⟩
      · exact absurd hd.symm (image?_ne (isUnproduced_of_mem (by decide)) hk)
      · have hnone : lowerRuns.image? '_'.toNat = none := by decide
        rw [hc, hnone] at hk
        cases hk
    · exact ⟨c, rfl, rfl, rfl⟩

/-- The small form of a text can stand in a field if its characters can and none is the dotted
capital. -/
theorem forall_lowerFrom_iff {before cs : List Char} :
    (∀ d ∈ lowerFrom before cs, isFieldChar d = true) ↔
      ∀ c ∈ cs, isFieldChar c = true ∧ c ≠ 'İ' := by
  induction cs generalizing before with
  | nil => simp [lowerFrom]
  | cons c cs ih =>
    rw [lowerFrom, List.forall_mem_append, ih, List.forall_mem_cons]
    refine and_congr_left fun _ => ?_
    by_cases hc : c = 'İ'
    · subst hc
      have hdots : lowerChar before 'İ' cs = ['i', '\u0307'] := rfl
      rw [hdots]
      simp only [ne_eq, not_true_eq_false, and_false, iff_false]
      exact fun hall => absurd (hall '\u0307' (by simp)) (by decide)
    · obtain ⟨d, hd, -, hchar⟩ := lowerChar_keeps hc before cs
      simp [hd, hchar, hc]

/-- It starts as a field can if the text does. -/
theorem head?_lowerFrom (cs : List Char) :
    (lowerFrom [] cs).head?.any isFieldStart = cs.head?.any isFieldStart := by
  cases cs with
  | nil => rfl
  | cons c cs =>
    rw [lowerFrom]
    by_cases hc : c = 'İ'
    · subst hc
      change isFieldStart 'i' = isFieldStart 'İ'
      decide
    · obtain ⟨d, hd, hstart, -⟩ := lowerChar_keeps hc [] cs
      simp [hd, hstart]

end Text

namespace Target

/-! ## Keywords -/

/-- The keywords of the generated code, edition 2021. -/
def strictKeywords : List String :=
  ["as", "async", "await", "break", "const", "continue", "crate", "dyn", "else", "enum", "extern",
   "false", "fn", "for", "if", "impl", "in", "let", "loop", "match", "mod", "move", "mut", "pub",
   "ref", "return", "self", "Self", "static", "struct", "super", "trait", "true", "type", "unsafe",
   "use", "where", "while"]

/-- The words that are kept to become keywords. -/
def reservedKeywords : List String :=
  ["abstract", "become", "box", "do", "final", "macro", "override", "priv", "try", "typeof",
   "unsized", "virtual", "yield"]

/-- The keywords in small letters that are not among the reserved words. -/
def overlookedKeywords : List String :=
  ["crate", "self", "super", "abstract", "become", "do", "final", "macro", "override", "priv",
   "typeof", "unsized", "virtual"]

/-- A name of a field: behind the mark, if there is one, stand a letter or an underscore and further
letters, digits, numerals and underscores, and without a mark it is no keyword. -/
structure IsLegal (field : String) : Prop where
  start : (unmarked field).toList.head?.any isFieldStart = true
  chars : ∀ c ∈ (unmarked field).toList, isFieldChar c = true
  free : field.startsWith rawMark = false → field ∉ strictKeywords ++ reservedKeywords

/-- A name whose field is legal: behind leading dollar signs it starts as a field can, and there is
no further dollar sign, no dotted capital, and no keyword that is not among the reserved words. -/
structure HasLegalField (name : String) : Prop where
  start : (withoutDollars name).head?.any isFieldStart = true
  dollar : '$' ∉ withoutDollars name
  dotted : 'İ' ∉ withoutDollars name
  keyword : snakeCase name ∉ overlookedKeywords

/-! ## Snake case -/

theorem splitCamelCase_cons_cons (sep c d : Char) (cs : List Char) :
    splitCamelCase sep (c :: d :: cs) =
      if isSmallOrFigure c && isCapital d then c :: sep :: splitCamelCase sep (d :: cs)
      else c :: splitCamelCase sep (d :: cs) := by
  rw [splitCamelCase]

theorem forall_splitCamelCase_iff {P : Char → Prop} {sep : Char} (hsep : P sep) {cs : List Char} :
    (∀ c ∈ splitCamelCase sep cs, P c) ↔ ∀ c ∈ cs, P c := by
  induction cs with
  | nil => simp [splitCamelCase]
  | cons c cs ih =>
    cases cs with
    | nil => simp [splitCamelCase]
    | cons d cs =>
      rw [List.forall_mem_cons, ← ih, splitCamelCase_cons_cons]
      split
      · rw [List.forall_mem_cons, List.forall_mem_cons, and_iff_right hsep]
      · rw [List.forall_mem_cons]

theorem head?_splitCamelCase (sep : Char) (cs : List Char) :
    (splitCamelCase sep cs).head? = cs.head? := by
  cases cs with
  | nil => rfl
  | cons c cs =>
    cases cs with
    | nil => rfl
    | cons d cs =>
      rw [splitCamelCase_cons_cons]
      split <;> rfl

theorem toList_snakeCase (name : String) :
    (snakeCase name).toList = lowerFrom [] (splitCamelCase '_' (withoutDollars name)) := by
  rw [snakeCase, toLower, String.toList_ofList, String.toList_ofList]

/-- A field starts as the name behind the dollar signs does. -/
theorem head?_snakeCase (name : String) :
    (snakeCase name).toList.head?.any isFieldStart =
      (withoutDollars name).head?.any isFieldStart := by
  rw [toList_snakeCase, head?_lowerFrom, head?_splitCamelCase]

section

variable {name : String} (h : IsName name.toList)

include h

/-- In a name, only a dollar sign can stand in no field. -/
theorem isFieldChar_iff {c : Char} (hc : c ∈ withoutDollars name) :
    isFieldChar c = true ↔ c ≠ '$' := by
  have hmem : c ∈ name.toList := (List.dropWhile_sublist _).mem hc
  have hchar : isIdentifierChar c = true := by
    by_contra hchar
    have hchar : isIdentifierChar c = false := by simpa using hchar
    refine not_mem_of_isName h ?_ hchar hmem
    simp only [isIdentifierStart, isIdentifierChar, isAlphanumeric, Bool.or_eq_false_iff] at hchar ⊢
    exact ⟨⟨hchar.1.1.1.1, hchar.1.2⟩, hchar.2⟩
  have hdollar : isFieldChar '$' = false := by decide
  constructor
  · rintro hfield rfl
    simp [hdollar] at hfield
  · intro hne
    simpa [isIdentifierChar, isFieldChar, hne] using hchar

theorem forall_snakeCase_iff : (∀ c ∈ (snakeCase name).toList, isFieldChar c = true) ↔
    '$' ∉ withoutDollars name ∧ 'İ' ∉ withoutDollars name := by
  rw [toList_snakeCase, forall_lowerFrom_iff, forall_splitCamelCase_iff (by decide)]
  constructor
  · intro hall
    exact ⟨fun hmem => (isFieldChar_iff h hmem).mp (hall _ hmem).1 rfl,
      fun hmem => (hall _ hmem).2 rfl⟩
  · rintro ⟨hdollar, hdotted⟩ c hc
    refine ⟨(isFieldChar_iff h hc).mpr ?_, ?_⟩
    · rintro rfl
      exact hdollar hc
    · rintro rfl
      exact hdotted hc

omit h in
/-- A field holds no capital `S`. -/
theorem capital_not_mem_snakeCase : 'S' ∉ (snakeCase name).toList := by
  rw [toList_snakeCase]
  generalize splitCamelCase '_' (withoutDollars name) = cs
  generalize ([] : List Char) = before
  induction cs generalizing before with
  | nil => simp [lowerFrom]
  | cons c cs ih =>
    rw [lowerFrom, List.mem_append, not_or]
    refine ⟨?_, ih (c :: before)⟩
    by_cases hc : c = 'S'
    · subst hc
      have hsmall : lowerChar before 'S' cs = ['s'] := rfl
      simp [hsmall]
    · exact not_mem_lowerChar (isUnproduced_of_mem (by decide)) hc

omit h in
/-- Of the keywords, those that a field can be and that are not reserved words are overlooked. -/
theorem snakeCase_mem_keywords_iff (hfree : reservedWords.contains (snakeCase name) = false) :
    snakeCase name ∈ strictKeywords ++ reservedKeywords ↔ snakeCase name ∈ overlookedKeywords := by
  have hlist : ∀ word ∈ strictKeywords ++ reservedKeywords,
      reservedWords.contains word = true ∨ 'S' ∈ word.toList ∨
        word ∈ overlookedKeywords := by decide
  have hback : ∀ word ∈ overlookedKeywords, word ∈ strictKeywords ++ reservedKeywords := by decide
  constructor
  · intro hmem
    rcases hlist _ hmem with hreserved | hcapital | hover
    · rw [hreserved] at hfree
      cases hfree
    · exact absurd hcapital capital_not_mem_snakeCase
    · exact hover
  · exact hback _

/-- A marked field is free, and one without a mark is unless its keyword was overlooked. -/
theorem fieldName_free_iff : ((fieldName name).startsWith rawMark = false →
    fieldName name ∉ strictKeywords ++ reservedKeywords) ↔ snakeCase name ∉ overlookedKeywords := by
  rw [fieldName_eq]
  split
  · rename_i hreserved
    have hover : ∀ word ∈ overlookedKeywords, reservedWords.contains word = false := by decide
    have hmarked : (rawMark ++ snakeCase name).startsWith rawMark = true := by
      simp [String.startsWith_string_iff]
    simp only [hmarked, Bool.true_eq_false, false_implies, true_iff]
    intro hmem
    rw [hover _ hmem] at hreserved
    cases hreserved
  · rename_i hfree
    have hplain : (snakeCase name).startsWith rawMark = false := by
      rw [Bool.eq_false_iff, ne_eq, String.startsWith_string_iff]
      intro hmark
      exact hash_not_mem_snakeCase h (hmark.subset (by decide))
    rw [snakeCase_mem_keywords_iff (by simpa using hfree)]
    simp [hplain]

theorem isLegal_fieldName_iff : IsLegal (fieldName name) ↔ HasLegalField name := by
  have hstart := head?_snakeCase name
  have hchars := forall_snakeCase_iff h
  have hfree := fieldName_free_iff h
  rw [← unmarked_fieldName h] at hstart hchars
  constructor
  · rintro ⟨start, chars, free⟩
    obtain ⟨dollar, dotted⟩ := hchars.mp chars
    exact ⟨hstart.symm.trans start, dollar, dotted, hfree.mp free⟩
  · rintro ⟨start, dollar, dotted, keyword⟩
    exact ⟨hstart.trans start, hchars.mpr ⟨dollar, dotted⟩, hfree.mpr keyword⟩

end

/-- Exactly the properties whose name has the shape `HasLegalField` get a legal field, among all
that a document can declare. -/
theorem fieldName_isLegal_iff {text : String} {m : Model} (hread : Model.read text = .ok m)
    {d : Declaration} (hd : d ∈ m.declarations) {p : Property} (hp : p ∈ d.properties) :
    IsLegal (fieldName p.name) ↔ HasLegalField p.name :=
  isLegal_fieldName_iff (((Model.wellFormed_of_read hread).declarations d hd).property hp).name

/-- A property named by an overlooked keyword, and one named by a reserved word. -/
theorem fieldName_isLegal_iff_final :
    ∃ m d, Model.read "namespace a concept C\x7bo Long final o Long type\x7d" = .ok m ∧
      d ∈ m.declarations ∧ d.properties.map (·.name) = ["final", "type"] ∧
      ¬IsLegal (fieldName "final") ∧ IsLegal (fieldName "type") := by
  let final : Property := { name := "final", typeName := "Long" }
  let type : Property := { name := "type", typeName := "Long" }
  let d : Declaration := ⟨"C", .classBody { kind := .concept, properties := [final, type] }, []⟩
  let m : Model := { id := ⟨"a", none⟩, declarations := [d] }
  have hread : Model.read "namespace a concept C\x7bo Long final o Long type\x7d" = .ok m := by
    decide +kernel
  have hd : d ∈ m.declarations := List.mem_cons_self
  refine ⟨m, d, hread, hd, rfl, ?_, ?_⟩
  · intro hlegal
    have hfree := ((fieldName_isLegal_iff hread hd (p := final) (by decide)).mp hlegal).keyword
    exact hfree (by decide)
  · refine (fieldName_isLegal_iff hread hd (p := type) (by decide)).mpr ⟨?_, ?_, ?_, ?_⟩
    all_goals decide

end Target

end Covenant
