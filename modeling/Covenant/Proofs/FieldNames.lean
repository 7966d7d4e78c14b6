/-
Which properties get the same field. A property's field is its name in snake case, and only
the mark of a reserved word is put before that. Names hold no `#`, and no character of a name
has a small form with one, so the mark can be told from a name: it neither makes two fields
equal nor keeps two apart, and taking it off leads back to the snake case
(`Target.fieldName_eq_iff`, `Target.unmarked_fieldName`).
-/
import Covenant.Proofs.Spelling
import Covenant.Target.Naming
import Mathlib.Data.List.Nodup

namespace Covenant

open Covenant.Lexer Covenant.Text

/-! ## Small forms -/

namespace Text

/-- The image of a code point comes from a run that holds it. -/
theorem CaseRuns.mem_of_image? {n k : Nat} {runs : CaseRuns} (h : runs.image? n = some k) :
    ∃ first last stride shift, (first, last, stride, shift) ∈ runs ∧ first ≤ n ∧ n ≤ last ∧
      (n - first) % stride = 0 ∧ (n + shift).toNat = k := by
  induction runs with
  | nil => simp [CaseRuns.image?] at h
  | cons run runs ih =>
    obtain ⟨first, last, stride, shift⟩ := run
    unfold CaseRuns.image? at h
    split at h
    · cases h
    · split at h
      · split at h
        · rename_i hstride
          cases h
          exact ⟨first, last, stride, shift, List.mem_cons_self, by omega, by omega, hstride, rfl⟩
        · cases h
      · obtain ⟨first, last, stride, shift, hrun, hbounds⟩ := ih h
        exact ⟨first, last, stride, shift, List.mem_cons_of_mem _ hrun, hbounds⟩

/-- No run leads to the character. -/
def CaseRuns.avoids (runs : CaseRuns) (d : Char) : Bool :=
  runs.all fun (first, last, _, shift) => first + shift > d.toNat || last + shift < d.toNat

theorem CaseRuns.ne_of_image? {runs : CaseRuns} {d : Char} (hruns : runs.avoids d = true)
    (hd : d ≠ '\x00') {n k : Nat} (h : runs.image? n = some k) : d ≠ Char.ofNat k := by
  obtain ⟨first, last, stride, shift, hrun, hfirst, hlast, -, hk⟩ := CaseRuns.mem_of_image? h
  have havoid := List.all_eq_true.mp hruns _ hrun
  simp only [Bool.or_eq_true, decide_eq_true_eq] at havoid
  have hzero : d.toNat ≠ 0 := fun hzero => hd (Char.toNat_inj.mp hzero)
  intro hchar
  by_cases hvalid : k.isValidChar
  · have hcode : d.toNat = k := by
      rw [hchar, Char.ofNat, dif_pos hvalid]
      rfl
    omega
  · rw [Char.ofNat, dif_neg hvalid] at hchar
    exact hd hchar

/-- The character is no small form of another one. -/
def IsUnproduced (d : Char) : Bool :=
  lowerRuns.avoids d && !(['ς', 'σ', 'i', '\u0307', '\x00'].contains d)

theorem isUnproduced_of_mem {d : Char} (h : d ∈ ['#', ':', '_', 'S']) : IsUnproduced d := by
  have hall : ['#', ':', '_', 'S'].all IsUnproduced = true := by decide +kernel
  exact List.all_eq_true.mp hall d h

variable {d : Char}

theorem image?_ne (hd : IsUnproduced d) {n k : Nat} (h : lowerRuns.image? n = some k) :
    d ≠ Char.ofNat k := by
  rw [IsUnproduced, Bool.and_eq_true] at hd
  refine CaseRuns.ne_of_image? hd.1 ?_ h
  rintro rfl
  exact absurd hd.2 (by decide)

theorem not_mem_lowerChar (hd : IsUnproduced d) {before after : List Char} {c : Char} (h : c ≠ d) :
    d ∉ lowerChar before c after := by
  have hothers : d ∉ ['ς', 'σ', 'i', '\u0307', '\x00'] := by
    rw [IsUnproduced, Bool.and_eq_true] at hd
    simpa using hd.2
  unfold lowerChar
  split
  · split <;> grind
  · split
    · grind
    · split
      · rename_i n hn
        simpa using image?_ne hd hn
      · simpa using Ne.symm h

theorem not_mem_lowerFrom (hd : IsUnproduced d) {before cs : List Char} (h : d ∉ cs) :
    d ∉ lowerFrom before cs := by
  induction cs generalizing before with
  | nil => simp [lowerFrom]
  | cons c cs ih =>
    rw [List.mem_cons, not_or] at h
    rw [lowerFrom, List.mem_append, not_or]
    exact ⟨not_mem_lowerChar hd (Ne.symm h.1), ih h.2⟩

end Text

namespace Target

/-! ## Snake case -/

theorem mem_of_mem_splitCamelCase {sep c : Char} {cs : List Char} (h : c ∈ splitCamelCase sep cs) :
    c = sep ∨ c ∈ cs := by
  induction cs with
  | nil => simp [splitCamelCase] at h
  | cons d cs ih =>
    unfold splitCamelCase at h
    split at h
    · split at h <;> grind
    · grind

/-- The snake case of a name holds no character that cannot stand in names and is no small form. -/
theorem not_mem_snakeCase {d : Char} (hd : IsUnproduced d) (hstart : isIdentifierStart d = false)
    (hchar : isIdentifierChar d = false) {name : String} (h : IsName name.toList) :
    d ∉ (snakeCase name).toList := by
  have hname : d ∉ name.toList := not_mem_of_isName h hstart hchar
  unfold snakeCase toLower
  rw [String.toList_ofList, String.toList_ofList]
  refine not_mem_lowerFrom hd fun hmem => ?_
  rcases mem_of_mem_splitCamelCase hmem with rfl | hmem
  · exact absurd hchar (by decide)
  · exact hname ((List.dropWhile_sublist _).mem hmem)

theorem hash_not_mem_snakeCase {name : String} (h : IsName name.toList) :
    '#' ∉ (snakeCase name).toList :=
  not_mem_snakeCase (isUnproduced_of_mem (by decide)) (by decide) (by decide) h

theorem fieldName_eq (name : String) :
    fieldName name =
      if reservedWords.contains (snakeCase name) then rawMark ++ snakeCase name
        else snakeCase name :=
  rfl

theorem colon_not_mem_fieldName {name : String} (h : IsName name.toList) :
    ':' ∉ (fieldName name).toList := by
  have hsnake : ':' ∉ (snakeCase name).toList :=
    not_mem_snakeCase (isUnproduced_of_mem (by decide)) (by decide) (by decide) h
  rw [fieldName_eq]
  split
  · rw [String.toList_append, List.mem_append, not_or]
    exact ⟨by decide, hsnake⟩
  · exact hsnake

theorem unmarked_append (text : String) : unmarked (rawMark ++ text) = text := by
  have hmarked :
      (rawMark ++ text).startsWith rawMark = true := by simp [String.startsWith_string_iff]
  rw [unmarked, if_pos hmarked]
  simp [rawMark]

theorem unmarked_of_hash_not_mem {text : String} (h : '#' ∉ text.toList) :
    unmarked text = text := by
  have hplain : ¬ text.startsWith rawMark = true := by
    rw [String.startsWith_string_iff]
    intro hmark
    exact h (hmark.subset (by decide))
  rw [unmarked, if_neg hplain]

/-- Without its mark, the field of a property is its name in snake case. -/
theorem unmarked_fieldName {name : String} (h : IsName name.toList) :
    unmarked (fieldName name) = snakeCase name := by
  rw [fieldName_eq]
  split
  · exact unmarked_append _
  · exact unmarked_of_hash_not_mem (hash_not_mem_snakeCase h)

/-- Properties get the same field if and only if their names agree in snake case. -/
theorem fieldName_eq_iff {x y : String} (hx : IsName x.toList) (hy : IsName y.toList) :
    fieldName x = fieldName y ↔ snakeCase x = snakeCase y := by
  constructor
  · intro h
    rw [← unmarked_fieldName hx, h, unmarked_fieldName hy]
  · intro h
    rw [fieldName_eq, fieldName_eq, h]

/-! ## Several names -/

/-- Names that stay different in snake case. -/
def Apart (names : List String) : Prop :=
  ∀ x ∈ names, ∀ y ∈ names, x ≠ y → snakeCase x ≠ snakeCase y

instance : DecidablePred Apart :=
  fun names => inferInstanceAs (Decidable (∀ x ∈ names, ∀ y ∈ names, x ≠ y → _))

/-- Different names get different fields if and only if they stay different in snake case. -/
theorem nodup_fieldNames_iff {names : List String} (hnodup : names.Nodup)
    (hnames : ∀ name ∈ names, IsName name.toList) : (names.map fieldName).Nodup ↔ Apart names := by
  rw [List.nodup_map_iff_inj_on hnodup]
  refine forall₂_congr fun x hx => forall₂_congr fun y hy => ?_
  rw [fieldName_eq_iff (hnames x hx) (hnames y hy), ne_eq, ne_eq, not_imp_not]

/-- Names that have none of the fields given. -/
def Avoids (taken names : List String) : Prop :=
  ∀ name ∈ names, snakeCase name ∉ taken

instance (taken : List String) : DecidablePred (Avoids taken) :=
  fun names => inferInstanceAs (Decidable (∀ name ∈ names, _))

theorem fieldName_eq_word_iff {name word : String} (hname : IsName name.toList)
    (hword : IsName word.toList) (hfield : fieldName word = word) :
    fieldName name = word ↔ snakeCase name = word := by
  have hsnake : snakeCase word = word := by
    rw [← unmarked_fieldName hword, hfield]
    exact unmarked_of_hash_not_mem (not_mem_of_isName hword (by decide) (by decide))
  calc fieldName name = word ↔ fieldName name = fieldName word := by rw [hfield]
    _ ↔ snakeCase name = snakeCase word := fieldName_eq_iff hname hword
    _ ↔ snakeCase name = word := by rw [hsnake]

/-- Beside fixed fields, different names get fields of their own if and only if they stay different
in snake case and avoid the fixed ones. -/
theorem nodup_append_fieldNames_iff {taken names : List String} (htaken : taken.Nodup)
    (hwords : ∀ word ∈ taken, IsName word.toList ∧ fieldName word = word) (hnodup : names.Nodup)
    (hnames : ∀ name ∈ names, IsName name.toList) :
    (taken ++ names.map fieldName).Nodup ↔ Apart names ∧ Avoids taken names := by
  have havoids : taken.Disjoint (names.map fieldName) ↔ Avoids taken names := by
    have hsame {name word : String} (hname : name ∈ names) (hword : word ∈ taken) :=
      fieldName_eq_word_iff (hnames name hname) (hwords word hword).1 (hwords word hword).2
    constructor
    · intro hdisjoint name hname hmem
      exact hdisjoint hmem (List.mem_map.mpr ⟨name, hname, (hsame hname hmem).mpr rfl⟩)
    · intro havoids word hword hmem
      obtain ⟨name, hname, hfield⟩ := List.mem_map.mp hmem
      refine havoids name hname ?_
      rwa [(hsame hname hword).mp hfield]
  rw [List.nodup_append', nodup_fieldNames_iff hnodup hnames, havoids]
  simp [htaken]

end Target

end Covenant
