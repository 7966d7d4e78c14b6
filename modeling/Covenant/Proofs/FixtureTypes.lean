/-
Whether the values of the generated test have the types of their fields. What type an expression
has is said by rules, one for each form that values are written in (`Crate.HasType`). A declared
type is known by its declaration, so that an enumeration has the values that are declared and a
struct the fields that its module gives it.

The values that are chosen by the type of a field have that type. Two are chosen otherwise, and
they may have another one. The value of `$class` is a text, whatever type a document gives to a
property of that name. A duration is a literal of one day, whatever types its concept gives to the
amount and the unit: an amount that is no `Integer` is taken for a floating-point number, and a
unit for a value of its enumeration even if it is optional, an array or a relationship.
`Crate.fixtures_hasType_iff` says exactly when these have the types of their fields.
-/
import Covenant.Proofs.ScaffoldFields
import Mathlib.Data.List.Forall2
import Mathlib.Data.List.TakeWhile
import Mathlib.Data.Option.Basic

namespace Covenant

open Covenant.Lexer Covenant.Text

/-! ## Words -/

namespace Text

/-- The character is not in the capital form of another one. -/
def IsUnraised (d : Char) : Bool :=
  d ≠ '\x00' && upperRuns.avoids d
    && upperExpansions.all fun (_, ns) => !(ns.map Char.ofNat).contains d

theorem isUnraised_of_mem {d : Char} (h : d ∈ ['"', '\\']) : IsUnraised d := by
  have hall : ['"', '\\'].all IsUnraised = true := by decide +kernel
  exact List.all_eq_true.mp hall d h

theorem not_mem_upperChar {c d : Char} (hd : IsUnraised d) (h : c ≠ d) : d ∉ upperChar c := by
  simp only [IsUnraised, Bool.and_eq_true, decide_eq_true_eq, List.all_eq_true] at hd
  obtain ⟨⟨hzero, hruns⟩, hexpansions⟩ := hd
  unfold upperChar
  split
  · rename_i ns hns
    obtain ⟨before, after, htable, -⟩ := List.lookup_eq_some_iff.mp hns
    have havoid := hexpansions (c.toNat, ns) (by rw [htable]; simp)
    simpa using havoid
  · split
    · rename_i k hk
      simpa using CaseRuns.ne_of_image? hruns hzero hk
    · simpa using Ne.symm h

end Text

namespace Crate

theorem mem_of_mem_splitWords {c : Char} {current cs part : List Char}
    (hpart : part ∈ splitWords current cs) (hc : c ∈ part) : c ∈ current ∨ c ∈ cs := by
  induction cs generalizing current with
  | nil =>
    unfold splitWords at hpart
    split at hpart
    · cases hpart
    · rw [List.mem_singleton.mp hpart, List.mem_reverse] at hc
      exact .inl hc
  | cons d cs ih =>
    unfold splitWords at hpart
    split at hpart
    · split at hpart
      · rcases ih hpart with hnone | hmem
        · cases hnone
        · exact .inr (List.mem_cons_of_mem _ hmem)
      · rcases List.mem_cons.mp hpart with rfl | hpart
        · exact .inl (List.mem_reverse.mp hc)
        · rcases ih hpart with hnone | hmem
          · cases hnone
          · exact .inr (List.mem_cons_of_mem _ hmem)
    · rcases ih hpart with hmem | hmem
      · rcases List.mem_cons.mp hmem with rfl | hmem
        · exact .inr List.mem_cons_self
        · exact .inl hmem
      · exact .inr (List.mem_cons_of_mem _ hmem)

/-- A text that can stand between quotation marks as it is. -/
def IsQuotable (s : String) : Prop :=
  ∀ d ∈ ['"', '\\'], d ∉ s.toList

theorem isQuotable_words {name : String} (h : IsName name.toList) :
    IsQuotable ("Test " ++ words name) := by
  intro d hd
  have hfree : isIdentifierStart d = false ∧ isIdentifierChar d = false ∧ d ∉ [' '] ∧
      d ∉ "Test ".toList := by
    simp only [List.mem_cons, List.not_mem_nil, or_false] at hd
    rcases hd with rfl | rfl <;> decide
  obtain ⟨hstart, hchar, hblank, htest⟩ := hfree
  rw [String.toList_append, List.mem_append, not_or]
  refine ⟨htest, ?_⟩
  rw [words, String.toList_intercalate]
  refine not_mem_intercalate hblank fun cs hcs => ?_
  simp only [List.map_map, List.mem_map] at hcs
  obtain ⟨part, hpart, rfl⟩ := hcs
  have hnotin : d ∉ part := by
    intro hmem
    rcases mem_of_mem_splitWords hpart hmem with hnone | hmem
    · cases hnone
    · rcases Target.mem_of_mem_splitCamelCase hmem with rfl | hmem
      · exact hblank (List.mem_singleton_self _)
      · exact not_mem_of_isName h hstart hchar ((List.dropWhile_sublist _).mem hmem)
  cases part with
  | nil => simp [capitalized]
  | cons c cs =>
    rw [List.mem_cons, not_or] at hnotin
    simp only [Function.comp_apply, String.toList_ofList, capitalized, List.mem_append, not_or]
    exact ⟨not_mem_upperChar (isUnraised_of_mem hd) (Ne.symm hnotin.1), hnotin.2⟩

/-- So is the full name of what is registered. -/
theorem isQuotable_fullName {r : Registry} (h : r.Sound) {l : Located} (hl : l ∈ r.declarations) :
    IsQuotable l.fullName := by
  intro d hd
  have hfree : isIdentifierStart d = false ∧ isIdentifierChar d = false ∧ isVersionChar d = false ∧
      d ∉ ['.', '@'] := by
    simp only [List.mem_cons, List.not_mem_nil, or_false] at hd
    rcases hd with rfl | rfl <;> decide
  obtain ⟨hstart, hchar, hversion, hmark⟩ := hfree
  obtain ⟨m, hm, hkey, hdeclared⟩ := Registry.mem_declarations.mp hl
  have hwell := h.wellFormed hm
  have hname := not_mem_of_isName (hwell.declarations _ hdeclared).name.1 hstart hchar
  have hnamespace : d ∉ l.key.toList := by
    rw [hkey]
    exact hwell.id.not_mem hmark hstart hchar hversion
  simp only [Located.fullName, qualifiedName, String.toList_append, List.mem_append, not_or]
  refine ⟨⟨hnamespace, ?_⟩, hname⟩
  simp only [List.mem_cons, not_or] at hmark
  simpa using hmark.1

end Crate

namespace Registry

variable {r : Registry} {key typeName : String} {l : Located}

/-- What is found for a type name is called by the short one. -/
theorem name_of_resolve? (h : r.resolve? key typeName = some l) :
    l.declaration.name = Target.shortName typeName := by
  unfold resolve? at h
  split at h
  · cases h
  · split at h
    · obtain ⟨m, -, hlocated⟩ := Option.bind_eq_some_iff.mp h
      exact name_of_locate? hlocated
    · rename_i hshort
      have hself : Target.shortName typeName = typeName := by
        have hdot : '.' ∉ typeName.toList := by simpa [isQualified] using hshort
        have hall : ∀ c ∈ typeName.toList.reverse, decide (c ≠ '.') = true := by
          intro c hc
          simp only [ne_eq, decide_eq_true_eq]
          rintro rfl
          exact hdot (List.mem_reverse.mp hc)
        rw [Target.shortName, afterLast, List.takeWhile_eq_self_iff.mpr hall, List.reverse_reverse,
          String.ofList_toList]
      rw [hself]
      unfold resolveShort? at h
      split at h
      · cases h
      · split at h
        · rename_i d hd
          cases h
          simpa using List.find?_some hd
        · obtain ⟨i, -, himported⟩ := List.exists_of_findSome?_eq_some h
          unfold resolveImported? at himported
          split at himported
          · obtain ⟨m, -, hlocated⟩ := Option.bind_eq_some_iff.mp himported
            exact name_of_locate? hlocated
          · cases himported

end Registry

namespace Crate

/-! ## Types of expressions -/

/-- A number without a point. -/
def IsFigures (s : String) : Prop :=
  s.toList ≠ [] ∧ s.toList.all Char.isDigit = true

/-- The values of the types that are not declared. -/
inductive IsPrimitiveValue : String → String → Prop
  | flag : IsPrimitiveValue "bool" "true"
  | integer {figures : String} (h : IsFigures figures) : IsPrimitiveValue "i64" figures
  | decimal (whole fraction : String) (h : IsFigures whole) (h' : IsFigures fraction) :
      IsPrimitiveValue "f64" (whole ++ "." ++ fraction)
  | text {s : String} (h : IsQuotable s) : IsPrimitiveValue "String" (textValue s)
  | now : IsPrimitiveValue "DateTime<Utc>" "Utc::now()"

/-- The declaration is an enumeration with that value. -/
def HasValue (l : Located) (v : String) : Prop :=
  ∃ values, l.declaration.body = .enumeration values ∧ v ∈ values

/-- What stands in a struct literal: fields with their values, and the default for the others. -/
def initialisers : List (StructField × String) → String
  | [] => "..Default::default() \x7d"
  | (f, e) :: rest => f.name ++ ": " ++ e ++ ", " ++ initialisers rest

/-- The declaration that the type of a property stands for; a relationship holds an identifier. -/
def declarationOf? (r : Registry) (key : String) (p : Property) : Option Located :=
  if p.isRelationship then none else r.resolve? key p.typeName

/-- The type is one that is not declared, or a scalar of it. -/
inductive Denotes : Option Located → Target.TypeExpr → String → Prop
  | itself {l? : Option Located} {n : String} : Denotes l? (.named n) n
  | scalar {l : Located} {base : String} (h : l.declaration.body = .scalar base) :
      Denotes (some l) (.named l.declaration.name) (plainName base)

/-- What type an expression has; `l?` is the declaration that the declared name in the type stands
for. -/
inductive HasType (r : Registry) : Option Located → Target.TypeExpr → String → Prop
  | default {l? : Option Located} {t : Target.TypeExpr} : HasType r l? t "Default::default()"
  | optional {l? : Option Located} {t : Target.TypeExpr} {e : String} (h : HasType r l? t e) :
      HasType r l? (.option t) ("Some(" ++ e ++ ")")
  | vector {l? : Option Located} {t : Target.TypeExpr} {e : String} (h : HasType r l? t e) :
      HasType r l? (.vec t) ("vec![" ++ e ++ "]")
  | primitive {l? : Option Located} {t : Target.TypeExpr} {n e : String} (ht : Denotes l? t n)
      (h : IsPrimitiveValue n e) : HasType r l? t e
  | value {l : Located} {v : String} (h : HasValue l v) :
      HasType r (some l) (.named l.declaration.name) (l.declaration.name ++ "::" ++ v)
  | literal {l : Located} {body : ClassBody} {inits : List (StructField × String)}
      (h : l.declaration.body = .classBody body)
      (hfields : ∀ init ∈ inits, init.1 ∈ structFields r l)
      (hinits : ∀ init ∈ inits,
        HasType r (declarationOf? r l.key init.1.property) init.1.type init.2) :
      HasType r (some l) (.named l.declaration.name)
        (l.declaration.name ++ " \x7b " ++ initialisers inits)

theorem IsFigures.not_mem {s : String} (h : IsFigures s) {d : Char} (hd : d.isDigit = false) :
    d ∉ s.toList := by
  intro hmem
  simp [List.all_eq_true.mp h.2 d hmem] at hd

theorem not_mem_decimal {whole fraction : String} (h : IsFigures whole) (h' : IsFigures fraction)
    {d : Char} (hd : d.isDigit = false) (hpoint : d ≠ '.') :
    d ∉ (whole ++ "." ++ fraction).toList := by
  simp [h.not_mem hd, h'.not_mem hd, hpoint]

theorem Denotes.eq_named {t : Target.TypeExpr} {n : String} (h : Denotes none t n) :
    t = .named n := by
  cases h
  rfl

theorem declarationOf?_eq_some {r : Registry} {key : String} {p : Property} {l : Located} :
    declarationOf? r key p = some l ↔
      p.isRelationship = false ∧ r.resolve? key p.typeName = some l := by
  unfold declarationOf?
  split <;> simp_all

theorem isName_of_declarationOf? {r : Registry} (h : r.Sound) {key : String} {p : Property} :
    ∀ l ∈ declarationOf? r key p, IsName l.declaration.name.toList := by
  intro l hl
  exact h.isName_declaration (Registry.resolve?_mem (declarationOf?_eq_some.mp hl).2)

namespace IsPrimitiveValue

variable {n e : String} (h : IsPrimitiveValue n e)

include h

/-- Only numbers start with a figure, and only decimal ones hold a point. -/
theorem of_digit {c : Char} (hc : e.toList.head? = some c) (hdigit : c.isDigit = true) :
    ',' ∉ e.toList ∧ n = if '.' ∈ e.toList then "f64" else "i64" := by
  cases h with
  | flag =>
    obtain rfl : 't' = c := by simpa using hc
    exact absurd hdigit (by decide)
  | integer h => exact ⟨h.not_mem (by decide), by rw [if_neg (h.not_mem (by decide))]⟩
  | decimal whole fraction h h' => exact ⟨not_mem_decimal h h' (by decide) (by decide), by simp⟩
  | text h =>
    obtain rfl : '"' = c := by simpa [textValue] using hc
    exact absurd hdigit (by decide)
  | now =>
    obtain rfl : 'U' = c := by simpa using hc
    exact absurd hdigit (by decide)

/-- Only texts hold quotation marks. -/
theorem of_quote (hmem : '"' ∈ e.toList) : n = "String" := by
  cases h with
  | flag => exact absurd hmem (by decide)
  | integer h => exact absurd hmem (h.not_mem (by decide))
  | decimal whole fraction h h' => exact absurd hmem (not_mem_decimal h h' (by decide) (by decide))
  | text => rfl
  | now => exact absurd hmem (by decide)

/-- Only texts and the time hold blanks or colons. -/
theorem of_mark {d : Char} (hd : d ∈ [' ', ':']) (hmem : d ∈ e.toList) :
    e.toList.head? = some '"' ∨ e = "Utc::now()" := by
  have hmark : d.isDigit = false ∧ d ≠ '.' ∧ d ∉ "true".toList := by
    simp only [List.mem_cons, List.not_mem_nil, or_false] at hd
    rcases hd with rfl | rfl <;> decide
  obtain ⟨hdigit, hpoint, htrue⟩ := hmark
  cases h with
  | flag => exact absurd hmem htrue
  | integer h => exact absurd hmem (h.not_mem hdigit)
  | decimal whole fraction h h' => exact absurd hmem (not_mem_decimal h h' hdigit hpoint)
  | text => exact .inl (by simp [textValue])
  | now => exact .inr rfl

end IsPrimitiveValue

namespace HasType

variable {r : Registry} {l? : Option Located} {t : Target.TypeExpr} {e : String}

theorem optional_iff : HasType r l? (.option t) ("Some(" ++ e ++ ")") ↔ HasType r l? t e := by
  refine ⟨fun h => ?_, .optional⟩
  generalize htext : "Some(" ++ e ++ ")" = text at h
  cases h with
  | default => simp [← String.toList_inj] at htext
  | optional h =>
    obtain rfl : e = _ := by simpa using htext
    exact h
  | primitive ht => cases ht

theorem vector_iff : HasType r l? (.vec t) ("vec![" ++ e ++ "]") ↔ HasType r l? t e := by
  refine ⟨fun h => ?_, .vector⟩
  generalize htext : "vec![" ++ e ++ "]" = text at h
  cases h with
  | default => simp [← String.toList_inj] at htext
  | vector h =>
    obtain rfl : e = _ := by simpa using htext
    exact h
  | primitive ht => cases ht

/-- What does not start as a name does is a value of a type that is not declared. -/
theorem primitive_of_head (h : HasType r l? t e)
    (hnames : ∀ l ∈ l?, IsName l.declaration.name.toList) {c : Char} (hc : e.toList.head? = some c)
    (hstart : isIdentifierStart c = false) :
    ∃ n, Denotes l? t n ∧ IsPrimitiveValue n e := by
  have hname {l : Located} (hl : l ∈ l?) {text : String}
      (htext : (l.declaration.name ++ text).toList.head? = some c) : False := by
    have hshape := hnames l hl
    cases hchars : l.declaration.name.toList with
    | nil => simp [hchars, IsName] at hshape
    | cons d ds =>
      obtain rfl : d = c := by simpa [hchars] using htext
      rw [hchars] at hshape
      simp [hshape.1] at hstart
  cases h with
  | primitive ht h => exact ⟨_, ht, h⟩
  | default =>
    obtain rfl : 'D' = c := by simpa using hc
    exact absurd hstart (by decide)
  | optional =>
    obtain rfl : 'S' = c := by simpa using hc
    exact absurd hstart (by decide)
  | vector =>
    obtain rfl : 'v' = c := by simpa using hc
    exact absurd hstart (by decide)
  | value | literal =>
    rw [String.append_assoc] at hc
    exact (hname rfl hc).elim

/-- A text between quotation marks. -/
theorem of_textValue (hnames : ∀ l ∈ l?, IsName l.declaration.name.toList) {s : String}
    (h : HasType r l? t (textValue s)) : Denotes l? t "String" := by
  obtain ⟨n, ht, hvalue⟩ := h.primitive_of_head hnames (c := '"') (by simp [textValue]) (by decide)
  rwa [hvalue.of_quote (by simp [textValue])] at ht

/-- A value of an enumeration. -/
theorem of_value {u v : String} (hu : IsName u.toList) (hv : IsName v.toList)
    (hnames : ∀ l ∈ l?, IsName l.declaration.name.toList) (h : HasType r l? t (u ++ "::" ++ v)) :
    ∃ l, l? = some l ∧ t = .named u ∧ l.declaration.name = u ∧ HasValue l v := by
  have hfree {d : Char} (hd : d ∈ ['(', '[', ' ', '"']) : d ∉ (u ++ "::" ++ v).toList := by
    have hmark : isIdentifierStart d = false ∧ isIdentifierChar d = false ∧ d ≠ ':' := by
      simp only [List.mem_cons, List.not_mem_nil, or_false] at hd
      rcases hd with rfl | rfl | rfl | rfl <;> decide
    obtain ⟨hstart, hchar, hcolon⟩ := hmark
    simp [not_mem_of_isName hu hstart hchar, not_mem_of_isName hv hstart hchar, hcolon]
  have hcolon : ':' ∈ (u ++ "::" ++ v).toList := by simp
  generalize htext : u ++ "::" ++ v = text at h hfree hcolon
  cases h with
  | default => exact absurd (by decide) (hfree (d := '(') (by decide))
  | optional => exact absurd (by simp) (hfree (d := '(') (by decide))
  | vector => exact absurd (by simp) (hfree (d := '[') (by decide))
  | primitive ht h =>
    rcases h.of_mark (by decide) hcolon with hquote | rfl
    · exact absurd (List.mem_of_head? hquote) (hfree (by decide))
    · exact absurd (by decide) (hfree (d := '(') (by decide))
  | literal => exact absurd (by simp) (hfree (d := ' ') (by decide))
  | @value l v' hmem =>
    have hchars := congrArg String.toList htext
    simp only [String.toList_append, List.append_assoc] at hchars
    have hcolon : isIdentifierStart ':' = false ∧ isIdentifierChar ':' = false := by decide
    obtain ⟨hname, hrest⟩ := join_inj_left (not_mem_of_isName hu hcolon.1 hcolon.2)
      (not_mem_of_isName (hnames l rfl) hcolon.1 hcolon.2) hchars
    obtain rfl := String.toList_inj.mp hname
    obtain rfl : v = v' := String.toList_inj.mp (by simpa using hrest)
    exact ⟨l, rfl, rfl, rfl, hmem⟩

/-- A literal of a struct. -/
theorem of_literal {l : Located} {n text : String} (hname : IsName l.declaration.name.toList)
    (h : HasType r (some l) (.named n) (l.declaration.name ++ " \x7b " ++ text)) :
    ∃ inits, (∀ init ∈ inits, init.1 ∈ structFields r l) ∧
      (∀ init ∈ inits, HasType r (declarationOf? r l.key init.1.property) init.1.type init.2) ∧
      text = initialisers inits := by
  have hblank : ' ' ∈ (l.declaration.name ++ " \x7b " ++ text).toList := by simp
  have hhead : (l.declaration.name ++ " \x7b " ++ text).toList.head? ≠ some '"' := by
    cases hchars : l.declaration.name.toList with
    | nil => simp [hchars, IsName] at hname
    | cons c cs =>
      rw [hchars] at hname
      simp only [String.toList_append, hchars, List.cons_append, List.head?_cons, ne_eq,
        Option.some.injEq]
      rintro rfl
      exact absurd hname.1 (by decide)
  generalize hliteral : l.declaration.name ++ " \x7b " ++ text = literal at h hblank hhead
  cases h with
  | default => exact absurd hblank (by decide)
  | primitive ht h =>
    rcases h.of_mark (by decide) hblank with hquote | rfl
    · exact absurd hquote hhead
    · exact absurd hblank (by decide)
  | value => simp [← String.toList_inj] at hliteral
  | literal hclass hfields hinits =>
    exact ⟨_, hfields, hinits, by simpa [String.append_assoc] using hliteral⟩

end HasType

/-! ## Literals of one day -/

/-- The name of the first field can be told from what follows. -/
theorem initialisers_eq {inits : List (StructField × String)} {name text : String}
    (hfields : ∀ init ∈ inits, ':' ∉ init.1.name.toList)
    (hname : ':' ∉ name.toList ∧ name.toList.head? ≠ some '.')
    (h : initialisers inits = name ++ ": " ++ text) :
    ∃ f e rest, inits = (f, e) :: rest ∧ f.name = name ∧ e ++ ", " ++ initialisers rest = text := by
  have hchars := congrArg String.toList h
  cases inits with
  | nil =>
    cases hcs : name.toList with
    | nil => simp [initialisers, hcs] at hchars
    | cons c cs =>
      obtain ⟨-, hdefault⟩ := hname
      simp only [hcs, List.head?_cons, ne_eq, Option.some.injEq] at hdefault
      simp only [initialisers, String.toList_append, hcs] at hchars
      simp [Ne.symm hdefault] at hchars
  | cons init rest =>
    obtain ⟨f, e⟩ := init
    simp only [initialisers, String.toList_append, List.append_assoc] at hchars
    obtain ⟨hsame, htext⟩ := join_inj_left (hfields _ List.mem_cons_self) hname.1 hchars
    refine ⟨f, e, rest, rfl, String.toList_inj.mp hsame, String.toList_inj.mp ?_⟩
    simpa using htext

/-- So can a value without commas. -/
theorem comma_inj {e e' text text' : String} (he : ',' ∉ e.toList) (he' : ',' ∉ e'.toList)
    (h : e ++ ", " ++ text = e' ++ ", " ++ text') : e = e' ∧ text = text' := by
  have hchars : e.toList ++ ',' :: (" " ++ text).toList =
      e'.toList ++ ',' :: (" " ++ text').toList := by
    simpa using congrArg String.toList h
  obtain ⟨hsame, hrest⟩ := join_inj_left he he' hchars
  exact ⟨String.toList_inj.mp hsame, String.toList_inj.mp (by simpa using hrest)⟩

/-- The value before the last comma holds none if there is only one. -/
theorem comma_not_mem {e value text last : String} (hvalue : ',' ∉ value.toList)
    (hlast : ',' ∉ last.toList) (h : e ++ ", " ++ text = value ++ ", " ++ last) :
    ',' ∉ e.toList := by
  have hcount := congrArg (List.count ',' ·.toList) h
  simp only [String.toList_append, List.count_append, List.count_eq_zero.mpr hvalue,
    List.count_eq_zero.mpr hlast] at hcount
  rw [← List.count_eq_zero]
  have hone : List.count ',' ", ".toList = 1 := by decide
  omega

/-- If the value of the first field is known by its first character, both fields and values can be
told from the text. -/
theorem initialisers_eq_two {inits : List (StructField × String)} {name name' value value' : String}
    (hfields : ∀ init ∈ inits, ':' ∉ init.1.name.toList)
    (hname : ':' ∉ name.toList ∧ name.toList.head? ≠ some '.')
    (hname' : ':' ∉ name'.toList ∧ name'.toList.head? ≠ some '.')
    (hne : value.toList ≠ []) (hvalue : ',' ∉ value.toList) (hvalue' : ',' ∉ value'.toList)
    (hfirst : ∀ init ∈ inits, init.2.toList.head? = value.toList.head? → ',' ∉ init.2.toList)
    (h : initialisers inits = name ++ ": " ++ (value ++ ", " ++
      (name' ++ ": " ++ (value' ++ ", " ++ initialisers [])))) :
    ∃ f f', inits = [(f, value), (f', value')] ∧ f.name = name ∧ f'.name = name' := by
  obtain ⟨f, e, rest, rfl, hf, htext⟩ := initialisers_eq hfields hname h
  have hfree : ',' ∉ e.toList := by
    cases hes : e.toList with
    | nil => simp
    | cons c cs =>
      rw [← hes]
      refine hfirst (f, e) List.mem_cons_self ?_
      have hhead := congrArg (List.head? ·.toList) htext
      simp only [String.toList_append, List.append_assoc] at hhead
      rwa [List.head?_append_of_ne_nil _ (by simp [hes]),
        List.head?_append_of_ne_nil _ hne] at hhead
  obtain ⟨rfl, hrest⟩ := comma_inj hfree hvalue htext
  rw [List.forall_mem_cons] at hfields
  obtain ⟨f', e', rest', rfl, hf', htext'⟩ := initialisers_eq hfields.2 hname' hrest
  obtain ⟨rfl, hnone⟩ := comma_inj (comma_not_mem hvalue' (by decide) htext') hvalue' htext'
  cases rest' with
  | nil => exact ⟨f, f', rfl, hf, hf'⟩
  | cons =>
    have hcomma : ',' ∉ (initialisers []).toList := by decide
    exact absurd (by rw [← hnone]; simp [initialisers]) hcomma

/-- A concept that a literal of one day is made for. -/
structure OneDay (r : Registry) (l : Located) (amount : Property) (unitType : Located) : Prop where
  called : l.declaration.name = "Duration"
  concept : l.declaration.kind = .classKind .concept
  amount : lastNamed? (r.allProperties l) "amount" = some amount
  unit : ∃ unit, lastNamed? (r.allProperties l) "unit" = some unit ∧
    r.resolve? l.key unit.typeName = some unitType
  days : HasValue unitType "days"

/-- The amount of a literal of one day. -/
def dayAmount (amount : Property) : String :=
  if (plainType amount).text = "i64" then "1" else "1.0"

/-- The type of that amount. -/
def dayAmountType (amount : Property) : String :=
  if (plainType amount).text = "i64" then "i64" else "f64"

/-- The fields that the literal gives values to are of the types of these values. -/
structure Fits (r : Registry) (l : Located) (amount : Property) (unitType : Located) : Prop where
  amount : ∃ f ∈ structFields r l, f.name = "amount" ∧
    Denotes (declarationOf? r l.key f.property) f.type (dayAmountType amount)
  unit : ∃ f ∈ structFields r l, f.name = "unit" ∧ f.type = .named unitType.declaration.name ∧
    ∃ l', declarationOf? r l.key f.property = some l' ∧
      l'.declaration.name = unitType.declaration.name ∧ HasValue l' "days"

/-- The literal of one day. -/
def dayText (amount : Property) (unitType : Located) : String :=
  s!"Duration \x7b amount: {dayAmount amount}, unit: {unitType.declaration.name}" ++
    "::days, ..Default::default() \x7d"

theorem dayText_eq (amount : Property) (unitType : Located) :
    dayText amount unitType = "Duration" ++ " \x7b " ++ ("amount" ++ ": " ++
      (dayAmount amount ++ ", " ++ ("unit" ++ ": " ++
        (unitType.declaration.name ++ "::" ++ "days" ++ ", " ++ initialisers [])))) := by
  unfold dayText
  generalize dayAmount amount = number
  rw [← String.toList_inj]
  simp [toString, initialisers]

theorem isPrimitiveValue_dayAmount_iff {amount : Property} {n : String} :
    IsPrimitiveValue n (dayAmount amount) ↔ n = dayAmountType amount := by
  unfold dayAmount dayAmountType
  split
  · refine ⟨fun h => (h.of_digit (c := '1') (by decide) (by decide)).2, ?_⟩
    rintro rfl
    exact .integer ⟨by decide, by decide⟩
  · refine ⟨fun h => (h.of_digit (c := '1') (by decide) (by decide)).2, ?_⟩
    rintro rfl
    exact .decimal "1" "0" ⟨by decide, by decide⟩ ⟨by decide, by decide⟩

variable {r : Registry} {key typeName : String}

theorem OneDay.durationValue?_eq {l unitType : Located} {amount : Property}
    (h : OneDay r l amount unitType) (hl : r.resolve? key typeName = some l) :
    durationValue? r key typeName = some (dayText amount unitType,
      [Target.namespaceModule l.key, Target.namespaceModule unitType.key]) := by
  obtain ⟨called, concept, hamount, ⟨unit, hunit, hresolved⟩, values, hbody, hdays⟩ := h
  unfold durationValue?
  refine Option.bind_eq_some_iff.mpr ⟨l, hl, Option.bind_eq_some_iff.mpr ⟨(), ?_,
    Option.bind_eq_some_iff.mpr ⟨amount, hamount, Option.bind_eq_some_iff.mpr ⟨unit, hunit,
      Option.bind_eq_some_iff.mpr ⟨unitType, hresolved, ?_⟩⟩⟩⟩⟩
  · exact (Option.guard_eq_some' ()).mpr (by simp [called, concept])
  · rw [hbody]
    exact Option.bind_eq_some_iff.mpr
      ⟨(), (Option.guard_eq_some' ()).mpr (by simpa using hdays), rfl⟩

theorem exists_oneDay {v : String × List String} (h : durationValue? r key typeName = some v) :
    ∃ l amount unitType, r.resolve? key typeName = some l ∧ OneDay r l amount unitType := by
  unfold durationValue? at h
  obtain ⟨l, hl, h⟩ := Option.bind_eq_some_iff.mp h
  obtain ⟨_, hguard, h⟩ := Option.bind_eq_some_iff.mp h
  obtain ⟨amount, hamount, h⟩ := Option.bind_eq_some_iff.mp h
  obtain ⟨unit, hunit, h⟩ := Option.bind_eq_some_iff.mp h
  obtain ⟨unitType, hresolved, h⟩ := Option.bind_eq_some_iff.mp h
  obtain ⟨called, concept⟩ : l.declaration.name = "Duration" ∧
      l.declaration.kind = .classKind .concept := by
    simpa using (Option.guard_eq_some' _).mp hguard
  refine ⟨l, amount, unitType, hl, called, concept, hamount, ⟨unit, hunit, hresolved⟩, ?_⟩
  cases hbody : unitType.declaration.body with
  | enumeration values =>
    rw [hbody] at h
    obtain ⟨_, hdays, -⟩ := Option.bind_eq_some_iff.mp h
    exact ⟨values, hbody, by simpa using (Option.guard_eq_some' _).mp hdays⟩
  | classBody | scalar | map =>
    rw [hbody] at h
    cases h

theorem head?_dayAmount (amount : Property) : (dayAmount amount).toList.head? = some '1' := by
  unfold dayAmount
  split <;> rfl

theorem comma_not_mem_dayAmount (amount : Property) : ',' ∉ (dayAmount amount).toList :=
  ((isPrimitiveValue_dayAmount_iff.mpr rfl).of_digit (head?_dayAmount amount) (by decide)).1

section

variable {l unitType : Located} {amount : Property} (hday : OneDay r l amount unitType)

include hday

/-- If the literal has the type of the concept, its values fit the fields. -/
theorem OneDay.fits (h : r.Sound) (hl : l ∈ r.declarations) (hunit : unitType ∈ r.declarations)
    (htype : HasType r (some l) (.named l.declaration.name) (dayText amount unitType)) :
    Fits r l amount unitType := by
  rw [dayText_eq, ← hday.called] at htype
  obtain ⟨inits, hfields, hinits, htext⟩ := htype.of_literal (h.isName_declaration hl)
  have hdigit := head?_dayAmount amount
  have hname := h.isName_declaration hunit
  have hprimitive {f : StructField} {e : String} (hinit : (f, e) ∈ inits)
      (hhead : e.toList.head? = some '1') :
      ∃ n, Denotes (declarationOf? r l.key f.property) f.type n ∧ IsPrimitiveValue n e :=
    (hinits _ hinit).primitive_of_head (isName_of_declarationOf? h) hhead (by decide)
  have hfirst (init : StructField × String) (hinit : init ∈ inits)
      (hhead : init.2.toList.head? = (dayAmount amount).toList.head?) : ',' ∉ init.2.toList := by
    rw [hdigit] at hhead
    obtain ⟨n, -, hvalue⟩ := hprimitive hinit hhead
    exact (hvalue.of_digit hhead (by decide)).1
  have hne : (dayAmount amount).toList ≠ [] := by
    intro hnil
    simp [hnil] at hdigit
  have hvalue : ',' ∉ (unitType.declaration.name ++ "::" ++ "days").toList := by
    simp [not_mem_of_isName hname (d := ',') (by decide) (by decide)]
  obtain ⟨f, f', rfl, hf, hf'⟩ := initialisers_eq_two
    (fun init hinit => colon_not_mem_structFields h hl _ (hfields init hinit)) (by decide)
    (by decide) hne (comma_not_mem_dayAmount amount) hvalue hfirst htext.symm
  rw [List.forall_mem_cons, List.forall_mem_singleton] at hfields hinits
  constructor
  · obtain ⟨n, hn, hvalue⟩ := hprimitive List.mem_cons_self hdigit
    rw [isPrimitiveValue_dayAmount_iff.mp hvalue] at hn
    exact ⟨f, hfields.1, hf, hn⟩
  · obtain ⟨l', hresolved, hn, hcalled, hdays⟩ :=
      hinits.2.of_value hname (by decide) (isName_of_declarationOf? h)
    exact ⟨f', hfields.2, hf', hn, l', hresolved, hcalled, hdays⟩

/-- If the values fit, the literal has the type of the concept. -/
theorem OneDay.hasType (hfits : Fits r l amount unitType) :
    HasType r (some l) (.named l.declaration.name) (dayText amount unitType) := by
  obtain ⟨⟨f, hmem, hf, htype⟩, f', hmem', hf', htype', l', hresolved, hcalled, hdays⟩ := hfits
  have hclass : ∃ body, l.declaration.body = .classBody body := by
    have hconcept := hday.concept
    cases hbody : l.declaration.body with
    | classBody body => exact ⟨body, rfl⟩
    | enumeration | scalar | map => simp [Declaration.kind, hbody] at hconcept
  obtain ⟨body, hclass⟩ := hclass
  let inits := [(f, dayAmount amount), (f', unitType.declaration.name ++ "::" ++ "days")]
  have htext : dayText amount unitType = l.declaration.name ++ " \x7b " ++ initialisers inits := by
    rw [dayText_eq, hday.called]
    simp only [inits, initialisers, hf, hf', String.append_assoc]
  rw [htext]
  refine .literal hclass (by simp [inits, hmem, hmem']) ?_
  rw [List.forall_mem_cons, List.forall_mem_singleton]
  constructor
  · exact .primitive htype (isPrimitiveValue_dayAmount_iff.mpr rfl)
  · rw [htype', hresolved, ← hcalled]
    exact .value hdays

end

/-! ## Values of fields -/

/-- If a literal of one day is made for the property, its values fit the concept. -/
def SupportsDay (r : Registry) (key : String) (p : Property) : Prop :=
  ∀ l amount unitType, declarationOf? r key p = some l → OneDay r l amount unitType →
    Fits r l amount unitType

theorem OneDay.supportsDay_iff {p : Property} {l unitType : Located} {amount : Property}
    (hl : declarationOf? r key p = some l) (hday : OneDay r l amount unitType) :
    SupportsDay r key p ↔ Fits r l amount unitType := by
  refine ⟨fun h => h l amount unitType hl hday, fun h l' amount' unitType' hl' hday' => ?_⟩
  obtain rfl : l = l' := Option.some.inj (hl.symm.trans hl')
  obtain rfl : amount = amount' := Option.some.inj (hday.amount.symm.trans hday'.amount)
  obtain ⟨unit, hunit, hresolved⟩ := hday.unit
  obtain ⟨unit', hunit', hresolved'⟩ := hday'.unit
  obtain rfl : unit = unit' := Option.some.inj (hunit.symm.trans hunit')
  obtain rfl : unitType = unitType' := Option.some.inj (hresolved.symm.trans hresolved')
  exact h

/-- A value that is chosen by the type alone has it. -/
theorem hasType_testValue {p : Property} (hp : IsName p.name.toList)
    (hday : p.isRelationship = true ∨ durationValue? r key p.typeName = none)
    (l? : Option Located) (name : String) :
    HasType r l? (.named name) (testValue r key p (.named name)).1 := by
  unfold testValue
  split_ifs with hbool hint hfloat htext htime hrelationship
  · exact .primitive .itself (hbool ▸ .flag)
  · exact .primitive .itself (hint ▸ .integer ⟨by decide, by decide⟩)
  · exact .primitive .itself
      (hfloat ▸ .decimal "10" "5" ⟨by decide, by decide⟩ ⟨by decide, by decide⟩)
  · exact .primitive .itself (htext ▸ .text (isQuotable_words hp))
  · exact .primitive .itself (htime ▸ .now)
  · exact .default
  · rw [hday.resolve_left hrelationship]
    exact .default

theorem testValue_base_hasType_iff (h : r.Sound) {p : Property} (hp : IsName p.name.toList)
    (key : String) :
    let t := Target.baseType .plainData (if p.isRelationship then "String" else p.typeName)
    HasType r (declarationOf? r key p) t (testValue r key p t).1 ↔ SupportsDay r key p := by
  intro t
  by_cases hday : ∃ l amount unitType, declarationOf? r key p = some l ∧ OneDay r l amount unitType
  · obtain ⟨l, amount, unitType, hdeclared, hday⟩ := hday
    obtain ⟨hvalue, hl⟩ := declarationOf?_eq_some.mp hdeclared
    have ht : t = .named l.declaration.name := by
      have hshort := Registry.name_of_resolve? hl
      simp only [t, hvalue, Bool.false_eq_true, if_false, Target.baseType, ← hshort, hday.called]
      rfl
    have htext : (testValue r key p (.named l.declaration.name)).1 = dayText amount unitType := by
      simp [testValue, hday.called, hvalue, hday.durationValue?_eq hl]
    obtain ⟨unit, -, hunit⟩ := hday.unit
    rw [ht, htext, hdeclared, hday.supportsDay_iff hdeclared]
    exact ⟨hday.fits h (Registry.resolve?_mem hl) (Registry.resolve?_mem hunit), hday.hasType⟩
  · refine iff_of_true (hasType_testValue hp ?_ _ _) fun l amount unitType hl hfound =>
      absurd ⟨l, amount, unitType, hl, hfound⟩ hday
    cases hvalue : p.isRelationship with
    | true => exact .inl rfl
    | false =>
      refine .inr (Option.eq_none_iff_forall_ne_some.mpr fun v hv => hday ?_)
      obtain ⟨l, amount, unitType, hl, hfound⟩ := exists_oneDay hv
      exact ⟨l, amount, unitType, declarationOf?_eq_some.mpr ⟨hvalue, hl⟩, hfound⟩

/-- A value that is chosen by the type of a property has that type, if a literal of one day does. -/
theorem testValue_hasType_iff (h : r.Sound) {p : Property} (hp : IsName p.name.toList)
    (key : String) :
    HasType r (declarationOf? r key p) (plainType p) (testValue r key p (plainType p)).1 ↔
      SupportsDay r key p := by
  have hbase := testValue_base_hasType_iff h hp key
  have hoption (t : Target.TypeExpr) : (testValue r key p (.option t)).1 =
      "Some(" ++ (testValue r key p t).1 ++ ")" := by simp [testValue, toString]
  have hvec (t : Target.TypeExpr) : (testValue r key p (.vec t)).1 =
      "vec![" ++ (testValue r key p t).1 ++ "]" := by simp [testValue, toString]
  unfold plainType Target.mapType
  cases p.isOptional <;> cases p.isArray <;>
    simpa only [Bool.false_eq_true, if_false, if_true, hoption, hvec, HasType.optional_iff,
      HasType.vector_iff] using hbase

/-- Whether the value that a test gives to the property is of its type: a text for `$class`, and
for other properties a value that is chosen by the type. -/
def HasFittingValue (r : Registry) (key : String) (p : Property) : Prop :=
  if p.name = "$class" then Denotes (declarationOf? r key p) (plainType p) "String"
  else SupportsDay r key p

theorem fixture_hasType_iff (h : r.Sound) {l : Located} (hl : l ∈ r.declarations) (role : Role)
    {f : StructField} (hf : f ∈ structFields r l) :
    HasType r (declarationOf? r l.key f.property) f.type (fixture r (r.classified l role) f).1 ↔
      HasFittingValue r l.key f.property := by
  obtain ⟨hp, htype⟩ : f.property ∈ r.allProperties l ∧ f.type = plainType f.property := by
    obtain ⟨p, hp, rfl⟩ := List.mem_map.mp hf
    exact ⟨hp, rfl⟩
  rw [fixture, HasFittingValue, htype]
  by_cases hclass : f.property.name = "$class"
  · rw [if_pos hclass, if_pos hclass]
    constructor
    · exact HasType.of_textValue (isName_of_declarationOf? h)
    · exact fun hdenotes => .primitive hdenotes (.text (isQuotable_fullName h hl))
  · rw [if_neg hclass, if_neg hclass]
    exact testValue_hasType_iff h (isName_of_mem_allProperties h hl hp) l.key

/-- The values of a part of the test, field by field. -/
theorem forall₂_fixture (h : r.Sound) {strategy : Strategy} {role : Role} {d : Classified}
    (hd : d ∈ r.ofRole strategy role) {fields : List StructField}
    (hfields : classifiedFields r d = .ok fields) :
    List.Forall₂ (fun f v => v.name = f.name ∧ v.type = f.type.text ∧
      (HasType r (declarationOf? r d.key f.property) f.type v.value ↔
        HasFittingValue r d.key f.property))
      fields (fields.map fun f => fieldValue f (fixture r d f).1) := by
  obtain ⟨l, hl, -, rfl⟩ := exists_of_mem_ofRole hd
  rw [classifiedFields_classified h hl] at hfields
  split at hfields
  · cases hfields
  · obtain rfl := Except.ok.inj hfields
    rw [List.forall₂_map_right_iff, List.forall₂_same]
    exact fun f hf => ⟨rfl, rfl, fixture_hasType_iff h hl role hf⟩

theorem planScaffold_of_scaffold? {c : Classification} {package : String} {s : Scaffold}
    (h : scaffold? r c package = .ok (some s)) :
    ∃ template request response, c.primaryTemplateModel? = some template ∧
      c.primaryRequest? = some request ∧ c.primaryResponse? = some response ∧
      planScaffold r package template request response = .ok s := by
  unfold scaffold? at h
  split at h
  · rename_i template request response htemplate hrequest hresponse
    refine ⟨template, request, response, htemplate, hrequest, hresponse, ?_⟩
    cases hplan : planScaffold r package template request response with
    | error e => simp [hplan, Except.map] at h
    | ok planned => simpa [hplan, Except.map] using h
  · simp at h

/-- Whatever is registered, the values that are planned for the fields of the template model and of
the request are of the types of these fields, except for a `$class` that is declared with another
type than `String`, and for durations whose concept does not fit a literal of one day. -/
theorem fixtures_hasType_iff {strategy : Strategy} {package : String} (hr : r.Reachable)
    {s : Scaffold} (h : scaffold? r (r.classify strategy) package = .ok (some s)) :
    ∀ part ∈ [(s.template, s.templateFields), (s.request, s.requestFields)],
      ∃ fields, classifiedFields r part.1 = .ok fields ∧
        List.Forall₂ (fun f v => v.name = f.name ∧ v.type = f.type.text ∧
          (HasType r (declarationOf? r part.1.key f.property) f.type v.value ↔
            HasFittingValue r part.1.key f.property)) fields part.2 := by
  obtain ⟨template, request, response, htemplate, hrequest, -, hplan⟩ := planScaffold_of_scaffold? h
  obtain ⟨rfl, rfl, -, _, _, _, hfound, hfound', -, hvalues, hvalues', -⟩ :=
    planScaffold_values hplan
  simp only [List.forall_mem_cons, List.not_mem_nil, false_implies, implies_true, and_true]
  refine ⟨⟨_, hfound, ?_⟩, _, hfound', ?_⟩
  · rw [hvalues]
    exact forall₂_fixture hr.sound (mem_ofRole_of_head? .templateModel htemplate) hfound
  · rw [hvalues']
    exact forall₂_fixture hr.sound (mem_ofRole_of_head? .request hrequest) hfound'

/-- A concept `Duration` whose amount is a text, and a template model with a duration. -/
def textualDuration : Registry where
  entries := [{
    model := {
      id := ⟨"a", none⟩
      declarations := [
        ⟨"Clause", .classBody { kind := .asset }, []⟩,
        ⟨"T", .classBody {
          kind := .asset, superType? := some "Clause"
          properties := [{ name := "d", typeName := "Duration" }] }, []⟩,
        ⟨"Request", .classBody { kind := .event }, []⟩,
        ⟨"Q", .classBody { kind := .event, superType? := some "Request" }, []⟩,
        ⟨"Response", .classBody { kind := .event }, []⟩,
        ⟨"P", .classBody { kind := .event, superType? := some "Response" }, []⟩,
        ⟨"U", .enumeration ["days"], []⟩,
        ⟨"Duration", .classBody {
          kind := .concept
          properties := [
            { name := "amount", typeName := "String" },
            { name := "unit", typeName := "U" }] }, []⟩] }
    name := "a.cto"
    text := "namespace a asset Clause\x7b\x7dasset T extends Clause\x7bo Duration d\x7d" ++
      "event Request\x7b\x7devent Q extends Request\x7b\x7devent Response\x7b\x7d" ++
      "event P extends Response\x7b\x7denum U\x7bo days\x7d" ++
      "concept Duration\x7bo String amount o U unit\x7d" }]

/-- It is valid, and the literal is not of the type of the field. -/
theorem fixtures_hasType_iff_textual :
    let r := textualDuration
    r.Reachable ∧ r.validate = [] ∧ ∃ s, scaffold? r (r.classify .substring) "m" = .ok (some s) ∧
      ∃ v ∈ s.templateFields, v.name = "d" ∧ v.type = "Duration" ∧
        v.value = "Duration \x7b amount: 1.0, unit: U::days, ..Default::default() \x7d" ∧
        ¬HasType r (r.resolve? "a" "Duration") (.named "Duration") v.value := by
  intro r
  have hr : r.Reachable := by
    refine Registry.Reachable.empty.register (?_ : Registry.empty.register
      (r.entries.head (by decide)).text "a.cto" =
        .ok (.added (r.entries.head (by decide)).model, r))
    decide +kernel
  have hvalid : r.validate = [] :=
    Registry.validate_eq_nil_of_flat (by decide +kernel) (by decide +kernel)
  let term : Property := { name := "d", typeName := "Duration" }
  let amount : Property := { name := "amount", typeName := "String" }
  let unit : Property := { name := "unit", typeName := "U" }
  let duration : Located :=
    ⟨"a", ⟨"Duration", .classBody { kind := .concept, properties := [amount, unit] }, []⟩⟩
  let value := fieldValue (structField term)
    "Duration \x7b amount: 1.0, unit: U::days, ..Default::default() \x7d"
  have hplanned : (scaffold? r (r.classify .substring) "m").map (·.map fun s =>
      (s.template.key, (classifiedFields r s.template).map (·[2]?), s.templateFields[2]?)) =
        .ok (some ("a", .ok (some (structField term)), some value)) := by
    decide +kernel
  have hshape : value.name = "d" ∧ value.type = "Duration" := by decide +kernel
  have htype : (structField term).type = .named "Duration" := by decide +kernel
  have hdeclared : declarationOf? r "a" term = r.resolve? "a" "Duration" :=
    if_neg Bool.false_ne_true
  have hmisfit : ¬HasFittingValue r "a" term := by
    intro hsupports
    have hresolved : declarationOf? r "a" term = some duration := by decide +kernel
    have hday : OneDay r duration amount ⟨"a", ⟨"U", .enumeration ["days"], []⟩⟩ :=
      ⟨rfl, rfl, by decide +kernel, ⟨unit, by decide +kernel⟩, _, rfl, List.mem_cons_self⟩
    obtain ⟨f, hf, hname, hdenotes⟩ := (hsupports duration _ _ hresolved hday).amount
    have hfields : (structFields r duration).all (fun f => f.name ≠ "amount" ||
        (declarationOf? r duration.key f.property, f.type) = (none, .named "String")) = true := by
      decide +kernel
    have hfield := List.all_eq_true.mp hfields f hf
    have hnumber : dayAmountType amount = "f64" := by decide +kernel
    simp only [hname, ne_eq, not_true_eq_false, decide_false, Bool.false_or, decide_eq_true_eq,
      Prod.mk.injEq] at hfield
    rw [hfield.1, hfield.2, hnumber] at hdenotes
    exact absurd hdenotes.eq_named (by decide)
  rcases hs : scaffold? r (r.classify .substring) "m" with e | - | s
  · simp [hs, Except.map] at hplanned
  · simp [hs, Except.map] at hplanned
  · obtain ⟨fields, hfields, hall⟩ :=
      fixtures_hasType_iff hr hs (s.template, s.templateFields) List.mem_cons_self
    simp only [hs, Except.map, Option.map_some, hfields, Except.ok.injEq, Option.some.injEq,
      Prod.mk.injEq] at hplanned
    obtain ⟨hkey, hfield, hvalue⟩ := hplanned
    obtain ⟨hbound, hfield⟩ := List.getElem?_eq_some_iff.mp hfield
    obtain ⟨hbound', hvalue⟩ := List.getElem?_eq_some_iff.mp hvalue
    have hlast := (hall.get hbound hbound').2.2
    rw [List.get_eq_getElem, List.get_eq_getElem, hfield, hvalue, hkey, htype] at hlast
    change HasType r (declarationOf? r "a" term) _ _ ↔ _ at hlast
    rw [hdeclared] at hlast
    have hmem := List.getElem_mem hbound'
    rw [hvalue] at hmem
    exact ⟨hr, hvalid, s, rfl, value, hmem, hshape.1, hshape.2, rfl,
      fun hvalue => hmisfit (hlast.mp hvalue)⟩

end Crate

end Covenant
