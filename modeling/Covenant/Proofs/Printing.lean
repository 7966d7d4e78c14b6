/-
Models written out as documents in one canonical form, all words with a blank between
them. A well-formed model without floating point numbers is spelled by its words, and
they can be read one behind the other, so the document is read back as the model.
-/
import Covenant.Proofs.WellFormed
import Covenant.Text.Split

namespace Covenant

open Covenant.Number Covenant.Lexer Covenant.Text

/-! ## Canonical words -/

namespace Word

def ofMark (m : Mark) : Word :=
  ⟨.mark m, m.text⟩

def ofKeyword (k : Keyword) : Word :=
  ⟨.keyword k, k.text⟩

/-- A name as a word: a keyword if it spells one. -/
def ofName (name : String) : Word :=
  ⟨wordKind name.toList, name⟩

def ofFlag : Bool → Word
  | true => ofKeyword .trueKw
  | false => ofKeyword .falseKw

end Word

/-- A dotted name, part by part. -/
def dottedWords (name : String) : List Word :=
  match (splitAll '.' name.toList).map String.ofList with
  | [] => []
  | first :: others =>
    [[.ofName first], others.flatMap fun part => [.ofMark .dot, .ofName part]].flatten

/-- Single words with commas between them. -/
def listedWords : List Word → List Word
  | [] => []
  | w :: ws => [[w], ws.flatMap fun v => [.ofMark .comma, v]].flatten

/-- The exact decimal form of a floating point number. Infinity is written as a number beyond the
range. -/
def floatText (bits : Nat) : String :=
  let sign := if bits < 2 ^ 63 then "" else "-"
  let bits := bits % 2 ^ 63
  -- a pattern counts the powers of two above the smallest one, then the significand
  let power := bits / 2 ^ 52 - 1
  let significand := bits - power * 2 ^ 52
  if bits = infinityBits then sign ++ "1e400"
  else if 1074 ≤ power then sign ++ s!"{significand * 2 ^ (power - 1074)}e0"
  else sign ++ s!"{significand * 5 ^ (1074 - power)}e-{1074 - power}"

def Number.word : Number → Word
  | .int n => ⟨.integer, n.repr⟩
  | .float bits => ⟨.float, floatText bits⟩

def Literal.word : Literal → Word
  | .text value => ⟨.string, value⟩
  | .number n => n.word
  | .flag b => .ofFlag b

def argumentsWords : List Literal → List Word
  | [] => []
  | vs => [[.ofMark .leftParen], listedWords (vs.map (·.word)), [.ofMark .rightParen]].flatten

def Decorator.words (d : Decorator) : List Word :=
  [[.ofMark .atSign], [.ofName d.name], argumentsWords d.arguments].flatten

def boundWords : Option Number → List Word
  | none => []
  | some n => [n.word]

def Bounds.words (b : Bounds) : List Word :=
  [[.ofMark .leftBracket], boundWords b.lower, [.ofMark .comma], boundWords b.upper,
    [.ofMark .rightBracket]].flatten

def bracketsWords : Bool → List Word
  | true => [[.ofMark .leftBracket], [.ofMark .rightBracket]].flatten
  | false => []

def versionWords : Option String → List Word
  | none => []
  | some version => [[.ofMark .atSign], [⟨.version, version⟩]].flatten

def ImportScope.words : ImportScope → List Word
  | .wildcard => [.ofMark .star]
  | .types names =>
    [[.ofMark .leftBrace], listedWords (names.map .ofName), [.ofMark .rightBrace]].flatten

/-- The namespace and the scope of an import, with a star or braces in every case. -/
def targetWords (n : Namespace) (scope : ImportScope) : List Word :=
  [dottedWords n.name, versionWords n.version?, [.ofMark .dot], scope.words].flatten

def Import.words (i : Import) : List Word :=
  match i.uri? with
  | none => [[.ofKeyword .importKw], targetWords i.target i.scope].flatten
  | some uri =>
    [[.ofKeyword .importKw], targetWords i.target i.scope, [.ofKeyword .fromKw],
      [⟨.uri, uri⟩]].flatten

def Reader.Modifier.words : Reader.Modifier → List Word
  | .optional => [.ofKeyword .optional]
  | .default v => [[.ofKeyword .defaultKw], [.ofMark .equals], [v.word]].flatten
  | .pattern text => [[.ofKeyword .regex], [.ofMark .equals], [⟨.pattern, text⟩]].flatten
  | .range b => [[.ofKeyword .range], [.ofMark .equals], b.words].flatten
  | .length b => [[.ofKeyword .length], [.ofMark .equals], b.words].flatten

/-- The modifiers of a property, each kind at most once. -/
def Property.modifiers (p : Property) : List Reader.Modifier :=
  [if p.isOptional then [.optional] else [], p.default?.toList.map .default,
    p.pattern?.toList.map .pattern, p.range?.toList.map .range,
    p.length?.toList.map .length].flatten

def markerWord : (isRelationship : Bool) → Word
  | false => .ofKeyword .field
  | true => .ofMark .arrow

def decoratorsWords (ds : List Decorator) : List Word :=
  ds.flatMap (·.words)

def Property.words (p : Property) : List Word :=
  [decoratorsWords p.decorators, [markerWord p.isRelationship], dottedWords p.typeName,
    bracketsWords p.isArray, [.ofName p.name], p.modifiers.flatMap (·.words)].flatten

def Reader.Clause.words : Reader.Clause → List Word
  | .identified none => [.ofKeyword .identified]
  | .identified (some name) =>
    [[.ofKeyword .identified], [.ofKeyword .byKw], [.ofName name]].flatten
  | .subtypeOf name => [[.ofKeyword .extendsKw], dottedWords name].flatten

def identityClauses : Identity → List Reader.Clause
  | .unidentified => []
  | .system => [.identified none]
  | .property name => [.identified (some name)]

def ClassBody.clauses (body : ClassBody) : List Reader.Clause :=
  identityClauses body.identity ++ body.superType?.toList.map .subtypeOf

def ClassKind.keyword : ClassKind → Keyword
  | .concept => .concept
  | .asset => .asset
  | .participant => .participant
  | .transaction => .transaction
  | .event => .event

def abstractWords : Bool → List Word
  | true => [.ofKeyword .abstractKw]
  | false => []

/-- A declaration without its decorators. -/
def DeclarationBody.words (name : String) : DeclarationBody → List Word
  | .classBody body =>
    [abstractWords body.isAbstract, [.ofKeyword body.kind.keyword], [.ofName name],
      body.clauses.flatMap (·.words), [.ofMark .leftBrace], body.properties.flatMap (·.words),
      [.ofMark .rightBrace]].flatten
  | .enumeration values =>
    [[.ofKeyword .enum], [.ofName name], [.ofMark .leftBrace],
      values.flatMap fun value => [.ofKeyword .field, .ofName value], [.ofMark .rightBrace]].flatten
  | .scalar base =>
    [[.ofKeyword .scalar], [.ofName name], [.ofKeyword .extendsKw], [.ofName base], []].flatten
  | .map key value =>
    [[.ofKeyword .map], [.ofName name], [.ofMark .leftBrace], [.ofKeyword .field], dottedWords key,
      [.ofKeyword .field], dottedWords value, [.ofMark .rightBrace]].flatten

def Declaration.words (d : Declaration) : List Word :=
  [decoratorsWords d.decorators, d.body.words d.name].flatten

def languageWords : Option String → List Word
  | none => []
  | some version => [[.ofKeyword .concerto], [.ofKeyword .version], [⟨.string, version⟩]].flatten

def Namespace.words (n : Namespace) : List Word :=
  [[.ofKeyword .namespaceKw], dottedWords n.name, versionWords n.version?].flatten

/-- What stands before the declarations. -/
def Model.headerWords (m : Model) : List Word :=
  [languageWords m.languageVersion?, decoratorsWords m.decorators, m.id.words,
    m.imports.flatMap (·.words)].flatten

def Model.words (m : Model) : List Word :=
  [m.headerWords, m.declarations.flatMap (·.words)].flatten

/-- The canonical document of a model. -/
def Model.print (m : Model) : String :=
  String.ofList (spell m.words)

/-! ## Models without floating point numbers -/

def Number.isInteger : Number → Bool
  | .int _ => true
  | .float _ => false

def Literal.isFloatFree : Literal → Bool
  | .number n => n.isInteger
  | .text _ | .flag _ => true

def Decorator.isFloatFree (d : Decorator) : Bool :=
  d.arguments.all (·.isFloatFree)

def Bounds.isFloatFree (b : Bounds) : Bool :=
  b.lower.all (·.isInteger) && b.upper.all (·.isInteger)

def Reader.Modifier.isFloatFree : Reader.Modifier → Bool
  | .default v => v.isFloatFree
  | .range b | .length b => b.isFloatFree
  | .optional | .pattern _ => true

def Property.isFloatFree (p : Property) : Bool :=
  p.decorators.all (·.isFloatFree) && p.modifiers.all (·.isFloatFree)

def Declaration.isFloatFree (d : Declaration) : Bool :=
  d.decorators.all (·.isFloatFree) && d.properties.all (·.isFloatFree)

/-- No literal of the model is a floating point number. -/
def Model.isFloatFree (m : Model) : Bool :=
  m.decorators.all (·.isFloatFree) && m.declarations.all (·.isFloatFree)

/-! ## Dotted names -/

theorem splitFrom_append {cs : List Char} (current rest : List Char) (h : '.' ∉ cs) :
    splitFrom '.' current (cs ++ '.' :: rest) =
      (current.reverse ++ cs) :: splitFrom '.' [] rest := by
  induction cs generalizing current with
  | nil => simp [splitFrom]
  | cons c cs ih =>
    simp only [List.mem_cons, not_or] at h
    rw [List.cons_append, splitFrom, if_neg (Ne.symm h.1), ih _ h.2]
    simp

theorem splitFrom_last {cs : List Char} (current : List Char) (h : '.' ∉ cs) :
    splitFrom '.' current cs = [current.reverse ++ cs] := by
  induction cs generalizing current with
  | nil => simp [splitFrom]
  | cons c cs ih =>
    simp only [List.mem_cons, not_or] at h
    rw [splitFrom, if_neg (Ne.symm h.1), ih _ h.2]
    simp

theorem splitAll_intercalate {first : List Char} {others : List (List Char)}
    (h : ∀ part ∈ first :: others, '.' ∉ part) :
    splitAll '.' (['.'].intercalate (first :: others)) = first :: others := by
  induction others generalizing first with
  | nil => simp [splitAll, splitFrom_last [] (h first (by simp))]
  | cons second others ih =>
    rw [List.forall_mem_cons] at h
    have := splitFrom_append [] (['.'].intercalate (second :: others)) h.1
    rw [List.intercalate_cons_cons, List.append_assoc, List.singleton_append, splitAll, this]
    simp only [List.reverse_nil, List.nil_append]
    rw [← splitAll, ih h.2]

/-- The parts of a dotted name are found again. -/
theorem dottedWords_intercalate {first : String} {others : List String}
    (h : ∀ part ∈ first :: others, IsName part.toList) :
    dottedWords (".".intercalate (first :: others)) =
      [[.ofName first], others.flatMap fun part => [.ofMark .dot, .ofName part]].flatten := by
  have hsplit : splitAll '.' (".".intercalate (first :: others)).toList =
      (first :: others).map String.toList := by
    rw [String.toList_intercalate]
    refine splitAll_intercalate fun part (hm : part ∈ (first :: others).map String.toList) => ?_
    obtain ⟨p, hp, rfl⟩ := List.mem_map.mp hm
    exact not_mem_of_isName (h p hp) (by decide) (by decide)
  unfold dottedWords
  rw [hsplit, List.map_map]
  simp [Function.comp_def]

/-! ## What the words spell -/

namespace Phrase

variable {α : Type}

theorem Many.flatMap {item : Phrase α} {words : α → List Word} {as : List α}
    (h : ∀ a ∈ as, item (words a) a) : Many item (as.flatMap words) as := by
  induction as with
  | nil => exact .nil
  | cons a as ih =>
    rw [List.forall_mem_cons] at h
    exact .cons h.1 (ih h.2)

theorem Listed.words {item : Phrase α} {word : α → Word} {as : List α} (hne : as ≠ [])
    (h : ∀ a ∈ as, item [word a] a) : Listed item (listedWords (as.map word)) as := by
  cases as with
  | nil => exact absurd rfl hne
  | cons a as =>
    rw [List.forall_mem_cons] at h
    refine .intro h.1 ?_
    rw [List.flatMap_map]
    exact .flatMap fun b hb => .intro (.intro _) (h.2 b hb)

theorem name_words (name : String) : Name [.ofName name] name :=
  .intro (isName_wordKind _)

/-- A dotted name is spelled by a first name and names with points. -/
theorem dottedWords_eq {name : String} (h : IsDotted name) :
    ∃ first others dots, name = ".".intercalate (first :: others) ∧
      dottedWords name = [[.ofName first], dots].flatten ∧ Many Pointed dots others := by
  obtain ⟨first, others, rfl, hparts⟩ := h
  exact ⟨first, others, _, rfl, dottedWords_intercalate hparts,
    .flatMap fun part _ => .intro (.intro _) (name_words part)⟩

theorem dotted_words {name : String} (h : IsDotted name) : Dotted (dottedWords name) name := by
  obtain ⟨first, others, dots, rfl, hwords, hothers⟩ := dottedWords_eq h
  rw [hwords]
  exact .intro (name_words first) hothers

theorem identifier_words {name : String} (h : IsIdentifier name) :
    Lone .identifier [.ofName name] name := by
  rw [Word.ofName, h.2]
  exact .intro name

theorem numeral_words {n : Number} (h : n.WellFormed) (hf : n.isInteger = true) :
    Numeral [n.word] n := by
  cases n with
  | int n => exact .int (.intro _) (readInteger_repr h)
  | float => cases hf

theorem constant_words {v : Literal} (h : v.WellFormed) (hf : v.isFloatFree = true) :
    Constant [v.word] v := by
  cases v with
  | text text => exact .text (.intro text)
  | number n => exact .number (numeral_words h hf)
  | flag b =>
    cases b with
    | true => exact .yes (.intro _)
    | false => exact .no (.intro _)

theorem bound_words {n? : Option Number} (h : ∀ n ∈ n?, n.WellFormed)
    (hf : n?.all (·.isInteger) = true) : Bound (boundWords n?) n? := by
  cases n? with
  | none => exact .absent
  | some n => exact .present (numeral_words (h n rfl) hf)

theorem range_words {b : Bounds} (h : b.WellFormed) (hf : b.isFloatFree = true) :
    Range b.words b := by
  rw [Bounds.isFloatFree, Bool.and_eq_true] at hf
  exact .intro (.intro _) (bound_words h.lower hf.1) (.intro _)
    (bound_words h.upper hf.2) (.intro _)

theorem brackets_words (isArray : Bool) : Brackets (bracketsWords isArray) isArray := by
  cases isArray with
  | true => exact .present (.intro _) (.intro _)
  | false => exact .absent

theorem arguments_words {vs : List Literal} (h : ∀ v ∈ vs, v.WellFormed)
    (hf : vs.all (·.isFloatFree) = true) : Arguments (argumentsWords vs) vs := by
  cases vs with
  | nil => exact .absent
  | cons v vs =>
    refine .present (.intro _) (.words (by simp) fun u hu => ?_) (.intro _)
    exact .constant (constant_words (h u hu) (List.all_eq_true.mp hf u hu))

theorem decorator_words {d : Decorator} (h : d.WellFormed) (hf : d.isFloatFree = true) :
    DecoratorOf d.words d :=
  .intro (.intro _) (name_words _) (arguments_words h.arguments hf)

theorem decorators_words {ds : List Decorator} (h : ∀ d ∈ ds, d.WellFormed)
    (hf : ds.all (·.isFloatFree) = true) : Decorators (decoratorsWords ds) ds :=
  .flatMap fun d hd => decorator_words (h d hd) (List.all_eq_true.mp hf d hd)

theorem version_words (version? : Option String) : Version (versionWords version?) version? := by
  cases version? with
  | none => exact .absent
  | some version => exact .present (.intro _) (.intro _)

theorem scope_words {scope : ImportScope} (h : scope.WellFormed) :
    ClosedScope scope.words scope := by
  cases scope with
  | wildcard => exact .star (.intro _)
  | types names =>
    exact .braces (.intro _) (.words h.1 fun name _ => name_words name) (.intro _)

theorem versioned_words {name version : String} {s : List Word} {scope : ImportScope}
    (hn : IsDotted name) (hs : Scope s scope) :
    Target false [dottedWords name, versionWords (some version), [.ofMark .dot], s].flatten
      (⟨name, some version⟩, scope) := by
  obtain ⟨first, others, dots, rfl, hwords, hothers⟩ := dottedWords_eq hn
  have htarget : Target false _ _ :=
    .versioned (name_words first) hothers (.intro "@") (.intro version) (.intro ".") hs
  simpa [hwords, versionWords, Word.ofMark, Mark.text] using htarget

theorem target_words {n : Namespace} {scope : ImportScope} (hn : n.WellFormed)
    (hs : scope.WellFormed) : Target false (targetWords n scope) (n, scope) := by
  obtain ⟨name, version?⟩ := n
  cases version? with
  | none =>
    obtain ⟨first, others, dots, rfl, hwords, hothers⟩ := dottedWords_eq hn.name
    have htarget : Target false _ _ :=
      .closed (name_words first) hothers (.intro ".") (scope_words hs)
    simpa [targetWords, hwords, versionWords, Word.ofMark, Mark.text] using htarget
  | some version => exact versioned_words hn.name (.closed (scope_words hs))

theorem import_words {i : Import} (h : i.WellFormed) : ImportLine false i.words i := by
  obtain ⟨target, scope, uri?⟩ := i
  have ht := target_words h.target h.scope
  cases uri? with
  | none => exact .here (.intro _) ht
  | some uri => exact .located (.intro _) ht (.intro _) (.intro _)

theorem imports_words {is : List Import} (h : ∀ i ∈ is, i.WellFormed) (before : Bool) :
    Imports before (before && is.isEmpty) (is.flatMap (·.words)) is := by
  induction is generalizing before with
  | nil => simpa using Imports.nil
  | cons i is ih =>
    rw [List.forall_mem_cons] at h
    have : Imports before _ _ _ := .cons (import_words h.1) (ih h.2 false)
    simpa using this

/-! ### Properties and declarations -/

theorem modifier_words {m : Reader.Modifier} (h : m.WellFormed) (hf : m.isFloatFree = true) :
    ModifierOf m.words m := by
  cases m with
  | optional => exact .optional (.intro _)
  | default v =>
    exact .value (.default (.intro _) (.intro _) (.constant (constant_words h hf)))
  | pattern text => exact .value (.pattern (.intro _) (.intro _) (.intro text))
  | range b => exact .value (.range (.intro _) (.intro _) (range_words h hf))
  | length b => exact .value (.length (.intro _) (.intro _) (range_words h hf))

theorem marker_words (isRelationship : Bool) :
    Marker [markerWord isRelationship] isRelationship := by
  cases isRelationship with
  | false => exact .value (.intro _)
  | true => exact .relationship (.intro _)

/-- The modifiers of a property make it out of the plain one. -/
theorem foldl_modifiers (p : Property) :
    p.modifiers.foldl Reader.Modifier.apply
      { name := p.name, typeName := p.typeName, isArray := p.isArray,
        isRelationship := p.isRelationship, decorators := p.decorators } = p := by
  obtain ⟨name, typeName, isArray, isOptional, isRelationship, default?, pattern?, range?, length?,
    decorators⟩ := p
  cases isOptional <;> cases default? <;> cases pattern? <;> cases range? <;> cases length? <;> rfl

theorem wellFormed_modifiers {p : Property} (h : p.WellFormed) :
    ∀ m ∈ p.modifiers, m.WellFormed := by
  intro m hm
  simp only [Property.modifiers, List.flatten_cons, List.flatten_nil, List.mem_append,
    List.mem_map, Option.mem_toList, List.not_mem_nil, or_false] at hm
  rcases hm with hm | ⟨v, hv, rfl⟩ | ⟨text, ht, rfl⟩ | ⟨b, hb, rfl⟩ | ⟨b, hb, rfl⟩
  · split at hm
    · rw [List.mem_singleton.mp hm]
      trivial
    · cases hm
  · exact h.default v hv
  · exact h.pattern text ht
  · exact h.range b hb
  · exact h.length b hb

theorem property_words {p : Property} (h : p.WellFormed) (hf : p.isFloatFree = true) :
    PropertyOf p.words p := by
  rw [Property.isFloatFree, Bool.and_eq_true] at hf
  have hms : Many ModifierOf (p.modifiers.flatMap (·.words)) p.modifiers :=
    .flatMap fun m hm =>
      modifier_words (wellFormed_modifiers h m hm) (List.all_eq_true.mp hf.2 m hm)
  have := PropertyOf.intro (decorators_words h.decorators hf.1) (marker_words p.isRelationship)
    (dotted_words h.typeName) (brackets_words p.isArray) (name_words p.name) hms
  rwa [foldl_modifiers] at this

theorem clause_words {c : Reader.Clause} (h : c.WellFormed) : ClauseOf c.words c := by
  cases c with
  | identified name? =>
    cases name? with
    | none => exact .system (.intro _)
    | some name => exact .property (.intro _) (.intro _) (name_words name)
  | subtypeOf name => exact .subtype (.intro _) (dotted_words h)

theorem wellFormed_clauses {body : ClassBody} (h : body.WellFormed) :
    ∀ c ∈ body.clauses, c.WellFormed := by
  intro c hc
  simp only [ClassBody.clauses, List.mem_append, List.mem_map, Option.mem_toList] at hc
  rcases hc with hc | ⟨name, hname, rfl⟩
  · cases hid : body.identity with
    | unidentified => simp [hid, identityClauses] at hc
    | system =>
      obtain rfl : c = .identified none := by simpa [hid, identityClauses] using hc
      simp [Reader.Clause.WellFormed]
    | property name =>
      obtain rfl : c = .identified (some name) := by simpa [hid, identityClauses] using hc
      simpa [Reader.Clause.WellFormed] using h.identity name hid
  · exact h.superType name hname

/-- The clauses of a class make it out of the plain one. -/
theorem foldl_clauses (body : ClassBody) :
    { body.clauses.foldl Reader.Clause.apply
        { kind := body.kind, isAbstract := body.isAbstract } with
      properties := body.properties } = body := by
  obtain ⟨kind, isAbstract, identity, superType?, properties⟩ := body
  cases identity <;> cases superType? <;> rfl

theorem abstract_words (isAbstract : Bool) : Abstract (abstractWords isAbstract) isAbstract := by
  cases isAbstract with
  | true => exact .present (.intro _)
  | false => exact .absent

theorem class_words (kind : ClassKind) : ClassWord [.ofKeyword kind.keyword] kind :=
  .intro (by cases kind <;> rfl)

theorem declarationBody_words {name : String} {body : DeclarationBody} (hn : IsIdentifier name)
    (h : body.WellFormed)
    (hf : ∀ c, body = .classBody c → c.properties.all (·.isFloatFree) = true) :
    Undecorated (body.words name) (name, body) := by
  cases body with
  | classBody body =>
    have hcs : Many ClauseOf (body.clauses.flatMap (·.words)) body.clauses :=
      .flatMap fun c hc => clause_words (wellFormed_clauses h c hc)
    have hps : Many PropertyOf (body.properties.flatMap (·.words)) body.properties :=
      .flatMap fun p hp =>
        property_words (h.properties p hp) (List.all_eq_true.mp (hf body rfl) p hp)
    have : Undecorated (DeclarationBody.words name (.classBody body)) _ :=
      .ofClass (abstract_words body.isAbstract) (class_words body.kind) (identifier_words hn) hcs
        (.intro _) hps (.intro _)
    rwa [foldl_clauses] at this
  | enumeration values =>
    exact .enumeration (.intro _) (identifier_words hn) (.intro _)
      (.flatMap fun value _ => .intro .nil (.intro _) (name_words value)) (.intro _)
  | scalar base =>
    exact .scalar (.intro _) (identifier_words hn) (.intro _) (identifier_words h) .nil
  | map key value =>
    exact .map (.intro _) (identifier_words hn) (.intro _) (.intro _) (.plain (dotted_words h.1))
      (.value (.intro _)) (.plain (dotted_words h.2)) (.intro _)

theorem declaration_words {d : Declaration} (h : d.WellFormed) (hf : d.isFloatFree = true) :
    DeclarationOf d.words d := by
  rw [Declaration.isFloatFree, Bool.and_eq_true] at hf
  refine .intro (decorators_words h.decorators hf.1) (declarationBody_words h.name h.body ?_)
  intro c hc
  simpa [Declaration.properties, hc] using hf.2

/-! ### Documents -/

theorem language_words (version? : Option String) : Language (languageWords version?) version? := by
  cases version? with
  | none => exact .absent
  | some version => exact .present (.intro _) (.intro _) (.intro _)

theorem namespace_words {n : Namespace} (h : n.WellFormed) : NamespaceLine n.words n :=
  .intro (.intro _) (dotted_words h.name) (version_words _)

/-- Declarations of which the first has no decorators do not start with their mark. -/
theorem Many.stops_undecorated {ws : List Word} {ds : List Declaration}
    (h : Many DeclarationOf ws ds) (hd : ∀ d ∈ ds.head?, d.decorators = []) :
    Stops [.mark .atSign] (kinds ws) := by
  cases h with
  | nil => simp
  | cons hfirst _ =>
    obtain ⟨hdecorators, hbody⟩ := hfirst
    obtain rfl := hd _ rfl
    cases hdecorators
    rw [kinds_append]
    exact (hbody.starts.append []).stops (by simp [declarationWords]) _

/-- The words of a model spell it. -/
theorem document_words {m : Model} (h : m.WellFormed) (hf : m.isFloatFree = true) :
    Document m.words m := by
  rw [Model.isFloatFree, Bool.and_eq_true] at hf
  have hheader : Header _ m.headerWords _ :=
    .intro (language_words m.languageVersion?) (decorators_words h.decorators hf.1)
      (namespace_words h.id) (imports_words h.imports _)
  have hds : Many DeclarationOf (m.declarations.flatMap (·.words)) m.declarations :=
    .flatMap fun d hd => declaration_words (h.declarations d hd) (List.all_eq_true.mp hf.2 d hd)
  have hopen : (m.id.version?.isNone && m.imports.isEmpty) = true →
      Stops [.mark .atSign] (kinds (m.declarations.flatMap (·.words))) := by
    intro ho
    rw [Bool.and_eq_true, Option.isNone_iff_eq_none, List.isEmpty_iff] at ho
    exact hds.stops_undecorated (h.first ho.1 ho.2)
  have := Document.intro hheader hds hopen
  exact this

end Phrase

end Covenant
