/-
What a model that was read from a document satisfies beyond its type: its names are
names, its dotted names have parts that are names, its versions, locations and patterns
can be written as such, and its integers are not too long (`Model.wellFormed_of_read`).

One condition is about the document as a whole. Behind a namespace without a version
and without imports, the first declaration has no decorators: their mark would have
been read as that of a version.
-/
import Covenant.Proofs.Decimal
import Covenant.Proofs.ReaderComplete

namespace Covenant

open Covenant.Number Covenant.Lexer

/-! ## Well-formed parts -/

/-- One name or more with points between them. -/
def IsDotted (name : String) : Prop :=
  ∃ first others, name = ".".intercalate (first :: others) ∧
    ∀ part ∈ first :: others, IsName part.toList

/-- A name that is no keyword. -/
def IsIdentifier (name : String) : Prop :=
  IsName name.toList ∧ wordKind name.toList = .identifier

instance : DecidablePred IsIdentifier :=
  fun name => inferInstanceAs (Decidable (IsName name.toList ∧ wordKind name.toList = .identifier))

def Number.WellFormed : Number → Prop
  | .int n => n.natAbs < 10 ^ maxIntegerDigits
  | .float _ => True

def Literal.WellFormed : Literal → Prop
  | .number n => n.WellFormed
  | .text _ | .flag _ => True

structure Decorator.WellFormed (d : Decorator) : Prop where
  name : IsName d.name.toList
  arguments : ∀ v ∈ d.arguments, v.WellFormed

structure Bounds.WellFormed (b : Bounds) : Prop where
  lower : ∀ n ∈ b.lower, n.WellFormed
  upper : ∀ n ∈ b.upper, n.WellFormed

structure Property.WellFormed (p : Property) : Prop where
  name : IsName p.name.toList
  typeName : IsDotted p.typeName
  default : ∀ v ∈ p.default?, v.WellFormed
  pattern : ∀ text ∈ p.pattern?, Shaped ⟨.pattern, text⟩
  range : ∀ b ∈ p.range?, b.WellFormed
  length : ∀ b ∈ p.length?, b.WellFormed
  decorators : ∀ d ∈ p.decorators, d.WellFormed

structure ClassBody.WellFormed (body : ClassBody) : Prop where
  identity : ∀ name, body.identity = .property name → IsName name.toList
  superType : ∀ name ∈ body.superType?, IsDotted name
  properties : ∀ p ∈ body.properties, p.WellFormed

def DeclarationBody.WellFormed : DeclarationBody → Prop
  | .classBody body => body.WellFormed
  | .enumeration values => ∀ value ∈ values, IsName value.toList
  | .scalar base => IsIdentifier base
  | .map key value => IsDotted key ∧ IsDotted value

structure Declaration.WellFormed (d : Declaration) : Prop where
  name : IsIdentifier d.name
  body : d.body.WellFormed
  decorators : ∀ decorator ∈ d.decorators, decorator.WellFormed

theorem Declaration.WellFormed.property {d : Declaration} (h : d.WellFormed) {p : Property}
    (hp : p ∈ d.properties) : p.WellFormed := by
  have hbody := h.body
  unfold Declaration.properties at hp
  cases hkind : d.body with
  | classBody body =>
    rw [hkind] at hbody hp
    exact hbody.properties p hp
  | enumeration | scalar | map =>
    rw [hkind] at hp
    cases hp

structure Namespace.WellFormed (n : Namespace) : Prop where
  name : IsDotted n.name
  version : ∀ text ∈ n.version?, Shaped ⟨.version, text⟩

def ImportScope.WellFormed : ImportScope → Prop
  | .wildcard => True
  | .types names => names ≠ [] ∧ ∀ name ∈ names, IsName name.toList

structure Import.WellFormed (i : Import) : Prop where
  target : i.target.WellFormed
  scope : i.scope.WellFormed
  uri : ∀ text ∈ i.uri?, Shaped ⟨.uri, text⟩

structure Model.WellFormed (m : Model) : Prop where
  id : m.id.WellFormed
  decorators : ∀ d ∈ m.decorators, d.WellFormed
  imports : ∀ i ∈ m.imports, i.WellFormed
  declarations : ∀ d ∈ m.declarations, d.WellFormed
  /-- Where the line before the declarations ends with a plain name, no decorator follows. -/
  first : m.id.version? = none → m.imports = [] → ∀ d ∈ m.declarations.head?, d.decorators = []

namespace Reader

def Modifier.WellFormed : Modifier → Prop
  | .optional => True
  | .default v => v.WellFormed
  | .pattern text => Shaped ⟨.pattern, text⟩
  | .range b | .length b => b.WellFormed

def Clause.WellFormed : Clause → Prop
  | .identified name? => ∀ name ∈ name?, IsName name.toList
  | .subtypeOf name => IsDotted name

theorem Modifier.wellFormed_apply {p : Property} {m : Modifier} (hp : p.WellFormed)
    (hm : m.WellFormed) : (m.apply p).WellFormed := by
  cases m with
  | optional => exact { hp with }
  | default v => exact { hp with default := by simpa [apply, WellFormed] using hm }
  | pattern text => exact { hp with pattern := by simpa [apply, WellFormed] using hm }
  | range b => exact { hp with range := by simpa [apply, WellFormed] using hm }
  | length b => exact { hp with length := by simpa [apply, WellFormed] using hm }

theorem Clause.wellFormed_apply {body : ClassBody} {c : Clause} (hb : body.WellFormed)
    (hc : c.WellFormed) : (c.apply body).WellFormed := by
  cases c with
  | identified name? =>
    cases name? with
    | some name => exact { hb with identity := by simpa [apply] using hc name rfl }
    | none =>
      simp only [apply]
      split
      · exact hb
      · exact { hb with identity := by simp }
  | subtypeOf name => exact { hb with superType := by simpa [apply, WellFormed] using hc }

theorem wellFormed_clauses {clauses : List Clause} (h : ∀ c ∈ clauses, c.WellFormed)
    (kind : ClassKind) (isAbstract : Bool) :
    (clauses.foldl Clause.apply { kind, isAbstract }).WellFormed :=
  List.foldlRecOn clauses Clause.apply ⟨by simp, by simp, by simp⟩ fun _ hb c hc =>
    Clause.wellFormed_apply hb (h c hc)

end Reader

/-! ## What is read is well-formed -/

/-- Every word has the shape of its kind. -/
def AllShaped (ws : List Word) : Prop :=
  ∀ w ∈ ws, Shaped w

@[simp] theorem allShaped_append {ws vs : List Word} :
    AllShaped (ws ++ vs) ↔ AllShaped ws ∧ AllShaped vs := by
  simp only [AllShaped, List.mem_append, or_imp, forall_and]

namespace Phrase

variable {α : Type}

theorem Many.forall {item : Phrase α} {good : α → Prop} {ws : List Word} {as : List α}
    (h : Many item ws as) (hs : AllShaped ws)
    (hitem : ∀ {w a}, item w a → AllShaped w → good a) : ∀ a ∈ as, good a := by
  induction h with
  | nil => simp
  | cons ha _ ih =>
    rw [allShaped_append] at hs
    rw [List.forall_mem_cons]
    exact ⟨hitem ha hs.1, ih hs.2⟩

theorem Marked.good {m : Mark} {item : Phrase α} {good : α → Prop} {w : List Word} {a : α}
    (h : Marked m item w a) (hs : AllShaped w)
    (hitem : ∀ {w a}, item w a → AllShaped w → good a) : good a := by
  obtain ⟨_, ha⟩ := h
  exact hitem ha (allShaped_append.mp hs).2

theorem Listed.forall {item : Phrase α} {good : α → Prop} {ws : List Word} {as : List α}
    (h : Listed item ws as) (hs : AllShaped ws)
    (hitem : ∀ {w a}, item w a → AllShaped w → good a) : ∀ a ∈ as, good a := by
  obtain ⟨ha, has⟩ := h
  simp only [List.flatten_cons, List.flatten_nil, allShaped_append] at hs
  rw [List.forall_mem_cons]
  exact ⟨hitem ha hs.1, has.forall hs.2.1 fun h hs => h.good hs hitem⟩

theorem Lone.shaped {k : TokenKind} {w : List Word} {text : String} (h : Lone k w text)
    (hs : AllShaped w) : Shaped ⟨k, text⟩ := by
  obtain ⟨⟩ := h
  exact hs _ (by simp)

theorem Lone.isIdentifier {w : List Word} {text : String} (h : Lone .identifier w text)
    (hs : AllShaped w) : IsIdentifier text :=
  (shaped_iff_isName rfl).mp (h.shaped hs)

theorem Name.isName {w : List Word} {name : String} (h : Name w name) (hs : AllShaped w) :
    IsName name.toList := by
  obtain ⟨hk⟩ := h
  exact ((shaped_iff_isName hk).mp (hs _ (by simp))).1

theorem Pointed.isName {w : List Word} {name : String} (h : Pointed w name) (hs : AllShaped w) :
    IsName name.toList :=
  h.good hs Name.isName

theorem Dotted.isDotted {w : List Word} {name : String} (h : Dotted w name) (hs : AllShaped w) :
    IsDotted name := by
  obtain ⟨hfirst, hothers⟩ := h
  simp only [List.flatten_cons, List.flatten_nil, allShaped_append] at hs
  refine ⟨_, _, rfl, ?_⟩
  rw [List.forall_mem_cons]
  exact ⟨hfirst.isName hs.1, hothers.forall hs.2.1 Pointed.isName⟩

theorem Numeral.wellFormed {w : List Word} {n : Number} (h : Numeral w n) : n.WellFormed := by
  cases h with
  | int _ hn => exact readInteger_bound hn
  | float => trivial

theorem Constant.wellFormed {w : List Word} {v : Literal} (h : Constant w v) : v.WellFormed := by
  cases h with
  | number hn => exact hn.wellFormed
  | text | yes | no => trivial

theorem Value.wellFormed {w : List Word} {v : Literal} (h : Value w v) : v.WellFormed := by
  cases h with
  | constant hc => exact hc.wellFormed
  | identifier => trivial

theorem Bound.wellFormed {w : List Word} {n? : Option Number} (h : Bound w n?) :
    ∀ n ∈ n?, n.WellFormed := by
  cases h with
  | absent => simp
  | present hn => simpa using hn.wellFormed

theorem Range.wellFormed {w : List Word} {b : Bounds} (h : Range w b) : b.WellFormed := by
  obtain ⟨_, hlo, _, hhi, _⟩ := h
  exact ⟨hlo.wellFormed, hhi.wellFormed⟩

/-! ### Decorators -/

theorem Argument.wellFormed {w : List Word} {v : Literal} (h : Argument w v) : v.WellFormed := by
  cases h with
  | constant hc => exact hc.wellFormed
  | type => trivial

theorem Arguments.wellFormed {w : List Word} {vs : List Literal} (h : Arguments w vs)
    (hs : AllShaped w) : ∀ v ∈ vs, v.WellFormed := by
  cases h with
  | absent | empty => simp
  | present _ hvs _ =>
    simp only [List.flatten_cons, List.flatten_nil, allShaped_append] at hs
    exact hvs.forall hs.2.1 fun h _ => h.wellFormed

theorem DecoratorOf.wellFormed {w : List Word} {d : Decorator} (h : DecoratorOf w d)
    (hs : AllShaped w) : d.WellFormed := by
  obtain ⟨_, hname, hargs⟩ := h
  simp only [List.flatten_cons, List.flatten_nil, allShaped_append] at hs
  exact ⟨hname.isName hs.2.1, hargs.wellFormed hs.2.2.1⟩

theorem Decorators.wellFormed {w : List Word} {ds : List Decorator} (h : Decorators w ds)
    (hs : AllShaped w) : ∀ d ∈ ds, d.WellFormed :=
  h.forall hs DecoratorOf.wellFormed

/-! ### Namespaces and imports -/

theorem Version.shaped {w : List Word} {version? : Option String} (h : Version w version?)
    (hs : AllShaped w) : ∀ text ∈ version?, Shaped ⟨.version, text⟩ := by
  cases h with
  | absent => simp
  | present _ hv =>
    simp only [List.flatten_cons, List.flatten_nil, allShaped_append] at hs
    simpa using hv.shaped hs.2.1

theorem NamespaceLine.wellFormed {w : List Word} {n : Namespace} (h : NamespaceLine w n)
    (hs : AllShaped w) : n.WellFormed := by
  obtain ⟨_, hname, hversion⟩ := h
  simp only [List.flatten_cons, List.flatten_nil, allShaped_append] at hs
  exact ⟨hname.isDotted hs.2.1, hversion.shaped hs.2.2.1⟩

theorem ClosedScope.wellFormed {w : List Word} {scope : ImportScope} (h : ClosedScope w scope)
    (hs : AllShaped w) : scope.WellFormed := by
  cases h with
  | star => trivial
  | braces _ hnames _ =>
    simp only [List.flatten_cons, List.flatten_nil, allShaped_append] at hs
    refine ⟨?_, hnames.forall hs.2.1 Name.isName⟩
    obtain ⟨_, _⟩ := hnames
    simp

theorem Scope.wellFormed {w : List Word} {scope : ImportScope} (h : Scope w scope)
    (hs : AllShaped w) : scope.WellFormed := by
  cases h with
  | closed hc => exact hc.wellFormed hs
  | type hname => exact ⟨by simp, by simpa using hname.isName hs⟩

theorem Target.wellFormed {o : Bool} {w : List Word} {n : Namespace} {scope : ImportScope}
    (h : Target o w (n, scope)) (hs : AllShaped w) : n.WellFormed ∧ scope.WellFormed := by
  cases h with
  | versioned hfirst hothers _ hv _ hscope =>
    simp only [List.flatten_cons, List.flatten_nil, allShaped_append] at hs
    obtain ⟨h₁, h₂, _, h₄, _, h₆, -⟩ := hs
    refine ⟨⟨⟨_, _, rfl, ?_⟩, by simpa using hv.shaped h₄⟩, hscope.wellFormed h₆⟩
    rw [List.forall_mem_cons]
    exact ⟨hfirst.isName h₁, hothers.forall h₂ Pointed.isName⟩
  | closed hfirst hothers _ hscope =>
    simp only [List.flatten_cons, List.flatten_nil, allShaped_append] at hs
    obtain ⟨h₁, h₂, _, h₄, -⟩ := hs
    refine ⟨⟨⟨_, _, rfl, ?_⟩, by simp⟩, hscope.wellFormed h₄⟩
    rw [List.forall_mem_cons]
    exact ⟨hfirst.isName h₁, hothers.forall h₂ Pointed.isName⟩
  | @plain _ _ first type others hfirst hothers hlast =>
    simp only [List.flatten_cons, List.flatten_nil, allShaped_append] at hs
    obtain ⟨h₁, h₂, -⟩ := hs
    have hparts := hothers.forall h₂ Pointed.isName
    have hne : others ≠ [] := by
      rintro rfl
      cases hlast
    refine ⟨⟨⟨first, others.dropLast, ?_, ?_⟩, by simp⟩, by simp, ?_⟩
    · rw [List.dropLast_cons_of_ne_nil hne]
    · rw [List.forall_mem_cons]
      exact ⟨hfirst.isName h₁, fun part hm => hparts part ((List.dropLast_sublist _).mem hm)⟩
    · simpa using hparts type (List.mem_of_getLast? hlast)

theorem ImportLine.wellFormed {o : Bool} {w : List Word} {i : Import} (h : ImportLine o w i)
    (hs : AllShaped w) : i.WellFormed := by
  cases h with
  | here _ ht =>
    simp only [List.flatten_cons, List.flatten_nil, allShaped_append] at hs
    obtain ⟨htarget, hscope⟩ := ht.wellFormed hs.2.1
    exact ⟨htarget, hscope, by simp⟩
  | located _ ht _ hu =>
    simp only [List.flatten_cons, List.flatten_nil, allShaped_append] at hs
    obtain ⟨_, h₂, _, h₄, -⟩ := hs
    obtain ⟨htarget, hscope⟩ := ht.wellFormed h₂
    exact ⟨htarget, hscope, by simpa using hu.shaped h₄⟩

theorem Imports.wellFormed {before after : Bool} {w : List Word} {is : List Import}
    (h : Imports before after w is) (hs : AllShaped w) : ∀ i ∈ is, i.WellFormed := by
  induction h with
  | nil => simp
  | cons hi _ ih =>
    rw [allShaped_append] at hs
    rw [List.forall_mem_cons]
    exact ⟨hi.wellFormed hs.1, ih hs.2⟩

/-! ### Properties and declarations -/

theorem ValueModifier.wellFormed {w : List Word} {m : Reader.Modifier} (h : ValueModifier w m)
    (hs : AllShaped w) : m.WellFormed := by
  simp only [Reader.Modifier.WellFormed]
  cases h with
  | default _ _ hv => exact hv.wellFormed
  | pattern _ _ ht =>
    simp only [List.flatten_cons, List.flatten_nil, allShaped_append] at hs
    exact ht.shaped hs.2.2.1
  | range _ _ hb => exact hb.wellFormed
  | length _ _ hb => exact hb.wellFormed

theorem ModifierOf.wellFormed {w : List Word} {m : Reader.Modifier} (h : ModifierOf w m)
    (hs : AllShaped w) : m.WellFormed := by
  cases h with
  | optional => trivial
  | value hv => exact hv.wellFormed hs

theorem PropertyOf.wellFormed {w : List Word} {p : Property} (h : PropertyOf w p)
    (hs : AllShaped w) : p.WellFormed := by
  obtain ⟨hd, _, ht, _, hn, hms⟩ := h
  simp only [List.flatten_cons, List.flatten_nil, allShaped_append] at hs
  obtain ⟨h₁, _, h₃, _, h₅, h₆, -⟩ := hs
  refine List.foldlRecOn _ _ ?_ fun p hp m hm =>
    Reader.Modifier.wellFormed_apply hp (hms.forall h₆ ModifierOf.wellFormed m hm)
  exact {
    name := hn.isName h₅
    typeName := ht.isDotted h₃
    default := by simp
    pattern := by simp
    range := by simp
    length := by simp
    decorators := hd.wellFormed h₁ }

theorem ClauseOf.wellFormed {w : List Word} {c : Reader.Clause} (h : ClauseOf w c)
    (hs : AllShaped w) : c.WellFormed := by
  cases h with
  | system => simp [Reader.Clause.WellFormed]
  | property _ _ hn =>
    simp only [List.flatten_cons, List.flatten_nil, allShaped_append] at hs
    simpa [Reader.Clause.WellFormed] using hn.isName hs.2.2.1
  | subtype _ hn =>
    simp only [List.flatten_cons, List.flatten_nil, allShaped_append] at hs
    exact hn.isDotted hs.2.1

theorem EnumerationValue.isName {w : List Word} {n : String} (h : EnumerationValue w n)
    (hs : AllShaped w) : IsName n.toList := by
  obtain ⟨_, _, hn⟩ := h
  simp only [List.flatten_cons, List.flatten_nil, allShaped_append] at hs
  exact hn.isName hs.2.2.1

theorem MapEntry.isDotted {w : List Word} {n : String} (h : MapEntry w n) (hs : AllShaped w) :
    IsDotted n := by
  cases h with
  | plain hn => exact hn.isDotted hs
  | named hn _ =>
    simp only [List.flatten_cons, List.flatten_nil, allShaped_append] at hs
    exact hn.isDotted hs.1

theorem Undecorated.wellFormed {w : List Word} {name : String} {body : DeclarationBody}
    (h : Undecorated w (name, body)) (hs : AllShaped w) : IsIdentifier name ∧ body.WellFormed := by
  cases h with
  | ofClass _ _ hn hcs _ hps _ =>
    simp only [List.flatten_cons, List.flatten_nil, allShaped_append] at hs
    obtain ⟨_, _, h₃, h₄, _, h₆, -⟩ := hs
    refine ⟨hn.isIdentifier h₃, ?_⟩
    have hhead := Reader.wellFormed_clauses (hcs.forall h₄ ClauseOf.wellFormed)
    exact { hhead _ _ with properties := hps.forall h₆ PropertyOf.wellFormed }
  | enumeration _ hn _ hvs _ =>
    simp only [List.flatten_cons, List.flatten_nil, allShaped_append] at hs
    exact ⟨hn.isIdentifier hs.2.1, hvs.forall hs.2.2.2.1 EnumerationValue.isName⟩
  | scalar _ hn _ hb _ =>
    simp only [List.flatten_cons, List.flatten_nil, allShaped_append] at hs
    exact ⟨hn.isIdentifier hs.2.1, hb.isIdentifier hs.2.2.2.1⟩
  | map _ hn _ _ hk _ hv _ =>
    simp only [List.flatten_cons, List.flatten_nil, allShaped_append] at hs
    obtain ⟨_, h₂, _, _, h₅, _, h₇, -⟩ := hs
    exact ⟨hn.isIdentifier h₂, hk.isDotted h₅, hv.isDotted h₇⟩

theorem DeclarationOf.wellFormed {w : List Word} {d : Declaration} (h : DeclarationOf w d)
    (hs : AllShaped w) : d.WellFormed := by
  obtain ⟨hd, hb⟩ := h
  simp only [List.flatten_cons, List.flatten_nil, allShaped_append] at hs
  obtain ⟨hname, hbody⟩ := hb.wellFormed hs.2.1
  exact ⟨hname, hbody, hd.wellFormed hs.1⟩

/-! ### Documents -/

/-- A declaration that does not start with the mark of a decorator has none. -/
theorem DeclarationOf.decorators_eq_nil {w : List Word} {d : Declaration} (h : DeclarationOf w d)
    {follow : List TokenKind} (hs : Stops [.mark .atSign] (kinds w ++ follow)) :
    d.decorators = [] := by
  obtain ⟨hd, _⟩ := h
  cases hd with
  | nil => rfl
  | cons hfirst _ =>
    obtain ⟨v, rest, rfl, hk⟩ := hfirst.starts
    simp [hk] at hs

theorem Document.wellFormed {w : List Word} {m : Model} (h : Document w m) (hs : AllShaped w) :
    m.WellFormed := by
  obtain ⟨hh, hds, hopen⟩ := h
  simp only [List.flatten_cons, List.flatten_nil, allShaped_append] at hs
  obtain ⟨hws, hdecls, -⟩ := hs
  obtain ⟨_, hd, hn, his⟩ := hh
  simp only [List.flatten_cons, List.flatten_nil, allShaped_append] at hws
  obtain ⟨_, h₂, h₃, h₄, -⟩ := hws
  refine {
    id := hn.wellFormed h₃
    decorators := hd.wellFormed h₂
    imports := his.wellFormed h₄
    declarations := hds.forall hdecls DeclarationOf.wellFormed
    first := ?_ }
  intro hversion himports
  simp only at hversion himports
  subst himports
  cases his
  rw [hversion] at hopen
  cases hds with
  | nil => simp
  | cons hfirst _ =>
    have := hopen rfl
    rw [kinds_append] at this
    simpa using hfirst.decorators_eq_nil this

end Phrase

/-- A model that was read from a document is well-formed. -/
theorem Model.wellFormed_of_read {source : String} {m : Model} (h : Model.read source = .ok m) :
    m.WellFormed := by
  obtain ⟨stream, htokens, hdoc⟩ := Model.read_eq_ok.mp h
  exact hdoc.wellFormed (Scans.of_scan htokens).shaped

end Covenant
