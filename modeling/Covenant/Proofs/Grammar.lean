/-
The grammar of model documents: what a list of words spells. A word is a token
without its place, since no place decides what a document says.

Every rule is free of what stands around it, with one exception. A line that ends
with a plain name, `namespace a.b` or `import a.b.T`, is open: the mark that opens
a decorator also opens a version, so an open line and a decorator behind it are
read as one. The rule for documents rules this out (`Phrase.Document`), and nothing
else in the grammar needs to look ahead.
-/
import Covenant.Model.Reader

namespace Covenant

open Covenant.Number

/-- A token without its place. -/
structure Word where
  kind : TokenKind
  text : String
deriving DecidableEq, Repr

def Token.word (t : Token) : Word :=
  ⟨t.kind, t.text⟩

/-- What a list of words can spell. -/
abbrev Phrase (α : Type) := List Word → α → Prop

/-- The kinds of words, in order. -/
def kinds (ws : List Word) : List TokenKind :=
  ws.map (·.kind)

@[simp] theorem kinds_nil : kinds [] = [] := rfl

@[simp] theorem kinds_cons (w : Word) (ws : List Word) : kinds (w :: ws) = w.kind :: kinds ws := rfl

@[simp] theorem kinds_append (ws vs : List Word) : kinds (ws ++ vs) = kinds ws ++ kinds vs :=
  List.map_append

/-- What follows does not start with one of the kinds. -/
def Stops (stops follow : List TokenKind) : Prop :=
  ∀ k ∈ follow.head?, k ∉ stops

instance (stops follow : List TokenKind) : Decidable (Stops stops follow) :=
  inferInstanceAs (Decidable (∀ k ∈ follow.head?, k ∉ stops))

@[simp] theorem stops_nil {stops : List TokenKind} : Stops stops [] := by simp [Stops]

@[simp] theorem stops_cons {stops follow : List TokenKind} {k : TokenKind} :
    Stops stops (k :: follow) ↔ k ∉ stops := by simp [Stops]

theorem Stops.mono {stops fewer follow : List TokenKind} (h : Stops stops follow)
    (hs : fewer ⊆ stops) : Stops fewer follow :=
  fun k hk hm => h k hk (hs hm)

/-- The first word is of a kind that passes the test. -/
def Starts (test : TokenKind → Prop) (ws : List Word) : Prop :=
  ∃ w rest, ws = w :: rest ∧ test w.kind

theorem Starts.append {test : TokenKind → Prop} {ws : List Word} (h : Starts test ws)
    (vs : List Word) : Starts test (ws ++ vs) := by
  obtain ⟨w, rest, rfl, hw⟩ := h
  exact ⟨w, rest ++ vs, rfl, hw⟩

theorem Starts.mono {test wider : TokenKind → Prop} {ws : List Word} (h : Starts test ws)
    (hw : ∀ k, test k → wider k) : Starts wider ws := by
  obtain ⟨w, rest, rfl, ht⟩ := h
  exact ⟨w, rest, rfl, hw _ ht⟩

theorem Starts.ne_nil {test : TokenKind → Prop} {ws : List Word}
    (h : Starts test ws) : ws ≠ [] := by
  obtain ⟨w, rest, rfl, -⟩ := h
  simp

theorem Starts.any {test : TokenKind → Prop} {ws : List Word} {ks : List TokenKind}
    (h : Starts test ws) (follow : List TokenKind) (hs : ∀ k, test k → k ∈ ks) :
    (kinds ws ++ follow).head?.any ks.contains = true := by
  obtain ⟨w, rest, rfl, ht⟩ := h
  simpa using hs _ ht

theorem Starts.stops {test : TokenKind → Prop} {ws : List Word} {stops : List TokenKind}
    (h : Starts test ws) (hs : ∀ k, test k → k ∉ stops) (follow : List TokenKind) :
    Stops stops (kinds ws ++ follow) := by
  obtain ⟨w, rest, rfl, ht⟩ := h
  simpa using hs _ ht

namespace Phrase

variable {α : Type}

/-! ## Single words and repetitions -/

/-- A single word of the kind; it spells its text. -/
inductive Lone (k : TokenKind) : Phrase String
  | intro (text : String) : Lone k [⟨k, text⟩] text

/-- A single word of the kind whose text says no more than the kind does. -/
inductive Sign (k : TokenKind) : Phrase Unit
  | intro (text : String) : Sign k [⟨k, text⟩] ()

theorem Lone.sign {k : TokenKind} {w : List Word} {text : String} (h : Lone k w text) :
    Sign k w () := by
  obtain ⟨⟩ := h
  exact .intro text

/-- Items one after the other. -/
inductive Many (item : Phrase α) : Phrase (List α)
  | nil : Many item [] []
  | cons {w ws : List Word} {a : α} {as : List α} :
    item w a → Many item ws as → Many item (w ++ ws) (a :: as)

theorem Many.stops {item : Phrase α} {first : TokenKind → Prop} {stops follow : List TokenKind}
    {ws : List Word} {as : List α} (h : Many item ws as)
    (starts : ∀ {w a}, item w a → Starts first w) (hs : ∀ k, first k → k ∉ stops)
    (hf : Stops stops follow) : Stops stops (kinds ws ++ follow) := by
  cases h with
  | nil => exact hf
  | cons hi _ => rw [kinds_append, List.append_assoc]; exact (starts hi).stops hs _

/-- Decorated phrases start with a decorator or with what is decorated. -/
theorem Many.starts_append {item : Phrase α} {first next : TokenKind → Prop} {ws vs : List Word}
    {as : List α} (h : Many item ws as) (starts : ∀ {w a}, item w a → Starts first w)
    (hv : Starts next vs) : Starts (fun k => first k ∨ next k) (ws ++ vs) := by
  cases h with
  | nil => exact hv.mono fun _ => .inr
  | cons hi _ => exact (((starts hi).append _).append _).mono fun _ => .inl

/-- An item with a mark before it. -/
inductive Marked (m : Mark) (item : Phrase α) : Phrase α
  | intro {w v : List Word} {a : α} :
    Sign (.mark m) w () → item v a → Marked m item (w ++ v) a

theorem Sign.starts {k : TokenKind} {w : List Word} (h : Sign k w ()) : Starts (· = k) w := by
  obtain ⟨text⟩ := h
  exact ⟨_, [], rfl, rfl⟩

theorem Sign.lone {k : TokenKind} {w : List Word} (h : Sign k w ()) : ∃ text, Lone k w text := by
  obtain ⟨text⟩ := h
  exact ⟨text, .intro text⟩

theorem Marked.starts {m : Mark} {item : Phrase α} {w : List Word} {a : α} (h : Marked m item w a) :
    Starts (· = .mark m) w := by
  obtain ⟨hs, -⟩ := h
  exact hs.starts.append _

/-- One item or more with commas between them. -/
inductive Listed (item : Phrase α) : Phrase (List α)
  | intro {w ws : List Word} {a : α} {as : List α} :
    item w a → Many (Marked .comma item) ws as → Listed item [w, ws].flatten (a :: as)

theorem Listed.starts {item : Phrase α} {first : TokenKind → Prop} {ws : List Word} {as : List α}
    (h : Listed item ws as) (starts : ∀ {w a}, item w a → Starts first w) : Starts first ws := by
  obtain ⟨ha, _⟩ := h
  exact (starts ha).append _

/-! ## Names and literals -/

inductive Name : Phrase String
  | intro {w : Word} : Reader.isName w.kind = true → Name [w] w.text

theorem Name.starts {w : List Word} {n : String} (h : Name w n) :
    Starts (Reader.isName · = true) w := by
  obtain ⟨hn⟩ := h
  exact ⟨_, [], rfl, hn⟩

/-- A name is no mark. -/
theorem stops_of_starts_name {ws : List Word} {m : Mark} (h : Starts (Reader.isName · = true) ws)
    (follow : List TokenKind) : Stops [.mark m] (kinds ws ++ follow) :=
  h.stops (by rintro (_ | _) <;> simp [Reader.isName]) follow

/-- A name with a point before it. -/
abbrev Pointed : Phrase String :=
  Marked .dot Name

inductive Dotted : Phrase String
  | intro {w ws : List Word} {first : String} {others : List String} :
    Name w first → Many Pointed ws others →
    Dotted [w, ws].flatten (".".intercalate (first :: others))

theorem Dotted.starts {w : List Word} {n : String} (h : Dotted w n) :
    Starts (Reader.isName · = true) w := by
  obtain ⟨hn, _⟩ := h
  exact hn.starts.append _

inductive Numeral : Phrase Number
  | int {w : List Word} {text : String} {n : Int} :
    Lone .integer w text → readInteger text = .ok n → Numeral w (.int n)
  | float {w : List Word} {text : String} {bits : Nat} :
    Lone .float w text → readFloat text = .ok bits → Numeral w (.float bits)

theorem Numeral.starts {w : List Word} {n : Number} (h : Numeral w n) :
    Starts (fun k => k = .integer ∨ k = .float) w := by
  cases h with
  | int hw => exact hw.sign.starts.mono fun _ => .inl
  | float hw => exact hw.sign.starts.mono fun _ => .inr

/-- The literals of which the first word alone tells that they are no names. -/
inductive Constant : Phrase Literal
  | text {w : List Word} {text : String} : Lone .string w text → Constant w (.text text)
  | number {w : List Word} {n : Number} : Numeral w n → Constant w (.number n)
  | yes {w : List Word} : Sign (.keyword .trueKw) w () → Constant w (.flag true)
  | no {w : List Word} : Sign (.keyword .falseKw) w () → Constant w (.flag false)

/-- The kinds of the words that are constants. -/
def constantKinds : List TokenKind :=
  [.string, .integer, .float, .keyword .trueKw, .keyword .falseKw]

theorem Constant.starts {w : List Word} {v : Literal} (h : Constant w v) :
    Starts (· ∈ constantKinds) w := by
  cases h with
  | text hw => exact hw.sign.starts.mono (by simp [constantKinds])
  | number hn => exact hn.starts.mono (by simp [constantKinds])
  | yes hw => exact hw.starts.mono (by simp [constantKinds])
  | no hw => exact hw.starts.mono (by simp [constantKinds])

/-- A value after a default: a constant, or an identifier taken for its text. -/
inductive Value : Phrase Literal
  | constant {w : List Word} {v : Literal} : Constant w v → Value w v
  | identifier {w : List Word} {text : String} :
    Lone .identifier w text → Value w (.text text)

inductive Bound : Phrase (Option Number)
  | absent : Bound [] none
  | present {w : List Word} {n : Number} : Numeral w n → Bound w (some n)

inductive Range : Phrase Bounds
  | intro {l lo c hi r : List Word} {lower upper : Option Number} :
    Sign (.mark .leftBracket) l () → Bound lo lower → Sign (.mark .comma) c () →
    Bound hi upper → Sign (.mark .rightBracket) r () →
    Range [l, lo, c, hi, r].flatten ⟨lower, upper⟩

/-! ## Decorators -/

inductive Brackets : Phrase Bool
  | absent : Brackets [] false
  | present {l r : List Word} :
    Sign (.mark .leftBracket) l () → Sign (.mark .rightBracket) r () →
    Brackets [l, r].flatten true

/-- The words of truth are constants and start no type name. -/
def truthWords : List TokenKind :=
  [.keyword .trueKw, .keyword .falseKw]

inductive Argument : Phrase Literal
  | constant {w : List Word} {v : Literal} : Constant w v → Argument w v
  | type {w b : List Word} {name : String} {isArray : Bool} :
    Dotted w name → Stops truthWords (kinds w) → Brackets b isArray →
    Argument [w, b].flatten (.text (if isArray then name ++ "[]" else name))

theorem Argument.starts {w : List Word} {v : Literal} (h : Argument w v) :
    Starts (fun k => k ∈ constantKinds ∨ Reader.isName k = true) w := by
  cases h with
  | constant hc => exact hc.starts.mono fun _ => .inl
  | type hw _ _ => exact (hw.starts.append _).mono fun _ => .inr

inductive Arguments : Phrase (List Literal)
  | absent : Arguments [] []
  | empty {l r : List Word} :
    Sign (.mark .leftParen) l () → Sign (.mark .rightParen) r () → Arguments [l, r].flatten []
  | present {l ws r : List Word} {vs : List Literal} :
    Sign (.mark .leftParen) l () → Listed Argument ws vs → Sign (.mark .rightParen) r () →
    Arguments [l, ws, r].flatten vs

inductive DecoratorOf : Phrase Decorator
  | intro {a n ws : List Word} {name : String} {arguments : List Literal} :
    Sign (.mark .atSign) a () → Name n name → Arguments ws arguments →
    DecoratorOf [a, n, ws].flatten ⟨name, arguments⟩

theorem DecoratorOf.starts {w : List Word} {d : Decorator} (h : DecoratorOf w d) :
    Starts (· = .mark .atSign) w := by
  obtain ⟨ha, _, _⟩ := h
  exact ha.starts.append _

abbrev Decorators : Phrase (List Decorator) :=
  Many DecoratorOf

/-! ## Namespaces and imports -/

/-- A version with its mark, or nothing. -/
inductive Version : Phrase (Option String)
  | absent : Version [] none
  | present {a v : List Word} {version : String} :
    Sign (.mark .atSign) a () → Lone .version v version → Version [a, v].flatten (some version)

inductive NamespaceLine : Phrase Namespace
  | intro {w n v : List Word} {name : String} {version? : Option String} :
    Sign (.keyword .namespaceKw) w () → Dotted n name → Version v version? →
    NamespaceLine [w, n, v].flatten ⟨name, version?⟩

theorem NamespaceLine.starts {w : List Word} {id : Namespace} (h : NamespaceLine w id) :
    Starts (· = .keyword .namespaceKw) w := by
  obtain ⟨hw, _, _⟩ := h
  exact hw.starts.append _

/-- A star, or types in braces. -/
inductive ClosedScope : Phrase ImportScope
  | star {w : List Word} : Sign (.mark .star) w () → ClosedScope w .wildcard
  | braces {l ws r : List Word} {names : List String} :
    Sign (.mark .leftBrace) l () → Listed Name ws names → Sign (.mark .rightBrace) r () →
    ClosedScope [l, ws, r].flatten (.types names)

/-- A closed scope starts with a word that is no name. -/
theorem ClosedScope.starts {w : List Word} {scope : ImportScope} (h : ClosedScope w scope) :
    Starts (fun k => k = .mark .star ∨ k = .mark .leftBrace) w := by
  cases h with
  | star hw => exact hw.starts.mono fun _ => .inl
  | braces hl _ _ => exact (hl.starts.append _).mono fun _ => .inr

inductive Scope : Phrase ImportScope
  | closed {w : List Word} {scope : ImportScope} : ClosedScope w scope → Scope w scope
  | type {w : List Word} {name : String} : Name w name → Scope w (.types [name])

/-- The namespace and the scope of an import, and whether it ends with a plain name that is part
of neither a version nor braces. -/
inductive Target : Bool → Phrase (Namespace × ImportScope)
  | versioned {w ws a v d s : List Word} {first version : String} {others : List String}
      {scope : ImportScope} :
    Name w first → Many Pointed ws others → Sign (.mark .atSign) a () → Lone .version v version →
    Sign (.mark .dot) d () → Scope s scope →
    Target false [w, ws, a, v, d, s].flatten
      (⟨".".intercalate (first :: others), some version⟩, scope)
  | closed {w ws d s : List Word} {first : String} {others : List String} {scope : ImportScope} :
    Name w first → Many Pointed ws others → Sign (.mark .dot) d () → ClosedScope s scope →
    Target false [w, ws, d, s].flatten (⟨".".intercalate (first :: others), none⟩, scope)
  | plain {w ws : List Word} {first type : String} {others : List String} :
    Name w first → Many Pointed ws others → others.getLast? = some type →
    Target true [w, ws].flatten
      (⟨".".intercalate (first :: others).dropLast, none⟩, .types [type])

/-- An import, and whether it is open. -/
inductive ImportLine : Bool → Phrase Import
  | here {o : Bool} {w t : List Word} {id : Namespace} {scope : ImportScope} :
    Sign (.keyword .importKw) w () → Target o t (id, scope) →
    ImportLine o [w, t].flatten ⟨id, scope, none⟩
  | located {o : Bool} {w t f u : List Word} {id : Namespace} {scope : ImportScope} {uri : String} :
    Sign (.keyword .importKw) w () → Target o t (id, scope) →
    Sign (.keyword .fromKw) f () → Lone .uri u uri →
    ImportLine false [w, t, f, u].flatten ⟨id, scope, some uri⟩

theorem ImportLine.starts {o : Bool} {w : List Word} {i : Import} (h : ImportLine o w i) :
    Starts (· = .keyword .importKw) w := by
  cases h with
  | here hw _ => exact hw.starts.append _
  | located hw _ _ _ => exact hw.starts.append _

/-- Imports after a line that was open or not, and whether the last line now is. -/
inductive Imports : (before after : Bool) → Phrase (List Import)
  | nil {o : Bool} : Imports o o [] []
  | cons {before o after : Bool} {w ws : List Word} {i : Import} {is : List Import} :
    ImportLine o w i → Imports o after ws is → Imports before after (w ++ ws) (i :: is)

theorem Imports.starts {before after : Bool} {ws : List Word} {is : List Import}
    (h : Imports before after ws is) (hne : is ≠ []) : Starts (· = .keyword .importKw) ws := by
  cases h with
  | nil => exact absurd rfl hne
  | cons hw _ => exact hw.starts.append _

/-- An import may follow where something that is no import may. -/
theorem Imports.stops {before after : Bool} {ws : List Word} {is : List Import}
    {stops follow : List TokenKind} (h : Imports before after ws is)
    (hk : .keyword .importKw ∉ stops) (hf : before = after → Stops stops follow) :
    Stops stops (kinds ws ++ follow) := by
  cases h with
  | nil => exact hf rfl
  | cons hw _ => exact (hw.starts.append _).stops (by simpa using hk) follow

/-! ## Properties -/

/-- A modifier with a value. -/
inductive ValueModifier : Phrase Reader.Modifier
  | default {w e v : List Word} {value : Literal} :
    Sign (.keyword .defaultKw) w () → Sign (.mark .equals) e () → Value v value →
    ValueModifier [w, e, v].flatten (.default value)
  | pattern {w e v : List Word} {text : String} :
    Sign (.keyword .regex) w () → Sign (.mark .equals) e () → Lone .pattern v text →
    ValueModifier [w, e, v].flatten (.pattern text)
  | range {w e v : List Word} {bounds : Bounds} :
    Sign (.keyword .range) w () → Sign (.mark .equals) e () → Range v bounds →
    ValueModifier [w, e, v].flatten (.range bounds)
  | length {w e v : List Word} {bounds : Bounds} :
    Sign (.keyword .length) w () → Sign (.mark .equals) e () → Range v bounds →
    ValueModifier [w, e, v].flatten (.length bounds)

theorem ValueModifier.starts {w : List Word} {m : Reader.Modifier} (h : ValueModifier w m) :
    Starts (· ∈ Reader.valueModifiers) w := by
  cases h with
  | default hw | pattern hw | range hw | length hw =>
    exact (hw.starts.append _).mono (by simp [Reader.valueModifiers])

inductive ModifierOf : Phrase Reader.Modifier
  | optional {w : List Word} : Sign (.keyword .optional) w () → ModifierOf w .optional
  | value {w : List Word} {m : Reader.Modifier} : ValueModifier w m → ModifierOf w m

theorem ModifierOf.starts {w : List Word} {m : Reader.Modifier} (h : ModifierOf w m) :
    Starts (· ∈ .keyword .optional :: Reader.valueModifiers) w := by
  cases h with
  | optional hw => exact hw.starts.mono (by simp)
  | value hv => exact hv.starts.mono fun _ => List.mem_cons_of_mem _

/-- The mark of a value or of a relationship, and whether it is the latter. -/
inductive Marker : Phrase Bool
  | value {w : List Word} : Sign (.keyword .field) w () → Marker w false
  | relationship {w : List Word} : Sign (.mark .arrow) w () → Marker w true

theorem Marker.starts {w : List Word} {b : Bool} (h : Marker w b) :
    Starts (fun k => k = .keyword .field ∨ k = .mark .arrow) w := by
  cases h with
  | value hw => exact hw.starts.mono fun _ => .inl
  | relationship hw => exact hw.starts.mono fun _ => .inr

inductive PropertyOf : Phrase Property
  | intro {ws m t b n ms : List Word} {decorators : List Decorator} {isRelationship isArray : Bool}
      {typeName name : String} {modifiers : List Reader.Modifier} :
    Decorators ws decorators → Marker m isRelationship → Dotted t typeName → Brackets b isArray →
    Name n name → Many ModifierOf ms modifiers →
    PropertyOf [ws, m, t, b, n, ms].flatten
      (modifiers.foldl Reader.Modifier.apply
        { name, typeName, isArray, isRelationship, decorators })

theorem PropertyOf.starts {w : List Word} {p : Property} (h : PropertyOf w p) :
    Starts (fun k => k = .mark .atSign ∨ k = .keyword .field ∨ k = .mark .arrow) w := by
  obtain ⟨hd, hm, _, _, _, _⟩ := h
  exact Many.starts_append hd (fun h => h.starts) (hm.starts.append _)

/-! ## Declarations -/

inductive ClauseOf : Phrase Reader.Clause
  | system {w : List Word} :
    Sign (.keyword .identified) w () → ClauseOf w (.identified none)
  | property {w b n : List Word} {name : String} :
    Sign (.keyword .identified) w () → Sign (.keyword .byKw) b () → Name n name →
    ClauseOf [w, b, n].flatten (.identified (some name))
  | subtype {w n : List Word} {name : String} :
    Sign (.keyword .extendsKw) w () → Dotted n name → ClauseOf [w, n].flatten (.subtypeOf name)

theorem ClauseOf.starts {w : List Word} {c : Reader.Clause} (h : ClauseOf w c) :
    Starts (· ∈ [.keyword .identified, .keyword .extendsKw]) w := by
  cases h with
  | system hw => exact hw.starts.mono (by simp)
  | property hw | subtype hw => exact (hw.starts.append _).mono (by simp)

inductive Abstract : Phrase Bool
  | absent : Abstract [] false
  | present {w : List Word} : Sign (.keyword .abstractKw) w () → Abstract w true

inductive ClassWord : Phrase ClassKind
  | intro {w : Word} {kind : ClassKind} : Reader.classKind? w.kind = some kind → ClassWord [w] kind

inductive EnumerationValue : Phrase String
  | intro {ws w n : List Word} {decorators : List Decorator} {name : String} :
    Decorators ws decorators → Sign (.keyword .field) w () → Name n name →
    EnumerationValue [ws, w, n].flatten name

theorem EnumerationValue.starts {w : List Word} {n : String} (h : EnumerationValue w n) :
    Starts (fun k => k = .mark .atSign ∨ k = .keyword .field) w := by
  obtain ⟨hd, hw, _⟩ := h
  exact Many.starts_append hd (fun h => h.starts) (hw.starts.append _)

inductive MapEntry : Phrase String
  | plain {w : List Word} {typeName : String} : Dotted w typeName → MapEntry w typeName
  | named {w n : List Word} {typeName name : String} :
    Dotted w typeName → Lone .identifier n name → MapEntry [w, n].flatten typeName

/-- The name and the body of a declaration, its decorators apart. -/
inductive Undecorated : Phrase (String × DeclarationBody)
  | ofClass {a k n cs l ps r : List Word} {isAbstract : Bool} {kind : ClassKind} {name : String}
      {clauses : List Reader.Clause} {properties : List Property} :
    Abstract a isAbstract → ClassWord k kind → Lone .identifier n name →
    Many ClauseOf cs clauses → Sign (.mark .leftBrace) l () → Many PropertyOf ps properties →
    Sign (.mark .rightBrace) r () →
    Undecorated [a, k, n, cs, l, ps, r].flatten
      (name, .classBody { clauses.foldl Reader.Clause.apply { kind, isAbstract } with properties })
  | enumeration {w n l vs r : List Word} {name : String} {values : List String} :
    Sign (.keyword .enum) w () → Lone .identifier n name → Sign (.mark .leftBrace) l () →
    Many EnumerationValue vs values → Sign (.mark .rightBrace) r () →
    Undecorated [w, n, l, vs, r].flatten (name, .enumeration values)
  | scalar {w n e b ms : List Word} {name base : String} {modifiers : List Reader.Modifier} :
    Sign (.keyword .scalar) w () → Lone .identifier n name → Sign (.keyword .extendsKw) e () →
    Lone .identifier b base → Many ValueModifier ms modifiers →
    Undecorated [w, n, e, b, ms].flatten (name, .scalar base)
  | map {w n l o k m v r : List Word} {name key value : String} {isRelationship : Bool} :
    Sign (.keyword .map) w () → Lone .identifier n name → Sign (.mark .leftBrace) l () →
    Sign (.keyword .field) o () → MapEntry k key → Marker m isRelationship → MapEntry v value →
    Sign (.mark .rightBrace) r () →
    Undecorated [w, n, l, o, k, m, v, r].flatten (name, .map key value)

inductive DeclarationOf : Phrase Declaration
  | intro {ws b : List Word} {decorators : List Decorator} {name : String}
    {body : DeclarationBody} :
    Decorators ws decorators → Undecorated b (name, body) →
    DeclarationOf [ws, b].flatten ⟨name, body, decorators⟩

/-- The words that open a declaration without decorators. -/
def declarationWords : List TokenKind :=
  [.keyword .abstractKw, .keyword .concept, .keyword .asset, .keyword .participant,
   .keyword .transaction, .keyword .event, .keyword .enum, .keyword .scalar, .keyword .map]

theorem ClassWord.starts {w : List Word} {kind : ClassKind} (h : ClassWord w kind) :
    Starts (fun k => (Reader.classKind? k).isSome = true) w := by
  obtain ⟨hk⟩ := h
  exact ⟨_, [], rfl, by simp [hk]⟩

theorem mem_declarationWords {k : TokenKind} (h : (Reader.classKind? k).isSome = true) :
    k ∈ declarationWords := by
  unfold Reader.classKind? at h
  split at h <;> simp_all [declarationWords]

theorem Undecorated.starts {w : List Word} {r : String × DeclarationBody} (h : Undecorated w r) :
    Starts (· ∈ declarationWords) w := by
  cases h with
  | ofClass ha hk =>
    cases ha with
    | absent => exact (hk.starts.append _).mono fun _ => mem_declarationWords
    | present hw => exact (hw.starts.append _).mono (by simp [declarationWords])
  | enumeration hw | scalar hw | map hw =>
    exact (hw.starts.append _).mono (by simp [declarationWords])

theorem DeclarationOf.starts {w : List Word} {d : Declaration} (h : DeclarationOf w d) :
    Starts (fun k => k = .mark .atSign ∨ k ∈ declarationWords) w := by
  obtain ⟨hd, hb⟩ := h
  exact Many.starts_append hd (fun h => h.starts) (hb.starts.append [])

/-! ## Documents -/

inductive Language : Phrase (Option String)
  | absent : Language [] none
  | present {c v s : List Word} {text : String} :
    Sign (.keyword .concerto) c () → Sign (.keyword .version) v () → Lone .string s text →
    Language [c, v, s].flatten (some text)

/-- What stands before the declarations, as a document without any, and whether its last line is
open. -/
inductive Header : Bool → Phrase Model
  | intro {o : Bool} {l ws n is : List Word} {languageVersion? : Option String}
      {decorators : List Decorator} {id : Namespace} {imports : List Import} :
    Language l languageVersion? → Decorators ws decorators → NamespaceLine n id →
    Imports id.version?.isNone o is imports →
    Header o [l, ws, n, is].flatten { id, languageVersion?, decorators, imports }

/-- A document. Behind an open line the declarations do not start with a decorator. -/
inductive Document : Phrase Model
  | intro {o : Bool} {h ds : List Word} {header : Model} {declarations : List Declaration} :
    Header o h header → Many DeclarationOf ds declarations →
    (o = true → Stops [.mark .atSign] (kinds ds)) →
    Document [h, ds].flatten { header with declarations }

end Phrase

end Covenant
