/-
Readers keep to the grammar: if a reader answers a value, the tokens it took spell that
value, and where it gives up, they are the beginning of something that could be spelled
(`Reader.model_obeys`). One statement for each reader, in the order of the grammar.

Readers look at the next token and no further, with one exception. A point behind the
name of an import belongs to the name or to the scope, and the token behind the point
tells which. This reader is therefore put in another form, one that takes the point
first (`Reader.importTarget_eq`).
-/
import Covenant.Proofs.ReaderRules

namespace Covenant.Reader

open Covenant.Number Phrase

variable {α β : Type}

/-! ## Names and literals -/

theorem not_number_of_isName {k : TokenKind} (h : isName k = true) : k ∉ numberKinds := by
  rintro hk
  simp only [numberKinds, List.mem_cons, List.not_mem_nil, or_false] at hk
  rcases hk with rfl | rfl <;> cases h

theorem name_obeys : Obeys name Name :=
  (take_obeys (k := .identifier) rfl rfl rfl).map fun _ t h => h.1 ▸ Name.intro (w := t.word) h.2

theorem pointedName_obeys : Obeys pointedName Pointed :=
  (expectMark_obeys .dot).bind fun _ _ hw => name_obeys.mono fun _ _ hn => .intro hw hn

theorem dottedName_obeys : Obeys dottedName Dotted :=
  name_obeys.bind fun _ _ hw =>
    (Obeys.many (startsWith_headTest _) fun ts _ => pointedName_obeys ts).bind fun _ _ hws =>
      .pure (.intro hw hws)

theorem identifier_obeys : Obeys identifier (Lone .identifier) :=
  expectText_obeys (by decide)

theorem ofNumeral_eq_ok {outcome : Except NumeralError α} {ts rest : List Token} {a : α} :
    ofNumeral outcome ts = .ok (a, rest) ↔ outcome = .ok a ∧ ts = rest := by
  cases outcome <;> simp [ofNumeral]

theorem ofNumeral_eq_error {outcome : Except NumeralError α} {ts : List Token} {e : Failure} :
    ofNumeral outcome ts = .error e ↔ ∃ error, outcome = .error error ∧ e = .numeral error := by
  cases outcome <;> simp [ofNumeral, eq_comm]

theorem numeral_of_numberOf {t : Token} {n : Number} (hk : t.kind ∈ numberKinds)
    (h : numberOf t = .ok n) : Numeral [t.word] n := by
  obtain ⟨k, text, position⟩ := t
  unfold numberOf at h
  split at h
  · rename_i hint
    simp only at hint
    subst hint
    cases hi : readInteger text <;> rw [hi] at h <;> cases h
    exact .int (.intro text) hi
  · rename_i hint
    have hk : k = .float := by simpa [numberKinds, hint] using hk
    subst hk
    cases hb : readFloat text <;> rw [hb] at h <;> cases h
    exact .float (.intro text) hb

theorem exists_numeral {k : TokenKind} (hk : k ∈ numberKinds) : ∃ text n,
    Numeral [⟨k, text⟩] n := by
  simp only [numberKinds, List.mem_cons, List.not_mem_nil, or_false] at hk
  rcases hk with rfl | rfl
  · exact ⟨"0", .int 0, .int (.intro "0") rfl⟩
  · exact ⟨"0", .float 0, .float (.intro "0") rfl⟩

theorem number_eq_ok {ts rest : List Token} {n : Number} :
    number ts = .ok (n, rest) ↔
      ∃ t, ts = t :: rest ∧ t.kind ∈ numberKinds ∧ numberOf t = .ok n := by
  rw [number, bind_eq_ok]
  constructor
  · rintro ⟨t, middle, ht, hn⟩
    obtain ⟨rfl, hk⟩ := take_eq_ok.mp ht
    obtain ⟨hvalue, rfl⟩ := ofNumeral_eq_ok.mp hn
    exact ⟨t, rfl, List.contains_iff_mem.mp hk, hvalue⟩
  · rintro ⟨t, rfl, hk, hvalue⟩
    exact ⟨t, rest, take_eq_ok.mpr ⟨rfl, List.contains_iff_mem.mpr hk⟩,
      ofNumeral_eq_ok.mpr ⟨hvalue, rfl⟩⟩

theorem number_eq_error {ts : List Token} {e : Failure} :
    number ts = .error e ↔
      (e = .unexpected (.oneOf numberKinds) ts ∧ (nextKind ts).any numberKinds.contains = false) ∨
        ∃ t rest error, ts = t :: rest ∧ Nameless t error ∧ e = .numeral error := by
  rw [number, bind_eq_error, expectOneOf, take_eq_error]
  refine or_congr_right ⟨?_, ?_⟩
  · rintro ⟨t, rest, ht, hfail⟩
    obtain ⟨rfl, hk⟩ := take_eq_ok.mp ht
    obtain ⟨error, hvalue, rfl⟩ := ofNumeral_eq_error.mp hfail
    exact ⟨t, rest, error, rfl, ⟨List.contains_iff_mem.mp hk, hvalue⟩, rfl⟩
  · rintro ⟨t, rest, error, rfl, ⟨hk, hvalue⟩, rfl⟩
    exact ⟨t, rest, take_eq_ok.mpr ⟨rfl, List.contains_iff_mem.mpr hk⟩,
      ofNumeral_eq_error.mpr ⟨error, hvalue, rfl⟩⟩

/-- A number is one token. Whether its text names a number is not asked before it is taken. -/
theorem number_obeys : Obeys number Numeral := by
  intro ts
  obtain ⟨_, _, sample⟩ := exists_numeral (k := .integer) (by decide)
  refine ⟨⟨_, _, sample⟩, fun {n rest} h => ?_, fun {wanted rest} h => ?_, fun {e} h => ?_,
    fun {n used t more rest} hts h _ => ?_⟩
  · obtain ⟨t, rfl, hk, hvalue⟩ := number_eq_ok.mp h
    exact ⟨[t], rfl, numeral_of_numberOf hk hvalue, fun other _ =>
      number_eq_ok.mpr ⟨t, rfl, hk, hvalue⟩⟩
  · obtain ⟨he, hhead⟩ | ⟨_, _, _, -, -, he⟩ := number_eq_error.mp h <;> cases he
    refine ⟨[], rfl, ⟨_, _, sample⟩, .next rfl fun other hother =>
      number_eq_error.mpr (.inl ⟨rfl, ?_⟩)⟩
    rw [List.nil_append, hother, hhead]
  · obtain ⟨he, -⟩ | ⟨t, rest, _, rfl, ht, he⟩ := number_eq_error.mp h <;> cases he
    obtain ⟨text, n, hn⟩ := exists_numeral ht.kind
    exact ⟨[], t, rest, rfl, ht, text, [], n, hn⟩
  · obtain ⟨t', rfl, -, -⟩ := number_eq_ok.mp h
    obtain rfl : used = [] := by
      have hlength := congrArg List.length hts
      simp only [List.length_append, List.length_cons] at hlength
      exact List.length_eq_zero_iff.mp (by omega)
    exact fun t rest e _ ht => number_eq_error.mpr (.inr ⟨t, rest, e, rfl, ht, rfl⟩)

/-- A literal that does not start with an identifier is a constant. -/
theorem literal_obeys_constant {ts : List Token} (h : nextKind ts ≠ some .identifier) :
    ObeysAt ts literal Constant := by
  refine ObeysAt.peek ?_
  split
  · rename_i hk
    exact ((next_obeys hk (by decide)).map fun _ _ h => h.2).map fun _ _ h => .text h
  · contradiction
  · exact (number_obeys ts).map fun _ _ h => .number h
  · exact (number_obeys ts).map fun _ _ h => .number h
  · exact (expectKeyword_obeys .trueKw ts).bind fun _ _ h => .pure (by simpa using .yes h)
  · exact (expectKeyword_obeys .falseKw ts).bind fun _ _ h => .pure (by simpa using .no h)
  · exact .fail ⟨_, _, .text (.intro "")⟩ rfl

theorem literal_obeys : Obeys literal Value := by
  intro ts
  by_cases h : nextKind ts = some .identifier
  · refine ObeysAt.peek ?_
    rw [h]
    exact ((next_obeys h (by decide)).map fun _ _ h => h.2).map fun _ _ h => .identifier h
  · exact (literal_obeys_constant h).mono fun _ _ h => .constant h

theorem bound_obeys (stop : Mark) : Obeys (bound stop) Bound := by
  intro ts
  refine ObeysAt.peek ?_
  split
  · exact Obeys.pure .absent ts
  · exact (number_obeys ts).map fun _ _ h => .present h

theorem bounds_obeys : Obeys bounds Range :=
  (expectMark_obeys .leftBracket).bind fun _ _ hl => (bound_obeys .comma).bind fun _ _ hlo =>
    (expectMark_obeys .comma).bind fun _ _ hc => (bound_obeys .rightBracket).bind fun _ _ hhi =>
      (expectMark_obeys .rightBracket).bind fun _ _ hr => .pure (.intro hl hlo hc hhi hr)

/-! ## Decorators -/

theorem brackets_obeys : Obeys brackets Brackets := by
  refine (acceptMark_obeys .leftBracket).bind fun w b hb => ?_
  cases hb with
  | yes hl => exact (expectMark_obeys .rightBracket).bind fun _ _ hr => .pure (.present hl hr)
  | no => exact .pure .absent

theorem decoratorArgument_obeys : Obeys decoratorArgument Argument := by
  intro ts
  refine ObeysAt.peek ?_
  have constant {k : TokenKind} (hk : nextKind ts = some k) (hne : k ≠ .identifier) :
      ObeysAt ts literal Argument :=
    (literal_obeys_constant (by rw [hk]; simpa using hne)).mono fun _ _ h => .constant h
  split
  · exact constant (by assumption) (by simp)
  · exact constant (by assumption) (by simp)
  · exact constant (by assumption) (by simp)
  · exact constant (by assumption) (by simp)
  · exact constant (by assumption) (by simp)
  · rename_i hyes hno
    have hts : Stops truthWords (ts.map (·.kind)) := by
      cases ts with
      | nil => exact stops_nil
      | cons t ts =>
        simp only [List.map_cons, stops_cons, truthWords, List.mem_cons, List.not_mem_nil,
          or_false, not_or]
        exact ⟨fun he => hyes (by simp [he]), fun he => hno (by simp [he])⟩
    have type : Dotted [⟨.identifier, ""⟩] "" := .intro (w := [_]) (.intro rfl) .nil
    exact ((dottedName_obeys ts).starting hts ⟨_, _, type, by decide⟩).bind fun _ _ hw =>
      brackets_obeys.bind fun _ _ hb => .pure (.type hw.1 hw.2 hb)

theorem decoratorArguments_obeys : Obeys decoratorArguments Arguments := by
  refine (acceptMark_obeys .leftParen).bind fun w b hb => ?_
  cases hb with
  | no => exact .pure .absent
  | yes hl =>
    refine (acceptMark_obeys .rightParen).bind fun w b hb => ?_
    cases hb with
    | yes hr => exact .pure (.empty hl hr)
    | no =>
      exact (commaSeparated_obeys decoratorArgument_obeys).bind fun _ _ hvs =>
        (expectMark_obeys .rightParen).bind fun _ _ hr => .pure (.present hl hvs hr)

theorem decorator_obeys : Obeys decorator DecoratorOf :=
  (expectMark_obeys .atSign).bind fun _ _ ha => name_obeys.bind fun _ _ hn =>
    decoratorArguments_obeys.bind fun _ _ hv => .pure (.intro ha hn hv)

theorem decorators_obeys : Obeys decorators Decorators :=
  Obeys.many (startsWith_headTest _) fun ts _ => decorator_obeys ts

/-! ## Namespaces -/

theorem version?_obeys : Obeys version? Version := by
  refine (acceptMark_obeys .atSign).bind fun w b hb => ?_
  cases hb with
  | no => exact .pure .absent
  | yes ha => exact (expect_obeys (by decide)).bind fun _ _ hv => .pure (.present ha hv.2)

theorem namespaceLine_obeys : Obeys namespaceLine NamespaceLine :=
  (expectKeyword_obeys .namespaceKw).bind fun _ _ hw => dottedName_obeys.bind fun _ _ hn =>
    version?_obeys.bind fun _ _ hv => .pure (.intro hw hn hv)

theorem importScope_obeys : Obeys importScope Scope := by
  refine (acceptMark_obeys .star).bind fun w b hb => ?_
  cases hb with
  | yes hs => exact .pure (by simpa using .closed (.star hs))
  | no =>
    refine (acceptMark_obeys .leftBrace).bind fun w b hb => ?_
    cases hb with
    | yes hl =>
      exact (commaSeparated_obeys name_obeys).bind fun _ _ hn =>
        (expectMark_obeys .rightBrace).bind fun _ _ hr => .pure (.closed (.braces hl hn hr))
    | no => exact name_obeys.bind fun _ _ hn => .pure (by simpa using .type hn)

/-! ## Imports -/

/-- A star, or types in braces. -/
def closedScope : Reader ImportScope := do
  if ← acceptMark .star then
    return .wildcard
  expectMark .leftBrace
  let names ← commaSeparated name
  expectMark .rightBrace
  return .types names

theorem closedScope_obeys : Obeys closedScope ClosedScope := by
  refine (acceptMark_obeys .star).bind fun w b hb => ?_
  cases hb with
  | yes hs => exact .pure (by simpa using .star hs)
  | no =>
    exact (expectMark_obeys .leftBrace).bind fun _ _ hl =>
      (commaSeparated_obeys name_obeys).bind fun _ _ hn =>
        (expectMark_obeys .rightBrace).bind fun _ _ hr => .pure (.braces hl hn hr)

/-- The words that open a closed scope. -/
def scopeWords : List TokenKind :=
  [.mark .star, .mark .leftBrace]

theorem expectMark_of_head {m : Mark} {t : Token} (h : t.kind = .mark m) (ts : List Token) :
    expectMark m (t :: ts) = .ok ((), ts) :=
  bind_of_ok (take_eq_ok.mpr ⟨rfl, by simp [h]⟩)

theorem importScope_eq_closedScope {t : Token} (h : t.kind ∈ scopeWords) (ts : List Token) :
    importScope (t :: ts) = closedScope (t :: ts) := by
  simp only [scopeWords, List.mem_cons, List.not_mem_nil, or_false] at h
  unfold importScope closedScope acceptMark
  rcases h with h | h
  · rw [bind_of_ok (accept_of_head h ts), bind_of_ok (accept_of_head h ts)]
    rfl
  · have hstar : Stops [.mark .star] ((t :: ts).map (·.kind)) := by simp [h]
    rw [bind_of_ok (accept_of_stops hstar), bind_of_ok (accept_of_stops hstar)]
    simp only [Bool.false_eq_true, if_false]
    rw [bind_of_ok (accept_of_head h ts), bind_of_ok (expectMark_of_head h ts)]
    rfl

/-- The parts of a name behind the first, and whether a point before a closed scope was taken behind
them. -/
def nameParts : Reader (List String × Bool) := do
  let others ← many namePartFollows pointedName
  return (others, ← acceptMark .dot)

inductive NameParts : Phrase (List String × Bool)
  | plain {ws : List Word} {others : List String} :
    Many Pointed ws others → NameParts ws (others, false)
  | pointed {ws d : List Word} {others : List String} :
    Many Pointed ws others → Sign (.mark .dot) d () → NameParts [ws, d].flatten (others, true)

theorem namePartFollows_eq_false {ts : List Token} (h : namePartFollows ts = false) :
    Stops [.mark .dot] (ts.map (·.kind)) ∨
      ∃ d t rest, ts = d :: t :: rest ∧ d.kind = .mark .dot ∧ t.kind ∈ scopeWords := by
  rcases ts with _ | ⟨d, _ | ⟨t, rest⟩⟩
  · exact .inl stops_nil
  · exact .inl (by simpa [namePartFollows] using h)
  · by_cases hd : d.kind = .mark .dot
    · refine .inr ⟨d, t, rest, rfl, hd, ?_⟩
      simpa [namePartFollows, hd, scopeWords, Decidable.imp_iff_not_or] using h
    · exact .inl (by simpa using hd)

theorem namePartFollows_of_stops {ts : List Token} (h : Stops [.mark .dot] (ts.map (·.kind))) :
    namePartFollows ts = false := by
  rcases ts with _ | ⟨d, _ | ⟨t, rest⟩⟩ <;> simp_all [namePartFollows]

theorem nameParts_of_stops {ts : List Token} (h : Stops [.mark .dot] (ts.map (·.kind))) :
    nameParts ts = .ok (([], false), ts) := by
  unfold nameParts acceptMark
  rw [bind_of_ok (many_of_stop (namePartFollows_of_stops h)), bind_of_ok (accept_of_stops h)]
  rfl

theorem nameParts_of_scope {d t : Token} (hd : d.kind = .mark .dot) (ht : t.kind ∈ scopeWords)
    (ts : List Token) : nameParts (d :: t :: ts) = .ok (([], true), t :: ts) := by
  have hstop : namePartFollows (d :: t :: ts) = false := by
    simp only [scopeWords, List.mem_cons, List.not_mem_nil, or_false] at ht
    rcases ht with ht | ht <;> simp [namePartFollows, ht]
  unfold nameParts acceptMark
  rw [bind_of_ok (many_of_stop hstop), bind_of_ok (accept_of_head hd _)]
  rfl

theorem name_of_head {t : Token} (h : isName t.kind = true) (ts : List Token) :
    name (t :: ts) = .ok (t.text, ts) := by
  simp [name, take, h, Functor.map, StateT.map, bind, Except.bind, pure, Except.pure]

theorem nameParts_of_name {d t : Token} (hd : d.kind = .mark .dot) (ht : isName t.kind = true)
    (ts : List Token) : nameParts (d :: t :: ts) =
      (nameParts ts).map fun (parts, rest) => ((t.text :: parts.1, parts.2), rest) := by
  have hmore : namePartFollows ([d, t] ++ ts) = true := by
    have hstar : t.kind ≠ .mark .star := by rintro he; simp [he, isName] at ht
    have hbrace : t.kind ≠ .mark .leftBrace := by rintro he; simp [he, isName] at ht
    simp [namePartFollows, hd, hstar, hbrace]
  have hpart : pointedName ([d, t] ++ ts) = .ok (t.text, ts) := by
    rw [pointedName, List.cons_append, bind_of_ok (expectMark_of_head hd _)]
    exact name_of_head ht ts
  have hmany := many_of_item hmore hpart (by simp)
  unfold nameParts
  cases hothers : many namePartFollows pointedName ts with
  | error e =>
    rw [hothers] at hmany
    rw [bind_of_error hothers]
    exact bind_of_error hmany
  | ok r =>
    obtain ⟨others, rest⟩ := r
    rw [hothers] at hmany
    have hmany : many namePartFollows pointedName (d :: t :: ts) =
        .ok (t.text :: others, rest) := hmany
    rw [bind_of_ok hmany, bind_of_ok hothers]
    unfold acceptMark
    by_cases hstops : Stops [.mark .dot] (rest.map (·.kind))
    · rw [bind_of_ok (accept_of_stops hstops), bind_of_ok (accept_of_stops hstops)]
      rfl
    · obtain ⟨e, rest, rfl, he⟩ := exists_of_not_stops hstops
      rw [bind_of_ok (accept_of_head he _), bind_of_ok (accept_of_head he _)]
      rfl

theorem nameParts_of_error {d : Token} (hd : d.kind = .mark .dot) {ts : List Token}
    (h : (nextKind ts).any (fun k => isName k || scopeWords.contains k) = false) :
    nameParts (d :: ts) = .error (.unexpected .name ts) := by
  have hmore : namePartFollows (d :: ts) = true := by
    cases ts <;> simp_all [namePartFollows, scopeWords]
  have hname : name ts = .error (.unexpected .name ts) := by
    rw [name, map_eq_pure_bind]
    refine bind_of_error (take_eq_error.mpr ⟨rfl, ?_⟩)
    cases ts <;> simp_all
  refine bind_of_error (many_of_error hmore ?_)
  rw [pointedName, bind_of_ok (expectMark_of_head hd ts), hname]

/-- A part in front of other parts. -/
theorem NameParts.cons {w ws : List Word} {first : String} {parts : List String × Bool}
    (hw : Pointed w first) (h : NameParts ws parts) :
    NameParts (w ++ ws) (first :: parts.1, parts.2) := by
  cases h with
  | plain hws => exact .plain (.cons hw hws)
  | pointed hws hd => simpa using NameParts.pointed (.cons hw hws) hd

/-- The parts of a name are read with a look at the next token only: what stands behind a point
tells what the point belongs to, and nothing behind that is asked. -/
theorem nameParts_obeys : Obeys nameParts NameParts := by
  intro ts
  induction hlength : ts.length using Nat.strongRecOn generalizing ts with
  | ind n ih =>
  by_cases hstops : Stops [.mark .dot] (ts.map (·.kind))
  · exact @ObeysAt.of_ok _ _ _ [] ts _ (.plain .nil) (by simp) fun other hother =>
      nameParts_of_stops ((stops_congr hother).mpr hstops)
  obtain ⟨d, ts, rfl, hd⟩ := exists_of_not_stops hstops
  by_cases hnext : (nextKind ts).any (fun k => isName k || scopeWords.contains k) = false
  · have hpart : Pointed ([d.word] ++ [⟨.identifier, ""⟩]) "" :=
      .intro (sign_of_kind hd) (.intro (w := ⟨.identifier, ""⟩) rfl)
    have hmore : NameParts ([d.word] ++ [⟨.identifier, ""⟩]) ([""], false) :=
      .plain (by simpa using Many.cons hpart .nil)
    exact @ObeysAt.of_error _ _ _ [d] ts _ ⟨_, _, hmore⟩ rfl fun other hother =>
      @nameParts_of_error d hd other (by rw [hother, hnext])
  cases ts with
  | nil => simp at hnext
  | cons t ts =>
  by_cases hscope : t.kind ∈ scopeWords
  · have hpointed : NameParts [d.word] ([], true) := by
      simpa using NameParts.pointed .nil (sign_of_kind hd)
    refine @ObeysAt.of_ok _ _ _ [d] (t :: ts) _ hpointed (by simp [hd, mark_not_number])
      fun other hother => ?_
    cases other with
    | nil => cases hother
    | cons t' other =>
      have hkind : t'.kind = t.kind := by simpa using hother
      exact nameParts_of_scope hd (hkind ▸ hscope) other
  have hname : isName t.kind = true := by simpa [hscope] using hnext
  have hpart : Pointed ([d.word] ++ [t.word]) t.text := .intro (sign_of_kind hd) (.intro hname)
  have hrest := ih ts.length (by rw [← hlength, List.length_cons, List.length_cons]; omega) ts rfl
  show ObeysAt ([d, t] ++ ts) nameParts NameParts
  exact hrest.behind (f := fun parts : List String × Bool => (t.text :: parts.1, parts.2))
    (by simpa [hd, mark_not_number] using not_number_of_isName hname)
    (nameParts_of_name hd hname) fun h => h.cons hpart

/-- The namespace and the scope of an import with a look at the next token only, and whether its
line is open so far. An import of a single name is answered by that name. -/
def target : Reader (String ⊕ Bool × Namespace × ImportScope) := do
  let first ← name
  let (others, pointed) ← nameParts
  let parts := first :: others
  if pointed then
    return .inr (false, ⟨".".intercalate parts, none⟩, ← closedScope)
  match ← version? with
  | some version =>
    expectMark .dot
    return .inr (false, ⟨".".intercalate parts, some version⟩, ← importScope)
  | none =>
    match others.getLast? with
    | none => return .inl first
    | some typeName => return .inr (true, ⟨".".intercalate parts.dropLast, none⟩, .types [typeName])

inductive TargetOrName : Phrase (String ⊕ Bool × Namespace × ImportScope)
  | target {o : Bool} {w : List Word} {t : Namespace × ImportScope} :
    Target o w t → TargetOrName w (.inr (o, t))
  | name {w : List Word} {first : String} : Name w first → TargetOrName w (.inl first)

theorem target_obeys : Obeys target TargetOrName := by
  refine name_obeys.bind fun w first hw => nameParts_obeys.bind fun ws parts hws => ?_
  cases hws with
  | pointed hws hd =>
    exact closedScope_obeys.bind fun _ _ hs => .pure
      (by simpa using TargetOrName.target (.closed hw hws hd hs))
  | @plain _ others hws =>
    refine version?_obeys.bind fun v version hv => ?_
    cases hv with
    | present ha hv =>
      exact (expectMark_obeys .dot).bind fun _ _ hd => importScope_obeys.bind fun _ _ hs =>
        .pure (by simpa using TargetOrName.target (.versioned hw hws ha hv hd hs))
    | absent =>
      simp only
      cases hlast : others.getLast? with
      | none =>
        obtain rfl := List.getLast?_eq_none_iff.mp hlast
        cases hws
        exact .pure (by simpa using .name hw)
      | some type => exact .pure (by simpa using TargetOrName.target (.plain hw hws hlast))

/-- No decorator follows. -/
abbrev Undecked (rest : List Token) : Prop :=
  Stops [.mark .atSign] (rest.map (·.kind))

theorem version?_eq_none {ts rest : List Token} (h : version? ts = .ok (none, rest)) :
    rest = ts ∧ Undecked ts := by
  obtain ⟨b, middle, hb, h⟩ := bind_eq_ok.mp h
  cases b with
  | true =>
    obtain ⟨t, _, _, h⟩ := bind_eq_ok.mp h
    cases (pure_eq_ok.mp h).1
  | false =>
    obtain ⟨-, rfl⟩ := pure_eq_ok.mp h
    exact accept_eq_false hb

theorem target_undecked {ts rest : List Token} {t : Namespace × ImportScope}
    (h : target ts = .ok (.inr (true, t), rest)) : Undecked rest := by
  obtain ⟨_, _, -, h⟩ := bind_eq_ok.mp h
  obtain ⟨⟨others, pointed⟩, _, -, h⟩ := bind_eq_ok.mp h
  cases pointed with
  | true =>
    obtain ⟨_, _, -, h⟩ := bind_eq_ok.mp h
    cases (pure_eq_ok.mp h).1
  | false =>
    obtain ⟨version, _, hversion, hlast⟩ := bind_eq_ok.mp h
    cases version with
    | some version =>
      obtain ⟨_, _, -, hlast⟩ := bind_eq_ok.mp hlast
      obtain ⟨_, _, -, hlast⟩ := bind_eq_ok.mp hlast
      cases (pure_eq_ok.mp hlast).1
    | none =>
      obtain ⟨rfl, hdeck⟩ := version?_eq_none hversion
      simp only at hlast
      cases hparts : others.getLast? with
      | none =>
        rw [hparts] at hlast
        cases (pure_eq_ok.mp hlast).1
      | some type =>
        rw [hparts] at hlast
        obtain ⟨-, rfl⟩ := pure_eq_ok.mp hlast
        exact hdeck

/-- Complains about an import of a single name. -/
def settle (start : List Token) : String ⊕ Bool × α → Reader α
  | .inl first => throw (.unexpected (.qualifiedImport first) start)
  | .inr (_, a) => pure a

/-- The token behind a point need not be looked at before the point is taken. -/
theorem importTarget_eq (start : List Token) : importTarget start = target >>= settle start := by
  unfold importTarget target nameParts
  simp only [bind_assoc, pure_bind]
  refine bind_congr fun first => ?_
  funext ts
  cases hothers : many namePartFollows pointedName ts with
  | error e => rw [bind_of_error hothers, bind_of_error hothers]
  | ok r =>
    obtain ⟨others, middle⟩ := r
    have hstop := many_stops hothers fun _ _ _ =>
      pointedName_obeys.progress fun hn => (Marked.starts hn).ne_nil
    rw [bind_of_ok hothers, bind_of_ok hothers]
    rcases namePartFollows_eq_false hstop with hstops | ⟨d, t, rest, rfl, hd, ht⟩
    · rw [acceptMark, bind_of_ok (accept_of_stops hstops)]
      simp only [Bool.false_eq_true, if_false, bind_assoc]
      cases hversion : version? middle with
      | error e => rw [bind_of_error hversion, bind_of_error hversion]
      | ok r =>
        obtain ⟨version, rest⟩ := r
        rw [bind_of_ok hversion, bind_of_ok hversion]
        cases version with
        | some version => simp only [bind_assoc, pure_bind, settle]
        | none =>
          obtain ⟨rfl, -⟩ := version?_eq_none hversion
          simp only
          rw [bind_of_ok (accept_of_stops hstops)]
          cases others.getLast? <;> rfl
    · have hversion : version? (d :: t :: rest) = .ok (none, d :: t :: rest) := by
        rw [version?, acceptMark, bind_of_ok (accept_of_stops (by simp [hd]))]
        rfl
      rw [acceptMark, bind_of_ok hversion, bind_of_ok (accept_of_head hd _)]
      simp only
      rw [bind_of_ok (accept_of_head hd _)]
      simp only [if_true, bind_assoc, pure_bind, settle]
      simp only [bind, StateT.bind, importScope_eq_closedScope ht]

/-- An import, and whether its line is open. -/
def line : Reader (String ⊕ Bool × Import) := do
  expectKeyword .importKw
  match ← target with
  | .inl first => return .inl first
  | .inr (o, id, scope) =>
    if ← acceptKeyword .fromKw then
      return .inr (false, ⟨id, scope, some (← expect .uri).text⟩)
    return .inr (o, ⟨id, scope, none⟩)

inductive LineOrName : Phrase (String ⊕ Bool × Import)
  | line {o : Bool} {w : List Word} {i : Import} : ImportLine o w i → LineOrName w (.inr (o, i))
  | name {w n : List Word} {first : String} :
    Sign (.keyword .importKw) w () → Name n first → LineOrName [w, n].flatten (.inl first)

theorem line_obeys : Obeys line LineOrName := by
  refine (expectKeyword_obeys .importKw).bind fun w _ hw => target_obeys.bind fun t r ht => ?_
  cases ht with
  | name hn => exact .pure (.name hw hn)
  | target ht =>
    refine (acceptKeyword_obeys .fromKw).bind fun f b hf => ?_
    cases hf with
    | yes hf =>
      exact (expect_obeys (by decide)).bind fun _ _ hu => .pure (.line (.located hw ht hf hu.2))
    | no => exact .pure (.line (.here hw ht))

theorem line_undecked {ts rest : List Token} {i : Import}
    (h : line ts = .ok (.inr (true, i), rest)) :
    Undecked rest := by
  obtain ⟨_, _, -, h⟩ := bind_eq_ok.mp h
  obtain ⟨r, middle, htarget, h⟩ := bind_eq_ok.mp h
  cases r with
  | inl => cases (pure_eq_ok.mp h).1
  | inr r =>
    obtain ⟨o, id, scope⟩ := r
    obtain ⟨b, _, hb, h⟩ := bind_eq_ok.mp h
    cases b with
    | true =>
      obtain ⟨_, _, -, h⟩ := bind_eq_ok.mp h
      cases (pure_eq_ok.mp h).1
    | false =>
      obtain ⟨he, rfl⟩ := pure_eq_ok.mp h
      obtain ⟨rfl, -⟩ := accept_eq_false hb
      cases he
      exact target_undecked htarget

theorem importLine_eq (ts : List Token) : importLine ts = (line >>= settle ts) ts := by
  change (expectKeyword .importKw >>= fun _ => _) ts = _
  unfold line
  simp only [importTarget_eq, bind_assoc]
  refine congrFun (bind_congr fun _ => bind_congr fun r => ?_) ts
  cases r with
  | inl first => rfl
  | inr r =>
    simp only [settle, pure_bind, bind_assoc]
    refine bind_congr fun b => ?_
    cases b <;> simp [settle]

theorem importLine_eq_ok {ts rest : List Token} {i : Import} :
    importLine ts = .ok (i, rest) ↔ ∃ o, line ts = .ok (.inr (o, i), rest) := by
  rw [importLine_eq, bind_eq_ok]
  constructor
  · rintro ⟨r, middle, hline, h⟩
    rcases r with first | ⟨o, i'⟩
    · cases h
    · obtain ⟨rfl, rfl⟩ := pure_eq_ok.mp h
      exact ⟨o, hline⟩
  · rintro ⟨o, hline⟩
    exact ⟨_, _, hline, rfl⟩

theorem importLine_eq_error {ts : List Token} {e : Failure} (h : importLine ts = .error e) :
    line ts = .error e ∨
      ∃ first rest, line ts = .ok (.inl first, rest) ∧
        e = .unexpected (.qualifiedImport first) ts := by
  rw [importLine_eq, bind_eq_error] at h
  rcases h with hline | ⟨r, middle, hline, h⟩
  · exact .inl hline
  · rcases r with first | ⟨o, i⟩ <;> cases h
    exact .inr ⟨first, middle, hline, rfl⟩

theorem LineOrName.importLine {o : Bool} {w : List Word} {i : Import}
    (h : LineOrName w (.inr (o, i))) :
    ImportLine o w i := by
  cases h
  assumption

/-- What is not an import yet can become one. -/
theorem LineOrName.complete {w : List Word} {r : String ⊕ Bool × Import} (h : LineOrName w r) :
    ∃ v i o, ImportLine o (w ++ v) i := by
  cases h with
  | line hi => exact ⟨[], _, _, by simpa using hi⟩
  | name hw hn =>
    have hpart : Pointed ([⟨.mark .dot, ""⟩] ++ [⟨.identifier, ""⟩]) "" :=
      .intro (.intro "") (.intro (w := ⟨.identifier, ""⟩) rfl)
    have himport := ImportLine.here hw (.plain hn (.cons hpart .nil) rfl)
    exact ⟨[⟨.mark .dot, ""⟩, ⟨.identifier, ""⟩], _, true, by simpa using himport⟩

theorem importLine_obeys : Obeys importLine fun w i => ∃ o, ImportLine o w i := by
  intro ts
  have sample : ∃ w i o, ImportLine o w i := by
    obtain ⟨w, r, hr⟩ := (line_obeys []).sample
    obtain ⟨v, i, o, hi⟩ := hr.complete
    exact ⟨w ++ v, i, o, hi⟩
  refine ⟨sample, fun {i rest} h => ?_, fun {wanted rest} h => ?_, fun {e} h => ?_,
    fun {i used t more rest} hts h hk => ?_⟩
  · obtain ⟨o, hline⟩ := importLine_eq_ok.mp h
    obtain ⟨used, rfl, hu, hsettled⟩ := (line_obeys ts).takes hline
    exact ⟨used, rfl, ⟨o, hu.importLine⟩, fun other hother =>
      importLine_eq_ok.mpr ⟨o, hsettled other hother⟩⟩
  · rcases importLine_eq_error h with hline | ⟨first, _, hline, he⟩
    · obtain ⟨used, rfl, ⟨more, r, hr⟩, hstop⟩ := (line_obeys ts).stops hline
      obtain ⟨v, i, o, hi⟩ := hr.complete
      refine ⟨used, rfl, ⟨more ++ v, i, o, by simpa using hi⟩,
        hstop.trans fun hs other hother => ?_⟩
      rw [importLine_eq]
      exact bind_of_error (hs other hother)
    · -- an import of a single name: the complaint is made at the word that opens the line
      cases he
      obtain ⟨_, _, hword, -⟩ := bind_eq_ok.mp hline
      obtain ⟨t, _, ht, -⟩ := bind_eq_ok.mp hword
      obtain ⟨rfl, hk⟩ := take_eq_ok.mp ht
      exact ⟨[], rfl, sample, .line hk⟩
  · obtain hline | ⟨_, _, -, he⟩ := importLine_eq_error h
    · obtain ⟨used, t, rest, hts, ht, text, more, r, hr⟩ := (line_obeys ts).refuses hline
      obtain ⟨v, i, o, hi⟩ := hr.complete
      exact ⟨used, t, rest, hts, ht, text, more ++ v, i, o, by simpa using hi⟩
    · cases he
  · obtain ⟨o, hline⟩ := importLine_eq_ok.mp h
    intro t rest e ht hnameless
    rw [importLine_eq]
    exact bind_of_error ((line_obeys ts).asks hts hline hk t rest e ht hnameless)

/-- The tokens that a reader takes spell its answer, and no decorator follows if they end with an
open line. -/
def YieldsLine (p : Reader α) (phrase : Bool → Phrase α) : Prop :=
  ∀ ts a rest, p ts = .ok (a, rest) →
    ∃ o used, ts = used ++ rest ∧ phrase o (used.map Token.word) a ∧ (o = true → Undecked rest)

theorem importLine_yields : YieldsLine importLine ImportLine := by
  intro ts i rest h
  obtain ⟨o, hline⟩ := importLine_eq_ok.mp h
  obtain ⟨used, rfl, hu, -⟩ := (line_obeys ts).takes hline
  refine ⟨o, used, rfl, hu.importLine, fun ho => ?_⟩
  subst ho
  exact line_undecked hline

theorem imports_yields {ts rest : List Token} {is : List Import} {before : Bool}
    (h : many (startsWith [.keyword .importKw]) importLine ts = .ok (is, rest))
    (hb : before = true → Undecked ts) :
    ∃ after used, ts = used ++ rest ∧ Imports before after (used.map Token.word) is ∧
      (after = true → Undecked rest) := by
  replace h := Repeats.of_many h
  induction h generalizing before with
  | stop => exact ⟨before, [], rfl, .nil, hb⟩
  | stuck _ hitem =>
    obtain ⟨o, w, rfl, hw, ho⟩ := importLine_yields _ _ _ hitem
    exact ⟨o, w, rfl, by simpa using Imports.cons hw Imports.nil, ho⟩
  | step _ hitem _ ih =>
    obtain ⟨o, w, rfl, hw, ho⟩ := importLine_yields _ _ _ hitem
    obtain ⟨after, ws, rfl, hws, hafter⟩ := ih ho
    exact ⟨after, w ++ ws, by simp, by simpa using Imports.cons hw hws, hafter⟩

/-! ## Properties -/

theorem startsWith_eq_true {ks : List TokenKind} {ts : List Token} (h : startsWith ks ts = true) :
    ∃ k ∈ ks, nextKind ts = some k := by
  cases ts with
  | nil => simp [startsWith] at h
  | cons t ts => exact ⟨t.kind, by simpa [startsWith] using h, rfl⟩

theorem valueModifier_obeys {ts : List Token} (h : startsWith valueModifiers ts = true) :
    ObeysAt ts modifier ValueModifier := by
  obtain ⟨k, hk, hts⟩ := startsWith_eq_true h
  have hplain : ∀ k ∈ valueModifiers, k ∉ numberKinds := by decide
  refine (next_obeys hts (hplain k hk)).bind fun w t ⟨ht, hw⟩ => ?_
  subst ht
  simp only [valueModifiers, List.mem_cons, List.not_mem_nil, or_false] at hk
  rcases hk with hk | hk | hk | hk <;> rw [hk] at hw ⊢
  · exact (expectMark_obeys .equals).bind fun _ _ he => literal_obeys.bind fun _ _ hv =>
      .pure (.default hw.sign he hv)
  · exact (expectMark_obeys .equals).bind fun _ _ he =>
      (expect_obeys (by decide)).bind fun _ _ hv => .pure (.pattern hw.sign he hv.2)
  · exact (expectMark_obeys .equals).bind fun _ _ he => bounds_obeys.bind fun _ _ hv =>
      .pure (.range hw.sign he hv)
  · exact (expectMark_obeys .equals).bind fun _ _ he => bounds_obeys.bind fun _ _ hv =>
      .pure (.length hw.sign he hv)

theorem modifier_obeys {ts : List Token}
    (h : startsWith (.keyword .optional :: valueModifiers) ts = true) :
    ObeysAt ts modifier ModifierOf := by
  obtain ⟨k, hk, hts⟩ := startsWith_eq_true h
  rcases List.mem_cons.mp hk with rfl | hk
  · refine (next_obeys hts (by decide)).bind fun w t ⟨ht, hw⟩ => ?_
    rw [ht]
    exact .pure (by simpa using .optional hw.sign)
  · refine (valueModifier_obeys ?_).mono fun _ _ h => .value h
    cases ts with
    | nil => simp at hts
    | cons t ts =>
      simp only [nextKind_cons, Option.some.injEq] at hts
      simpa [startsWith, hts] using hk

theorem propertyMark_obeys :
    Obeys (expectOneOf propertyMarks) fun w t => Marker w (t.kind = .mark .arrow) := by
  refine (take_obeys (k := .keyword .field) rfl rfl rfl).mono fun w t ⟨hw, hk⟩ => ?_
  obtain ⟨k, text, position⟩ := t
  subst hw
  simp only [propertyMarks, List.contains_eq_mem, List.mem_cons, List.not_mem_nil, or_false,
    decide_eq_true_eq] at hk
  rcases hk with rfl | rfl
  · exact .value (.intro text)
  · exact .relationship (.intro text)

theorem property_obeys : Obeys property PropertyOf :=
  decorators_obeys.bind fun _ _ hd => propertyMark_obeys.bind fun _ _ hm =>
    dottedName_obeys.bind fun _ _ ht => brackets_obeys.bind fun _ _ hb =>
      name_obeys.bind fun _ _ hn =>
        (Obeys.many (startsWith_headTest _) fun _ h => modifier_obeys h).bind fun _ _ hms =>
          .pure (.intro hd hm ht hb hn hms)

/-! ## Declarations -/

theorem clause_obeys : Obeys clause ClauseOf := by
  refine (acceptKeyword_obeys .identified).bind fun w b hb => ?_
  cases hb with
  | yes hi =>
    refine (acceptKeyword_obeys .byKw).bind fun w b hb => ?_
    cases hb with
    | yes hb => exact name_obeys.bind fun _ _ hn => .pure (.property hi hb hn)
    | no => exact .pure (by simpa using .system hi)
  | no =>
    exact (expectKeyword_obeys .extendsKw).bind fun _ _ hw => dottedName_obeys.bind fun _ _ hn =>
      .pure (.subtype hw hn)

theorem enumerationValue_obeys : Obeys enumerationValue EnumerationValue :=
  decorators_obeys.bind fun _ _ hd => (expectKeyword_obeys .field).bind fun _ _ hw =>
    name_obeys.mono fun _ _ hn => by simpa using EnumerationValue.intro hd hw hn

theorem mapEntry_obeys : Obeys mapEntry MapEntry := by
  refine dottedName_obeys.bind fun w n hn => ?_
  refine (accept_obeys (by decide)).bind fun v b hb => ?_
  cases hb with
  | yes hv =>
    obtain ⟨text⟩ := hv
    exact .pure (.named hn (.intro text))
  | no => exact .pure (by simpa using .plain hn)

/-- The declaration of an undecorated phrase under the decorators given. -/
abbrev Decked (ds : List Decorator) : Phrase Declaration :=
  fun w d => Undecorated w (d.name, d.body) ∧ d.decorators = ds

theorem enumeration_obeys (ds : List Decorator) : Obeys (enumeration ds) (Decked ds) :=
  (expectKeyword_obeys .enum).bind fun _ _ hw => identifier_obeys.bind fun _ _ hn =>
    (expectMark_obeys .leftBrace).bind fun _ _ hl =>
      (Obeys.many (goesOnBefore_headTest _) fun ts _ => enumerationValue_obeys ts).bind
        fun _ _ hv => (expectMark_obeys .rightBrace).bind fun _ _ hr =>
          .pure ⟨.enumeration hw hn hl hv hr, rfl⟩

theorem scalar_obeys (ds : List Decorator) : Obeys (scalar ds) (Decked ds) :=
  (expectKeyword_obeys .scalar).bind fun _ _ hw => identifier_obeys.bind fun _ _ hn =>
    (expectKeyword_obeys .extendsKw).bind fun _ _ he => identifier_obeys.bind fun _ _ hb =>
      (Obeys.many (startsWith_headTest _) fun _ h => valueModifier_obeys h).bind fun _ _ hm =>
        .pure ⟨.scalar hw hn he hb hm, rfl⟩

theorem map_obeys (ds : List Decorator) : Obeys (map ds) (Decked ds) :=
  (expectKeyword_obeys .map).bind fun _ _ hw => identifier_obeys.bind fun _ _ hn =>
    (expectMark_obeys .leftBrace).bind fun _ _ hl => (expectKeyword_obeys .field).bind fun _ _ ho =>
      mapEntry_obeys.bind fun _ _ hk => propertyMark_obeys.bind fun _ _ hm =>
        mapEntry_obeys.bind fun _ _ hv => (expectMark_obeys .rightBrace).bind fun _ _ hr =>
          .pure ⟨.map hw hn hl ho hk hm hv hr, rfl⟩

theorem classRest_obeys {a k : List Word} {isAbstract : Bool} {kind : ClassKind}
    (ha : Abstract a isAbstract) (hk : ClassWord k kind) (ds : List Decorator) :
    Obeys (classRest kind isAbstract ds) fun w d => Decked ds (a ++ (k ++ w)) d :=
  identifier_obeys.bind fun _ _ hn =>
    (Obeys.many (startsWith_headTest _) fun ts _ => clause_obeys ts).bind fun _ _ hc =>
      (expectMark_obeys .leftBrace).bind fun _ _ hl =>
        (Obeys.many (goesOnBefore_headTest _) fun ts _ => property_obeys ts).bind fun _ _ hp =>
          (expectMark_obeys .rightBrace).bind fun _ _ hr =>
            .pure ⟨.ofClass ha hk hn hc hl hp hr, rfl⟩

theorem declaration_obeys : Obeys declaration DeclarationOf := by
  refine decorators_obeys.bind fun ws ds hd => ?_
  have deck {w : List Word} {d : Declaration} (h : Decked ds w d) : DeclarationOf (ws ++ w) d := by
    obtain ⟨name, body, _⟩ := d
    obtain ⟨hb, rfl⟩ := h
    simpa using DeclarationOf.intro hd hb
  refine (acceptKeyword_obeys .abstractKw).bind fun a isAbstract ha => fun ts => ObeysAt.peek ?_
  have ha' : Abstract a isAbstract := by
    cases ha with
    | yes hw => exact .present hw
    | no => exact .absent
  have sample : ∃ w d, DeclarationOf (ws ++ (a ++ w)) d := by
    have hword : ClassWord [⟨.keyword .concept, ""⟩] .concept := .intro rfl
    obtain ⟨w, d, hd⟩ := (classRest_obeys ha' hword ds []).sample
    exact ⟨_, d, deck hd⟩
  split
  · rename_i kind hkind
    obtain ⟨k, hk, hclass⟩ := Option.bind_eq_some_iff.mp hkind
    have hplain : ∀ k ∈ declarationWords, k ∉ numberKinds := by decide
    have hword : k ∈ declarationWords := mem_declarationWords (by simp [hclass])
    refine (next_obeys hk (hplain k hword)).bind fun v t ⟨_, hv⟩ => ?_
    obtain ⟨⟩ := hv
    exact (classRest_obeys ha' (.intro hclass) ds).mono fun _ _ h => deck h
  · split
    · exact .fail sample rfl
    · cases ha with
      | yes => contradiction
      | no =>
        split
        · exact (enumeration_obeys ds ts).mono fun _ _ h => deck h
        · exact (scalar_obeys ds ts).mono fun _ _ h => deck h
        · exact (map_obeys ds ts).mono fun _ _ h => deck h
        · exact .fail sample rfl

/-! ## Documents -/

theorem languageVersion?_obeys : Obeys languageVersion? Language := by
  refine (acceptKeyword_obeys .concerto).bind fun w b hb => ?_
  cases hb with
  | no => exact .pure .absent
  | yes hc =>
    exact (expectKeyword_obeys .version).bind fun _ _ hv =>
      (expect_obeys (by decide)).bind fun _ _ hs => .pure (.present hc hv hs.2)

theorem namespaceLine_undecked {ts rest : List Token} {id : Namespace}
    (h : namespaceLine ts = .ok (id, rest)) (hv : id.version?.isNone = true) : Undecked rest := by
  obtain ⟨_, _, -, h⟩ := bind_eq_ok.mp h
  obtain ⟨_, middle, -, h⟩ := bind_eq_ok.mp h
  obtain ⟨version, _, hversion, h⟩ := bind_eq_ok.mp h
  obtain ⟨rfl, rfl⟩ := pure_eq_ok.mp h
  obtain rfl : version = none := by simpa using hv
  obtain ⟨rfl, hd⟩ := version?_eq_none hversion
  exact hd

theorem header_yields : YieldsLine header Header := by
  intro ts front rest h
  obtain ⟨_, ts₁, hlanguage, h₁⟩ := bind_eq_ok.mp h
  obtain ⟨_, ts₂, hdecorators, h₂⟩ := bind_eq_ok.mp h₁
  obtain ⟨_, ts₃, hnamespace, h₃⟩ := bind_eq_ok.mp h₂
  obtain ⟨_, ts₄, himports, h₄⟩ := bind_eq_ok.mp h₃
  obtain ⟨rfl, rfl⟩ := pure_eq_ok.mp h₄
  clear h h₁ h₂ h₃ h₄
  obtain ⟨l, rfl, hl, -⟩ := (languageVersion?_obeys _).takes hlanguage
  obtain ⟨ws, rfl, hws, -⟩ := (decorators_obeys _).takes hdecorators
  have hdeck := namespaceLine_undecked hnamespace
  obtain ⟨n, rfl, hn, -⟩ := (namespaceLine_obeys _).takes hnamespace
  obtain ⟨o, is, rfl, his, ho⟩ := imports_yields himports hdeck
  exact ⟨o, l ++ (ws ++ (n ++ is)), by simp, by simpa using Header.intro hl hws hn his, ho⟩

theorem Imports.of_many {ws : List Word} {is : List Import}
    (h : Many (fun w i => ∃ o, ImportLine o w i) ws is) (before : Bool) :
    ∃ after, Imports before after ws is := by
  induction h generalizing before with
  | nil => exact ⟨before, .nil⟩
  | cons hi _ ih =>
    obtain ⟨o, hi⟩ := hi
    obtain ⟨after, his⟩ := ih o
    exact ⟨after, .cons hi his⟩

theorem header_obeys : Obeys header fun w front => ∃ o, Header o w front :=
  languageVersion?_obeys.bind fun _ _ hl => decorators_obeys.bind fun _ _ hd =>
    namespaceLine_obeys.bind fun _ id hn =>
      (Obeys.many (startsWith_headTest _) fun ts _ => importLine_obeys ts).bind fun _ _ his => by
        obtain ⟨o, his⟩ := Imports.of_many his id.version?.isNone
        exact .pure ⟨o, .intro hl hd hn his⟩

theorem declarations_obeys : Obeys declarations (Many DeclarationOf) := by
  refine .many ?_ fun ts _ => declaration_obeys ts
  rintro (_ | _) (_ | _) h <;> simp_all

/-- A document is read as the grammar says, and where it cannot be read further, what stands before
could still become one. -/
theorem model_obeys : Obeys model Document := by
  intro ts
  refine (header_obeys ts).bindAt (fun {w front} hw => ?_)
    fun {used front middle} hts hfront _ => ?_
  · obtain ⟨o, hw⟩ := hw
    exact ⟨[], { front with declarations := [] }, by simpa using Document.intro hw .nil (by simp)⟩
  · obtain ⟨o, used', hts', hheader, hdeck⟩ := header_yields _ _ _ hfront
    obtain rfl : used = used' := List.append_cancel_right (hts.symm.trans hts')
    have hdeclarations : ObeysAt middle declarations fun w ds =>
        Many DeclarationOf w ds ∧ (o = true → Stops [.mark .atSign] (kinds w)) := by
      cases o with
      | false => exact (declarations_obeys middle).mono fun _ _ h => ⟨h, by simp⟩
      | true =>
        exact ((declarations_obeys middle).starting (hdeck rfl) ⟨[], [], .nil, stops_nil⟩).mono
          fun _ _ h => ⟨h.1, fun _ => h.2⟩
    exact hdeclarations.bind fun _ _ h => .pure (.intro hheader h.1 h.2)

/-- A document is read to its end, and its tokens spell what it says. -/
theorem model_yields {ts rest : List Token} {m : Model} (h : model ts = .ok (m, rest)) :
    rest = [] ∧ Document (ts.map Token.word) m := by
  obtain ⟨used, rfl, hu, -⟩ := (model_obeys ts).takes h
  obtain ⟨_, _, -, h⟩ := bind_eq_ok.mp h
  obtain ⟨_, _, hdeclarations, h⟩ := bind_eq_ok.mp h
  obtain ⟨-, rfl⟩ := pure_eq_ok.mp h
  have hstop := many_stops hdeclarations fun _ _ _ =>
    declaration_obeys.progress fun hd => hd.starts.ne_nil
  obtain rfl := List.isEmpty_iff.mp (by simpa using hstop)
  exact ⟨rfl, by simpa using hu⟩

end Covenant.Reader
