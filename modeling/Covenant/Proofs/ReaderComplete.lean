/-
Readers accept all that the grammar spells: tokens that spell a value are read as
that value, whatever their places (`Reader.model_reads`).

What a reader does depends on what follows, so every statement names the kinds
that must not follow. They are the kinds with which the phrase could go on; inside
the grammar they never do, since no phrase starts with a kind on which the one
before it could go on. Documents are the exception, see `Phrase.Document`.
-/
import Covenant.Proofs.ReaderSound

namespace Covenant.Reader

open Covenant.Number Phrase

variable {α β : Type}

/-! ## Readers put together -/

/-- Tokens that spell the words are read as `a` where tokens of the kinds `follow` come next. -/
def Reads (p : Reader α) (ws : List Word) (a : α) (follow : List TokenKind) : Prop :=
  ∀ ts rest : List Token, ts.map Token.word = ws → rest.map (·.kind) = follow →
    p (ts ++ rest) = .ok (a, rest)

theorem map_kind (ts : List Token) : ts.map (·.kind) = kinds (ts.map Token.word) := by
  simp [kinds, Function.comp_def, Token.word]

theorem Reads.pure {a : α} {follow : List TokenKind} : Reads (pure a) [] a follow := by
  intro ts rest hts _
  obtain rfl := List.map_eq_nil_iff.mp hts
  rfl

theorem Reads.bind {p : Reader α} {f : α → Reader β} {w v : List Word} {a : α} {b : β}
    {follow : List TokenKind} (hp : Reads p w a (kinds v ++ follow)) (hf : Reads (f a) v b follow) :
    Reads (p >>= f) (w ++ v) b follow := by
  intro ts rest hts hrest
  obtain ⟨ts₁, ts₂, rfl, h₁, h₂⟩ := List.map_eq_append_iff.mp hts
  refine bind_eq_ok.mpr ⟨a, ts₂ ++ rest, ?_, hf ts₂ rest h₂ hrest⟩
  rw [List.append_assoc]
  exact hp ts₁ _ h₁ (by rw [List.map_append, map_kind, h₂, hrest])

theorem Reads.map {p : Reader α} {f : α → β} {ws : List Word} {a : α} {follow : List TokenKind}
    (hp : Reads p ws a follow) : Reads (f <$> p) ws (f a) follow := by
  have both := Reads.bind (f := fun a => Pure.pure (f a)) (v := []) hp .pure
  rwa [List.append_nil, ← map_eq_pure_bind] at both

/-- A reader that looks ahead sees the first word, or what follows if there is none. -/
theorem Reads.peek {f : Option TokenKind → Reader β} {ws : List Word} {b : β}
    {follow : List TokenKind} (h : Reads (f (kinds ws ++ follow).head?) ws b follow) :
    Reads (peek >>= f) ws b follow := by
  intro ts rest hts hrest
  refine bind_eq_ok.mpr ⟨_, ts ++ rest, rfl, ?_⟩
  have next : (ts ++ rest).head?.map (·.kind) = (kinds ws ++ follow).head? := by
    rw [← List.head?_map, List.map_append, map_kind, hts, hrest]
  rw [next]
  exact h ts rest hts hrest

/-- A test of the tokens to come that asks for their kinds only. -/
def KindTest (more : List Token → Bool) (test : List TokenKind → Bool) : Prop :=
  ∀ ts, more ts = test (ts.map (·.kind))

theorem Reads.many_nil {more : List Token → Bool} {test : List TokenKind → Bool} {item : Reader α}
    {follow : List TokenKind} (hmore : KindTest more test) (hend : test follow = false) :
    Reads (Reader.many more item) [] [] follow := by
  intro ts rest hts hrest
  obtain rfl := List.map_eq_nil_iff.mp hts
  rw [Reader.many, List.nil_append, hmore, hrest, hend]
  rfl

theorem Reads.many_cons {more : List Token → Bool} {test : List TokenKind → Bool} {item : Reader α}
    {w ws : List Word} {a : α} {as : List α} {follow : List TokenKind} (hmore : KindTest more test)
    (nonempty : w ≠ []) (passes : test (kinds w ++ (kinds ws ++ follow)) = true)
    (hitem : Reads item w a (kinds ws ++ follow))
    (hmany : Reads (Reader.many more item) ws as follow) :
    Reads (Reader.many more item) (w ++ ws) (a :: as) follow := by
  intro ts rest hts hrest
  obtain ⟨ts₁, ts₂, rfl, rfl, h₂⟩ := List.map_eq_append_iff.mp hts
  have hkinds : (ts₂ ++ rest).map (·.kind) = kinds ws ++ follow := by
    rw [List.map_append, map_kind, h₂, hrest]
  have hpass : more (ts₁ ++ (ts₂ ++ rest)) = true := by
    rw [hmore, List.map_append, hkinds, map_kind]
    exact passes
  rw [List.append_assoc, many_of_item hpass (hitem ts₁ _ rfl hkinds) (by simpa using nonempty),
    hmany ts₂ rest h₂ hrest]
  rfl

/-- A repetition reads its items: each passes the test, and each may follow another. -/
theorem Reads.many {more : List Token → Bool} {test : List TokenKind → Bool} {item : Reader α}
    {phrase : Phrase α} (stops : List TokenKind) (hmore : KindTest more test)
    (nonempty : ∀ {w a}, phrase w a → w ≠ [])
    (passes : ∀ {w a} (follow), phrase w a → test (kinds w ++ follow) = true)
    (follows : ∀ {w a} (follow), phrase w a → Stops stops (kinds w ++ follow))
    (reads : ∀ {w a follow}, phrase w a → Stops stops follow → Reads item w a follow)
    {ws : List Word} {as : List α} {follow : List TokenKind} (h : Many phrase ws as)
    (hstops : Stops stops follow) (hend : test follow = false) :
    Reads (Reader.many more item) ws as follow := by
  induction h with
  | nil => exact .many_nil hmore hend
  | @cons w ws a as hw hws ih =>
    have hnext : Stops stops (kinds ws ++ follow) := by
      cases hws with
      | nil => exact hstops
      | cons hv _ =>
        rw [kinds_append, List.append_assoc]
        exact follows _ hv
    exact .many_cons hmore (nonempty hw) (passes _ hw) (reads hw hnext) ih

theorem startsWith_kindTest (ks : List TokenKind) :
    KindTest (startsWith ks) fun follow => follow.head?.any ks.contains := by
  intro ts
  cases ts <;> rfl

theorem goesOnBefore_kindTest (k : TokenKind) :
    KindTest (goesOnBefore k) fun follow => follow.head?.any (· ≠ k) := by
  intro ts
  cases ts <;> rfl

/-- A repetition of phrases that start with a word of the kinds. -/
theorem Reads.manyStarting {item : Reader α} {phrase : Phrase α} {ks : List TokenKind}
    (stops : List TokenKind) {first : TokenKind → Prop}
    (starts : ∀ {w a}, phrase w a → Starts first w) (go : ∀ k, first k → k ∈ ks ∧ k ∉ stops)
    (reads : ∀ {w a follow}, phrase w a → Stops stops follow → Reads item w a follow)
    {ws : List Word} {as : List α} {follow : List TokenKind} (h : Many phrase ws as)
    (hs : Stops (ks ++ stops) follow) : Reads (Reader.many (startsWith ks) item) ws as follow := by
  have hend : follow.head?.any ks.contains = false := by
    cases follow with
    | nil => rfl
    | cons k follow => simpa using fun hk => stops_cons.mp hs (List.mem_append_left _ hk)
  exact Reads.many stops (startsWith_kindTest ks) (fun h => (starts h).ne_nil)
    (fun follow h => (starts h).any follow fun k hk => (go k hk).1)
    (fun follow h => (starts h).stops (fun k hk => (go k hk).2) follow) reads h
    (hs.mono (List.subset_append_right ..)) hend

/-- A repetition up to a closing word. -/
theorem Reads.manyBefore {item : Reader α} {phrase : Phrase α} {close : TokenKind}
    (stops : List TokenKind) {first : TokenKind → Prop}
    (starts : ∀ {w a}, phrase w a → Starts first w) (go : ∀ k, first k → k ≠ close ∧ k ∉ stops)
    (reads : ∀ {w a follow}, phrase w a → Stops stops follow → Reads item w a follow)
    {ws : List Word} {as : List α} {follow : List TokenKind} (h : Many phrase ws as)
    (hs : close ∉ stops) :
    Reads (Reader.many (goesOnBefore close) item) ws as (close :: follow) := by
  refine Reads.many stops (goesOnBefore_kindTest close) (fun h => (starts h).ne_nil)
    (fun follow h => ?_) (fun follow h => (starts h).stops (fun k hk => (go k hk).2) follow) reads h
    (by simpa using hs) (by simp)
  obtain ⟨w, rest, rfl, ht⟩ := starts h
  simpa using (go _ ht).1

/-! ## Single tokens -/

/-- A reader that takes a token goes on with any token that makes the word. -/
theorem take_reads {wanted : Expectation} {test : TokenKind → Bool} {w : Word} {vs : List Word}
    {f : Token → Reader β} {b : β} {follow : List TokenKind} (h : test w.kind = true)
    (hf : ∀ t : Token, t.word = w → Reads (f t) vs b follow) :
    Reads (take wanted test >>= f) (w :: vs) b follow := by
  intro ts rest hts hrest
  obtain ⟨t, ts, rfl, rfl, hvs⟩ := List.map_eq_cons_iff.mp hts
  exact bind_eq_ok.mpr ⟨t, ts ++ rest, take_eq_ok.mpr ⟨rfl, h⟩, hf t rfl ts rest hvs hrest⟩

theorem next_reads {wanted : Expectation} {k : TokenKind} {w vs : List Word} {f : Token → Reader β}
    {b : β} {follow : List TokenKind} (h : Sign k w ())
    (hf : ∀ t : Token, t.kind = k → Reads (f t) vs b follow) :
    Reads ((take wanted fun _ => true) >>= f) (w ++ vs) b follow := by
  obtain ⟨text⟩ := h
  exact take_reads rfl fun t ht => hf t (congrArg Word.kind ht)

theorem expect_reads {k : TokenKind} {w v : List Word} {text : String}
    {f : Token → Reader β} {b : β} {follow : List TokenKind} (h : Lone k w text)
    (hf : ∀ t : Token, t.kind = k → t.text = text → Reads (f t) v b follow) :
    Reads (expect k >>= f) (w ++ v) b follow := by
  obtain ⟨⟩ := h
  refine take_reads (by simp) fun t ht => ?_
  obtain ⟨hk, htext⟩ := Word.mk.injEq .. ▸ ht
  exact hf t hk htext

theorem expectText_reads {k : TokenKind} {w : List Word} {text : String} {follow : List TokenKind}
    (h : Lone k w text) : Reads ((·.text) <$> expect k) w text follow := by
  rw [map_eq_pure_bind, ← List.append_nil w]
  refine expect_reads h fun t _ ht => ?_
  rw [ht]
  exact .pure

theorem expectMark_reads {m : Mark} {w : List Word} {follow : List TokenKind}
    (h : Sign (.mark m) w ()) : Reads (expectMark m) w () follow := by
  obtain ⟨text, hl⟩ := h.lone
  simpa [expectMark] using expect_reads (v := []) hl fun _ _ _ => Reads.pure

theorem expectKeyword_reads {k : Keyword} {w : List Word} {follow : List TokenKind}
    (h : Sign (.keyword k) w ()) : Reads (expectKeyword k) w () follow := by
  obtain ⟨text, hl⟩ := h.lone
  simpa [expectKeyword] using expect_reads (v := []) hl fun _ _ _ => Reads.pure

theorem accept_reads {k : TokenKind} {w : List Word} {follow : List TokenKind} (h : Sign k w ()) :
    Reads (accept k) w true follow := by
  intro ts rest hts _
  obtain ⟨text⟩ := h
  obtain ⟨t, rfl, ht⟩ := List.map_eq_singleton_iff.mp hts
  exact accept_of_head (congrArg Word.kind ht) rest

theorem accept_passes {k : TokenKind} {follow : List TokenKind} (h : Stops [k] follow) :
    Reads (accept k) [] false follow := by
  intro ts rest hts hrest
  obtain rfl := List.map_eq_nil_iff.mp hts
  exact accept_of_stops (hrest ▸ h)

theorem commaSeparated_reads {item : Reader α} {phrase : Phrase α} (stops : List TokenKind)
    (hcomma : .mark .comma ∉ stops)
    (reads : ∀ {w a follow}, phrase w a → Stops stops follow → Reads item w a follow)
    {ws : List Word} {as : List α} {follow : List TokenKind} (h : Listed phrase ws as)
    (hs : Stops (.mark .comma :: stops) follow) : Reads (commaSeparated item) ws as follow := by
  obtain ⟨ha, has⟩ := h
  have others : Reads (many (startsWith [.mark .comma]) do expectMark .comma; item) _ _ follow :=
    Reads.manyStarting stops (fun h => h.starts) (by simpa using hcomma)
      (fun h hs => by
        obtain ⟨hc, ha⟩ := h
        exact (expectMark_reads hc).bind (reads ha hs)) has hs
  have first : Stops stops (kinds _ ++ follow) :=
    has.stops (fun h => h.starts) (by simpa using hcomma) (hs.mono (List.subset_cons_self ..))
  exact (reads ha (by simpa using first)).bind (others.bind .pure)

/-! ## Names and literals -/

theorem name_reads {w : List Word} {n : String} {follow : List TokenKind} (h : Name w n) :
    Reads name w n follow := by
  obtain ⟨hn⟩ := h
  rw [name, map_eq_pure_bind]
  refine take_reads hn fun t ht => ?_
  subst ht
  exact .pure

theorem pointedName_reads {w : List Word} {n : String} {follow : List TokenKind} (h : Pointed w n) :
    Reads pointedName w n follow := by
  obtain ⟨hd, hn⟩ := h
  exact (expectMark_reads hd).bind (name_reads hn)

theorem dottedName_reads {w : List Word} {n : String} {follow : List TokenKind} (h : Dotted w n)
    (hs : Stops [.mark .dot] follow) : Reads dottedName w n follow := by
  obtain ⟨hn, hns⟩ := h
  have others : Reads (many (startsWith [.mark .dot]) pointedName) _ _ follow :=
    Reads.manyStarting [] (fun h => h.starts) (by simp) (fun h _ => pointedName_reads h) hns hs
  exact (name_reads hn).bind (others.bind .pure)

theorem identifier_reads {w : List Word} {n : String} {follow : List TokenKind}
    (h : Lone .identifier w n) : Reads identifier w n follow :=
  expectText_reads h

theorem ofNumeral_reads {outcome : Except NumeralError α} {a : α} {follow : List TokenKind}
    (h : outcome = .ok a) : Reads (ofNumeral outcome) [] a follow := by
  intro ts rest hts _
  obtain rfl := List.map_eq_nil_iff.mp hts
  simp [ofNumeral, h]

theorem number_reads {w : List Word} {n : Number} {follow : List TokenKind} (h : Numeral w n) :
    Reads number w n follow := by
  cases h with
  | int hw hn =>
    obtain ⟨⟩ := hw
    refine take_reads (by simp [numberKinds]) fun t ht => ?_
    obtain ⟨hk, htext⟩ := Word.mk.injEq .. ▸ ht
    refine ofNumeral_reads ?_
    rw [numberOf, hk, htext, hn]
    rfl
  | float hw hn =>
    obtain ⟨⟩ := hw
    refine take_reads (by simp [numberKinds]) fun t ht => ?_
    obtain ⟨hk, htext⟩ := Word.mk.injEq .. ▸ ht
    refine ofNumeral_reads ?_
    rw [numberOf, hk, htext, hn]
    rfl

/-- The text of the next token, whatever it is. -/
theorem nextText_reads {wanted : Expectation} {k : TokenKind} {w : List Word} {text : String}
    {follow : List TokenKind} (h : Lone k w text) :
    Reads ((·.text) <$> take wanted fun _ => true) w text follow := by
  obtain ⟨⟩ := h
  rw [map_eq_pure_bind]
  refine take_reads rfl fun t ht => ?_
  obtain ⟨-, htext⟩ := Word.mk.injEq .. ▸ ht
  rw [htext]
  exact .pure

theorem literal_reads {w : List Word} {v : Literal} {follow : List TokenKind} (h : Value w v) :
    Reads literal w v follow := by
  refine Reads.peek ?_
  cases h with
  | identifier hw =>
    obtain ⟨⟩ := hw
    exact (nextText_reads (.intro _)).map
  | constant hc =>
    cases hc with
    | text hw =>
      obtain ⟨⟩ := hw
      exact (nextText_reads (.intro _)).map
    | number hn =>
      obtain ⟨⟨k, text⟩, rest, rfl, rfl | rfl⟩ := hn.starts
      · exact (number_reads hn).map
      · exact (number_reads hn).map
    | yes hw =>
      obtain ⟨text⟩ := hw
      exact (expectKeyword_reads (.intro text)).bind (v := []) .pure
    | no hw =>
      obtain ⟨text⟩ := hw
      exact (expectKeyword_reads (.intro text)).bind (v := []) .pure

theorem bound_reads {stop : Mark} {w : List Word} {n : Option Number} {follow : List TokenKind}
    (h : Bound w n) : Reads (bound stop) w n (.mark stop :: follow) := by
  refine Reads.peek ?_
  cases h with
  | absent => simpa using Reads.pure
  | present hn =>
    have hne : (kinds w ++ .mark stop :: follow).head? ≠ some (.mark stop) := by
      obtain ⟨⟨k, text⟩, rest, rfl, rfl | rfl⟩ := hn.starts <;> simp
    rw [if_neg hne]
    exact (number_reads hn).map

theorem bounds_reads {w : List Word} {b : Bounds} {follow : List TokenKind} (h : Range w b) :
    Reads bounds w b follow := by
  obtain ⟨hl, hlo, ⟨tc⟩, hhi, ⟨tr⟩⟩ := h
  exact (expectMark_reads hl).bind ((bound_reads hlo).bind ((expectMark_reads (.intro tc)).bind
    ((bound_reads hhi).bind ((expectMark_reads (.intro tr)).bind .pure))))

/-! ## Decorators -/

theorem brackets_reads {w : List Word} {b : Bool} {follow : List TokenKind} (h : Brackets w b)
    (hs : Stops [.mark .leftBracket] follow) : Reads brackets w b follow := by
  cases h with
  | absent => exact Reads.bind (w := []) (v := []) (accept_passes hs) .pure
  | present hl hr => exact (accept_reads hl).bind ((expectMark_reads hr).bind .pure)

/-- What may go on behind an argument. -/
def argumentStops : List TokenKind :=
  [.mark .dot, .mark .leftBracket]

theorem decoratorArgument_reads {w : List Word} {v : Literal} {follow : List TokenKind}
    (h : Argument w v) (hs : Stops argumentStops follow) : Reads decoratorArgument w v follow := by
  refine Reads.peek ?_
  cases h with
  | constant hc =>
    have hl : Reads literal w v follow := literal_reads (.constant hc)
    obtain ⟨⟨k, text⟩, rest, rfl, hk⟩ := hc.starts
    simp only [constantKinds, List.mem_cons, List.not_mem_nil, or_false] at hk
    rcases hk with rfl | rfl | rfl | rfl | rfl <;> exact hl
  | @type w b name isArray hw ht hb =>
    have hnext : Stops [.mark .dot] (kinds [b].flatten ++ follow) := by
      cases hb with
      | absent => exact hs.mono (by simp [argumentStops])
      | present hl _ =>
        obtain ⟨text⟩ := hl
        simp
    have hread := (dottedName_reads hw hnext).bind
      (f := fun typeName => do
        return Literal.text (if ← brackets then typeName ++ "[]" else typeName))
      ((brackets_reads hb (hs.mono (by simp [argumentStops]))).bind .pure)
    obtain ⟨⟨k, text⟩, rest, rfl, hk⟩ := hw.starts
    have hyes : k ≠ .keyword .trueKw := fun h => stops_cons.mp ht (by simp [truthWords, h])
    have hno : k ≠ .keyword .falseKw := fun h => stops_cons.mp ht (by simp [truthWords, h])
    simp only [List.flatten_cons, kinds_append, kinds_cons, List.cons_append, List.head?_cons]
    split
    · simp_all [isName]
    · simp_all [isName]
    · simp_all [isName]
    · simp_all
    · simp_all
    · exact hread

theorem decoratorArguments_reads {w : List Word} {vs : List Literal} {follow : List TokenKind}
    (h : Arguments w vs) (hs : Stops [.mark .leftParen] follow) :
    Reads decoratorArguments w vs follow := by
  cases h with
  | absent => exact Reads.bind (w := []) (v := []) (accept_passes hs) .pure
  | empty hl hr => exact (accept_reads hl).bind ((accept_reads hr).bind .pure)
  | @present l ws r vs hl hvs hr =>
    obtain ⟨text⟩ := hr
    have inner : Reads (commaSeparated decoratorArgument) ws vs (.mark .rightParen :: follow) :=
      commaSeparated_reads _ (by simp [argumentStops])
        (fun h hs => decoratorArgument_reads h hs) hvs (by simp [argumentStops])
    have skip : Stops [.mark .rightParen]
        (kinds (ws ++ [⟨.mark .rightParen, text⟩]) ++ follow) := by
      refine ((hvs.starts fun h => h.starts).append _).stops ?_ follow
      rintro k (hk | hk) <;> revert hk
      · revert k
        simp [constantKinds]
      · cases k <;> simp [isName]
    refine (accept_reads hl).bind ?_
    refine Reads.bind (w := []) (accept_passes skip) ?_
    exact inner.bind ((expectMark_reads (.intro text)).bind .pure)

/-- What may go on behind decorators. -/
def decoratorStops : List TokenKind :=
  [.mark .atSign, .mark .leftParen]

theorem decorator_reads {w : List Word} {d : Decorator} {follow : List TokenKind}
    (h : DecoratorOf w d) (hs : Stops [.mark .leftParen] follow) : Reads decorator w d follow := by
  obtain ⟨ha, hn, hv⟩ := h
  exact (expectMark_reads ha).bind
    ((name_reads hn).bind ((decoratorArguments_reads hv hs).bind .pure))

theorem decorators_reads {ws : List Word} {ds : List Decorator} {follow : List TokenKind}
    (h : Decorators ws ds) (hs : Stops decoratorStops follow) : Reads decorators ws ds follow :=
  Reads.manyStarting _ (fun h => h.starts) (by simp) (fun h hs => decorator_reads h hs) h hs

/-! ## Namespaces and imports -/

theorem version?_reads {w : List Word} {v : Option String} {follow : List TokenKind}
    (h : Version w v)
    (hs : v.isNone = true → Stops [.mark .atSign] follow) : Reads version? w v follow := by
  cases h with
  | absent => exact Reads.bind (w := []) (v := []) (accept_passes (hs rfl)) .pure
  | present ha hv =>
    refine (accept_reads ha).bind (expect_reads hv fun t _ ht => ?_)
    rw [ht]
    exact .pure

theorem namespaceLine_reads {w : List Word} {id : Namespace} {follow : List TokenKind}
    (h : NamespaceLine w id) (hs : id.version?.isNone = true → Stops [.mark .atSign] follow)
    (hd : id.version?.isNone = true → Stops [.mark .dot] follow) :
    Reads namespaceLine w id follow := by
  obtain ⟨hw, hn, hv⟩ := h
  refine (expectKeyword_reads hw).bind
    ((dottedName_reads hn ?_).bind ((version?_reads hv hs).bind .pure))
  cases hv with
  | absent => exact hd rfl
  | present ha _ =>
    obtain ⟨text⟩ := ha
    simp

theorem importScope_reads {w : List Word} {scope : ImportScope} {follow : List TokenKind}
    (h : Scope w scope) : Reads importScope w scope follow := by
  cases h with
  | type hn =>
    have hs {m : Mark} : Stops [.mark m] (kinds (w ++ []) ++ follow) :=
      stops_of_starts_name (hn.starts.append []) follow
    rw [← List.append_nil w]
    exact Reads.bind (w := []) (accept_passes hs)
      (Reads.bind (w := []) (accept_passes hs) ((name_reads hn).bind .pure))
  | closed hc =>
    cases hc with
    | star hw =>
      rw [← List.append_nil w]
      exact (accept_reads hw).bind .pure
    | braces hl hns hr =>
      obtain ⟨tl⟩ := hl
      obtain ⟨tr⟩ := hr
      have names : Reads (commaSeparated name) _ _ (.mark .rightBrace :: follow) :=
        commaSeparated_reads [] (by simp) (fun h _ => name_reads h) hns (by simp)
      refine Reads.bind (w := []) (accept_passes (by simp)) ?_
      exact (accept_reads (.intro tl)).bind (names.bind ((expectMark_reads (.intro tr)).bind .pure))

/-- Whether a point and a part of a name follow, by kinds. -/
def namePartKinds : List TokenKind → Bool
  | point :: next :: _ => point = .mark .dot && next ≠ .mark .star && next ≠ .mark .leftBrace
  | [point] => point = .mark .dot
  | [] => false

theorem namePartFollows_kindTest : KindTest namePartFollows namePartKinds := by
  rintro (_ | ⟨_, _ | _⟩) <;> rfl

theorem nameParts_reads {ws : List Word} {ns : List String} {follow : List TokenKind}
    (h : Many Pointed ws ns) (hend : namePartKinds follow = false) :
    Reads (many namePartFollows pointedName) ws ns follow := by
  refine Reads.many [] namePartFollows_kindTest (fun h => h.starts.ne_nil) ?_
    (fun _ h => h.starts.stops (by simp) _) (fun h _ => pointedName_reads h) h
      (by simp [Stops]) hend
  rintro w n follow ⟨⟨text⟩, ⟨hn⟩⟩
  simp only [kinds_cons, kinds_nil, List.cons_append, List.nil_append, namePartKinds, decide_true,
    Bool.true_and, Bool.and_eq_true, decide_eq_true_eq]
  constructor <;> intro hk <;> simp [hk, isName] at hn

theorem importTarget_reads {start : List Token} {o : Bool} {w : List Word}
    {r : Namespace × ImportScope} {follow : List TokenKind} (h : Target o w r)
    (hs : o = true → Stops [.mark .atSign] follow) (hd : Stops [.mark .dot] follow) :
    Reads (importTarget start) w r follow := by
  cases h with
  | @versioned _ _ _ _ _ _ _ version _ _ hw hws ha hv hdot hscope =>
    obtain ⟨ta⟩ := ha
    obtain ⟨⟩ := hv
    have hversion : Version [⟨.mark .atSign, ta⟩, ⟨.version, version⟩] (some version) :=
      .present (.intro ta) (.intro version)
    refine (name_reads hw).bind ((nameParts_reads hws (by simp [namePartKinds])).bind ?_)
    refine Reads.bind (w := [_, _]) (version?_reads hversion (by simp)) ?_
    exact (expectMark_reads hdot).bind ((importScope_reads hscope).bind .pure)
  | closed hw hws hdot hscope =>
    obtain ⟨td⟩ := hdot
    refine (name_reads hw).bind ((nameParts_reads hws ?_).bind ?_)
    · obtain ⟨⟨_, _⟩, _, rfl, rfl | rfl⟩ := hscope.starts <;> simp [namePartKinds]
    · refine Reads.bind (w := []) (version?_reads .absent (by simp)) ?_
      exact (accept_reads (.intro td)).bind ((importScope_reads (.closed hscope)).bind .pure)
  | plain hw hws hlast =>
    refine (name_reads hw).bind ((nameParts_reads hws ?_).bind ?_)
    · cases follow with
      | nil => rfl
      | cons k follow =>
        have : k ≠ .mark .dot := by simpa using hd
        cases follow <;> simp [namePartKinds, this]
    · refine Reads.bind (w := []) (version?_reads .absent fun _ => hs rfl) ?_
      refine Reads.bind (w := []) (accept_passes hd) ?_
      simp only [Bool.false_eq_true, if_false, hlast]
      exact .pure

theorem Reads.get {f : List Token → Reader β} {ws : List Word} {b : β} {follow : List TokenKind}
    (h : ∀ ts, Reads (f ts) ws b follow) : Reads (get >>= f) ws b follow :=
  fun ts rest hts hrest => bind_eq_ok.mpr ⟨ts ++ rest, ts ++ rest, rfl, h _ ts rest hts hrest⟩

/-- What may go on behind an import, a mark that opens a version apart. -/
def importStops : List TokenKind :=
  [.mark .dot, .keyword .fromKw]

theorem importLine_reads {o : Bool} {w : List Word} {i : Import} {follow : List TokenKind}
    (h : ImportLine o w i) (hs : o = true → Stops [.mark .atSign] follow)
    (hi : Stops importStops follow) : Reads importLine w i follow := by
  refine Reads.get fun start => ?_
  cases h with
  | here hw ht =>
    refine (expectKeyword_reads hw).bind ?_
    refine (importTarget_reads ht hs (hi.mono (by simp [importStops]))).bind ?_
    exact Reads.bind (w := []) (accept_passes (hi.mono (by simp [importStops]))) .pure
  | located hw ht hf hu =>
    obtain ⟨tf⟩ := hf
    refine (expectKeyword_reads hw).bind ?_
    refine (importTarget_reads ht (by simp) (by simp)).bind ?_
    refine (accept_reads (.intro tf)).bind (expect_reads hu fun t _ htext => ?_)
    rw [htext]
    exact .pure

theorem imports_reads {before after : Bool} {ws : List Word} {is : List Import}
    {follow : List TokenKind} (h : Imports before after ws is)
    (hs : after = true → Stops [.mark .atSign] follow)
    (hi : Stops (.keyword .importKw :: importStops) follow) :
    Reads (many (startsWith [.keyword .importKw]) importLine) ws is follow := by
  induction h with
  | nil =>
    refine .many_nil (startsWith_kindTest _) ?_
    cases follow with
    | nil => rfl
    | cons k follow =>
      simpa using fun hk : k = .keyword .importKw => stops_cons.mp hi (by simp [hk])
  | @cons before o after w ws i is hw hws ih =>
    refine .many_cons (startsWith_kindTest _) hw.starts.ne_nil
      (hw.starts.any _ (by simp)) ?_ (ih hs)
    cases hws with
    | nil => exact importLine_reads hw hs (hi.mono (List.subset_cons_self ..))
    | @cons _ _ _ _ vs _ _ hv _ =>
      have hnext := hv.starts.append vs
      exact importLine_reads hw (fun _ => hnext.stops (by simp) _)
        (hnext.stops (by simp [importStops]) _)

/-! ## Properties -/

theorem valueModifier_reads {w : List Word} {m : Modifier} {follow : List TokenKind}
    (h : ValueModifier w m) : Reads modifier w m follow := by
  cases h with
  | default hw he hv =>
    refine next_reads hw fun t ht => ?_
    rw [ht]
    exact (expectMark_reads he).bind ((literal_reads hv).bind .pure)
  | pattern hw he hv =>
    refine next_reads hw fun t ht => ?_
    rw [ht]
    refine (expectMark_reads he).bind (expect_reads hv fun t _ htext => ?_)
    rw [htext]
    exact .pure
  | range hw he hv =>
    refine next_reads hw fun t ht => ?_
    rw [ht]
    exact (expectMark_reads he).bind ((bounds_reads hv).bind .pure)
  | length hw he hv =>
    refine next_reads hw fun t ht => ?_
    rw [ht]
    exact (expectMark_reads he).bind ((bounds_reads hv).bind .pure)

theorem modifier_reads {w : List Word} {m : Modifier} {follow : List TokenKind}
    (h : ModifierOf w m) : Reads modifier w m follow := by
  cases h with
  | value hv => exact valueModifier_reads hv
  | optional hw =>
    rw [← List.append_nil w]
    refine next_reads hw fun t ht => ?_
    rw [ht]
    exact .pure

/-- The reader of a mark goes on with any token of its kind. -/
theorem propertyMark_reads {w vs : List Word} {isRelationship : Bool} {f : Token → Reader β} {b : β}
    {follow : List TokenKind} (h : Marker w isRelationship)
    (hf : ∀ t : Token, decide (t.kind = .mark .arrow) = isRelationship → Reads (f t) vs b follow) :
    Reads (expectOneOf propertyMarks >>= f) (w ++ vs) b follow := by
  cases h with
  | value hw =>
    obtain ⟨tw⟩ := hw
    refine take_reads rfl fun t ht => hf t ?_
    rw [show t.kind = .keyword .field from congrArg Word.kind ht]
    rfl
  | relationship hw =>
    obtain ⟨tw⟩ := hw
    refine take_reads rfl fun t ht => hf t ?_
    rw [show t.kind = .mark .arrow from congrArg Word.kind ht]
    rfl

/-- The words that open a modifier. -/
abbrev modifierWords : List TokenKind :=
  .keyword .optional :: valueModifiers

theorem property_reads {w : List Word} {p : Property} {follow : List TokenKind} (h : PropertyOf w p)
    (hs : Stops modifierWords follow) : Reads property w p follow := by
  obtain ⟨hd, hm, ht, hb, hn, hms⟩ := h
  have modifiers : Reads (many (startsWith modifierWords) modifier) _ _ follow :=
    Reads.manyStarting [] (fun h => h.starts) (by simp) (fun h _ => modifier_reads h) hms
      (by simpa using hs)
  refine (decorators_reads hd ?_).bind (propertyMark_reads hm fun t hk => ?_)
  · exact (hm.starts.append _).stops (by simp [decoratorStops]) follow
  · refine (dottedName_reads ht ?_).bind ((brackets_reads hb ?_).bind ?_)
    · cases hb with
      | absent => exact stops_of_starts_name (hn.starts.append _) follow
      | present hl _ =>
        obtain ⟨text⟩ := hl
        simp
    · exact stops_of_starts_name (hn.starts.append _) follow
    · rw [← hk]
      exact (name_reads hn).bind (modifiers.bind .pure)

/-! ## Declarations -/

/-- What may go on behind a clause. -/
def clauseStops : List TokenKind :=
  [.keyword .byKw, .mark .dot]

theorem clause_reads {w : List Word} {c : Clause} {follow : List TokenKind} (h : ClauseOf w c)
    (hs : Stops clauseStops follow) : Reads clause w c follow := by
  cases h with
  | system hw =>
    rw [← List.append_nil w]
    refine (accept_reads hw).bind ?_
    exact Reads.bind (w := []) (accept_passes (hs.mono (by simp [clauseStops]))) .pure
  | property hw hb hn =>
    exact (accept_reads hw).bind ((accept_reads hb).bind ((name_reads hn).bind .pure))
  | subtype hw hn =>
    obtain ⟨text⟩ := hw
    refine Reads.bind (w := []) (accept_passes (by simp)) ?_
    refine (expectKeyword_reads (.intro text)).bind ((dottedName_reads hn ?_).bind .pure)
    exact hs.mono (by simp [clauseStops])

theorem enumerationValue_reads {w : List Word} {n : String} {follow : List TokenKind}
    (h : EnumerationValue w n) : Reads enumerationValue w n follow := by
  obtain ⟨hd, ⟨text⟩, hn⟩ := h
  have value : Reads name _ _ follow := name_reads hn
  have read := (decorators_reads hd (by simp [decoratorStops])).bind
    (f := fun _ => do expectKeyword .field; name) ((expectKeyword_reads (.intro text)).bind value)
  simpa [enumerationValue] using read

theorem mapEntry_reads {w : List Word} {n : String} {follow : List TokenKind} (h : MapEntry w n)
    (hs : Stops [.mark .dot, .identifier] follow) : Reads mapEntry w n follow := by
  cases h with
  | plain hn =>
    rw [← List.append_nil w]
    refine (dottedName_reads hn (hs.mono (by simp))).bind ?_
    exact Reads.bind (w := []) (accept_passes (hs.mono (by simp))) .pure
  | named hn hv =>
    obtain ⟨⟩ := hv
    exact (dottedName_reads hn (by simp)).bind ((accept_reads (.intro _)).bind .pure)

theorem enumeration_reads {ds : List Decorator} {w n l vs r : List Word} {name : String}
    {values : List String} {follow : List TokenKind} (hw : Sign (.keyword .enum) w ())
    (hn : Lone .identifier n name) (hl : Sign (.mark .leftBrace) l ())
    (hv : Many EnumerationValue vs values) (hr : Sign (.mark .rightBrace) r ()) :
    Reads (enumeration ds) [w, n, l, vs, r].flatten ⟨name, .enumeration values, ds⟩ follow := by
  obtain ⟨tr⟩ := hr
  have inner : Reads (many (goesOnBefore (.mark .rightBrace)) enumerationValue) vs values
      (.mark .rightBrace :: follow) :=
    Reads.manyBefore [] (fun h => h.starts) (by simp)
      (fun h _ => enumerationValue_reads h) hv (by simp)
  exact (expectKeyword_reads hw).bind ((identifier_reads hn).bind ((expectMark_reads hl).bind
    (inner.bind ((expectMark_reads (.intro tr)).bind .pure))))

theorem scalar_reads {ds : List Decorator} {w n e b ms : List Word} {name base : String}
    {modifiers : List Modifier} {follow : List TokenKind} (hw : Sign (.keyword .scalar) w ())
    (hn : Lone .identifier n name) (he : Sign (.keyword .extendsKw) e ())
    (hb : Lone .identifier b base) (hm : Many ValueModifier ms modifiers)
    (hs : Stops valueModifiers follow) :
    Reads (scalar ds) [w, n, e, b, ms].flatten ⟨name, .scalar base, ds⟩ follow := by
  have inner : Reads (many (startsWith valueModifiers) modifier) ms modifiers follow :=
    Reads.manyStarting [] (fun h => h.starts) (by simp) (fun h _ => valueModifier_reads h) hm
      (by simpa using hs)
  exact (expectKeyword_reads hw).bind ((identifier_reads hn).bind ((expectKeyword_reads he).bind
    ((identifier_reads hb).bind (inner.bind .pure))))

theorem map_reads {ds : List Decorator} {w n l o k m v r : List Word} {name key value : String}
    {isRelationship : Bool} {follow : List TokenKind} (hw : Sign (.keyword .map) w ())
    (hn : Lone .identifier n name) (hl : Sign (.mark .leftBrace) l ())
    (ho : Sign (.keyword .field) o ()) (hk : MapEntry k key) (hm : Marker m isRelationship)
    (hv : MapEntry v value) (hr : Sign (.mark .rightBrace) r ()) :
    Reads (map ds) [w, n, l, o, k, m, v, r].flatten ⟨name, .map key value, ds⟩ follow := by
  obtain ⟨tr⟩ := hr
  have hnext : Stops [.mark .dot, .identifier]
      (kinds (m ++ [v, [⟨.mark .rightBrace, tr⟩]].flatten) ++ follow) :=
    (hm.starts.append _).stops (by simp) follow
  refine (expectKeyword_reads hw).bind ((identifier_reads hn).bind ((expectMark_reads hl).bind
    ((expectKeyword_reads ho).bind ((mapEntry_reads hk hnext).bind
      (propertyMark_reads hm fun _ _ => ?_)))))
  exact (mapEntry_reads hv (by simp)).bind ((expectMark_reads (.intro tr)).bind .pure)

theorem classRest_reads {ds : List Decorator} {kind : ClassKind} {isAbstract : Bool}
    {n cs l ps r : List Word} {name : String} {clauses : List Clause} {properties : List Property}
    {follow : List TokenKind} (hn : Lone .identifier n name) (hc : Many ClauseOf cs clauses)
    (hl : Sign (.mark .leftBrace) l ()) (hp : Many PropertyOf ps properties)
    (hr : Sign (.mark .rightBrace) r ()) :
    Reads (classRest kind isAbstract ds) [n, cs, l, ps, r].flatten
      ⟨name, .classBody { clauses.foldl Clause.apply { kind, isAbstract } with properties }, ds⟩
        follow := by
  obtain ⟨tl⟩ := hl
  obtain ⟨tr⟩ := hr
  have head {follow : List TokenKind} :
      Reads (many (startsWith [.keyword .identified, .keyword .extendsKw]) clause) cs clauses
        (.mark .leftBrace :: follow) :=
    Reads.manyStarting _ (fun h => h.starts) (by simp [clauseStops])
      (fun h hs => clause_reads h hs) hc (by simp [clauseStops])
  have inner : Reads (many (goesOnBefore (.mark .rightBrace)) property) ps properties
      (.mark .rightBrace :: follow) :=
    Reads.manyBefore _ (fun h => h.starts) (by simp [valueModifiers])
      (fun h hs => property_reads h hs) hp (by simp [valueModifiers])
  exact (identifier_reads hn).bind (head.bind ((expectMark_reads (.intro tl)).bind
    (inner.bind ((expectMark_reads (.intro tr)).bind .pure))))

theorem declaration_reads {w : List Word} {d : Declaration} {follow : List TokenKind}
    (h : DeclarationOf w d) (hs : Stops valueModifiers follow) : Reads declaration w d follow := by
  obtain ⟨hd, hb⟩ := h
  refine (decorators_reads hd ?_).bind ?_
  · exact (hb.starts.append []).stops (by simp [decoratorStops, declarationWords]) follow
  rw [List.flatten_cons, List.flatten_nil, List.append_nil]
  cases hb with
  | ofClass ha hk hn hc hl hp hr =>
    obtain ⟨hkind⟩ := hk
    cases ha with
    | absent =>
      refine Reads.bind (w := []) (accept_passes ?_) (Reads.peek ?_)
      · rw [List.flatten_cons]
        simpa using fun hw => by simp [hw, classKind?] at hkind
      · simp only [List.flatten_cons, List.nil_append, List.cons_append, kinds_cons,
          List.head?_cons, Option.bind_some, hkind]
        exact take_reads rfl fun _ _ => classRest_reads hn hc hl hp hr
    | present hw =>
      refine (accept_reads hw).bind (Reads.peek ?_)
      simp only [List.flatten_cons, List.cons_append, kinds_cons, List.head?_cons,
        Option.bind_some, hkind]
      exact take_reads rfl fun _ _ => classRest_reads hn hc hl hp hr
  | enumeration hw hn hl hv hr =>
    obtain ⟨tw⟩ := hw
    refine Reads.bind (w := []) (accept_passes (by simp)) (Reads.peek ?_)
    exact enumeration_reads (.intro tw) hn hl hv hr
  | scalar hw hn he hb hm =>
    obtain ⟨tw⟩ := hw
    refine Reads.bind (w := []) (accept_passes (by simp)) (Reads.peek ?_)
    exact scalar_reads (.intro tw) hn he hb hm hs
  | map hw hn hl ho hk hm hv hr =>
    obtain ⟨tw⟩ := hw
    refine Reads.bind (w := []) (accept_passes (by simp)) (Reads.peek ?_)
    exact map_reads (.intro tw) hn hl ho hk hm hv hr

/-! ## Documents -/

theorem languageVersion?_reads {w : List Word} {v : Option String} {follow : List TokenKind}
    (h : Language w v) (hs : Stops [.keyword .concerto] follow) :
    Reads languageVersion? w v follow := by
  cases h with
  | absent => exact Reads.bind (w := []) (v := []) (accept_passes hs) .pure
  | present hc hv ht =>
    refine (accept_reads hc).bind
      ((expectKeyword_reads hv).bind (expect_reads ht fun t _ htext => ?_))
    rw [htext]
    exact .pure

/-- What may go on behind the header, a mark that opens a version apart. -/
def headerStops : List TokenKind :=
  .keyword .importKw :: importStops

theorem header_reads {o : Bool} {w : List Word} {front : Model} {follow : List TokenKind}
    (h : Header o w front) (ho : o = true → Stops [.mark .atSign] follow)
    (hs : Stops headerStops follow) : Reads header w front follow := by
  obtain ⟨hl, hd, hn, hi⟩ := h
  refine (languageVersion?_reads hl ?_).bind ((decorators_reads hd ?_).bind
    ((namespaceLine_reads hn ?_ ?_).bind ((imports_reads hi ho hs).bind .pure)))
  · exact (Many.starts_append hd (fun h => h.starts) (hn.starts.append _)).stops (by simp) follow
  · exact (hn.starts.append _).stops (by simp [decoratorStops]) follow
  · intro hv
    rw [List.flatten_cons, kinds_append, List.append_assoc]
    exact hi.stops (by simp) fun hsame => ho (hsame ▸ hv)
  · intro _
    rw [List.flatten_cons, kinds_append, List.append_assoc]
    exact hi.stops (by simp) fun _ => hs.mono (by simp [headerStops, importStops])

/-- Declarations follow a header. -/
theorem declarations_follow {ws : List Word} {ds : List Declaration} {follow : List TokenKind}
    (h : Many DeclarationOf ws ds) (hs : Stops headerStops follow) :
    Stops headerStops (kinds ws ++ follow) :=
  h.stops (fun h => h.starts) (by simp [headerStops, importStops, declarationWords]) hs

theorem declarations_reads {ws : List Word} {ds : List Declaration} (h : Many DeclarationOf ws ds) :
    Reads declarations ws ds [] := by
  have htest : KindTest (fun ts => !ts.isEmpty) fun follow => !follow.isEmpty := by
    rintro (_ | _) <;> rfl
  refine Reads.many _ htest (fun h => h.starts.ne_nil) ?_
    (fun _ h => h.starts.stops (by simp [valueModifiers, declarationWords]) _)
    (fun h hs => declaration_reads h hs) h (by simp) rfl
  · intro w d follow h
    obtain ⟨_, _, rfl, -⟩ := h.starts
    rfl

/-- Tokens that spell a document are read as that document. -/
theorem model_reads {w : List Word} {m : Model} (h : Document w m) : Reads model w m [] := by
  obtain ⟨hheader, hds, ho⟩ := h
  refine (header_reads hheader ?_ ?_).bind ((declarations_reads hds).bind .pure)
  · simpa using ho
  · simpa using declarations_follow hds stops_nil

end Covenant.Reader

namespace Covenant

instance decidableEqExcept {ε α : Type} [DecidableEq ε] [DecidableEq α] : DecidableEq (Except ε α)
  | .ok a, .ok b => decidable_of_iff (a = b) (by simp)
  | .error e, .error f => decidable_of_iff (e = f) (by simp)
  | .ok _, .error _ => .isFalse (by simp)
  | .error _, .ok _ => .isFalse (by simp)

/-- The models that tokens are read as are those that their words spell. -/
theorem Model.ofTokens_eq_ok {stream : TokenStream} {m : Model} :
    Model.ofTokens stream = .ok m ↔ Phrase.Document (stream.tokens.map Token.word) m := by
  constructor
  · intro h
    unfold Model.ofTokens at h
    split at h
    · rename_i hread
      cases h
      exact (Reader.model_yields hread).2
    · cases h
    · split at h <;> cases h
  · intro h
    have hread := Reader.model_reads h stream.tokens [] rfl rfl
    rw [List.append_nil] at hread
    simp [Model.ofTokens, hread]

theorem Model.read_eq_ok {source : String} {m : Model} :
    Model.read source = .ok m ↔ ∃ stream, tokenize source = .ok stream ∧
      Phrase.Document (stream.tokens.map Token.word) m := by
  unfold Model.read
  cases htokens : tokenize source with
  | error e => simp
  | ok stream => simp [Model.ofTokens_eq_ok]

end Covenant
