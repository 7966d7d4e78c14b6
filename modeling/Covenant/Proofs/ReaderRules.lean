/-
How readers keep to the grammar. A reader obeys a phrase if the tokens it takes spell
its answer, if the tokens it has taken where it gives up are the beginning of something
that the phrase spells, and if in both cases nothing has a say behind the kind of the next
token (`Reader.Obeys`).

A numeral that names no number stops a reader as well. It does so where the phrase could
go on with a number of its kind, and wherever a number is taken.

There is one rule for each way of putting readers together (`Obeys.bind`,
`Obeys.many`), and one for each reader of a single token.
-/
import Covenant.Proofs.Grammar

namespace Covenant

/-- Whether a complaint is about the next token. An import of a single name is complained about
where its line starts. -/
def Expectation.ofNext : Expectation → Bool
  | .qualifiedImport _ => false
  | _ => true

namespace Reader

open Covenant.Number Phrase

variable {α β : Type}

/-! ## Readers one after the other -/

theorem bind_of_ok {p : Reader α} {f : α → Reader β} {ts middle : List Token} {a : α}
    (h : p ts = .ok (a, middle)) : (p >>= f) ts = f a middle := by
  simp only [bind, StateT.bind, Except.bind, h]

theorem bind_of_error {p : Reader α} {f : α → Reader β} {ts : List Token} {e : Failure}
    (h : p ts = .error e) : (p >>= f) ts = .error e := by
  simp only [bind, StateT.bind, Except.bind, h]

theorem bind_eq_ok {p : Reader α} {f : α → Reader β} {ts rest : List Token} {b : β} :
    (p >>= f) ts = .ok (b, rest) ↔ ∃ a middle, p ts = .ok (a, middle) ∧
      f a middle = .ok (b, rest) := by
  cases h : p ts with
  | error e => simp [bind_of_error h]
  | ok r =>
    obtain ⟨a, middle⟩ := r
    rw [bind_of_ok h]
    constructor
    · exact fun hf => ⟨a, middle, rfl, hf⟩
    · rintro ⟨a', middle', he, hf⟩
      cases he
      exact hf

theorem bind_eq_error {p : Reader α} {f : α → Reader β} {ts : List Token} {e : Failure} :
    (p >>= f) ts = .error e ↔
      p ts = .error e ∨ ∃ a middle, p ts = .ok (a, middle) ∧ f a middle = .error e := by
  cases h : p ts with
  | error e' => simp [bind_of_error h]
  | ok r =>
    obtain ⟨a, middle⟩ := r
    simp [bind_of_ok h, and_assoc]

theorem pure_eq_ok {a b : α} {ts rest : List Token} :
    (pure a : Reader α) ts = .ok (b, rest) ↔ a = b ∧ ts = rest := by
  change Except.ok (a, ts) = .ok (b, rest) ↔ _
  simp

/-! ## Answers that the next token settles -/

/-- The kind of the next token. -/
def nextKind (ts : List Token) : Option TokenKind :=
  ts.head?.map (·.kind)

@[simp] theorem nextKind_nil : nextKind [] = none := rfl

@[simp] theorem nextKind_cons (t : Token) (ts : List Token) :
    nextKind (t :: ts) = some t.kind := rfl

/-- Behind the tokens `used` and before a token of the kind `next` the reader gives its answer,
whatever stands further on. -/
def Settled (p : Reader α) (used : List Token) (next : Option TokenKind)
    (answer : List Token → Except Failure (α × List Token)) : Prop :=
  ∀ rest, nextKind rest = next → p (used ++ rest) = answer rest

theorem nextKind_append_congr {used rest other : List Token} (h : nextKind other = nextKind rest) :
    nextKind (used ++ other) = nextKind (used ++ rest) := by
  cases used with
  | nil => exact h
  | cons => rfl

theorem nextKind_append_cons {used rest others : List Token} {t t' : Token} (h : t'.kind = t.kind) :
    nextKind (used ++ t' :: others) = nextKind (used ++ t :: rest) :=
  nextKind_append_congr (by simp [h])

theorem Settled.bind {p : Reader α} {f : α → Reader β} {used more rest : List Token} {a : α}
    {answer : List Token → Except Failure (β × List Token)}
    (hp : Settled p used (nextKind (more ++ rest)) fun rest => .ok (a, rest))
    (hf : Settled (f a) more (nextKind rest) answer) :
    Settled (p >>= f) (used ++ more) (nextKind rest) answer := by
  intro other hother
  rw [List.append_assoc, bind_of_ok (hp _ (nextKind_append_congr hother))]
  exact hf other hother

theorem Settled.bind_error {p : Reader α} {f : α → Reader β} {used : List Token}
    {next : Option TokenKind} {failure : List Token → Failure}
    (hp : Settled p used next fun rest => .error (failure rest)) :
    Settled (p >>= f) used next fun rest => .error (failure rest) :=
  fun rest hrest => bind_of_error (hp rest hrest)

/-- How a reader gives up before `rest`: the next token settles it, or it complains about the import
that starts there. -/
inductive GivesUp (p : Reader α) (used rest : List Token) : Expectation → Prop
  | next {wanted : Expectation} : wanted.ofNext = true →
    Settled p used (nextKind rest) (fun rest => .error (.unexpected wanted rest)) →
    GivesUp p used rest wanted
  | line {part : String} : startsWith [.keyword .importKw] rest = true →
    GivesUp p used rest (.qualifiedImport part)

/-- A reader gives up as another does if it passes on what that one answers. -/
theorem GivesUp.trans {p : Reader α} {q : Reader β} {used more rest : List Token}
    {wanted : Expectation} (h : GivesUp p more rest wanted)
    (pass : ∀ {failure : List Token → Failure},
      Settled p more (nextKind rest) (fun rest => .error (failure rest)) →
      Settled q used (nextKind rest) fun rest => .error (failure rest)) :
    GivesUp q used rest wanted := by
  cases h with
  | next hnext hsettled => exact .next hnext (pass hsettled)
  | line hline => exact .line hline

theorem GivesUp.settled {p : Reader α} {used rest : List Token} {wanted : Expectation}
    (h : GivesUp p used rest wanted) (hw : ∀ part, wanted ≠ .qualifiedImport part) :
    Settled p used (nextKind rest) fun rest => .error (.unexpected wanted rest) := by
  cases h with
  | next _ hsettled => exact hsettled
  | line => exact absurd rfl (hw _)

theorem GivesUp.starts {p : Reader α} {used rest : List Token} {part : String}
    (h : GivesUp p used rest (.qualifiedImport part)) :
    startsWith [.keyword .importKw] rest = true := by
  cases h with
  | next hnext => cases hnext
  | line hline => exact hline

/-! ## Numerals -/

/-- The token is a numeral that names no number. -/
structure Nameless (t : Token) (e : NumeralError) : Prop where
  kind : t.kind ∈ numberKinds
  value : numberOf t = .error e

/-- Behind the tokens `used` the reader asks for a number: a numeral of the kind that names none
stops it, whatever stands further on. -/
def Asks (p : Reader α) (used : List Token) (k : TokenKind) : Prop :=
  ∀ t rest e, t.kind = k → Nameless t e → p (used ++ t :: rest) = .error (.numeral e)

/-- A token of two lists put together is one of the first or of the second. -/
theorem append_eq_append_cons {first second used more : List Token} {t : Token}
    (h : first ++ second = used ++ t :: more) :
    (∃ between, first = used ++ t :: between ∧ more = between ++ second) ∨
      ∃ between, used = first ++ between ∧ second = between ++ t :: more := by
  rcases List.append_eq_append_iff.mp h with ⟨between, hused, hsecond⟩ | ⟨between, hfirst, hmore⟩
  · exact .inr ⟨between, hused, hsecond⟩
  · cases between with
    | nil => exact .inr ⟨[], by simpa using hfirst.symm, by simpa using hmore.symm⟩
    | cons t' between =>
      obtain ⟨rfl, hrest⟩ := List.cons.inj hmore
      exact .inl ⟨between, hfirst, hrest⟩

/-! ## Readers that obey a phrase -/

/-- What a reader does at the tokens `ts` keeps to the phrase. -/
structure ObeysAt (ts : List Token) (p : Reader α) (phrase : Phrase α) : Prop where
  sample : ∃ w a, phrase w a
  takes : ∀ {a rest}, p ts = .ok (a, rest) → ∃ used, ts = used ++ rest ∧
    phrase (used.map Token.word) a ∧ Settled p used (nextKind rest) fun rest => .ok (a, rest)
  stops : ∀ {wanted rest}, p ts = .error (.unexpected wanted rest) → ∃ used, ts = used ++ rest ∧
    (∃ more a, phrase (used.map Token.word ++ more) a) ∧ GivesUp p used rest wanted
  /-- A numeral stops the reader where the phrase could go on with a number of its kind. -/
  refuses : ∀ {e}, p ts = .error (.numeral e) → ∃ used t rest, ts = used ++ t :: rest ∧
    Nameless t e ∧ ∃ text more a, phrase (used.map Token.word ++ ⟨t.kind, text⟩ :: more) a
  /-- Where the reader takes a number it asks for one. -/
  asks : ∀ {a used t more rest}, ts = used ++ t :: (more ++ rest) → p ts = .ok (a, rest) →
    t.kind ∈ numberKinds → Asks p used t.kind

def Obeys (p : Reader α) (phrase : Phrase α) : Prop :=
  ∀ ts, ObeysAt ts p phrase

/-- A reader obeys where it gives a settled answer that the phrase spells. -/
theorem ObeysAt.of_ok {p : Reader α} {phrase : Phrase α} {used rest : List Token} {a : α}
    (hu : phrase (used.map Token.word) a) (hplain : ∀ t ∈ used, t.kind ∉ numberKinds)
    (hsettled : Settled p used (nextKind rest) fun rest => .ok (a, rest)) :
    ObeysAt (used ++ rest) p phrase := by
  have hok := hsettled rest rfl
  refine ⟨⟨_, a, hu⟩, fun h => ?_, fun h => ?_, fun h => ?_, fun hts h hk => ?_⟩ <;>
    rw [hok] at h <;>
    cases h
  · exact ⟨used, rfl, hu, hsettled⟩
  · rw [← List.cons_append, ← List.append_assoc] at hts
    obtain rfl := List.append_cancel_right hts
    exact absurd hk (hplain _ (by simp))

/-- It obeys as well where it gives up before the next token on the way to something spelled. -/
theorem ObeysAt.of_error {p : Reader α} {phrase : Phrase α} {used rest : List Token}
    {wanted : Expectation}
    (hmore : ∃ more a, phrase (used.map Token.word ++ more) a) (hw : wanted.ofNext = true)
    (hsettled : Settled p used (nextKind rest) fun rest => .error (.unexpected wanted rest)) :
    ObeysAt (used ++ rest) p phrase := by
  have herror := hsettled rest rfl
  obtain ⟨more, a, ha⟩ := hmore
  refine ⟨⟨_, a, ha⟩, fun h => ?_, fun h => ?_, fun h => ?_, fun _ h _ => ?_⟩ <;>
    rw [herror] at h <;>
    cases h
  exact ⟨used, rfl, ⟨more, a, ha⟩, .next hw hsettled⟩

/-- A reader obeys if behind some tokens it goes on as one that does. -/
theorem ObeysAt.behind {p : Reader β} {q : Reader α} {used ts : List Token} {f : α → β}
    {first : Phrase α} {phrase : Phrase β} (h : ObeysAt ts q first)
    (hplain : ∀ t ∈ used, t.kind ∉ numberKinds)
    (goesOn : ∀ ts, p (used ++ ts) = (q ts).map fun (a, rest) => (f a, rest))
    (hphrase : ∀ {w a}, first w a → phrase (used.map Token.word ++ w) (f a)) :
    ObeysAt (used ++ ts) p phrase where
  sample := by
    obtain ⟨w, a, ha⟩ := h.sample
    exact ⟨_, _, hphrase ha⟩
  takes hok := by
    rw [goesOn] at hok
    cases hq : q ts with
    | error e => simp [hq, Except.map] at hok
    | ok r =>
      rw [hq] at hok
      cases hok
      obtain ⟨more, rfl, hm, hsettled⟩ := h.takes hq
      refine ⟨used ++ more, by simp, by simpa using hphrase hm, fun other hother => ?_⟩
      rw [List.append_assoc, goesOn, hsettled other hother]
      rfl
  stops hfail := by
    rw [goesOn] at hfail
    cases hq : q ts with
    | ok r => simp [hq, Except.map] at hfail
    | error e =>
      rw [hq] at hfail
      cases hfail
      obtain ⟨more, rfl, ⟨v, a, ha⟩, hstop⟩ := h.stops hq
      refine ⟨used ++ more, by simp, ⟨v, f a, by simpa using hphrase ha⟩,
        hstop.trans fun hs other hother => ?_⟩
      rw [List.append_assoc, goesOn, hs other hother]
      rfl
  refuses hfail := by
    rw [goesOn] at hfail
    cases hq : q ts with
    | ok r => simp [hq, Except.map] at hfail
    | error e =>
      rw [hq] at hfail
      cases hfail
      obtain ⟨more, t, rest, rfl, ht, text, v, a, ha⟩ := h.refuses hq
      exact ⟨used ++ more, t, rest, by simp, ht, text, v, f a, by simpa using hphrase ha⟩
  asks hts hok hk := by
    rw [goesOn] at hok
    cases hq : q ts with
    | error e => simp [hq, Except.map] at hok
    | ok r =>
      rw [hq] at hok
      cases hok
      rcases append_eq_append_cons hts with ⟨between, rfl, -⟩ | ⟨between, rfl, hsecond⟩
      · exact absurd hk (hplain _ (by simp))
      · intro t rest e ht hnameless
        rw [List.append_assoc, goesOn, h.asks hsecond hq hk t rest e ht hnameless]
        rfl

/-- The general rule for two readers: the second has to obey at the tokens that the first leaves. -/
theorem ObeysAt.bindAt {ts : List Token} {p : Reader α} {f : α → Reader β} {first : Phrase α}
    {phrase : Phrase β} (hp : ObeysAt ts p first)
    (complete : ∀ {w a}, first w a → ∃ v b, phrase (w ++ v) b)
    (hf : ∀ {used a middle}, ts = used ++ middle → p ts = .ok (a, middle) →
      first (used.map Token.word) a →
      ObeysAt middle (f a) fun v b => phrase (used.map Token.word ++ v) b) :
    ObeysAt ts (p >>= f) phrase where
  sample := by
    obtain ⟨w, a, ha⟩ := hp.sample
    obtain ⟨v, b, hb⟩ := complete ha
    exact ⟨w ++ v, b, hb⟩
  takes h := by
    obtain ⟨a, middle, ha, hb⟩ := bind_eq_ok.mp h
    obtain ⟨used, hts, hfirst, hused⟩ := hp.takes ha
    obtain ⟨more, rfl, hrest, hmore⟩ := (hf hts ha hfirst).takes hb
    exact ⟨used ++ more, by simp [hts], by simpa using hrest, hused.bind hmore⟩
  stops h := by
    rcases bind_eq_error.mp h with hfail | ⟨a, middle, ha, hfail⟩
    · obtain ⟨used, hts, ⟨more, a, ha⟩, hstop⟩ := hp.stops hfail
      obtain ⟨v, b, hb⟩ := complete ha
      exact ⟨used, hts, ⟨more ++ v, b, by simpa using hb⟩, hstop.trans fun hs => hs.bind_error⟩
    · obtain ⟨used, hts, hfirst, hused⟩ := hp.takes ha
      obtain ⟨more, rfl, ⟨v, b, hb⟩, hstop⟩ := (hf hts ha hfirst).stops hfail
      exact ⟨used ++ more, by simp [hts], ⟨v, b, by simpa using hb⟩,
        hstop.trans fun hs => hused.bind hs⟩
  refuses h := by
    rcases bind_eq_error.mp h with hfail | ⟨a, middle, ha, hfail⟩
    · obtain ⟨used, t, rest, hts, ht, text, more, a, ha⟩ := hp.refuses hfail
      obtain ⟨v, b, hb⟩ := complete ha
      exact ⟨used, t, rest, hts, ht, text, more ++ v, b, by simpa using hb⟩
    · obtain ⟨used, hts, hfirst, -⟩ := hp.takes ha
      obtain ⟨more, t, rest, rfl, ht, text, v, b, hb⟩ := (hf hts ha hfirst).refuses hfail
      exact ⟨used ++ more, t, rest, by simp [hts], ht, text, v, b, by simpa using hb⟩
  asks hts h hk := by
    obtain ⟨a, middle, ha, hb⟩ := bind_eq_ok.mp h
    obtain ⟨used, hts', hfirst, hused⟩ := hp.takes ha
    rcases append_eq_append_cons (hts'.symm.trans hts) with
      ⟨between, rfl, hmore⟩ | ⟨between, rfl, hmiddle⟩
    · intro t rest e ht hnameless
      exact bind_of_error (hp.asks (hmore ▸ hts) ha hk t rest e ht hnameless)
    · -- before the number the first reader sees a token of the same kind, so it answers the same
      intro t rest e ht hnameless
      have hnext : nextKind (between ++ t :: rest) = nextKind middle :=
        hmiddle ▸ nextKind_append_cons ht
      rw [List.append_assoc, bind_of_ok (hused _ hnext)]
      exact (hf hts' ha hfirst).asks hmiddle hb hk t rest e ht hnameless

theorem ObeysAt.bind {ts : List Token} {p : Reader α} {f : α → Reader β} {first : Phrase α}
    {phrase : Phrase β} (hp : ObeysAt ts p first)
    (hf : ∀ w a, first w a → Obeys (f a) fun v b => phrase (w ++ v) b) :
    ObeysAt ts (p >>= f) phrase :=
  hp.bindAt (fun h => (hf _ _ h []).sample) fun _ _ h => hf _ _ h _

theorem Obeys.bind {p : Reader α} {f : α → Reader β} {first : Phrase α} {phrase : Phrase β}
    (hp : Obeys p first) (hf : ∀ w a, first w a → Obeys (f a) fun v b => phrase (w ++ v) b) :
    Obeys (p >>= f) phrase :=
  fun ts => (hp ts).bind hf

theorem Obeys.pure {a : α} {phrase : Phrase α} (h : phrase [] a) : Obeys (pure a) phrase :=
  fun ts => @ObeysAt.of_ok _ _ _ [] ts a h (by simp) fun _ _ => rfl

theorem ObeysAt.mono {ts : List Token} {p : Reader α} {phrase wider : Phrase α}
    (h : ObeysAt ts p phrase) (hw : ∀ w a, phrase w a → wider w a) : ObeysAt ts p wider where
  sample := by
    obtain ⟨w, a, ha⟩ := h.sample
    exact ⟨w, a, hw w a ha⟩
  takes ha := by
    obtain ⟨used, hts, hu, hsettled⟩ := h.takes ha
    exact ⟨used, hts, hw _ _ hu, hsettled⟩
  stops hfail := by
    obtain ⟨used, hts, ⟨more, a, ha⟩, hstop⟩ := h.stops hfail
    exact ⟨used, hts, ⟨more, a, hw _ a ha⟩, hstop⟩
  refuses hfail := by
    obtain ⟨used, t, rest, hts, ht, text, more, a, ha⟩ := h.refuses hfail
    exact ⟨used, t, rest, hts, ht, text, more, a, hw _ a ha⟩
  asks := h.asks

theorem Obeys.mono {p : Reader α} {phrase wider : Phrase α} (h : Obeys p phrase)
    (hw : ∀ w a, phrase w a → wider w a) : Obeys p wider :=
  fun ts => (h ts).mono hw

theorem ObeysAt.map {ts : List Token} {p : Reader α} {f : α → β} {first : Phrase α}
    {phrase : Phrase β} (hp : ObeysAt ts p first) (h : ∀ w a, first w a → phrase w (f a)) :
    ObeysAt ts (f <$> p) phrase := by
  rw [map_eq_pure_bind]
  exact hp.bind fun w a ha => .pure (by simpa using h w a ha)

theorem Obeys.map {p : Reader α} {f : α → β} {first : Phrase α} {phrase : Phrase β}
    (hp : Obeys p first) (h : ∀ w a, first w a → phrase w (f a)) : Obeys (f <$> p) phrase :=
  fun ts => (hp ts).map h

/-- What comes next is known before a reader that looks at it goes on. -/
theorem ObeysAt.peek {ts : List Token} {f : Option TokenKind → Reader β} {phrase : Phrase β}
    (h : ObeysAt ts (f (nextKind ts)) phrase) : ObeysAt ts (peek >>= f) phrase := by
  have hpeek (other : List Token) : (Reader.peek >>= f) other = f (nextKind other) other :=
    bind_of_ok rfl
  -- behind the tokens that were taken the reader sees what it saw: they start with the same token
  have pass {used rest : List Token} (hts : ts = used ++ rest)
      {answer : List Token → Except Failure (β × List Token)}
      (hsettled : Settled (f (nextKind ts)) used (nextKind rest) answer) :
      Settled (Reader.peek >>= f) used (nextKind rest) answer := by
    intro other hother
    rw [hpeek, show nextKind (used ++ other) = nextKind ts from hts ▸ nextKind_append_congr hother]
    exact hsettled other hother
  refine ⟨h.sample, fun hb => ?_, fun hb => ?_, fun hb => ?_,
    fun {_ used _ _ _} hts hb hk => ?_⟩ <;> rw [hpeek] at hb
  · obtain ⟨used, hts, hu, hsettled⟩ := h.takes hb
    exact ⟨used, hts, hu, pass hts hsettled⟩
  · obtain ⟨used, hts, hmore, hstop⟩ := h.stops hb
    exact ⟨used, hts, hmore, hstop.trans (pass hts)⟩
  · exact h.refuses hb
  · intro t rest e ht hnameless
    have hnext : nextKind (used ++ t :: rest) = nextKind ts := hts ▸ nextKind_append_cons ht
    rw [hpeek, hnext]
    exact h.asks hts hb hk t rest e ht hnameless

theorem ObeysAt.fail {ts : List Token} {wanted : Expectation} {phrase : Phrase α}
    (sample : ∃ w a, phrase w a) (hw : wanted.ofNext = true) : ObeysAt ts (fail wanted) phrase :=
  @ObeysAt.of_error _ _ _ [] ts wanted sample hw fun _ _ => rfl

/-- What holds of the first token at hand holds of what is taken. -/
theorem ObeysAt.starting {ts : List Token} {p : Reader α} {phrase : Phrase α}
    {stops : List TokenKind} (h : ObeysAt ts p phrase) (hts : Stops stops (ts.map (·.kind)))
    (sample : ∃ w a, phrase w a ∧ Stops stops (kinds w)) :
    ObeysAt ts p fun w a => phrase w a ∧ Stops stops (kinds w) where
  sample := sample
  takes ha := by
    obtain ⟨used, rfl, hu, hsettled⟩ := h.takes ha
    refine ⟨used, rfl, ⟨hu, ?_⟩, hsettled⟩
    cases used with
    | nil => exact stops_nil
    | cons t used => exact hts
  stops hfail := by
    obtain ⟨used, rfl, ⟨more, a, ha⟩, hstop⟩ := h.stops hfail
    cases used with
    | nil => exact ⟨[], rfl, sample, hstop⟩
    | cons t used => exact ⟨t :: used, rfl, ⟨more, a, ha, hts⟩, hstop⟩
  refuses hfail := by
    obtain ⟨used, t, rest, rfl, ht, text, more, a, ha⟩ := h.refuses hfail
    refine ⟨used, t, rest, rfl, ht, text, more, a, ha, ?_⟩
    cases used <;> exact hts
  asks := h.asks

/-! ## Repetitions -/

/-- A test of the tokens to come that asks for the next one only. -/
def HeadTest (more : List Token → Bool) : Prop :=
  ∀ ts other, nextKind other = nextKind ts → more other = more ts

theorem startsWith_headTest (ks : List TokenKind) : HeadTest (startsWith ks) := by
  rintro (_ | _) (_ | _) h <;> simp_all [startsWith]

theorem goesOnBefore_headTest (k : TokenKind) : HeadTest (goesOnBefore k) := by
  rintro (_ | _) (_ | _) h <;> simp_all [goesOnBefore]

theorem length_lt_append_iff {used rest : List Token} :
    rest.length < (used ++ rest).length ↔ used ≠ [] := by
  rw [List.length_append, ← List.length_pos_iff]
  omega

section Repetition

variable {more : List Token → Bool} {item : Reader α} {ts used rest : List Token} {a : α}

theorem many_of_stop (h : more ts = false) : many more item ts = .ok ([], ts) := by
  rw [many, h]
  rfl

theorem many_of_error {e : Failure} (hmore : more ts = true) (hitem : item ts = .error e) :
    many more item ts = .error e := by
  rw [many, hmore, if_pos rfl, hitem]

/-- A repetition goes on behind an item that takes a token. -/
theorem many_of_item (hmore : more (used ++ rest) = true)
    (hitem : item (used ++ rest) = .ok (a, rest)) (hused : used ≠ []) :
    many more item (used ++ rest) = (many more item rest).map fun (as, last) =>
      (a :: as, last) := by
  rw [many, hmore, if_pos rfl, hitem]
  simp only [if_pos (length_lt_append_iff.mpr hused)]
  cases many more item rest <;> rfl

/-- An item that takes none ends it. -/
theorem many_of_stuck (hmore : more ts = true) (hitem : item ts = .ok (a, ts)) :
    many more item ts = .ok ([a], ts) := by
  rw [many, hmore, if_pos rfl, hitem]
  simp

end Repetition

section Repetition

variable {more : List Token → Bool} {item : Reader α} {phrase : Phrase α}

/-- Behind the tokens of an item the test sees what it saw. -/
theorem HeadTest.again (test : HeadTest more) {used rest other : List Token}
    (hmore : more (used ++ rest) = true) (hother : nextKind other = nextKind rest) :
    more (used ++ other) = true := by
  rw [test (used ++ rest) (used ++ other) (nextKind_append_congr hother), hmore]

theorem many_takes (test : HeadTest more) (h : ∀ ts, more ts = true → ObeysAt ts item phrase)
    {ts rest : List Token} {as : List α} (hok : many more item ts = .ok (as, rest)) :
    ∃ used, ts = used ++ rest ∧ Many phrase (used.map Token.word) as ∧
      Settled (many more item) used (nextKind rest) fun rest => .ok (as, rest) := by
  fun_induction many more item ts generalizing as rest with
  | case1 => cases hok
  | case2 => cases hok
  | case3 ts hmore a middle hitem hlt as last hmany ih =>
    cases hok
    obtain ⟨used, rfl, hu, hused⟩ := (h _ hmore).takes hitem
    obtain ⟨others, rfl, hos, hothers⟩ := ih hmany
    refine ⟨used ++ others, by simp, by simpa using Many.cons hu hos, fun other hother => ?_⟩
    have hnext := @nextKind_append_congr others _ _ hother
    rw [List.append_assoc, many_of_item (test.again hmore hnext) (hused _ hnext)
      (length_lt_append_iff.mp hlt), hothers other hother]
    rfl
  | case4 ts hmore a middle hitem hlt =>
    cases hok
    obtain ⟨used, rfl, hu, hused⟩ := (h _ hmore).takes hitem
    obtain rfl : used = [] := by simpa [length_lt_append_iff] using hlt
    exact ⟨[], rfl, by simpa using Many.cons hu .nil, fun other hother =>
      many_of_stuck (test.again hmore hother) (hused other hother)⟩
  | case5 ts hmore =>
    cases hok
    refine ⟨[], rfl, .nil, fun other hother => many_of_stop ?_⟩
    rw [List.nil_append, test _ _ hother]
    simpa using hmore

theorem many_givesUp (test : HeadTest more) (h : ∀ ts, more ts = true → ObeysAt ts item phrase)
    {ts rest : List Token} {wanted : Expectation}
    (hfail : many more item ts = .error (.unexpected wanted rest)) :
    ∃ used, ts = used ++ rest ∧ (∃ v as, Many phrase (used.map Token.word ++ v) as) ∧
      GivesUp (many more item) used rest wanted := by
  fun_induction many more item ts generalizing rest with
  | case1 ts hmore e hitem =>
    cases hfail
    obtain ⟨used, rfl, ⟨v, a, ha⟩, hstop⟩ := (h _ hmore).stops hitem
    refine ⟨used, rfl, ⟨v, [a], by simpa using Many.cons ha .nil⟩,
      hstop.trans fun hs other hother => ?_⟩
    exact many_of_error (test.again hmore hother) (hs other hother)
  | case2 ts hmore a middle hitem hlt e hmany ih =>
    cases hfail
    obtain ⟨used, rfl, hu, hused⟩ := (h _ hmore).takes hitem
    obtain ⟨others, rfl, ⟨v, as, has⟩, hstop⟩ := ih hmany
    refine ⟨used ++ others, by simp, ⟨v, a :: as, by simpa using Many.cons hu has⟩,
      hstop.trans fun hs other hother => ?_⟩
    have hnext := @nextKind_append_congr others _ _ hother
    rw [List.append_assoc, many_of_item (test.again hmore hnext) (hused _ hnext)
      (length_lt_append_iff.mp hlt), hs other hother]
    rfl
  | case3 => cases hfail
  | case4 => cases hfail
  | case5 => cases hfail

theorem many_refuses (h : ∀ ts, more ts = true → ObeysAt ts item phrase) {ts : List Token}
    {e : NumeralError} (hfail : many more item ts = .error (.numeral e)) :
    ∃ used t rest, ts = used ++ t :: rest ∧ Nameless t e ∧
      ∃ text v as, Many phrase (used.map Token.word ++ ⟨t.kind, text⟩ :: v) as := by
  fun_induction many more item ts with
  | case1 ts hmore _ hitem =>
    cases hfail
    obtain ⟨used, t, rest, rfl, ht, text, v, a, ha⟩ := (h _ hmore).refuses hitem
    exact ⟨used, t, rest, rfl, ht, text, v, [a], by simpa using Many.cons ha .nil⟩
  | case2 ts hmore a middle hitem _ _ hmany ih =>
    cases hfail
    obtain ⟨used, rfl, hu, -⟩ := (h _ hmore).takes hitem
    obtain ⟨others, t, rest, rfl, ht, text, v, as, has⟩ := ih hmany
    exact ⟨used ++ others, t, rest, by simp, ht, text, v, a :: as, by simpa using Many.cons hu has⟩
  | case3 => cases hfail
  | case4 => cases hfail
  | case5 => cases hfail

theorem many_asks (test : HeadTest more) (h : ∀ ts, more ts = true → ObeysAt ts item phrase)
    {ts used later rest : List Token} {t : Token} {as : List α}
    (hts : ts = used ++ t :: (later ++ rest)) (hok : many more item ts = .ok (as, rest))
    (hk : t.kind ∈ numberKinds) : Asks (many more item) used t.kind := by
  fun_induction many more item ts generalizing as used later rest with
  | case1 => cases hok
  | case2 => cases hok
  | case3 ts hmore a middle hitem hlt as last hmany ih =>
    cases hok
    intro t' others e ht hnameless
    have hagain : more (used ++ t' :: others) = true := by
      rw [← hmore, hts]
      exact test _ _ (nextKind_append_cons ht)
    obtain ⟨first, hfirst, -, hsettled⟩ := (h _ hmore).takes hitem
    rcases append_eq_append_cons (hfirst.symm.trans hts) with
      ⟨between, rfl, hlater⟩ | ⟨between, rfl, hmiddle⟩
    · exact many_of_error hagain ((h _ hmore).asks (hlater ▸ hts) hitem hk t' others e ht hnameless)
    · have hnext : nextKind (between ++ t' :: others) = nextKind middle :=
        hmiddle ▸ nextKind_append_cons ht
      have hnonempty : first ≠ [] := length_lt_append_iff.mp (hfirst ▸ hlt)
      rw [List.append_assoc] at hagain ⊢
      rw [many_of_item hagain (hsettled _ hnext) hnonempty,
        ih hmiddle hmany t' others e ht hnameless]
      rfl
  | case4 ts hmore a middle hitem hlt =>
    cases hok
    rw [hts] at hlt
    simp only [List.length_append, List.length_cons] at hlt
    omega
  | case5 ts =>
    cases hok
    have hlength := congrArg List.length hts
    simp only [List.length_append, List.length_cons] at hlength
    omega

/-- A repetition obeys if its items do. The items may rely on the test. -/
theorem Obeys.many (test : HeadTest more) (h : ∀ ts, more ts = true → ObeysAt ts item phrase) :
    Obeys (many more item) (Many phrase) :=
  fun _ => ⟨⟨[], [], .nil⟩, many_takes test h, many_givesUp test h, many_refuses h,
    many_asks test h⟩

end Repetition

/-- How a repetition runs from the tokens `ts` to those it leaves: it stops where the test fails,
or behind an item that takes nothing. -/
inductive Repeats (more : List Token → Bool) (item : Reader α) :
    List Token → List α → List Token → Prop
  | stop {ts : List Token} : more ts = false → Repeats more item ts [] ts
  | stuck {ts rest : List Token} {a : α} : more ts = true → item ts = .ok (a, rest) →
    ¬ rest.length < ts.length → Repeats more item ts [a] rest
  | step {ts middle rest : List Token} {a : α} {as : List α} : more ts = true →
    item ts = .ok (a, middle) → Repeats more item middle as rest →
    Repeats more item ts (a :: as) rest

theorem Repeats.of_many {more : List Token → Bool} {item : Reader α} {ts rest : List Token}
    {as : List α} (h : many more item ts = .ok (as, rest)) : Repeats more item ts as rest := by
  fun_induction many more item ts generalizing as rest with
  | case1 => cases h
  | case2 => cases h
  | case3 ts hmore a middle hitem _ as rest hmany ih =>
    cases h
    exact .step hmore hitem (ih hmany)
  | case4 ts hmore a rest hitem hlt =>
    cases h
    exact .stuck hmore hitem hlt
  | case5 ts hmore =>
    cases h
    exact .stop (by simpa using hmore)

/-- A repetition of items that each take a token ends where its test fails. -/
theorem many_stops {more : List Token → Bool} {item : Reader α} {ts rest : List Token}
    {as : List α} (h : many more item ts = .ok (as, rest))
    (progress : ∀ ts a rest, item ts = .ok (a, rest) → rest.length < ts.length) :
    more rest = false := by
  replace h := Repeats.of_many h
  induction h with
  | stop hend => exact hend
  | stuck _ hitem hlt => exact absurd (progress _ _ _ hitem) hlt
  | step _ _ _ ih => exact ih

/-- A reader takes a token if no value is spelled by nothing. -/
theorem Obeys.progress {p : Reader α} {phrase : Phrase α} (h : Obeys p phrase)
    (nonempty : ∀ {w a}, phrase w a → w ≠ []) {ts : List Token} {a : α} {rest : List Token}
    (ha : p ts = .ok (a, rest)) : rest.length < ts.length := by
  obtain ⟨used, rfl, hu, -⟩ := (h ts).takes ha
  exact length_lt_append_iff.mpr (by simpa using nonempty hu)

/-! ## Single tokens -/

theorem take_eq_ok {wanted : Expectation} {test : TokenKind → Bool}
    {ts rest : List Token} {t : Token} :
    take wanted test ts = .ok (t, rest) ↔ ts = t :: rest ∧ test t.kind = true := by
  cases ts with
  | nil => simp [take]
  | cons t' ts =>
    simp only [take]
    split
    · rename_i hk
      simp only [Except.ok.injEq, Prod.mk.injEq, List.cons.injEq]
      constructor
      · rintro ⟨rfl, rfl⟩
        exact ⟨⟨rfl, rfl⟩, hk⟩
      · exact fun h => h.1
    · rename_i hk
      simp only [reduceCtorEq, List.cons.injEq, false_iff, not_and]
      rintro ⟨rfl, rfl⟩
      exact hk

theorem take_eq_error {wanted : Expectation} {test : TokenKind → Bool} {ts : List Token}
    {e : Failure} :
    take wanted test ts = .error e ↔
      e = .unexpected wanted ts ∧ (nextKind ts).any test = false := by
  cases ts with
  | nil => simp [take, @eq_comm _ e]
  | cons t ts => by_cases ht : test t.kind = true <;> simp [take, ht, @eq_comm _ e]

/-- A token that is no numeral. -/
theorem take_obeys {wanted : Expectation} {test : TokenKind → Bool} {k : TokenKind}
    (hk : test k = true) (hw : wanted.ofNext = true) (hplain : numberKinds.any test = false) :
    Obeys (take wanted test) fun w t => w = [t.word] ∧ test t.kind = true := by
  intro ts
  by_cases hhead : (nextKind ts).any test = false
  · refine @ObeysAt.of_error _ _ _ [] ts _ ⟨_, ⟨k, "", .start⟩, rfl, hk⟩ hw fun other hother => ?_
    exact take_eq_error.mpr ⟨rfl, by rw [List.nil_append, hother, hhead]⟩
  · cases ts with
    | nil => simp at hhead
    | cons t rest =>
      have ht : test t.kind = true := by simpa using hhead
      refine @ObeysAt.of_ok _ _ _ [t] rest t ⟨rfl, ht⟩ (fun t' ht' hnumber => ?_)
        fun _ _ => take_eq_ok.mpr ⟨rfl, ht⟩
      obtain rfl := List.mem_singleton.mp ht'
      simp [List.any_eq_false.mp hplain _ hnumber] at ht

theorem expect_obeys {k : TokenKind} (hplain : k ∉ numberKinds) :
    Obeys (expect k) fun w t => t.kind = k ∧ Lone k w t.text := by
  have htest : [k].contains k = true := by simp
  have hnone : numberKinds.any [k].contains = false := by
    rw [List.any_eq_false]
    intro other hother hsame
    obtain rfl : other = k := by simpa using hsame
    exact hplain hother
  refine (take_obeys htest rfl hnone).mono fun w t ⟨hw, hk⟩ => ?_
  have hk : t.kind = k := by simpa using hk
  subst hw hk
  exact ⟨rfl, .intro t.text⟩

theorem expectText_obeys {k : TokenKind} (hplain : k ∉ numberKinds) :
    Obeys ((·.text) <$> expect k) (Lone k) :=
  (expect_obeys hplain).map fun _ _ h => h.2

theorem mark_not_number (m : Mark) : .mark m ∉ numberKinds := by
  simp [numberKinds]

theorem keyword_not_number (k : Keyword) : .keyword k ∉ numberKinds := by
  simp [numberKinds]

theorem expectMark_obeys (m : Mark) : Obeys (expectMark m) (Sign (.mark m)) :=
  (expect_obeys (mark_not_number m)).bind fun _ _ h => .pure (by simpa using h.2.sign)

theorem expectKeyword_obeys (k : Keyword) : Obeys (expectKeyword k) (Sign (.keyword k)) :=
  (expect_obeys (keyword_not_number k)).bind fun _ _ h => .pure (by simpa using h.2.sign)

/-- The next token, of which the kind has been looked at. -/
theorem next_obeys {wanted : Expectation} {ts : List Token} {k : TokenKind}
    (h : nextKind ts = some k) (hplain : k ∉ numberKinds) :
    ObeysAt ts (take wanted fun _ => true) fun w t => t.kind = k ∧ Lone k w t.text := by
  cases ts with
  | nil => cases h
  | cons t rest =>
    have hk : t.kind = k := by simpa using h
    subst hk
    exact @ObeysAt.of_ok _ _ _ [t] rest t ⟨rfl, .intro t.text⟩ (by simpa using hplain)
      fun _ _ => take_eq_ok.mpr ⟨rfl, rfl⟩

/-- A word of the kind, or none where another kind of word follows. -/
inductive Accepted (k : TokenKind) : Phrase Bool
  | yes {w : List Word} : Sign k w () → Accepted k w true
  | no : Accepted k [] false

theorem accept_of_head {k : TokenKind} {t : Token} (h : t.kind = k) (ts : List Token) :
    accept k (t :: ts) = .ok (true, ts) := by
  simp [accept, h]

theorem accept_of_stops {k : TokenKind} {ts : List Token} (h : Stops [k] (ts.map (·.kind))) :
    accept k ts = .ok (false, ts) := by
  cases ts with
  | nil => rfl
  | cons t ts => simp_all [accept]

theorem exists_of_not_stops {k : TokenKind} {ts : List Token} (h : ¬ Stops [k] (ts.map (·.kind))) :
    ∃ t rest, ts = t :: rest ∧ t.kind = k := by
  cases ts with
  | nil => simp at h
  | cons t rest => exact ⟨t, rest, rfl, by simpa using h⟩

theorem accept_eq_false {k : TokenKind} {ts rest : List Token}
    (h : accept k ts = .ok (false, rest)) :
    rest = ts ∧ Stops [k] (ts.map (·.kind)) := by
  by_cases hstops : Stops [k] (ts.map (·.kind))
  · rw [accept_of_stops hstops] at h
    cases h
    exact ⟨rfl, hstops⟩
  · obtain ⟨t, ts, rfl, hk⟩ := exists_of_not_stops hstops
    rw [accept_of_head hk] at h
    cases h

theorem stops_congr {stops : List TokenKind} {rest other : List Token}
    (h : nextKind other = nextKind rest) :
    Stops stops (other.map (·.kind)) ↔ Stops stops (rest.map (·.kind)) := by
  have hheads : (other.map (·.kind)).head? = (rest.map (·.kind)).head? := by
    rw [List.head?_map, List.head?_map]
    exact h
  simp only [Stops, hheads]

theorem sign_of_kind {t : Token} {k : TokenKind} (h : t.kind = k) : Sign k [t.word] () :=
  h ▸ .intro t.text

theorem accept_obeys {k : TokenKind} (hplain : k ∉ numberKinds) :
    Obeys (accept k) (Accepted k) := by
  intro ts
  by_cases hstops : Stops [k] (ts.map (·.kind))
  · exact @ObeysAt.of_ok _ _ _ [] ts _ .no (by simp) fun other hother =>
      accept_of_stops ((stops_congr hother).mpr hstops)
  · obtain ⟨t, rest, rfl, hk⟩ := exists_of_not_stops hstops
    exact @ObeysAt.of_ok _ _ _ [t] rest _ (.yes (sign_of_kind hk)) (by simpa [hk] using hplain)
      fun other _ => accept_of_head hk other

theorem acceptMark_obeys (m : Mark) : Obeys (acceptMark m) (Accepted (.mark m)) :=
  accept_obeys (mark_not_number m)

theorem acceptKeyword_obeys (k : Keyword) : Obeys (acceptKeyword k) (Accepted (.keyword k)) :=
  accept_obeys (keyword_not_number k)

theorem commaSeparated_obeys {item : Reader α} {phrase : Phrase α} (h : Obeys item phrase) :
    Obeys (commaSeparated item) (Listed phrase) := by
  refine h.bind fun _ _ ha => ?_
  have comma : Obeys (do expectMark .comma; item) (Marked .comma phrase) :=
    (expectMark_obeys .comma).bind fun _ _ hv => h.mono fun _ _ ha => .intro hv ha
  exact (Obeys.many (startsWith_headTest _) fun ts _ => comma ts).bind fun _ _ has =>
    .pure (.intro ha has)

end Reader

end Covenant
