/-
A fault of grammar is found at the first token that cannot be continued. Up to there
the stream could still become a document, and whatever stands behind has no part in the
complaint (`Model.ofTokens_first_fault`). The one complaint that is made elsewhere is
that about an import of a single name, which is made where the import starts.

The end of a stream counts as its last item: it is what a complaint is about if the
tokens run out.
-/
import Covenant.Proofs.ReaderComplete

namespace Covenant

/-! ## Streams as lists of items -/

/-- What a reader comes upon: a token, or the end. -/
inductive StreamItem where
  | token (t : Token)
  | finish (place : Position)
deriving DecidableEq, Repr

namespace StreamItem

/-- The text of an item as complaints give it. -/
def text : StreamItem → String
  | token t => t.text
  | finish _ => ""

def position : StreamItem → Position
  | token t => t.position
  | finish place => place

/-- The tokens and then the end. -/
def ofTokens (tokens : List Token) (place : Position) : List StreamItem :=
  tokens.map token ++ [finish place]

/-- The first item. -/
def next (tokens : List Token) (place : Position) : StreamItem :=
  (tokens.head?.map token).getD (finish place)

theorem next_inj {tokens tokens' : List Token} {place place' : Position}
    (h : next tokens place = next tokens' place') :
    tokens.head? = tokens'.head? := by
  cases tokens <;> cases tokens' <;> simp_all [next]

theorem getElem?_ofTokens (used rest : List Token) (place : Position) :
    (ofTokens (used ++ rest) place)[used.length]? = some (next rest place) := by
  cases rest <;> simp [ofTokens, next]

theorem take_ofTokens (used rest : List Token) (place : Position) :
    (ofTokens (used ++ rest) place).take used.length = used.map token := by
  simp [ofTokens]

theorem take_succ_ofTokens (used rest : List Token) (place : Position) :
    (ofTokens (used ++ rest) place).take
      (used.length + 1) = used.map token ++ [next rest place] := by
  rw [List.take_add_one, take_ofTokens, getElem?_ofTokens]
  rfl

/-- Items that start with the given tokens come from tokens that do. -/
theorem exists_of_take {used tokens : List Token} {place : Position} {item : StreamItem}
    (h : (ofTokens tokens place).take (used.length + 1) = used.map token ++ [item]) :
    ∃ rest, tokens = used ++ rest ∧ next rest place = item := by
  induction used generalizing tokens with
  | nil => cases tokens <;> simp_all [ofTokens, next]
  | cons u used ih =>
    cases tokens with
    | nil => simp [ofTokens] at h
    | cons t tokens =>
      simp only [ofTokens, List.length_cons, List.map_cons, List.cons_append, List.take_succ_cons,
        List.cons.injEq, token.injEq] at h
      obtain ⟨rfl, h⟩ := h
      obtain ⟨rest, rfl, hnext⟩ := ih h
      exact ⟨rest, rfl, hnext⟩

end StreamItem

namespace TokenStream

def items (stream : TokenStream) : List StreamItem :=
  StreamItem.ofTokens stream.tokens stream.finish

/-- The first `n` items are those of a stream that can be read. -/
def Continuable (stream : TokenStream) (n : Nat) : Prop :=
  ∃ (other : TokenStream) (m : Model), other.items.take n = stream.items.take n ∧
    Model.ofTokens other = .ok m

/-- The complaint is made about the item of the index: reading ends before it, and it is the item
that the complaint names. -/
structure FaultAt (stream : TokenStream) (i : Nat) (e : GrammarError) : Prop where
  reading : Reader.model stream.tokens = .error (.unexpected e.wanted (stream.tokens.drop i))
  item : ∃ item, stream.items[i]? = some item ∧ item.text = e.found ∧ item.position = e.position

theorem Continuable.mono {stream : TokenStream} {n fewer : Nat} (h : stream.Continuable n)
    (hn : fewer ≤ n) : stream.Continuable fewer := by
  obtain ⟨other, m, hitems, hread⟩ := h
  refine ⟨other, m, ?_, hread⟩
  have hfewer := congrArg (List.take fewer) hitems
  rwa [List.take_take, List.take_take, Nat.min_eq_left hn] at hfewer

/-- Words are made by tokens. -/
theorem exists_tokens (ws : List Word) : ∃ ts : List Token, ts.map Token.word = ws :=
  ⟨ws.map fun w => ⟨w.kind, w.text, .start⟩, by simp [Function.comp_def, Token.word]⟩

/-- A stream whose first tokens spell the beginning of a document can be continued behind them. -/
theorem continuable_of_document {stream : TokenStream} {used rest : List Token} {more : List Word}
    {m : Model} (htokens : stream.tokens = used ++ rest)
    (h : Phrase.Document (used.map Token.word ++ more) m) : stream.Continuable used.length := by
  obtain ⟨continued, rfl⟩ := exists_tokens more
  rw [← List.map_append] at h
  refine ⟨⟨used ++ continued, stream.finish⟩, m, ?_, Model.ofTokens_eq_ok.mpr h⟩
  rw [items, items, htokens, StreamItem.take_ofTokens, StreamItem.take_ofTokens]

end TokenStream

/-! ## Complaints -/

theorem Model.ofTokens_eq_grammar {stream : TokenStream} {e : GrammarError} :
    Model.ofTokens stream = .error (.grammar e) ↔
      ∃ rest, Reader.model stream.tokens = .error (.unexpected e.wanted rest) ∧
        (StreamItem.next rest stream.finish).text = e.found ∧
        (StreamItem.next rest stream.finish).position = e.position := by
  obtain ⟨wanted, found, position⟩ := e
  unfold Model.ofTokens
  cases Reader.model stream.tokens with
  | ok r => simp
  | error failure =>
    cases failure with
    | numeral e => simp
    | unexpected wanted' rest =>
      cases rest <;> simp [StreamItem.next, StreamItem.text, StreamItem.position, and_assoc]

/-- A complaint that the next token settles is made about every stream with the same items up to
there. -/
theorem Model.ofTokens_same_complaint {stream other : TokenStream} {used rest : List Token}
    {e : GrammarError} (htokens : stream.tokens = used ++ rest)
    (hsettled : Reader.Settled Reader.model used (Reader.nextKind rest) fun rest =>
      .error (.unexpected e.wanted rest))
    (hfound : (StreamItem.next rest stream.finish).text = e.found)
    (hposition : (StreamItem.next rest stream.finish).position = e.position)
    (hitems : other.items.take (used.length + 1) = stream.items.take (used.length + 1)) :
    Model.ofTokens other = .error (.grammar e) := by
  rw [TokenStream.items, TokenStream.items, htokens, StreamItem.take_succ_ofTokens] at hitems
  obtain ⟨rest', hother, hnext⟩ := StreamItem.exists_of_take hitems
  rw [← hnext] at hfound hposition
  refine Model.ofTokens_eq_grammar.mpr ⟨rest', ?_, hfound, hposition⟩
  rw [hother]
  exact hsettled rest' (congrArg (Option.map _) (StreamItem.next_inj hnext))

/-- A complaint is made about the first item that cannot be continued: what stands before it is the
beginning of a document, and every stream that has the same items up to this one meets with the same
complaint. If it is about an import of a single name, it is made where the import starts. -/
theorem Model.ofTokens_first_fault {stream : TokenStream} {e : GrammarError}
    (h : Model.ofTokens stream = .error (.grammar e)) :
    ∃ i, stream.FaultAt i e ∧ stream.Continuable i ∧
      ((∃ part, e.wanted = .qualifiedImport part) →
        ∃ t, stream.tokens[i]? = some t ∧ t.kind = .keyword .importKw) ∧
      ((∀ part, e.wanted ≠ .qualifiedImport part) →
        (∀ other : TokenStream, other.items.take (i + 1) = stream.items.take (i + 1) →
          Model.ofTokens other = .error (.grammar e)) ∧
        ∀ n, stream.Continuable n ↔ n ≤ i) := by
  obtain ⟨rest, hreading, hfound, hposition⟩ := Model.ofTokens_eq_grammar.mp h
  obtain ⟨used, htokens, ⟨more, m, hdocument⟩, hstop⟩ := (Reader.model_obeys _).stops hreading
  have hcontinuable := TokenStream.continuable_of_document htokens hdocument
  refine ⟨used.length, ⟨?_, _, ?_, hfound, hposition⟩, hcontinuable, fun hline => ?_,
    fun hnext => ?_⟩
  · rw [hreading, htokens, List.drop_left]
  · rw [TokenStream.items, htokens, StreamItem.getElem?_ofTokens]
  · obtain ⟨part, hpart⟩ := hline
    rw [hpart] at hstop
    obtain ⟨k, hk, hhead⟩ := Reader.startsWith_eq_true hstop.starts
    obtain ⟨t, ht, hkind⟩ := Option.map_eq_some_iff.mp hhead
    refine ⟨t, ?_, by rw [hkind, List.mem_singleton.mp hk]⟩
    rw [htokens, List.getElem?_append_right (Nat.le_refl _), Nat.sub_self,
      ← List.head?_eq_getElem?, ht]
  · have hsame (other : TokenStream) :
        other.items.take (used.length + 1) = stream.items.take (used.length + 1) →
          Model.ofTokens other = .error (.grammar e) :=
      Model.ofTokens_same_complaint htokens (hstop.settled hnext) hfound hposition
    refine ⟨hsame, fun n => ⟨fun hn => Nat.le_of_not_lt fun hlt => ?_, hcontinuable.mono⟩⟩
    obtain ⟨other, m, hitems, hread⟩ := hn.mono hlt
    rw [hsame other hitems] at hread
    cases hread

/-- Behind a name in braces a comma or a brace has to follow. The point in its place is complained
about, whatever comes after it. -/
theorem Model.ofTokens_first_fault_braces :
    ∃ (stream : TokenStream) (e : GrammarError),
      stream.tokens.map (·.text) =
        ["namespace", "a", "import", "b", ".", "\x7b", "C", ".", "D", "\x7d"] ∧
      Model.ofTokens stream = .error (.grammar e) ∧ e.wanted = .oneOf [.mark .rightBrace] ∧
      stream.FaultAt 7 e ∧ ∀ n, stream.Continuable n ↔ n ≤ 7 := by
  let kinds : List TokenKind :=
    [.keyword .namespaceKw, .identifier, .keyword .importKw, .identifier, .mark .dot,
      .mark .leftBrace, .identifier, .mark .dot, .identifier, .mark .rightBrace]
  let texts := ["namespace", "a", "import", "b", ".", "\x7b", "C", ".", "D", "\x7d"]
  let stream : TokenStream := ⟨kinds.zipWith (fun k text => ⟨k, text, .start⟩) texts, .start⟩
  let e : GrammarError := ⟨.oneOf [.mark .rightBrace], ".", .start⟩
  have hfault : Model.ofTokens stream = .error (.grammar e) := by decide +kernel
  have hreading :
      Reader.model stream.tokens = .error (.unexpected e.wanted (stream.tokens.drop 7)) := by
    decide +kernel
  obtain ⟨i, hi, -, -, hnext⟩ := Model.ofTokens_first_fault hfault
  obtain rfl : i = 7 := by
    have hrest := hi.reading.symm.trans hreading
    simp only [Except.error.injEq, Reader.Failure.unexpected.injEq, true_and] at hrest
    have hlength := congrArg List.length hrest
    have hcount : stream.tokens.length = 10 := by decide +kernel
    rw [List.length_drop, List.length_drop, hcount] at hlength
    omega
  exact ⟨stream, e, by decide +kernel, hfault, rfl, hi, (hnext nofun).2⟩

end Covenant
