/-
Tokens cover their text. Each token stands at an offset of the text, the offsets grow
strictly, line and column are those of the offset, and the text from there on is what the
token says; between two tokens there is nothing but layout. A text that cannot be split
is refused at the place of one of its characters (`tokenize_covers`).

The scanner never looks at an offset. That its places are those of offsets follows from
one step: it passes the layout before a token and then the characters of the token, and
no character twice (`Lexer.Scans.covers`).
-/
import Covenant.Proofs.Scanning

namespace Covenant

namespace Lexer

/-! ## Spans -/

/-- Where a token stands in a text: from the offset `start` up to `stop`. -/
structure Span where
  start : Nat
  stop : Nat
deriving DecidableEq, Repr

/-- The characters of a text from one offset up to another. -/
def slice (text : List Char) (start stop : Nat) : List Char :=
  (text.take stop).drop start

/-- How the content of a string is written behind its opening quote, the closing one included. -/
inductive Quoted (quote : Char) : (written content : List Char) → Prop
  | close : Quoted quote [quote] []
  | plain {c : Char} {written content : List Char} : c ≠ quote → c ≠ '\n' → c ≠ '\\' →
    Quoted quote written content → Quoted quote (c :: written) (c :: content)
  | escape {e d : Char} {written content : List Char} : escaped? e = some d →
    Quoted quote written content → Quoted quote ('\\' :: e :: written) (d :: content)

/-- How a token is written: a string between quotes, everything else as it is. -/
def Written (kind : TokenKind) (value written : List Char) : Prop :=
  if kind = .string then
    ∃ quote rest, (quote = '"' ∨ quote = '\'') ∧ written = quote :: rest ∧ Quoted quote rest value
  else written = value

/-- The token stands at the span, and only layout lies between the offset and the span. -/
structure Stands (text : List Char) (offset : Nat) (span : Span) (t : Token) : Prop where
  behind : offset ≤ span.start
  nonempty : span.start < span.stop
  inside : span.stop ≤ text.length
  gap : Layout false (slice text offset span.start)
  place : t.position = .ofOffset text span.start
  written : Written t.kind t.text.toList (slice text span.start span.stop)

/-- From the offset on, the text consists of the tokens at these spans and of layout. -/
inductive Covers (text : List Char) : Nat → List Span → List Token → Prop
  | done {offset : Nat} : Layout true (slice text offset text.length) → Covers text offset [] []
  | token {offset : Nat} {span : Span} {t : Token} {spans : List Span} {ts : List Token} :
    Stands text offset span t → Covers text span.stop spans ts →
    Covers text offset (span :: spans) (t :: ts)

theorem slice_append (pre part post : List Char) :
    slice (pre ++ (part ++ post)) pre.length (pre.length + part.length) = part := by
  rw [slice, ← List.append_assoc, ← List.length_append, List.take_left, List.drop_left]

/-- Tokens start at offsets that grow strictly up to the end of the text. -/
theorem Covers.increasing {text : List Char} {offset : Nat} {spans : List Span} {ts : List Token}
    (h : Covers text offset spans ts) (hoffset : offset ≤ text.length) :
    (spans.map (·.start) ++ [text.length]).Pairwise (· < ·) ∧
      ∀ n ∈ spans.map (·.start) ++ [text.length], offset ≤ n := by
  induction h with
  | done => simpa using hoffset
  | @token offset span t spans ts hstands _ ih =>
    obtain ⟨hpairs, hlater⟩ := ih hstands.inside
    have hbehind := hstands.behind
    have hnonempty := hstands.nonempty
    rw [List.map_cons, List.cons_append, List.pairwise_cons, List.forall_mem_cons]
    refine ⟨⟨fun n hn => ?_, hpairs⟩, hbehind, fun n hn => ?_⟩ <;> have := hlater n hn <;> omega

/-! ## What a lexeme is written as -/

theorem stringBody_quoted {quote : Char} {n m : Nat} {cs ds : List Char}
    (h : stringBody quote n cs = .ok (ds, m)) : Quoted quote (cs.take (m - n)) ds := by
  fun_induction stringBody quote n cs generalizing ds m with
  | case1 => cases h
  | case2 n cs =>
    cases h
    simpa using .close
  | case3 => cases h
  | case4 => cases h
  | case5 => cases h
  | case6 n e cs d he hquote _ ih =>
    obtain ⟨⟨ds', m'⟩, hrest, heq⟩ := map_eq_ok.mp h
    cases heq
    have hm := stringBody_le hrest
    rw [show m - n = (m - (n + 2)) + 2 by omega]
    exact .escape he (ih hrest)
  | case7 n c cs hquote hline hback ih =>
    obtain ⟨⟨ds', m'⟩, hrest, heq⟩ := map_eq_ok.mp h
    cases heq
    have hm := stringBody_le hrest
    rw [show m - n = (m - (n + 1)) + 1 by omega]
    exact .plain hquote hline hback (ih hrest)

theorem Lexeme.written_of_ne {x : Lexeme} {c : Char} {cs : List Char} (hk : x.kind ≠ .string)
    (hv : x.value = c :: cs.take x.extent) : Written x.kind x.value (c :: cs.take x.extent) := by
  rw [Written, if_neg hk, hv]

theorem numeral_kind_ne (c : Char) (cs : List Char) : (numeral c cs).kind ≠ .string := by
  rcases numeral_kind c cs with h | h <;> simp [h]

theorem wordKind_ne (word : List Char) : wordKind word ≠ .string := by
  unfold wordKind
  split <;> simp

theorem Ordinary.written {c : Char} {cs : List Char} {x : Lexeme} (h : Ordinary c cs x) :
    Written x.kind x.value (c :: cs.take x.extent) := by
  cases h with
  | mark => exact Lexeme.written_of_ne (by simp) rfl
  | arrow hc hp =>
    obtain ⟨rest, rfl⟩ := hp
    subst hc
    exact Lexeme.written_of_ne (by simp) rfl
  | negative | numeral => exact Lexeme.written_of_ne (numeral_kind_ne c cs) rfl
  | pattern => exact Lexeme.written_of_ne (by simp [verbatim]) rfl
  | string hc hbody =>
    rw [Written, if_pos rfl]
    exact ⟨c, _, hc, rfl, stringBody_quoted hbody⟩
  | word => exact Lexeme.written_of_ne (wordKind_ne _) rfl

/-- A lexeme is written as the characters it takes. -/
theorem lexeme_written {previous : Option TokenKind} {c : Char} {cs : List Char} {x : Lexeme}
    (h : lexeme previous c cs = .ok x) : Written x.kind x.value (c :: cs.take x.extent) := by
  rw [lexeme] at h
  split at h
  · cases h
    exact Lexeme.written_of_ne (by simp [verbatim]) rfl
  split at h
  · split at h
    · cases h
    · cases h
      exact Lexeme.written_of_ne (by simp [verbatim]) rfl
  · exact (Ordinary.of_ordinary h).written

/-! ## Texts that are split -/

/-- The tokens of the rest of a text cover it. -/
theorem Scans.covers {previous : Option TokenKind} {cs pre : List Char} {stream : TokenStream}
    (h : Scans previous (Position.start.after pre) cs stream) :
    ∃ spans, Covers (pre ++ cs) pre.length spans stream.tokens := by
  generalize hp : Position.start.after pre = p at h
  induction h generalizing pre with
  | @done _ _ gap hgap =>
    have hslice := slice_append pre gap []
    rw [List.append_nil] at hslice
    refine ⟨[], .done ?_⟩
    rw [List.length_append, hslice]
    exact @Layout.of_layoutLength gap [] (by rwa [List.append_nil])
  | @token _ _ _ gap body rest value c kind ts hgap hx _ ih =>
    subst hp
    -- the rest starts behind the layout and the token
    have htext :
        pre ++ (gap ++ c :: (body ++ rest)) = (pre ++ (gap ++ c :: body)) ++ rest := by simp
    have hplace : Position.start.after (pre ++ (gap ++ c :: body)) =
        ((Position.start.after pre).after gap).after (c :: body) := by
      rw [Position.after_append, Position.after_append]
    obtain ⟨spans, hcovers⟩ := ih hplace
    rw [← htext] at hcovers
    refine ⟨⟨(pre ++ gap).length, (pre ++ (gap ++ c :: body)).length⟩ :: spans, .token ?_ hcovers⟩
    exact {
      behind := by simp
      nonempty := by simp
      inside := by simp
      gap := by
        rw [List.length_append, slice_append]
        exact Layout.of_layoutLength hgap
      place := by
        have htake :
            (pre ++ (gap ++ c :: (body ++ rest))).take (pre ++ gap).length = pre ++ gap := by
          rw [← List.append_assoc, List.take_left]
        rw [← Position.start_after_take, htake, Position.after_append]
      written := by
        have hslice := slice_append (pre ++ gap) (c :: body) rest
        have hwritten := lexeme_written hx
        simp only [List.take_left] at hwritten
        simp only [List.append_assoc, List.length_append, List.cons_append] at hslice ⊢
        rw [← Nat.add_assoc, hslice]
        simpa using hwritten }

/-! ## Texts that are refused -/

theorem shift_eq_error {n m : Nat} {r : Except Nat Nat} :
    layoutLength.shift n r = .error m ↔ ∃ k, r = .error k ∧ m = k + n := by
  cases r with
  | error e => simp [layoutLength.shift, eq_comm]
  | ok k => simp [layoutLength.shift]

/-- A comment that is never closed starts inside the text. -/
theorem layoutLength_error_lt {cs : List Char} {n : Nat} (h : layoutLength cs = .error n) :
    n < cs.length := by
  fun_induction layoutLength cs generalizing n with
  | case1 => cases h
  | case2 =>
    rename_i cs line ih
    obtain ⟨k, hk, rfl⟩ := shift_eq_error.mp h
    have := ih hk
    simp only [List.length_drop, List.length_cons] at this ⊢
    omega
  | case3 =>
    cases h
    simp
  | case4 cs n hn ih =>
    obtain ⟨k, hk, rfl⟩ := shift_eq_error.mp h
    have := ih hk
    simp only [List.length_drop, List.length_cons] at this ⊢
    omega
  | case5 c cs _ _ hblank ih =>
    obtain ⟨k, hk, rfl⟩ := shift_eq_error.mp h
    exact Nat.succ_lt_succ (ih hk)
  | case6 => cases h

theorem map_eq_error {ε α β : Type} {x : Except ε α} {f : α → β} {e : ε} :
    x.map f = .error e ↔ x = .error e := by
  cases x <;> simp [Except.map]

theorem stringBody_error_le {quote : Char} {n d : Nat} {cs : List Char} {fault : LexicalFault}
    (h : stringBody quote n cs = .error (fault, d)) : d ≤ n + cs.length := by
  fun_induction stringBody quote n cs with
  | case1 => cases h; simp
  | case2 => cases h
  | case3 => cases h; simp
  | case4 => cases h; simp
  | case5 =>
    cases h
    simp only [List.length_cons]
    omega
  | case6 n e cs _ _ _ _ ih =>
    have := ih (map_eq_error.mp h)
    simp only [List.length_cons]
    omega
  | case7 n c cs _ _ _ ih =>
    have := ih (map_eq_error.mp h)
    simp only [List.length_cons]
    omega

/-- What can be wrong with a lexeme: the content of a string, at some distance, or its start. -/
theorem lexeme_error_cases {previous : Option TokenKind} {c : Char} {cs : List Char}
    {fault : LexicalFault} {d : Nat} (h : lexeme previous c cs = .error (fault, d)) :
    stringBody c 0 cs = .error (fault, d) ∨
      d = 0 ∧ ((Text.isDigit c = true ∧ versionLength (c :: cs) = .error fault) ∨
        fault = .unterminatedPattern ∨ fault = .unexpected c) := by
  rw [lexeme] at h
  split at h
  · cases h
  split at h
  · rename_i hdigit
    split at h <;> cases h
    simp only [Bool.and_eq_true] at hdigit
    exact .inr ⟨rfl, .inl ⟨hdigit.2, ‹_›⟩⟩
  unfold ordinary at h
  split at h
  · cases h
  split at h
  · split at h
    · cases h
    split at h <;> cases h
    exact .inr ⟨rfl, .inr (.inr rfl)⟩
  split at h
  · split at h <;> cases h
    exact .inr ⟨rfl, .inr (.inl rfl)⟩
  split at h
  · exact .inl (map_eq_error.mp h)
  split at h
  · cases h
  split at h <;> cases h
  exact .inr ⟨rfl, .inr (.inr rfl)⟩

/-- A fault lies in the rest of the text that starts with the lexeme. -/
theorem lexeme_error_le {previous : Option TokenKind} {c : Char} {cs : List Char}
    {fault : LexicalFault} {d : Nat} (h : lexeme previous c cs = .error (fault, d)) :
    d ≤ cs.length := by
  rcases lexeme_error_cases h with hbody | ⟨rfl, -⟩
  · have := stringBody_error_le hbody
    omega
  · exact Nat.zero_le _

/-- A text is refused at the place of one of its characters. -/
theorem scan_error {previous : Option TokenKind} {p : Position} {cs : List Char} {e : LexicalError}
    (h : scan previous p cs = .error e) :
    ∃ n < cs.length, e.position = p.after (cs.take n) := by
  fun_induction scan previous p cs generalizing e with
  | case1 previous p cs n hn =>
    cases h
    exact ⟨n, layoutLength_error_lt hn, rfl⟩
  | case2 => cases h
  | case3 previous p cs n hn =>
    rename_i start c rest hrest fault d hx
    cases h
    have hlen := congrArg List.length hrest
    have hd := lexeme_error_le hx
    rw [List.length_drop, List.length_cons] at hlen
    refine ⟨n + d, by omega, ?_⟩
    rw [List.take_add, Position.after_append, hrest]
  | case4 previous p cs n hn =>
    rename_i start c rest hrest x hx finish e' hscan ih
    cases h
    obtain ⟨k, hk, hplace⟩ := ih hscan
    have hlen := congrArg List.length hrest
    rw [List.length_drop, List.length_cons] at hlen
    rw [List.length_drop] at hk
    refine ⟨n + (x.extent + k + 1), by omega, ?_⟩
    rw [List.take_add, Position.after_append, hrest, List.take_succ_cons, List.take_add,
      ← List.cons_append, Position.after_append, hplace]
  | case5 => cases h

end Lexer

/-- The tokens of a text stand at offsets that grow strictly and end with the end of the text; each
is written at its offset and placed there, and only layout lies between them. If a text has no
tokens, what stops the scanner is placed at one of its characters. -/
theorem tokenize_covers (source : String) :
    match tokenize source with
    | .ok stream =>
      ∃ spans, Lexer.Covers source.toList 0 spans stream.tokens ∧
        (spans.map (·.start) ++ [source.toList.length]).Pairwise (· < ·) ∧
        stream.finish = .ofOffset source.toList source.toList.length
    | .error e =>
      ∃ offset < source.toList.length, e.position = .ofOffset source.toList offset := by
  cases h : tokenize source with
  | ok stream =>
    have hscans := Lexer.Scans.of_scan h
    obtain ⟨spans, hcovers⟩ := @Lexer.Scans.covers _ _ [] _ hscans
    refine ⟨spans, hcovers, (hcovers.increasing (Nat.zero_le _)).1, ?_⟩
    rw [hscans.finish_eq, ← Position.start_after_take, List.take_length]
  | error e =>
    obtain ⟨offset, hoffset, hplace⟩ := Lexer.scan_error h
    exact ⟨offset, hoffset, by rw [hplace, Position.start_after_take]⟩

end Covenant
