/-
What happens to the tokens of a text when something is written before one of them.
A token is not changed by what follows it, provided that this starts with a line end or
the mark of a decorator or is missing, so a text can be cut before any of its tokens and
continued otherwise (`Lexer.Scans.cut`). A decorator that is written there adds its own
two tokens and nothing else (`Lexer.CutBefore.insert_decorator`).
-/
import Covenant.Proofs.WellFormed

namespace Covenant

namespace Lexer

open Covenant.Text

/-! ## Lexemes before a cut -/

/-- What may take the place of the rest of a text behind a token: nothing, or a text that starts
with a line end or the mark of a decorator and has no colon before its first blank. -/
structure Joins (s : List Char) : Prop where
  head : ∀ c ∈ s.head?, c = '\n' ∨ c = '@'
  run : ':' ∉ s.takeWhile (!isUriEnd ·)

theorem Joins.nil : Joins [] := ⟨by simp, by simp⟩

theorem Joins.line (s : List Char) : Joins ('\n' :: s) := ⟨by simp, by simp [isUriEnd]⟩

theorem Joins.halts {s : List Char} (h : Joins s) : Halts s := by
  intro b hb
  rcases h.head b hb with rfl | rfl <;> simp [haltChars]

theorem Joins.head_ne {s : List Char} (h : Joins s) : ∀ d ∈ s.head?, d ≠ '/' ∧ d ≠ '*' := by
  intro d hd
  rcases h.head d hd with rfl | rfl <;> decide

theorem hasScheme_append_left {cs : List Char} (ds : List Char) (h : hasScheme cs = true) :
    hasScheme (cs ++ ds) = true := by
  induction cs with
  | nil => simp [hasScheme] at h
  | cons c cs ih =>
    simp only [hasScheme, Bool.or_eq_true, List.isPrefixOf_iff_prefix, List.cons_append] at h ⊢
    rcases h with h | h
    · exact .inl (h.trans (List.prefix_append (c :: cs) ds))
    · exact .inr (ih h)

theorem hasScheme_append_eq_false {cs ds : List Char} (hcs : hasScheme cs = false) (hds : ':' ∉ ds)
    (hd : ∀ d ∈ ds.head?, d ≠ '/') : hasScheme (cs ++ ds) = false := by
  induction cs with
  | nil => exact hasScheme_eq_false hds
  | cons c cs ih =>
    rw [hasScheme, Bool.or_eq_false_iff] at hcs
    rw [List.cons_append, hasScheme, Bool.or_eq_false_iff]
    refine ⟨?_, ih hcs.2⟩
    -- a scheme that starts in the first part would end there too
    cases cs with
    | nil =>
      cases ds with
      | nil => simp [List.isPrefixOf]
      | cons d ds => simp [List.isPrefixOf, (hd d rfl).symm]
    | cons e cs =>
      cases cs with
      | nil =>
        cases ds with
        | nil => simp [List.isPrefixOf]
        | cons d ds => simp [List.isPrefixOf, (hd d rfl).symm]
      | cons f cs => simpa [List.isPrefixOf] using hcs.1

theorem locates_cut {previous : Option TokenKind} {cs s : List Char} (k : Nat)
    (h : locates previous cs = false) (hs : Joins s) :
    locates previous (cs.take k ++ s) = false := by
  cases hp : decide (previous = some (.keyword .fromKw)) with
  | false => simp [locates, hp]
  | true =>
    simp only [locates, hp, Bool.true_and] at h ⊢
    have hpart : hasScheme ((cs.take k).takeWhile (!isUriEnd ·)) = false := by
      rw [← List.take_takeWhile]
      generalize cs.takeWhile (!isUriEnd ·) = run at h
      cases hscheme : hasScheme (run.take k) with
      | false => rfl
      | true =>
        have := hasScheme_append_left (run.drop k) hscheme
        rw [List.take_append_drop, h] at this
        cases this
    rw [List.takeWhile_append]
    split
    · rename_i hall
      have hself := take_takeWhile_length (!isUriEnd ·) (cs.take k)
      rw [hall, List.take_length] at hself
      refine hasScheme_append_eq_false (hself ▸ hpart) hs.run fun d hd => ?_
      have hmem : d ∈ s.head? := by
        obtain ⟨ds, hds⟩ := List.head?_eq_some_iff.mp hd
        obtain ⟨rest, hrest⟩ := List.takeWhile_prefix (l := s) (!isUriEnd ·)
        rw [← hrest, hds]
        rfl
      exact (hs.head_ne d hmem).1
    · exact hpart

theorem lexeme_uri {previous : Option TokenKind} {c : Char} {cs : List Char} {x : Lexeme}
    (h : lexeme previous c cs = .ok x) (hk : x.kind = .uri) :
    locates previous (c :: cs) = true ∧
      x = verbatim .uri c cs (((c :: cs).takeWhile (!isUriEnd ·)).length - 1) := by
  rw [lexeme] at h
  split at h
  · rename_i hl
    cases h
    exact ⟨hl, rfl⟩
  split at h
  · split at h
    · cases h
    · cases h
      cases hk
  · exact absurd hk (Ordinary.of_ordinary h).kind_ne.1

/-- A location goes on up to a blank. -/
theorem uri_end {previous : Option TokenKind} {c : Char} {body rest value : List Char}
    (h : lexeme previous c (body ++ rest) = .ok ⟨.uri, value, body.length⟩) :
    ∀ d ∈ rest.head?, isUriEnd d = true := by
  intro d hd
  obtain ⟨hl, hx⟩ := lexeme_uri h rfl
  simp only [verbatim, Lexeme.mk.injEq, true_and] at hx
  have hpos : 0 < ((c :: (body ++ rest)).takeWhile (!isUriEnd ·)).length := by
    refine Nat.pos_of_ne_zero fun hzero => ?_
    simp [locates, List.length_eq_zero_iff.mp hzero, hasScheme] at hl
  have hlen : ((c :: (body ++ rest)).takeWhile (!isUriEnd ·)).length = body.length + 1 := by omega
  have hstop : (!isUriEnd d) = false := by
    refine @head?_drop_takeWhile (!isUriEnd ·) (c :: (body ++ rest)) d ?_
    rw [hlen, List.drop_succ_cons, List.drop_left]
    exact hd
  simpa using hstop

theorem Bare.not_uriEnd {cs : List Char} (h : Bare cs) (hne : cs ≠ [])
    (hd : ∀ d ∈ cs.head?, isUriEnd d = true) : False := by
  cases cs with
  | nil => exact hne rfl
  | cons c cs =>
    have hblank := h.1
    have huri := hd c rfl
    simp only [isUriEnd, isLayoutBlank, Bool.or_eq_true, Bool.or_eq_false_iff] at huri hblank
    simp_all

/-- A lexeme stays what it is if the text is cut behind it and continued otherwise. -/
theorem lexeme_cut {previous : Option TokenKind} {c : Char} {cs s : List Char} {x : Lexeme}
    {k : Nat} (hx : lexeme previous c cs = .ok x) (hs : Joins s) (hk : x.extent ≤ k)
    (hversion : x.kind = .version → ∀ d ∈ (cs.drop x.extent).head?, Regular d)
    (huri : x.kind = .uri → (∀ d ∈ s.head?, isUriEnd d = true) ∨
      x.extent < k ∧ x.extent < cs.length) :
    lexeme previous c (cs.take k ++ s) = .ok x := by
  have hle := lexeme_extent_le hx
  have htake : (cs.take k ++ s).take x.extent = cs.take x.extent := take_cut hk hle
  have hcons : c :: (cs.take k ++ s) = (c :: cs).take (k + 1) ++ s := by simp
  cases hl : locates previous (c :: cs) with
  | true =>
    rw [lexeme, hl, if_pos rfl] at hx
    cases hx
    have huri := huri rfl
    simp only [verbatim] at hk huri htake ⊢
    have hagain : ((c :: cs).take (k + 1) ++ s).takeWhile (!isUriEnd ·) =
        (c :: cs).takeWhile (!isUriEnd ·) := by
      rcases huri with hend | ⟨hin, hend⟩
      · exact takeWhile_cut (fun b hb => by simp [hend b hb]) (by omega)
      · exact takeWhile_inside (by omega) (by simp only [List.length_cons]; omega)
    have hl' : locates previous ((c :: cs).take (k + 1) ++ s) = true := by
      rw [locates, hagain]
      exact hl
    rw [lexeme, hcons, hl', if_pos rfl, hagain, verbatim, htake]
  | false =>
    rw [lexeme, hl, if_neg Bool.false_ne_true] at hx
    rw [lexeme, hcons, locates_cut _ hl hs, if_neg Bool.false_ne_true]
    split at hx
    · rename_i hd
      rw [if_pos hd]
      split at hx
      · cases hx
      · rename_i r hr
        cases hx
        obtain ⟨n, rfl⟩ : ∃ n, r = n + 1 := ⟨r - 1, by have := versionLength_pos hr; omega⟩
        simp only [verbatim, Nat.add_sub_cancel] at hk htake ⊢
        rw [versionLength_cut hs.halts hr (by omega) (hversion rfl)]
        simp only [Nat.add_sub_cancel]
        rw [htake]
    · rename_i hd
      rw [if_neg hd]
      exact ((Ordinary.of_ordinary hx).cut hs.halts hk).eq

/-! ## Texts before a cut -/

/-- The kind of the last token, or what came before the first one. -/
def lastKind (previous : Option TokenKind) : List Token → Option TokenKind
  | [] => previous
  | t :: ts => lastKind (some t.kind) ts

/-- A text may stand behind layout. -/
theorem Scans.behind_gap {previous : Option TokenKind} {p : Position} {gap s : List Char}
    {stream : TokenStream} (h : Scans previous (p.after gap) s stream)
    (hgap : layoutLength (gap ++ s) = layoutLength.shift gap.length (layoutLength s)) :
    Scans previous p (gap ++ s) stream := by
  cases h with
  | done hlayout =>
    rw [← Position.after_append]
    refine .done ?_
    rw [hgap, hlayout, List.length_append, Nat.add_comm]
    rfl
  | @token _ _ _ inner body rest _ c _ _ hlayout hx hnext =>
    rw [← Position.after_append p gap inner] at hnext ⊢
    rw [hlayout] at hgap
    rw [← List.append_assoc] at hgap ⊢
    refine .token ?_ hx hnext
    rw [hgap, List.length_append, Nat.add_comm]
    rfl

/-- Layout that stands before a text can be taken away. -/
theorem Scans.of_behind_gap {previous : Option TokenKind} {p : Position} {gap s : List Char}
    {stream : TokenStream} (h : Scans previous p (gap ++ s) stream)
    (hgap : layoutLength (gap ++ s) = layoutLength.shift gap.length (layoutLength s)) :
    Scans previous (p.after gap) s stream := by
  generalize hcs : gap ++ s = cs at h
  cases h with
  | done hlayout =>
    subst hcs
    obtain ⟨k, hk, hlength⟩ := shift_eq_ok.mp (hgap ▸ hlayout)
    rw [Position.after_append]
    refine .done ?_
    rw [hk, Except.ok.injEq]
    rw [List.length_append] at hlength
    omega
  | @token _ _ _ wider body rest _ c _ _ hlayout hx hnext =>
    obtain ⟨k, hk, hlength⟩ := shift_eq_ok.mp (hgap.symm.trans (hcs ▸ hlayout))
    obtain ⟨inner, rfl⟩ : gap <+: wider :=
      List.prefix_of_prefix_length_le ⟨s, hcs⟩ ⟨_, rfl⟩ (by omega)
    rw [List.append_assoc] at hcs
    obtain rfl := List.append_cancel_left hcs
    rw [Position.after_append] at hnext ⊢
    refine .token ?_ hx hnext
    rw [hk, Except.ok.injEq]
    rw [List.length_append] at hlength
    omega

/-- A text that starts with a lexeme has its token first. -/
theorem Scans.token_inv {previous : Option TokenKind} {p : Position} {c : Char} {kind : TokenKind}
    {gap body rest value : List Char} {stream : TokenStream}
    (h : Scans previous p (gap ++ c :: (body ++ rest)) stream)
    (hgap : layoutLength (gap ++ c :: (body ++ rest)) = .ok gap.length)
    (hx : lexeme previous c (body ++ rest) = .ok ⟨kind, value, body.length⟩) :
    ∃ ts finish, stream = ⟨⟨kind, String.ofList value, p.after gap⟩ :: ts, finish⟩ ∧
      Scans (some kind) ((p.after gap).after (c :: body)) rest ⟨ts, finish⟩ := by
  generalize hcs : gap ++ c :: (body ++ rest) = cs at h
  cases h with
  | done hlayout =>
    subst hcs
    simp [hlayout] at hgap
  | @token _ _ finish gap' body' rest' value' c' kind' ts hlayout hx' hnext =>
    rw [hcs, hlayout, Except.ok.injEq] at hgap
    obtain ⟨rfl, hlexeme⟩ := List.append_inj hcs hgap.symm
    obtain ⟨rfl, hbody⟩ := List.cons.inj hlexeme
    rw [hbody, hx'] at hx
    simp only [Except.ok.injEq, Lexeme.mk.injEq] at hx
    obtain ⟨rfl, rfl, hlength⟩ := hx
    obtain ⟨rfl, rfl⟩ := List.append_inj hbody hlength.symm
    exact ⟨ts, finish, rfl, hnext⟩

/-- The place where a text is cut before its token `t`, which follows the tokens `ts`. -/
structure CutBefore (previous : Option TokenKind) (p : Position) (ts : List Token) (t : Token)
    (before after : List Char) : Prop where
  place : p.after before = t.position
  bare : Bare after
  nonempty : after ≠ []
  /-- The text up to the cut can be continued otherwise. -/
  resume : ∀ {s stream}, Joins s → Scans (lastKind previous ts) t.position s stream →
    Scans previous p (before ++ s) ⟨ts ++ stream.tokens, stream.finish⟩

/-- The layout and the lexeme before a cut stay the same if the text is continued otherwise. -/
theorem lexeme_resume {previous : Option TokenKind} {c : Char} {kind : TokenKind}
    {gap body value before after s : List Char}
    (hgap : layoutLength (gap ++ c :: (body ++ (before ++ after))) = .ok gap.length)
    (hx : lexeme previous c (body ++ (before ++ after)) = .ok ⟨kind, value, body.length⟩)
    (hversion : kind = .version → ∀ d ∈ (before ++ after).head?, Regular d)
    (huri : kind = .uri → (∀ d ∈ s.head?, isUriEnd d = true) ∨ before ≠ []) (hs : Joins s) :
    layoutLength (gap ++ c :: (body ++ (before ++ s))) = .ok gap.length ∧
      lexeme previous c (body ++ (before ++ s)) = .ok ⟨kind, value, body.length⟩ := by
  have hbare : Bare (c :: (body ++ (before ++ s))) := by
    have := bare_drop hgap
    rw [List.drop_left, ← List.append_assoc] at this
    have := this.cut hs.head_ne (body ++ before).length
    rwa [List.take_left, List.append_assoc] at this
  constructor
  · rw [(Layout.of_layoutLength hgap).layoutLength_append (by simp), hbare.layoutLength]
    simp [layoutLength.shift]
  · rw [← List.append_assoc] at hx ⊢
    have := lexeme_cut hx hs (show body.length ≤ (body ++ before).length by simp)
      (fun hk => by simpa using hversion hk)
      (fun hk => (huri hk).imp_right fun hne => by
        have := List.length_pos_iff.mpr hne
        simp only [List.length_append]
        omega)
    rwa [List.take_left] at this

/-- A token, if the text is cut before a later one and continued otherwise. -/
theorem Scans.resume_token {previous : Option TokenKind} {p finish : Position} {c : Char}
    {kind : TokenKind} {gap body value before after s : List Char} {ts : List Token}
    (hgap : layoutLength (gap ++ c :: (body ++ (before ++ after))) = .ok gap.length)
    (hx : lexeme previous c (body ++ (before ++ after)) = .ok ⟨kind, value, body.length⟩)
    (hversion : kind = .version → ∀ d ∈ (before ++ after).head?, Regular d)
    (huri : kind = .uri → (∀ d ∈ s.head?, isUriEnd d = true) ∨ before ≠ []) (hs : Joins s)
    (hnext : Scans (some kind) ((p.after gap).after (c :: body)) (before ++ s) ⟨ts, finish⟩) :
    Scans previous p (gap ++ c :: (body ++ (before ++ s)))
      ⟨⟨kind, String.ofList value, p.after gap⟩ :: ts, finish⟩ := by
  obtain ⟨hlayout, hlexeme⟩ := lexeme_resume hgap hx hversion huri hs
  exact .token hlayout hlexeme hnext

/-- A text can be cut before each of its tokens. -/
theorem Scans.cut {previous : Option TokenKind} {p finish : Position} {cs : List Char} {t : Token}
    {ts more : List Token} (h : Scans previous p cs ⟨ts ++ t :: more, finish⟩) :
    ∃ before after, cs = before ++ after ∧ CutBefore previous p ts t before after ∧
      Scans (lastKind previous ts) t.position after ⟨t :: more, finish⟩ := by
  induction ts generalizing previous p cs with
  | nil =>
    cases h with
    | @token _ _ _ gap body rest _ c _ _ hgap hx hnext =>
      have hbare : Bare (c :: (body ++ rest)) := by
        have := bare_drop hgap
        rwa [List.drop_left] at this
      have hhere : Scans previous (p.after gap) ([] ++ c :: (body ++ rest))
          ⟨⟨_, _, (p.after gap).after []⟩ :: more, finish⟩ :=
        .token hbare.layoutLength hx hnext
      refine ⟨gap, c :: (body ++ rest), rfl, ⟨rfl, hbare, by simp, fun hs hscan => ?_⟩, hhere⟩
      exact hscan.behind_gap ((Layout.of_layoutLength hgap).layoutLength_append (by simp))
  | cons u ts ih =>
    cases h with
    | @token _ _ _ gap body rest value c kind _ hgap hx hnext =>
      obtain ⟨before, after, rfl, hcut, hafter⟩ := ih hnext
      refine ⟨gap ++ c :: (body ++ before), after, by simp,
        ⟨?_, hcut.bare, hcut.nonempty, fun {s _} hs hscan => ?_⟩, hafter⟩
      · rw [← hcut.place, ← Position.after_append, ← Position.after_append]
        simp
      · -- a location ends before a blank, which belongs to the text before the cut
        have huri : kind = .uri → before ≠ [] := by
          rintro rfl rfl
          exact hcut.bare.not_uriEnd hcut.nonempty (uri_end hx)
        rw [List.append_assoc, List.cons_append, List.append_assoc]
        exact .resume_token hgap hx (fun hk => by cases hk; exact hnext.regular)
          (fun hk => .inr (huri hk)) hs (hcut.resume hs hscan)

/-! ## A decorator before a token -/

/-- The words of a text do not depend on where it starts. -/
theorem Scans.move {previous : Option TokenKind} {p : Position} {cs : List Char}
    {stream : TokenStream} (h : Scans previous p cs stream) (q : Position) :
    ∃ other, Scans previous q cs other ∧
      other.tokens.map Token.word = stream.tokens.map Token.word := by
  induction h generalizing q with
  | done hgap => exact ⟨_, .done hgap, rfl⟩
  | @token _ _ _ gap body _ _ c _ _ hgap hx _ ih =>
    obtain ⟨⟨ts, finish⟩, hscan, hwords⟩ := ih ((q.after gap).after (c :: body))
    refine ⟨_, .token hgap hx hscan, ?_⟩
    rw [List.map_cons, hwords]
    rfl

theorem ordinary_of_lexeme {previous : Option TokenKind} {c : Char} {cs : List Char} {x : Lexeme}
    (h : lexeme previous c cs = .ok x) (huri : x.kind ≠ .uri) (hversion : x.kind ≠ .version) :
    ordinary c cs = .ok x := by
  rw [lexeme] at h
  split at h
  · cases h
    exact absurd rfl huri
  split at h
  · split at h
    · cases h
    · cases h
      exact absurd rfl hversion
  · exact h

/-- A token that is neither a version nor a location does not depend on the one before it. -/
theorem Scans.behind {previous other : Option TokenKind} {p finish : Position} {cs : List Char}
    {t : Token} {ts : List Token} (h : Scans previous p cs ⟨t :: ts, finish⟩)
    (huri : t.kind ≠ .uri) (hversion : t.kind ≠ .version) (ho : Plain other) :
    Scans other p cs ⟨t :: ts, finish⟩ := by
  cases h with
  | token hgap hx hnext =>
    refine .token hgap ?_ hnext
    rw [ho.lexeme]
    exact ordinary_of_lexeme hx huri hversion

/-- A decorator without arguments as it is inserted, with what follows it. -/
def decoratorText (name after : List Char) : List Char :=
  '@' :: (name ++ ' ' :: after)

theorem colon_not_mem {name : List Char} (h : IsName name) : ':' ∉ '@' :: name := by
  rw [List.mem_cons, not_or]
  exact ⟨by decide, not_mem_of_isName h (by decide) (by decide)⟩

theorem joins_decoratorText {name : List Char} (h : IsName name) (after : List Char) :
    Joins (decoratorText name after) := by
  refine ⟨by simp [decoratorText], ?_⟩
  rw [decoratorText, ← List.cons_append, takeWhile_ends (.blank after) (by decide)]
  exact fun hmem => colon_not_mem h ((List.takeWhile_sublist _).mem hmem)

theorem Scans.decorator {previous : Option TokenKind} {q finish : Position} {after : List Char}
    {name : String} {t : Token} {ts : List Token} (h : Scans previous q after ⟨t :: ts, finish⟩)
    (huri : t.kind ≠ .uri) (hversion : t.kind ≠ .version) (hname : IsIdentifier name) :
    ∃ others finish, Scans previous q (decoratorText name.toList after)
        ⟨⟨.mark .atSign, "@", q⟩ :: ⟨.identifier, name, q.after ['@']⟩ :: others, finish⟩ ∧
      others.map Token.word = (t :: ts).map Token.word := by
  obtain ⟨hshape, hkind⟩ := hname
  have hat : lexeme previous '@' (name.toList ++ ' ' :: after) = .ok ⟨.mark .atSign, ['@'], 0⟩ := by
    have hl : locates previous ('@' :: (name.toList ++ ' ' :: after)) = false :=
      locates_eq_false ('@' :: name.toList) (colon_not_mem hshape) (.blank after)
    rw [lexeme, hl, if_neg Bool.false_ne_true,
      if_neg (by simp [show isDigit '@' = false by decide])]
    rfl
  have hlegible : Legible (some (.mark .atSign)) ⟨wordKind name.toList, name⟩ := .name hshape
  rw [hkind] at hlegible
  obtain ⟨c, body, hspelling, hread⟩ := hlegible
  obtain ⟨hbareName, hword⟩ := hread (' ' :: after) (.blank after)
  have hname : name.toList = c :: body := hspelling
  -- the token itself, behind the name and a blank
  have hblank : Layout false [' '] := .blank (by decide) .nil
  obtain ⟨⟨others, finish⟩, hothers, hwords⟩ :=
    (h.behind huri hversion (show Plain (some .identifier) by decide)).move
      (((q.after ['@']).after (c :: body)).after [' '])
  refine ⟨others, finish, ?_, hwords⟩
  have hrest : Scans (some .identifier) ((q.after ['@']).after (c :: body)) (' ' :: after)
      ⟨others, finish⟩ := hothers.behind_gap (hblank.layoutLength_append (by simp))
  have hnamed : Scans (some (.mark .atSign)) (q.after ['@']) ([] ++ c :: (body ++ ' ' :: after))
      ⟨⟨.identifier, String.ofList name.toList, (q.after ['@']).after []⟩ :: others, finish⟩ :=
    .token hbareName.layoutLength hword hrest
  have hmarked : Scans previous q ([] ++ '@' :: ([] ++ (name.toList ++ ' ' :: after)))
      ⟨⟨.mark .atSign, String.ofList ['@'], q.after []⟩ ::
        ⟨.identifier, String.ofList name.toList, (q.after ['@']).after []⟩ :: others, finish⟩ := by
    refine .token (bare_cons _ (by decide) (by decide)).layoutLength hat ?_
    rw [hname] at hnamed ⊢
    exact hnamed
  rw [String.ofList_toList] at hmarked
  exact hmarked

/-- A decorator that is written before a token of a text adds two tokens to it. -/
theorem CutBefore.insert_decorator {previous : Option TokenKind} {p finish : Position}
    {before after : List Char} {name : String} {t : Token} {ts more : List Token}
    (hcut : CutBefore previous p ts t before after)
    (h : Scans (lastKind previous ts) t.position after ⟨t :: more, finish⟩)
    (huri : t.kind ≠ .uri) (hversion : t.kind ≠ .version) (hname : IsIdentifier name) :
    ∃ others finish, Scans previous p (before ++ decoratorText name.toList after)
        ⟨ts ++ ⟨.mark .atSign, "@", t.position⟩ ::
          ⟨.identifier, name, t.position.after ['@']⟩ :: others, finish⟩ ∧
      others.map Token.word = (t :: more).map Token.word := by
  obtain ⟨others, finish, hscan, hwords⟩ := h.decorator huri hversion hname
  exact ⟨others, finish, hcut.resume (joins_decoratorText hname.1 after) hscan, hwords⟩

end Lexer

end Covenant
