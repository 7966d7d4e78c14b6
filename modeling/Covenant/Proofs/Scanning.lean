/-
How a text is split into tokens, one after the other: a step of the scanner skips
layout and takes a lexeme (`Lexer.Scans`).
-/
import Covenant.Proofs.Layout
import Covenant.Proofs.LexemeStable
import Covenant.Proofs.Positions

namespace Covenant.Lexer

open Covenant.Text

/-! ## Runs of characters -/

theorem head?_drop_takeWhile {test : Char → Bool} {cs : List Char} {c : Char}
    (h : (cs.drop (cs.takeWhile test).length).head? = some c) : test c = false := by
  induction cs with
  | nil => simp at h
  | cons d ds ih =>
    cases hd : test d with
    | false =>
      simp only [List.takeWhile_cons, hd] at h
      cases h
      exact hd
    | true =>
      simp only [List.takeWhile_cons, hd] at h
      exact ih h

/-- A run that ends inside a cut text is not changed by what follows the cut. -/
theorem takeWhile_inside {test : Char → Bool} {cs s : List Char} {k : Nat}
    (hk : (cs.takeWhile test).length < k) (hl : (cs.takeWhile test).length < cs.length) :
    (cs.take k ++ s).takeWhile test = cs.takeWhile test := by
  induction cs generalizing k with
  | nil => simp at hl
  | cons c cs ih =>
    obtain ⟨k, rfl⟩ : ∃ j, k = j + 1 := ⟨k - 1, by omega⟩
    rw [List.take_succ_cons, List.cons_append, List.takeWhile_cons, List.takeWhile_cons]
    cases hc : test c with
    | false => rfl
    | true =>
      simp only [List.takeWhile_cons, hc, if_true, List.length_cons] at hk hl ⊢
      rw [ih (by omega) (by omega)]

/-! ## Steps -/

theorem Ordinary.extent_le {c : Char} {cs : List Char} {x : Lexeme} (h : Ordinary c cs x) :
    x.extent ≤ cs.length := by
  cases h with
  | mark => exact Nat.zero_le _
  | arrow _ hp => exact hp.length_le
  | negative | numeral => exact numeral_extent_le ..
  | @pattern n _ hn =>
    have := patternLength?_le hn
    have := takeWhile_length_le isLetter (cs.drop n)
    simp only [verbatim, List.length_drop] at *
    omega
  | string _ hbody => simpa using (stringBody_le hbody).2
  | word => exact takeWhile_length_le ..

theorem lexeme_extent_le {previous : Option TokenKind} {c : Char} {cs : List Char} {x : Lexeme}
    (h : lexeme previous c cs = .ok x) : x.extent ≤ cs.length := by
  rw [lexeme] at h
  split at h
  · cases h
    have := takeWhile_length_le (!isUriEnd ·) (c :: cs)
    simp only [verbatim, List.length_cons] at *
    omega
  split at h
  · split at h
    · cases h
    · rename_i r hr
      cases h
      have := versionLength_le hr
      simp only [verbatim, List.length_cons] at *
      omega
  · exact (Ordinary.of_ordinary h).extent_le

/-- How a text is split: at its end only layout is left, and before it a token stands behind the
layout, with the first of its characters and the rest of them. -/
inductive Scans : Option TokenKind → Position → List Char → TokenStream → Prop
  | done {previous : Option TokenKind} {p : Position} {gap : List Char} :
    layoutLength gap = .ok gap.length → Scans previous p gap ⟨[], p.after gap⟩
  | token {previous : Option TokenKind} {p finish : Position} {gap body rest value : List Char}
      {c : Char} {kind : TokenKind} {ts : List Token} :
    layoutLength (gap ++ c :: (body ++ rest)) = .ok gap.length →
    lexeme previous c (body ++ rest) = .ok ⟨kind, value, body.length⟩ →
    Scans (some kind) ((p.after gap).after (c :: body)) rest ⟨ts, finish⟩ →
    Scans previous p (gap ++ c :: (body ++ rest))
      ⟨⟨kind, String.ofList value, p.after gap⟩ :: ts, finish⟩

theorem Scans.of_scan {previous : Option TokenKind} {p : Position} {cs : List Char}
    {stream : TokenStream} (h : scan previous p cs = .ok stream) : Scans previous p cs stream := by
  fun_induction scan previous p cs generalizing stream with
  | case1 => cases h
  | case2 previous p cs n hn =>
    rename_i hrest
    cases h
    have hlen : n = cs.length :=
      Nat.le_antisymm (layoutLength_le hn) (List.drop_eq_nil_iff.mp hrest)
    subst hlen
    have : Scans previous p cs ⟨[], p.after (cs.take cs.length)⟩ := by
      rw [List.take_length]
      exact .done hn
    exact this
  | case3 => cases h
  | case4 => cases h
  | case5 previous p cs n hn =>
    rename_i start c rest hrest x hx finish stream hscan ih
    cases h
    obtain ⟨kind, value, extent⟩ := x
    have hcs : cs = cs.take n ++ c :: (rest.take extent ++ rest.drop extent) := by
      rw [List.take_append_drop, ← hrest, List.take_append_drop]
    have hgap : (cs.take n).length = n := List.length_take_of_le (layoutLength_le hn)
    have hbody : (rest.take extent).length = extent :=
      List.length_take_of_le (lexeme_extent_le hx)
    have hlayout : layoutLength (cs.take n ++ c :: (rest.take extent ++ rest.drop extent)) =
        .ok (cs.take n).length := by
      rw [← hcs, hgap, hn]
    have hlexeme : lexeme previous c (rest.take extent ++ rest.drop extent) =
        .ok ⟨kind, value, (rest.take extent).length⟩ := by
      rw [List.take_append_drop, hbody, hx]
    have := Scans.token (p := p) hlayout hlexeme (ih hscan)
    rw [← hcs] at this
    exact this

theorem Scans.scan_eq {previous : Option TokenKind} {p : Position} {cs : List Char}
    {stream : TokenStream} (h : Scans previous p cs stream) : scan previous p cs = .ok stream := by
  induction h with
  | done hgap =>
    rw [scan.eq_def, hgap]
    simp only [List.take_length]
    split
    · rfl
    · rename_i heq
      simp at heq
  | @token previous p finish gap body rest value c kind ts hgap hx _ ih =>
    have htake : (gap ++ c :: (body ++ rest)).take gap.length = gap := by simp
    have hdrop : (gap ++ c :: (body ++ rest)).drop gap.length = c :: (body ++ rest) := by simp
    rw [scan.eq_def, hgap]
    simp only [htake]
    split
    · rename_i heq
      rw [hdrop] at heq
      cases heq
    · rename_i heq
      rw [hdrop] at heq
      cases heq
      rw [hx]
      simp [ih]

/-- A stream ends where the text does. -/
theorem Scans.finish_eq {previous : Option TokenKind} {p : Position} {cs : List Char}
    {stream : TokenStream} (h : Scans previous p cs stream) : stream.finish = p.after cs := by
  induction h with
  | done => rfl
  | @token _ _ _ gap body rest _ c _ _ _ _ _ ih =>
    rw [← List.cons_append, Position.after_append, Position.after_append, ← ih]

end Covenant.Lexer
