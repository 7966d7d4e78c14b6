/-
Where a version ends. A point inside `import a.b@1.2.3-rc.1.T` can stand between the parts of the
version, between the segments of its suffix or before the name of a type, and which it is shows only
in the number of parts so far and in the character behind it. For versions as they are written
(`Lexer.IsVersion`) and names of types that start neither with a digit nor in lower case, the line
is always read as it is meant, and so is a line that declares the version of a namespace
(`Model.read_versioned`).

The lines are given as texts. They are split into words one lexeme after the other (`Lexer.Splits`),
and what stands behind them is read as it would be behind any other line.
-/
import Covenant.Proofs.Coverage
import Covenant.Proofs.Printing
import Covenant.Proofs.Registered
import Covenant.Proofs.Spacing

namespace Covenant

open Covenant.Text

namespace Lexer

/-! ## Versions as they are written -/

/-- Runs of digits with points between them, three at most. -/
def IsCore (cs : List Char) : Prop :=
  ∃ first others, cs = ['.'].intercalate (first :: others) ∧ others.length ≤ 2 ∧
    ∀ run ∈ first :: others, run ≠ [] ∧ ∀ c ∈ run, isDigit c = true

/-- Alphanumerics and dashes, of which the first passes the test. -/
def IsSegment (test : Char → Bool) (cs : List Char) : Prop :=
  (∃ c ∈ cs.head?, test c = true) ∧ ∀ c ∈ cs, isSuffixChar c = true

/-- Segments with points between them. The first starts with an alphanumeric, each other one with a
digit or in lower case. -/
def IsSuffix (cs : List Char) : Prop :=
  ∃ first others, cs = ['.'].intercalate (first :: others) ∧ IsSegment isAlphanumeric first ∧
    ∀ segment ∈ others, IsSegment (fun c => isDigit c || isLowerCase c) segment

/-- A version, with a suffix behind a mark or without one. -/
inductive IsVersion : List Char → Prop
  | core {cs : List Char} : IsCore cs → IsVersion cs
  | marked {cs segments : List Char} {mark : Char} :
    IsCore cs → mark = '-' ∨ mark = '+' → IsSuffix segments → IsVersion (cs ++ mark :: segments)

/-- What may follow a version directly: nothing, or a point before a character that is neither a
digit nor in lower case. -/
inductive Closes : List Char → Prop
  | nil : Closes []
  | point {cs : List Char} : pointGoesOn cs = false → Closes ('.' :: cs)

variable {rest : List Char} {previous : Option TokenKind}

/-! ## How long versions are -/

theorem Closes.suffixLength (h : Closes rest) : suffixLength rest = 0 := by
  cases h with
  | nil => simp [Lexer.suffixLength]
  | point h => simp [suffixLength, h, show isSuffixChar '.' = false by decide]

theorem Closes.markedSuffixLength (h : Closes rest) : markedSuffixLength rest = 0 := by
  cases h with
  | nil => rfl
  | @point cs _ => cases cs <;> simp [Lexer.markedSuffixLength]

theorem startsWithDigit_of_pointGoesOn {cs : List Char} (h : pointGoesOn cs = false) :
    startsWithDigit cs = false := by
  cases cs with
  | nil => rfl
  | cons c cs =>
    simp only [pointGoesOn, Bool.or_eq_false_iff] at h
    exact h.1

theorem digitsLength_run {run : List Char} (hrun : ∀ c ∈ run, isDigit c = true)
    (hrest : startsWithDigit rest = false) : digitsLength (run ++ rest) = run.length := by
  rw [digitsLength, takeWhile_run hrun]
  cases rest with
  | nil => simp
  | cons c rest => simpa [startsWithDigit] using hrest

/-- What may follow the runs of digits: no further digit, and no point before one. -/
def EndsCore (rest : List Char) : Prop :=
  startsWithDigit rest = false ∧ ∀ cs, rest = '.' :: cs → startsWithDigit cs = false

theorem Closes.endsCore (h : Closes rest) : EndsCore rest := by
  cases h with
  | nil => exact ⟨rfl, by simp⟩
  | point h =>
    refine ⟨rfl, fun cs hcs => ?_⟩
    cases hcs
    exact startsWithDigit_of_pointGoesOn h

theorem endsCore_mark {mark : Char} (h : mark = '-' ∨ mark = '+') (cs : List Char) :
    EndsCore (mark :: cs) := by
  rcases h with rfl | rfl <;> exact ⟨rfl, by simp⟩

theorem versionCoreLength_runs {first : List Char} {others : List (List Char)} {parts : Nat}
    (hruns : ∀ run ∈ first :: others, run ≠ [] ∧ ∀ c ∈ run, isDigit c = true)
    (hparts : others.length ≤ parts) (hrest : EndsCore rest) :
    versionCoreLength (parts + 1) (['.'].intercalate (first :: others) ++ rest) =
      .ok (['.'].intercalate (first :: others)).length := by
  induction others generalizing first parts with
  | nil =>
    obtain ⟨hne, hdigits⟩ := hruns first (by simp)
    have hlength := digitsLength_run hdigits hrest.1
    have hlast : LastPart parts (first ++ rest) := by
      intro cs hcs
      rw [hlength, List.drop_left] at hcs
      exact .inr (hrest.2 cs hcs)
    have hpos : 0 < digitsLength (first ++ rest) := hlength ▸ List.length_pos_iff.mpr hne
    rw [List.intercalate_singleton, versionCoreLength_last hpos hlast, hlength]
  | cons second others ih =>
    rw [List.forall_mem_cons] at hruns
    obtain ⟨⟨hne, hdigits⟩, hruns⟩ := hruns
    obtain ⟨parts, rfl⟩ : ∃ k, parts = k + 1 := ⟨parts - 1, by simp at hparts; omega⟩
    have hmore := @ih second parts hruns (by simpa using hparts)
    rw [List.intercalate_cons_cons, List.append_assoc, List.append_assoc, List.singleton_append]
    generalize ['.'].intercalate (second :: others) = more at hmore ⊢
    have hlength : digitsLength (first ++ '.' :: (more ++ rest)) = first.length :=
      digitsLength_run hdigits rfl
    have hdrop : (first ++ '.' :: (more ++ rest)).drop
        (digitsLength (first ++ '.' :: (more ++ rest))) = '.' :: (more ++ rest) := by
      rw [hlength, List.drop_left]
    have hpos : 0 < digitsLength (first ++ '.' :: (more ++ rest)) :=
      hlength ▸ List.length_pos_iff.mpr hne
    have hdigit : startsWithDigit (more ++ rest) = true :=
      digitsLength_pos.mp (versionCoreLength_cases hmore).1
    rw [versionCoreLength_more hpos hdrop (by omega) hdigit, hmore, hlength]
    simp only [Except.map, Except.ok.injEq, List.length_append, List.length_singleton]
    omega

theorem suffixLength_chars {cs : List Char} (h : ∀ c ∈ cs, isSuffixChar c = true) :
    suffixLength (cs ++ rest) = cs.length + suffixLength rest := by
  induction cs with
  | nil => simp
  | cons c cs ih =>
    rw [List.forall_mem_cons] at h
    rw [List.cons_append, suffixLength, if_pos h.1, ih h.2, List.length_cons]
    omega

theorem suffixLength_segments {first : List Char} {others : List (List Char)}
    (hfirst : ∀ c ∈ first, isSuffixChar c = true)
    (hothers : ∀ segment ∈ others, IsSegment (fun c => isDigit c || isLowerCase c) segment)
    (hrest : suffixLength rest = 0) :
    suffixLength (['.'].intercalate (first :: others) ++ rest) =
      (['.'].intercalate (first :: others)).length := by
  induction others generalizing first with
  | nil => rw [List.intercalate_singleton, suffixLength_chars hfirst, hrest, Nat.add_zero]
  | cons second others ih =>
    rw [List.forall_mem_cons] at hothers
    obtain ⟨⟨⟨c, hc, htest⟩, hsecond⟩, hothers⟩ := hothers
    have hmore := ih hsecond hothers
    have hgoes : pointGoesOn (['.'].intercalate (second :: others) ++ rest) = true := by
      obtain ⟨cs, rfl⟩ := List.head?_eq_some_iff.mp hc
      cases others <;> simpa [pointGoesOn] using htest
    rw [List.intercalate_cons_cons, List.append_assoc, List.append_assoc, suffixLength_chars hfirst,
      List.singleton_append, suffixLength, if_neg (by decide), if_pos rfl, if_pos hgoes, hmore]
    simp only [List.length_append, List.length_singleton]
    omega

theorem markedSuffixLength_suffix {mark : Char} {segments : List Char}
    (hmark : mark = '-' ∨ mark = '+') (h : IsSuffix segments) (hrest : suffixLength rest = 0) :
    markedSuffixLength (mark :: (segments ++ rest)) = (mark :: segments).length := by
  obtain ⟨first, others, rfl, ⟨⟨c, hc, halphanumeric⟩, hfirst⟩, hothers⟩ := h
  have hlength := suffixLength_segments hfirst hothers hrest
  obtain ⟨cs, hcs⟩ : ∃ cs, ['.'].intercalate (first :: others) = c :: cs := by
    obtain ⟨cs, rfl⟩ := List.head?_eq_some_iff.mp hc
    cases others <;> simp
  rw [hcs, List.cons_append] at hlength ⊢
  have htest : ((mark = '-' || mark = '+') && isAlphanumeric c) = true := by
    rcases hmark with rfl | rfl <;> simp [halphanumeric]
  rw [markedSuffixLength, if_pos htest, hlength]
  simp only [List.length_cons]
  omega

/-- A version ends where it is meant to. -/
theorem IsVersion.versionLength {version : List Char} (h : IsVersion version)
    (hrest : Closes rest) : versionLength (version ++ rest) = .ok version.length := by
  rw [Lexer.versionLength]
  cases h with
  | core hcore =>
    obtain ⟨first, others, rfl, hparts, hruns⟩ := hcore
    rw [versionCoreLength_runs hruns hparts hrest.endsCore]
    simp [Except.map, hrest.markedSuffixLength]
  | @marked core segments mark hcore hmark hsuffix =>
    obtain ⟨first, others, rfl, hparts, hruns⟩ := hcore
    rw [List.append_assoc, List.cons_append,
      versionCoreLength_runs hruns hparts (endsCore_mark hmark _)]
    have hmarked := markedSuffixLength_suffix hmark hsuffix hrest.suffixLength
    simp only [Except.map, List.drop_left, hmarked, List.length_append]

/-! ## No version is malformed -/

theorem versionCoreLength_of_digit {parts : Nat} {cs : List Char} (h : startsWithDigit cs = true) :
    ∃ n, versionCoreLength (parts + 1) cs = .ok n := by
  induction parts generalizing cs with
  | zero => exact ⟨_, versionCoreLength_last (digitsLength_pos.mpr h) fun _ _ => .inl rfl⟩
  | succ parts ih =>
    by_cases hlast : LastPart (parts + 1) cs
    · exact ⟨_, versionCoreLength_last (digitsLength_pos.mpr h) hlast⟩
    · simp only [LastPart, Classical.not_forall, not_or, Bool.not_eq_false] at hlast
      obtain ⟨rest, hrest, hparts, hdigit⟩ := hlast
      obtain ⟨n, hn⟩ := ih hdigit
      rw [versionCoreLength_more (digitsLength_pos.mpr h) hrest hparts hdigit, hn]
      exact ⟨_, rfl⟩

theorem stringBody_fault {quote : Char} {n d : Nat} {cs : List Char} {fault : LexicalFault}
    (h : stringBody quote n cs = .error (fault, d)) : fault ≠ .malformedVersion := by
  fun_induction stringBody quote n cs with
  | case1 | case3 | case4 | case5 =>
    cases h
    simp
  | case2 => cases h
  | case6 _ _ _ _ _ _ _ ih => exact ih (map_eq_error.mp h)
  | case7 _ _ _ _ _ _ ih => exact ih (map_eq_error.mp h)

theorem lexeme_fault {c : Char} {cs : List Char} {fault : LexicalFault} {d : Nat}
    (h : lexeme previous c cs = .error (fault, d)) : fault ≠ .malformedVersion := by
  rcases lexeme_error_cases h with hbody | ⟨-, ⟨hdigit, hversion⟩ | rfl | rfl⟩
  · exact stringBody_fault hbody
  · -- the first character is a digit, which is all that a version needs
    obtain ⟨core, hcore⟩ := @versionCoreLength_of_digit 2 (c :: cs) hdigit
    rw [versionLength, hcore] at hversion
    cases hversion
  · simp
  · simp

theorem scan_fault {p : Position} {cs : List Char} {e : LexicalError}
    (h : scan previous p cs = .error e) : e.fault ≠ .malformedVersion := by
  fun_induction scan previous p cs generalizing e with
  | case1 =>
    cases h
    simp
  | case2 | case5 => cases h
  | case3 =>
    rename_i hx
    cases h
    exact lexeme_fault hx
  | case4 =>
    rename_i hscan ih
    cases h
    exact ih hscan

theorem fault_of_message {fault : LexicalFault} (h : fault.message = "Malformed version number") :
    fault = .malformedVersion := by
  cases fault with
  | malformedVersion => rfl
  | unterminatedComment | unterminatedString | unterminatedPattern => exact absurd h (by decide)
  | invalidEscape c =>
    change "Invalid escape sequence: '\\" ++ c.toString ++ "'" = _ at h
    rw [String.append_assoc] at h
    exact absurd h (append_ne_of_head (c := 'I') rfl (by decide))
  | unexpected c =>
    change "Unexpected character: " ++ quoted c.toString = _ at h
    exact absurd h (append_ne_of_head (c := 'U') rfl (by decide))

/-! ## Words one behind the other -/

/-- The text is split into the words, wherever it starts. -/
def Splits (previous : Option TokenKind) (cs : List Char) (ws : List Word) : Prop :=
  ∀ p, ∃ stream, Scans previous p cs stream ∧ stream.tokens.map Token.word = ws

variable {ws : List Word}

theorem Splits.nil : Splits previous [] [] :=
  fun _ => ⟨_, .done (Bare.layoutLength trivial), rfl⟩

theorem Splits.blank {b : Char} (h : Splits previous rest ws) (hb : isLayoutBlank b = true) :
    Splits previous (b :: rest) ws := by
  intro p
  obtain ⟨stream, hscan, hwords⟩ := h (p.after [b])
  have hblank : Layout false [b] := .blank hb .nil
  exact ⟨stream, hscan.behind_gap (hblank.layoutLength_append (by simp)), hwords⟩

theorem Splits.lexeme {c : Char} {body value : List Char} {kind : TokenKind}
    (hbare : Bare (c :: (body ++ rest)))
    (hx : lexeme previous c (body ++ rest) = .ok ⟨kind, value, body.length⟩)
    (h : Splits (some kind) rest ws) :
    Splits previous (c :: (body ++ rest)) (⟨kind, String.ofList value⟩ :: ws) := by
  intro p
  obtain ⟨⟨ts, finish⟩, hscan, hwords⟩ := h ((p.after []).after (c :: body))
  have hfirst : Scans previous p ([] ++ c :: (body ++ rest)) _ :=
    .token hbare.layoutLength hx hscan
  refine ⟨_, hfirst, ?_⟩
  rw [List.map_cons, hwords]
  rfl

/-- A text without a colon starts no location. -/
theorem not_locates {cs : List Char} (h : ':' ∉ cs) : locates previous cs = false := by
  have := @locates_eq_false previous cs [] h .nil
  rwa [List.append_nil] at this

theorem Ordinary.lexeme {c : Char} {cs : List Char} {x : Lexeme} (h : Ordinary c cs x)
    (hcolon : ':' ∉ c :: cs) (hdigit : isDigit c = false) : lexeme previous c cs = .ok x := by
  rw [Lexer.lexeme, not_locates hcolon, if_neg Bool.false_ne_true, if_neg (by simp [hdigit]), h.eq]

theorem Splits.mark {c : Char} {m : Mark} (hc : Mark.ofChar? c = some m) (hcolon : ':' ∉ rest)
    (h : Splits (some (.mark m)) rest ws) : Splits previous (c :: rest) (.ofMark m :: ws) := by
  obtain ⟨hblank, hslash, hne, hdigit⟩ := markChar_plain hc
  have hx : Lexer.lexeme previous c ([] ++ rest) = .ok ⟨.mark m, [c], 0⟩ :=
    Ordinary.lexeme (.mark hc) (by simp [hcolon, hne.symm]) hdigit
  have := Splits.lexeme (bare_cons _ hblank hslash) hx h
  rwa [← (Mark.of_ofChar? hc).2, String.ofList_toList] at this

theorem Splits.name {name : String} (hname : IsName name.toList) (hcolon : ':' ∉ rest)
    (hstop : ∀ d ∈ rest.head?, isIdentifierChar d = false)
    (h : Splits (some (wordKind name.toList)) rest ws) :
    Splits previous (name.toList ++ rest) (.ofName name :: ws) := by
  obtain ⟨c, body, htext⟩ : ∃ c body, name.toList = c :: body := by
    cases htext : name.toList with
    | nil => simp [htext, IsName] at hname
    | cons c body => exact ⟨c, body, rfl⟩
  have hnone : ':' ∉ name.toList := not_mem_of_isName hname (by decide) (by decide)
  rw [Word.ofName]
  rw [htext] at hname hnone h ⊢
  obtain ⟨hstart, hdigit, hbody⟩ := hname
  have hword : Ordinary c (body ++ rest) ⟨wordKind (c :: body), c :: body, body.length⟩ := by
    have : Ordinary c (body ++ rest) _ := .word hstart hdigit
    rwa [takeWhile_run hbody hstop, verbatim, List.take_left] at this
  have hx : Lexer.lexeme previous c (body ++ rest) = _ :=
    hword.lexeme (by simpa [hcolon] using hnone) hdigit
  have hbare : Bare (c :: (body ++ rest)) := by
    refine bare_cons _ (not_blank_of_test hstart (by decide +kernel)) ?_
    rintro rfl
    exact absurd hstart (by decide)
  have := Splits.lexeme hbare hx h
  rwa [← htext, String.ofList_toList, htext] at this

theorem IsVersion.startsWithDigit {version : List Char} (h : IsVersion version) :
    ∃ c cs, version = c :: cs ∧ isDigit c = true := by
  have hlength := h.versionLength .nil
  rw [List.append_nil, Lexer.versionLength] at hlength
  obtain ⟨core, hcore, -⟩ := map_eq_ok.mp hlength
  have hdigit := digitsLength_pos.mp (versionCoreLength_cases hcore).1
  cases version with
  | nil => cases hdigit
  | cons c cs => exact ⟨c, cs, rfl, hdigit⟩

theorem IsVersion.isVersionChar {version : List Char} (h : IsVersion version) :
    ∀ c ∈ version, isVersionChar c = true := by
  have hlength := h.versionLength .nil
  rw [List.append_nil] at hlength
  simpa using isVersionChar_version hlength

theorem IsVersion.colon_not_mem {version : List Char} (h : IsVersion version) : ':' ∉ version :=
  fun hmem => absurd (h.isVersionChar ':' hmem) (by decide)

theorem Splits.version {version : String} (hversion : IsVersion version.toList)
    (hrest : Closes rest) (hcolon : ':' ∉ rest) (h : Splits (some .version) rest ws) :
    Splits (some (.mark .atSign)) (version.toList ++ rest) (⟨.version, version⟩ :: ws) := by
  obtain ⟨c, body, htext, hdigit⟩ := hversion.startsWithDigit
  have hlength := hversion.versionLength hrest
  have hnone := hversion.colon_not_mem
  rw [htext] at hlength hnone ⊢
  have hx : Lexer.lexeme (some (.mark .atSign)) c (body ++ rest) =
      .ok ⟨.version, c :: body, body.length⟩ := by
    rw [Lexer.lexeme, not_locates (by simpa [hcolon] using hnone), if_neg Bool.false_ne_true,
      if_pos (by simp [hdigit]), ← List.cons_append, hlength]
    simp [verbatim]
  have hbare : Bare (c :: (body ++ rest)) := by
    refine bare_cons _ (not_blank_of_test hdigit (by decide)) ?_
    rintro rfl
    exact absurd hdigit (by decide)
  have := Splits.lexeme hbare hx h
  rwa [← htext, String.ofList_toList] at this

theorem Splits.dotted {name : String} (hname : IsDotted name) (hcolon : ':' ∉ rest)
    (hstop : ∀ d ∈ rest.head?, isIdentifierChar d = false)
    (h : ∀ previous, Splits previous rest ws) :
    Splits previous (name.toList ++ rest) (dottedWords name ++ ws) := by
  obtain ⟨first, others, rfl, hparts⟩ := hname
  rw [dottedWords_intercalate hparts, String.toList_intercalate]
  induction others generalizing first previous with
  | nil => simpa using (h _).name (hparts first (by simp)) hcolon hstop
  | cons second others ih =>
    rw [List.forall_mem_cons] at hparts
    obtain ⟨hfirst, hparts⟩ := hparts
    have hmore : Splits (some (.mark .dot)) _ _ := ih second hparts
    have hnone : ':' ∉ ['.'].intercalate ((second :: others).map String.toList) := by
      refine not_mem_intercalate (by decide) fun cs hcs => ?_
      obtain ⟨part, hpart, rfl⟩ := List.mem_map.mp hcs
      exact not_mem_of_isName (hparts part hpart) (by decide) (by decide)
    have hpoint : Splits (some (wordKind first.toList)) _ _ :=
      hmore.mark (c := '.') rfl (by simpa [hcolon] using hnone)
    have : Splits previous _ _ :=
      hpoint.name hfirst (by simpa [hcolon] using hnone) (by simp; decide)
    simpa [List.intercalate_cons_cons] using this

/-- A keyword, a blank, and a name with a version. -/
theorem Splits.versioned (k : Keyword) {name version : String} (hname : IsDotted name)
    (hversion : IsVersion version.toList) (hrest : Closes rest) (hcolon : ':' ∉ rest)
    (h : Splits (some .version) rest ws) :
    Splits previous (k.text.toList ++ ' ' :: (name.toList ++ '@' :: (version.toList ++ rest)))
      (.ofKeyword k :: (dottedWords name ++ (versionWords (some version) ++ ws))) := by
  have hversionColon : ':' ∉ '@' :: (version.toList ++ rest) := by
    simp [hversion.colon_not_mem, hcolon]
  have hmarked (other : Option TokenKind) :
      Splits other ('@' :: (version.toList ++ rest)) (versionWords (some version) ++ ws) :=
    (h.version hversion hrest hcolon).mark rfl (List.not_mem_of_not_mem_cons hversionColon)
  have hdotted : Splits (some (.keyword k)) _ _ :=
    Splits.dotted hname hversionColon (by simp; decide) hmarked
  obtain ⟨hkeyword, hkind⟩ := isName_keyword k
  rw [← hkind] at hdotted
  have hline : Splits previous _ _ :=
    (hdotted.blank (b := ' ') (by decide)).name hkeyword ?_ (by simp; decide)
  · rwa [Word.ofName, hkind] at hline
  · have hnone : ':' ∉ name.toList := hname.not_mem (by decide) (by decide) (by decide)
    simpa [hnone] using hversionColon

/-! ## One line under another -/

/-- The kind of the last word, or what came before the first one. -/
def lastWordKind (previous : Option TokenKind) (ws : List Word) : Option TokenKind :=
  ws.foldl (fun _ w => some w.kind) previous

theorem lastKind_eq (ts : List Token) :
    lastKind previous ts = lastWordKind previous (ts.map Token.word) := by
  induction ts generalizing previous with
  | nil => rfl
  | cons t ts ih => exact ih

variable {cs s : List Char} {vs : List Word}

theorem Splits.append_line (h : Splits previous cs ws)
    (hmore : Splits (lastWordKind previous ws) ('\n' :: s) vs) :
    Splits previous (cs ++ '\n' :: s) (ws ++ vs) := by
  intro p
  obtain ⟨stream, hscan, rfl⟩ := h p
  rw [← lastKind_eq] at hmore
  obtain ⟨more, hscanMore, rfl⟩ := hmore stream.finish
  exact ⟨_, hscan.append_line hscanMore, List.map_append⟩

theorem Splits.of_append_line (h : Splits previous cs ws)
    (hwhole : Splits previous (cs ++ '\n' :: s) vs) :
    ∃ us, Splits (lastWordKind previous ws) ('\n' :: s) us ∧ vs = ws ++ us := by
  obtain ⟨stream, hscan, rfl⟩ := h .start
  obtain ⟨whole, hscanWhole, rfl⟩ := hwhole .start
  obtain ⟨more, hmore, rfl⟩ := hscan.of_append_line hscanWhole
  rw [← lastKind_eq]
  exact ⟨more.tokens.map Token.word, fun p => hmore.move p, List.map_append⟩

/-- Behind tokens that are neither `from` nor `@` a text is split in one way. -/
theorem Splits.behind {other : Option TokenKind} (h : Splits previous cs ws) (hp : Plain previous)
    (ho : Plain other) : Splits other cs ws := by
  intro p
  obtain ⟨stream, hscan, hwords⟩ := h p
  refine ⟨stream, ?_, hwords⟩
  cases hscan with
  | done hgap => exact .done hgap
  | token hgap hx hnext =>
    rw [hp.lexeme, ← ho.lexeme] at hx
    exact .token hgap hx hnext

theorem splits_iff {source : String} :
    Splits none source.toList ws ↔ ∃ stream, tokenize source = .ok stream ∧
      stream.tokens.map Token.word = ws := by
  constructor
  · intro h
    obtain ⟨stream, hscan, hwords⟩ := h .start
    exact ⟨stream, hscan.scan_eq, hwords⟩
  · rintro ⟨stream, hscan, rfl⟩ p
    exact (Scans.of_scan hscan).move p

end Lexer

/-! ## Lines of a document -/

/-- The word as a token, at the start of a text. -/
def Word.token (w : Word) : Token :=
  ⟨w.kind, w.text, .start⟩

theorem map_word_token (ws : List Word) : (ws.map Word.token).map Token.word = ws := by
  simp [Function.comp_def, Word.token, Token.word]

/-- Words are read in one way. -/
theorem Reader.Reads.unique {α : Type} {p : Reader α} {w w' u u' : List Word} {a a' : α}
    (h : Reads p w a (kinds u)) (h' : Reads p w' a' (kinds u')) (heq : w ++ u = w' ++ u') :
    a = a' ∧ u = u' := by
  have hkinds (ws : List Word) : (ws.map Word.token).map (·.kind) = kinds ws := by
    rw [map_kind, map_word_token]
  have hread := h (w.map Word.token) (u.map Word.token) (map_word_token w) (hkinds u)
  have hread' := h' (w'.map Word.token) (u'.map Word.token) (map_word_token w') (hkinds u')
  rw [← List.map_append, heq, List.map_append, hread'] at hread
  simp only [Except.ok.injEq, Prod.mk.injEq] at hread
  refine ⟨hread.1.symm, ?_⟩
  rw [← map_word_token u, ← map_word_token u', hread.2]

namespace Phrase

theorem Imports.append {before o after : Bool} {ws vs : List Word} {is js : List Import}
    (h : Imports before o ws is) (h' : Imports o after vs js) :
    Imports before after (ws ++ vs) (is ++ js) := by
  induction h with
  | nil => exact h'
  | cons hw _ ih =>
    rw [List.append_assoc]
    exact .cons hw (ih h')

/-- What may stand behind the lines of a header that are not open: imports and declarations. -/
def Tail (ws : List Word) (m : Model) : Prop :=
  ∃ o is ds, ws = is ++ ds ∧ Imports false o is m.imports ∧ Many DeclarationOf ds m.declarations ∧
    (o = true → Stops [.mark .atSign] (kinds ds))

/-- The line of the namespace is read as it stands in a document. -/
theorem NamespaceLine.reads {o : Bool} {n is ds : List Word} {id : Namespace}
    {imports : List Import} {declarations : List Declaration} (h : NamespaceLine n id)
    (hi : Imports id.version?.isNone o is imports) (hds : Many DeclarationOf ds declarations)
    (hopen : o = true → Stops [.mark .atSign] (kinds ds)) :
    Reader.Reads Reader.namespaceLine n id (kinds (is ++ ds)) := by
  have hfollows : Stops Reader.headerStops (kinds ds) := by
    simpa using Reader.declarations_follow hds stops_nil
  rw [kinds_append]
  refine Reader.namespaceLine_reads h (fun hv => ?_) (fun _ => ?_)
  · exact hi.stops (by simp) fun hsame => hopen (hsame ▸ hv)
  · refine hi.stops (by simp) fun _ => hfollows.mono ?_
    simp [Reader.headerStops, Reader.importStops]

/-- A document that starts with a versioned namespace. -/
theorem document_namespace_iff {name version : String} (hname : IsDotted name) {ws : List Word}
    {m : Model} :
    Document (.ofKeyword .namespaceKw ::
      (dottedWords name ++ (versionWords (some version) ++ ws))) m ↔
        Tail ws m ∧ m.id = ⟨name, some version⟩ ∧ m.languageVersion? = none ∧
          m.decorators = [] := by
  have hline : NamespaceLine
      [[.ofKeyword .namespaceKw], dottedWords name, versionWords (some version)].flatten
      ⟨name, some version⟩ := .intro (.intro _) (dotted_words hname) (version_words _)
  constructor
  · intro h
    generalize hwords : Word.ofKeyword .namespaceKw :: _ = words at h
    cases h with
    | @intro o _ ds _ _ hheader hds hopen =>
    cases hheader with
    | @intro _ _ n is _ _ id _ hl hd hn hi =>
    cases hl with
    | present hc =>
      obtain ⟨text⟩ := hc
      simp [Word.ofKeyword] at hwords
    | absent =>
    cases hd with
    | cons hdecorator =>
      obtain ⟨w, rest, rfl, hk⟩ := hdecorator.starts
      simp only [List.flatten_cons, List.nil_append, List.cons_append, List.cons.injEq] at hwords
      simp [← hwords.1, Word.ofKeyword] at hk
    | nil =>
    have hread := hn.reads hi hds hopen
    have hcanonical : Reader.Reads Reader.namespaceLine _ ⟨name, some version⟩ (kinds ws) :=
      Reader.namespaceLine_reads hline (by simp) (by simp)
    obtain ⟨rfl, rfl⟩ := hcanonical.unique hread (by simpa using hwords)
    exact ⟨⟨o, is, ds, rfl, hi, hds, hopen⟩, rfl, rfl, rfl⟩
  · obtain ⟨id, languageVersion?, decorators, imports, declarations⟩ := m
    rintro ⟨⟨o, is, ds, rfl, his, hds, hopen⟩, rfl, rfl, rfl⟩
    have hheader : Header o _ _ := .intro .absent .nil hline his
    have := Document.intro hheader hds hopen
    simpa using this

/-- A line that is not open may stand between the header and what follows it. -/
theorem Document.insert_import {hs w ws : List Word} {front m : Model} {i : Import}
    (h : Document hs front) (hnone : front.declarations = []) (hi : ImportLine false w i)
    (ht : Tail ws m) :
    Document (hs ++ (w ++ ws)) { front with
      imports := front.imports ++ i :: m.imports
      declarations := m.declarations } := by
  obtain ⟨o', is, ds, rfl, his, hds, hopen⟩ := ht
  cases h with
  | @intro o _ _ _ _ hheader hnothing _ =>
  cases hheader with
  | intro hl hd hn hfront =>
    cases hnone
    cases hnothing with
    | nil =>
    have := Document.intro (.intro hl hd hn (hfront.append (.cons hi his))) hds hopen
    simpa using this

end Phrase

/-- The words of a line that imports a type from a version of a namespace. -/
def importTypeWords (name version type : String) : List Word :=
  .ofKeyword .importKw ::
    (dottedWords name ++ (versionWords (some version) ++ [.ofMark .dot, .ofName type]))

theorem Phrase.importLine_type {name version : String} (hname : IsDotted name) (type : String) :
    ImportLine false (importTypeWords name version type)
      { target := ⟨name, some version⟩, scope := .types [type] } := by
  have : ImportLine false _ ⟨⟨name, some version⟩, .types [type], none⟩ :=
    .here (.intro "import") (versioned_words hname (.type (name_words type)))
  simpa [importTypeWords, Word.ofKeyword, Keyword.text] using this

theorem Model.read_eq_ok_splits {source : String} {m : Model} :
    Model.read source = .ok m ↔
      ∃ ws, Lexer.Splits none source.toList ws ∧ Phrase.Document ws m := by
  simp only [Model.read_eq_ok, Lexer.splits_iff]
  constructor
  · rintro ⟨stream, hstream, h⟩
    exact ⟨_, ⟨stream, hstream, rfl⟩, h⟩
  · rintro ⟨_, ⟨stream, hstream, rfl⟩, h⟩
    exact ⟨stream, hstream, h⟩

namespace Lexer

variable {name version type : String}

/-- The words of a line that declares the version of a namespace. -/
theorem splits_namespace (hname : IsDotted name) (hversion : IsVersion version.toList) :
    Splits none ("namespace " ++ name ++ "@" ++ version).toList
      (.ofKeyword .namespaceKw :: (dottedWords name ++ (versionWords (some version) ++ []))) := by
  have : Splits none _ _ := .versioned .namespaceKw hname hversion .nil (by simp) .nil
  simpa [Keyword.text] using this

theorem splits_import {previous : Option TokenKind} (hname : IsDotted name)
    (hversion : IsVersion version.toList) (htype : IsName type.toList)
    (hstart : ∀ c ∈ type.toList.head?, isDigit c = false ∧ isLowerCase c = false) :
    Splits previous ("import " ++ name ++ "@" ++ version ++ "." ++ type).toList
      (importTypeWords name version type) := by
  have hclose : Closes ('.' :: type.toList) := by
    refine .point ?_
    cases htext : type.toList with
    | nil => rfl
    | cons c cs => simpa [pointGoesOn] using hstart c (by simp [htext])
  have hcolon : ':' ∉ type.toList := not_mem_of_isName htype (by decide) (by decide)
  have hword : Splits (some (.mark .dot)) type.toList [.ofName type] := by
    simpa using Splits.nil.name htype (by simp) (by simp)
  have : Splits previous _ _ :=
    .versioned .importKw hname hversion hclose (by simpa using hcolon) (hword.mark rfl hcolon)
  simpa [Keyword.text, importTypeWords] using this

theorem lastWordKind_importTypeWords {previous : Option TokenKind} (hs : List Word) :
    lastWordKind previous (hs ++ importTypeWords name version type) =
      some (wordKind type.toList) := by
  simp [lastWordKind, importTypeWords, Word.ofName]

/-- A name that does not start in lower case is not `from`. -/
theorem plain_wordKind {word : List Char} (h : ∀ c ∈ word.head?, isLowerCase c = false) :
    Plain (some (wordKind word)) := by
  unfold wordKind
  cases hkeyword : Keyword.ofText? (String.ofList word) with
  | none => decide
  | some k =>
    refine ⟨?_, by simp⟩
    intro hfrom
    cases hfrom
    have htext : Keyword.fromKw.text = String.ofList word := by
      simpa using List.find?_some hkeyword
    have hword : word = Keyword.fromKw.text.toList := by rw [htext, String.toList_ofList]
    have hlower := h 'f' (by rw [hword]; rfl)
    revert hlower
    decide

end Lexer

open Lexer

/-- An import at the end of a heading, and a document with what may stand behind it. -/
theorem splits_heading {name version type heading : String} {front : Model}
    (hname : IsDotted name) (hversion : IsVersion version.toList) (htype : IsName type.toList)
    (hstart : ∀ c ∈ type.toList.head?, isDigit c = false ∧ isLowerCase c = false)
    (hfront : Model.read heading = .ok front) (hnone : front.declarations = []) :
    ∃ hs, Splits none
        (heading ++ "\n" ++ ("import " ++ name ++ "@" ++ version ++ "." ++ type)).toList
        (hs ++ importTypeWords name version type) ∧
      ∀ ws m, Phrase.Tail ws m →
        Phrase.Document (hs ++ (importTypeWords name version type ++ ws)) { front with
          imports := front.imports ++
            { target := ⟨name, some version⟩, scope := .types [type] } :: m.imports
          declarations := m.declarations } := by
  obtain ⟨hs, hheading, hdocument⟩ := Model.read_eq_ok_splits.mp hfront
  have hstatement : Splits (lastWordKind none hs) ('\n' :: _) _ :=
    (splits_import hname hversion htype hstart).blank (by decide)
  refine ⟨hs, ?_, fun ws m htail => ?_⟩
  · simpa using hheading.append_line hstatement
  · exact hdocument.insert_import hnone (Phrase.importLine_type hname type) htail

/-- A namespace, a version of it and a type are found in a line that declares the first two and in
one that imports the type, whatever the parts of the version and the segments of its suffix are.
Both lines stand in any document that can go on behind them, and no text at all is refused because
of a malformed version. -/
theorem Model.read_versioned :
    (∀ name version type : String, IsDotted name → IsVersion version.toList →
      IsName type.toList →
      (∀ c ∈ type.toList.head?, isDigit c = false ∧ isLowerCase c = false) →
      let line := "namespace " ++ name ++ "@" ++ version
      let statement := "import " ++ name ++ "@" ++ version ++ "." ++ type
      let imported : Import := { target := ⟨name, some version⟩, scope := .types [type] }
      Model.read (line ++ "\n") = .ok { id := ⟨name, some version⟩ } ∧
      (∀ heading front, Model.read heading = .ok front → front.declarations = [] →
        Model.read (heading ++ "\n" ++ statement) =
          .ok { front with imports := front.imports ++ [imported] }) ∧
      ∀ rest m, Model.read (line ++ "\n" ++ rest) = .ok m → m.id = ⟨name, some version⟩ ∧
        ∀ heading front, Model.read heading = .ok front → front.declarations = [] →
          Model.read (heading ++ "\n" ++ statement ++ "\n" ++ rest) = .ok { front with
            imports := front.imports ++ imported :: m.imports
            declarations := m.declarations }) ∧
    ∀ source e, tokenize source = .error e → e.fault.message ≠ "Malformed version number" := by
  refine ⟨?_, fun source e h hmessage => scan_fault h (fault_of_message hmessage)⟩
  intro name version type hname hversion htype hstart line statement imported
  have hline := splits_namespace hname hversion
  refine ⟨?_, fun heading front hfront hnone => ?_, fun rest m hm => ?_⟩
  · refine Model.read_eq_ok_splits.mpr ⟨_, ?_, (Phrase.document_namespace_iff hname).mpr
      ⟨⟨_, [], [], rfl, .nil, .nil, by simp⟩, rfl, rfl, rfl⟩⟩
    simpa [line] using hline.append_line (s := []) (Splits.nil.blank (by decide))
  · obtain ⟨hs, hsplits, hdocument⟩ :=
      splits_heading hname hversion htype hstart hfront hnone
    refine Model.read_eq_ok_splits.mpr ⟨_, hsplits, ?_⟩
    have htail : Phrase.Tail [] { id := front.id } := ⟨_, [], [], rfl, .nil, .nil, by simp⟩
    simpa [hnone] using hdocument _ _ htail
  · -- what stands behind the line is split in the same way behind the name of the type
    obtain ⟨ws, hwhole, hdocument⟩ := Model.read_eq_ok_splits.mp hm
    obtain ⟨us, hrest, rfl⟩ :=
      hline.of_append_line (s := rest.toList) (by simpa [line] using hwhole)
    have hlast : lastWordKind none (.ofKeyword .namespaceKw ::
        (dottedWords name ++ (versionWords (some version) ++ []))) = some .version := by
      simp [lastWordKind, versionWords]
    rw [hlast] at hrest
    rw [List.cons_append, List.append_assoc, List.append_assoc, List.nil_append,
      Phrase.document_namespace_iff hname] at hdocument
    obtain ⟨htail, hid, -⟩ := hdocument
    refine ⟨hid, fun heading front hfront hnone => ?_⟩
    obtain ⟨hs, hsplits, hinserted⟩ :=
      splits_heading hname hversion htype hstart hfront hnone
    refine Model.read_eq_ok_splits.mpr ⟨_, ?_, hinserted _ _ htail⟩
    have hbehind : Splits (lastWordKind none (hs ++ importTypeWords name version type))
        ('\n' :: rest.toList) us := by
      rw [lastWordKind_importTypeWords]
      exact hrest.behind (by decide) (plain_wordKind fun c hc => (hstart c hc).2)
    simpa [statement] using hsplits.append_line hbehind

/-- A version with three parts and a suffix of two segments, and the type behind it. -/
theorem Model.read_versioned_candidate :
    let statement := "import a.b@1.20.3-rc-1.x2.T"
    let imported : Import := { target := ⟨"a.b", some "1.20.3-rc-1.x2"⟩, scope := .types ["T"] }
    Model.read "namespace a.b@1.20.3-rc-1.x2\n" = .ok { id := ⟨"a.b", some "1.20.3-rc-1.x2"⟩ } ∧
      Model.read ("namespace c // open\n" ++ statement ++ "\nconcept A\x7b\x7d") = .ok
        { id := ⟨"c", none⟩
          imports := [imported]
          declarations := [{ name := "A", body := .classBody { kind := .concept } }] } := by
  intro statement imported
  have hname : IsDotted "a.b" := ⟨"a", ["b"], by decide, by decide⟩
  have hruns : ∀ run ∈ ["1".toList, "20".toList, "3".toList],
      run ≠ [] ∧ run.all isDigit = true := by decide
  have hcore : IsCore "1.20.3".toList :=
    ⟨"1".toList, ["20".toList, "3".toList], by decide, by decide,
      fun run hrun => (hruns run hrun).imp_right List.all_eq_true.mp⟩
  have hsuffix : IsSuffix "rc-1.x2".toList := by
    refine ⟨"rc-1".toList, ["x2".toList], by decide,
      ⟨⟨'r', rfl, by decide⟩, List.all_eq_true.mp (by decide)⟩, ?_⟩
    simp only [List.mem_singleton, forall_eq]
    exact ⟨⟨'x', rfl, by decide +kernel⟩, List.all_eq_true.mp (by decide)⟩
  obtain ⟨hline, -, hbehind⟩ := Model.read_versioned.1 "a.b" "1.20.3-rc-1.x2" "T" hname
    (.marked hcore (.inl rfl) hsuffix) (by decide) (fun c hc => by cases hc; decide +kernel)
  have hrest : Model.read "namespace a.b@1.20.3-rc-1.x2\nconcept A\x7b\x7d" = .ok
      { id := ⟨"a.b", some "1.20.3-rc-1.x2"⟩
        declarations := [{ name := "A", body := .classBody { kind := .concept } }] } := by
    decide +kernel
  have hfront : Model.read "namespace c // open" = .ok { id := ⟨"c", none⟩ } := by decide +kernel
  exact ⟨hline, (hbehind "concept A\x7b\x7d" _ hrest).2 "namespace c // open" _ hfront rfl⟩

end Covenant
