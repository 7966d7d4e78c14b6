/-
Words written out as text. Words with one blank between them are split into the same
words again, provided that each can be read behind the one before it
(`Lexer.scan_spell`). The word before matters in two places only: a digit behind `@`
starts a version, and behind `from` a run of characters with a scheme is a location.

The other way round, what the words of a text look like follows from their kinds
(`Lexer.Scans.shaped`).
-/
import Covenant.Proofs.Grammar
import Covenant.Proofs.Scanning

namespace Covenant

open Covenant.Text

/-! ## Spelling -/

/-- A character between double quotes. -/
def escapedChar (c : Char) : List Char :=
  if c = '\\' then ['\\', '\\']
  else if c = '"' then ['\\', '"']
  else if c = '\n' then ['\\', 'n']
  else [c]

/-- A text in double quotes. -/
def inQuotes (text : String) : List Char :=
  '"' :: (text.toList.flatMap escapedChar ++ ['"'])

/-- How a word is written: a string in double quotes, everything else as it is. -/
def Word.spelling (w : Word) : List Char :=
  if w.kind = .string then inQuotes w.text else w.text.toList

/-- Words with a blank before each of them. -/
def trail (ws : List Word) : List Char :=
  ws.flatMap fun w => ' ' :: w.spelling

/-- Words with one blank between them. -/
def spell : List Word → List Char
  | [] => []
  | w :: ws => w.spelling ++ trail ws

theorem Word.spelling_of_isName {w : Word} (h : Reader.isName w.kind = true) :
    w.spelling = w.text.toList := by
  rw [Word.spelling, if_neg]
  intro hk
  rw [hk] at h
  cases h

/-- The characters that are marks by themselves. -/
def markChars : List Char :=
  ['\x7b', '\x7d', '[', ']', '(', ')', ',', '.', '=', '@', '*']

theorem Mark.of_ofChar? {c : Char} {m : Mark} (h : Mark.ofChar? c = some m) :
    c ∈ markChars ∧ m.text.toList = [c] := by
  unfold Mark.ofChar? at h
  split at h <;> cases h <;> decide

theorem Mark.eq_arrow_or (m : Mark) : m = .arrow ∨ ∃ c, Mark.ofChar? c = some m := by
  cases m with
  | leftBrace => exact .inr ⟨'\x7b', rfl⟩
  | rightBrace => exact .inr ⟨'\x7d', rfl⟩
  | leftBracket => exact .inr ⟨'[', rfl⟩
  | rightBracket => exact .inr ⟨']', rfl⟩
  | leftParen => exact .inr ⟨'(', rfl⟩
  | rightParen => exact .inr ⟨')', rfl⟩
  | comma => exact .inr ⟨',', rfl⟩
  | dot => exact .inr ⟨'.', rfl⟩
  | equals => exact .inr ⟨'=', rfl⟩
  | atSign => exact .inr ⟨'@', rfl⟩
  | star => exact .inr ⟨'*', rfl⟩
  | arrow => exact .inl rfl

namespace Lexer

/-- What may follow a word that is written out: nothing, or a blank. -/
def Ends (rest : List Char) : Prop :=
  ∀ b ∈ rest.head?, b = ' '

theorem Ends.nil : Ends [] := by simp [Ends]

theorem Ends.blank (rest : List Char) : Ends (' ' :: rest) := by simp [Ends]

theorem Ends.trail (ws : List Word) : Ends (trail ws) := by
  cases ws with
  | nil => exact .nil
  | cons w ws => exact .blank _

theorem Ends.halts {rest : List Char} (h : Ends rest) : Halts rest := by
  cases rest with
  | nil => exact .nil
  | cons b rest =>
    obtain rfl : b = ' ' := h b (by simp)
    exact .blank rest

theorem Ends.head_ne {rest : List Char} (h : Ends rest) :
    ∀ d ∈ rest.head?, d ≠ '/' ∧ d ≠ '*' := by
  intro d hd
  rw [h d hd]
  decide

/-- The word can be read behind a token of kind `previous`. -/
def Legible (previous : Option TokenKind) (w : Word) : Prop :=
  ∃ c body, w.spelling = c :: body ∧ ∀ rest, Ends rest →
    Bare (c :: (body ++ rest)) ∧
    lexeme previous c (body ++ rest) = .ok ⟨w.kind, w.text.toList, body.length⟩

/-- Each word can be read behind the one before it, the first one behind a token of kind
`previous`. -/
def LegibleFrom : Option TokenKind → List Word → Prop
  | _, [] => True
  | previous, w :: ws => Legible previous w ∧ LegibleFrom (some w.kind) ws

theorem Legible.scans {previous : Option TokenKind} {w : Word} {ws : List Word} {p : Position}
    {gap rest : List Char}
    (h : Legible previous w) (hrest : Ends rest) (hgap : gap = [] ∨ gap = [' '])
    (next : ∀ q, ∃ stream, Scans (some w.kind) q rest stream ∧ stream.tokens.map Token.word = ws) :
    ∃ stream, Scans previous p (gap ++ (w.spelling ++ rest)) stream ∧
      stream.tokens.map Token.word = w :: ws := by
  obtain ⟨c, body, hw, hread⟩ := h
  obtain ⟨hbare, hx⟩ := hread rest hrest
  obtain ⟨⟨ts, finish⟩, hscan, hws⟩ := next ((p.after gap).after (c :: body))
  have hlayout : layoutLength (gap ++ c :: (body ++ rest)) = .ok gap.length := by
    rcases hgap with rfl | rfl
    · exact hbare.layoutLength
    · show layoutLength (' ' :: c :: (body ++ rest)) = .ok 1
      rw [layoutLength_blank _ (by decide), hbare.layoutLength]
      rfl
  rw [hw]
  refine ⟨_, .token hlayout hx hscan, ?_⟩
  simp [Token.word, ← hws]

theorem scans_trail {previous : Option TokenKind} {ws : List Word} (h : LegibleFrom previous ws)
    (p : Position) :
    ∃ stream, Scans previous p (trail ws) stream ∧ stream.tokens.map Token.word = ws := by
  induction ws generalizing previous p with
  | nil => exact ⟨_, .done (Bare.layoutLength trivial), rfl⟩
  | cons w ws ih => exact h.1.scans (.trail ws) (.inr rfl) (ih h.2)

/-- Words that can be read one behind the other are read back from their spelling. -/
theorem scan_spell {previous : Option TokenKind} {ws : List Word} (h : LegibleFrom previous ws)
    (p : Position) :
    ∃ stream, scan previous p (spell ws) = .ok stream ∧ stream.tokens.map Token.word = ws := by
  cases ws with
  | nil => exact ⟨_, Scans.scan_eq (.done (Bare.layoutLength trivial)), rfl⟩
  | cons w ws =>
    obtain ⟨stream, hscan, hws⟩ := h.1.scans (p := p) (.trail ws) (.inl rfl) (scans_trail h.2)
    exact ⟨stream, hscan.scan_eq, hws⟩

/-! ## Which words can be read -/

/-- A character that opens no layout. -/
theorem bare_cons {c : Char} (cs : List Char) (h : isLayoutBlank c = false) (hc : c ≠ '/') :
    Bare (c :: cs) :=
  ⟨h, fun hs => absurd hs hc⟩

theorem hasScheme_eq_false {cs : List Char} (h : ':' ∉ cs) : hasScheme cs = false := by
  induction cs with
  | nil => rfl
  | cons c cs ih =>
    simp only [List.mem_cons, not_or] at h
    simp [hasScheme, List.isPrefixOf, h.1, ih h.2]

theorem takeWhile_ends {test : Char → Bool} {cs rest : List Char} (hs : Ends rest)
    (hb : test ' ' = false) : (cs ++ rest).takeWhile test = cs.takeWhile test := by
  have hcut := takeWhile_cut (k := cs.length) (fun b hmem => hs b hmem ▸ hb)
    (takeWhile_length_le test cs)
  rwa [List.take_length] at hcut

/-- A word without a colon starts no location, whatever stands before it. -/
theorem locates_eq_false {previous : Option TokenKind} (cs : List Char) {rest : List Char}
    (hcs : ':' ∉ cs) (hs : Ends rest) : locates previous (cs ++ rest) = false := by
  have : ':' ∉ (cs ++ rest).takeWhile (!isUriEnd ·) := by
    rw [takeWhile_ends hs (by decide)]
    exact fun hm => hcs ((List.takeWhile_sublist _).mem hm)
  simp [locates, hasScheme_eq_false this]

/-- An ordinary lexeme that no version and no location is confused with. -/
theorem Legible.of_ordinary {previous : Option TokenKind} {w : Word} (c : Char) (body : List Char)
    (hw : w.spelling = c :: body)
    (hbare : ∀ rest, Ends rest → Bare (c :: (body ++ rest)))
    (hplain : ∀ rest, Ends rest → locates previous (c :: (body ++ rest)) = false)
    (hversion : previous = some (.mark .atSign) → isDigit c = false)
    (h : ∀ rest, Ends rest →
      Ordinary c (body ++ rest) ⟨w.kind, w.text.toList, body.length⟩) : Legible previous w := by
  refine ⟨c, body, hw, fun rest hs => ⟨hbare rest hs, ?_⟩⟩
  rw [lexeme, hplain rest hs, if_neg Bool.false_ne_true, if_neg, (h rest hs).eq]
  simpa using hversion

/-- The shape of names: keywords and identifiers. -/
def IsName : List Char → Prop
  | [] => False
  | c :: cs => isIdentifierStart c = true ∧ isDigit c = false ∧ ∀ d ∈ cs, isIdentifierChar d = true

instance : DecidablePred IsName
  | [] => .isFalse id
  | c :: cs =>
    have : Decidable (∀ d ∈ cs, isIdentifierChar d = true) := List.decidableBAll _ cs
    inferInstanceAs (Decidable (isIdentifierStart c = true ∧ isDigit c = false ∧
      ∀ d ∈ cs, isIdentifierChar d = true))

theorem not_mem_of_test {test : Char → Bool} {cs : List Char} {d : Char}
    (h : ∀ c ∈ cs, test c = true) (hd : test d = false) : d ∉ cs := by
  intro hm
  simp [h d hm] at hd

theorem not_mem_of_isName {cs : List Char} {d : Char} (h : IsName cs)
    (hstart : isIdentifierStart d = false) (hchar : isIdentifierChar d = false) : d ∉ cs := by
  cases cs with
  | nil => simp
  | cons c cs =>
    rw [List.mem_cons, not_or]
    refine ⟨?_, not_mem_of_test h.2.2 hchar⟩
    rintro rfl
    simp [h.1] at hstart

/-- A character that passes a test that no blank passes is no blank. -/
theorem not_blank_of_test {test : Char → Bool} {c : Char} (h : test c = true)
    (hs : [' ', '\t', '\r', '\n', '\ufeff'].all (!test ·) = true) : isLayoutBlank c = false := by
  cases hc : isLayoutBlank c with
  | false => rfl
  | true =>
    have hmem : c ∈ [' ', '\t', '\r', '\n', '\ufeff'] := by
      simpa [isLayoutBlank, or_assoc] using hc
    have := List.all_eq_true.mp hs c hmem
    simp [h] at this

theorem isName_wordKind (cs : List Char) : Reader.isName (wordKind cs) = true := by
  unfold wordKind
  split <;> rfl

theorem Legible.name {previous : Option TokenKind} {text : String} (h : IsName text.toList) :
    Legible previous ⟨wordKind text.toList, text⟩ := by
  cases htext : text.toList with
  | nil => simp [htext, IsName] at h
  | cons c body =>
    rw [htext] at h
    obtain ⟨hstart, hdigit, hbody⟩ := id h
    have hrun : ∀ rest, Ends rest → (body ++ rest).takeWhile isIdentifierChar = body :=
      fun rest hs => by rw [takeWhile_ends hs (by decide), List.takeWhile_eq_self_iff.mpr hbody]
    refine .of_ordinary c body ?_ (fun rest hs => ?_) (fun rest hs => ?_)
      (fun _ => hdigit) (fun rest hs => ?_)
    · rw [Word.spelling_of_isName (isName_wordKind _), htext]
    · refine bare_cons _ (not_blank_of_test hstart (by decide +kernel)) ?_
      rintro rfl
      exact absurd hstart (by decide)
    · exact locates_eq_false (c :: body) (not_mem_of_isName h (by decide) (by decide)) hs
    · have : Ordinary c (body ++ rest) _ := .word hstart hdigit
      rw [hrun rest hs, verbatim, List.take_left] at this
      rwa [htext]

theorem isName_keyword (k : Keyword) :
    IsName k.text.toList ∧ wordKind k.text.toList = .keyword k := by
  cases k <;> decide

theorem Legible.keyword (previous : Option TokenKind) (k : Keyword) :
    Legible previous ⟨.keyword k, k.text⟩ := by
  obtain ⟨hname, hkind⟩ := isName_keyword k
  have : Legible previous _ := .name hname
  rwa [hkind] at this

/-- A mark opens no layout, no location and no version. -/
theorem markChar_plain {c : Char} {m : Mark} (h : Mark.ofChar? c = some m) :
    isLayoutBlank c = false ∧ c ≠ '/' ∧ c ≠ ':' ∧ isDigit c = false := by
  have hall : markChars.all fun d =>
      isLayoutBlank d = false ∧ d ≠ '/' ∧ d ≠ ':' ∧ isDigit d = false := by
    decide
  simpa using List.all_eq_true.mp hall c (Mark.of_ofChar? h).1

theorem Legible.mark (previous : Option TokenKind) (m : Mark) :
    Legible previous ⟨.mark m, m.text⟩ := by
  rcases Mark.eq_arrow_or m with rfl | ⟨c, hc⟩
  · refine .of_ordinary '-' ['-', '>'] rfl
      (fun rest _ => bare_cons _ (by decide) (by decide))
      (fun rest hs => locates_eq_false ['-', '-', '>'] (by decide) hs) (fun _ => by decide)
      (fun rest _ => .arrow rfl ⟨rest, rfl⟩)
  · obtain ⟨hblank, hslash, hcolon, hdigit⟩ := markChar_plain hc
    have htext := (Mark.of_ofChar? hc).2
    refine .of_ordinary c [] htext (fun rest _ => bare_cons _ hblank hslash)
      (fun rest hs => locates_eq_false [c] (by simpa using hcolon.symm) hs)
      (fun _ => hdigit) (fun rest _ => ?_)
    rw [htext]
    exact .mark hc

/-- Behind such a token a literal is read as one: it is taken neither for a version nor for a
location. -/
def Plain (previous : Option TokenKind) : Prop :=
  previous ≠ some (.keyword .fromKw) ∧ previous ≠ some (.mark .atSign)

instance (previous : Option TokenKind) : Decidable (Plain previous) :=
  inferInstanceAs (Decidable (_ ∧ _))

theorem Plain.locates {previous : Option TokenKind} (h : Plain previous) (cs : List Char) :
    locates previous cs = false := by
  simp [Lexer.locates, h.1]

theorem Plain.lexeme {previous : Option TokenKind} (h : Plain previous) (c : Char)
    (cs : List Char) :
    lexeme previous c cs = ordinary c cs := by
  rw [Lexer.lexeme, h.locates, if_neg Bool.false_ne_true, if_neg (by simp [h.2])]

theorem stringBody_backslash (n : Nat) {e d : Char} (cs : List Char) (h : escaped? e = some d) :
    stringBody '"' n ('\\' :: e :: cs) =
      (stringBody '"' (n + 2) cs).map fun (ds, m) => (d :: ds, m) := by
  rw [stringBody.eq_def]
  simp [h]

theorem stringBody_escapedChar (n : Nat) (c : Char) (cs : List Char) :
    stringBody '"' n (escapedChar c ++ cs) =
      (stringBody '"' (n + (escapedChar c).length) cs).map fun (ds, m) => (c :: ds, m) := by
  unfold escapedChar
  split
  · rename_i hc
    rw [hc]
    exact stringBody_backslash n cs rfl
  split
  · rename_i hc
    rw [hc]
    exact stringBody_backslash n cs rfl
  split
  · rename_i hc
    rw [hc]
    exact stringBody_backslash n cs rfl
  · rename_i hback hquote hline
    rw [List.singleton_append, stringBody.eq_def]
    simp [hback, hquote, hline]

theorem stringBody_escaped (n : Nat) (text rest : List Char) :
    stringBody '"' n (text.flatMap escapedChar ++ '"' :: rest) =
      .ok (text, n + (text.flatMap escapedChar).length + 1) := by
  induction text generalizing n with
  | nil =>
    rw [List.flatMap_nil, List.nil_append, stringBody.eq_def]
    simp
  | cons c cs ih =>
    rw [List.flatMap_cons, List.append_assoc, stringBody_escapedChar, ih, List.length_append]
    simp only [Except.map, Except.ok.injEq, Prod.mk.injEq, true_and]
    omega

theorem Legible.string {previous : Option TokenKind} (h : Plain previous) (text : String) :
    Legible previous ⟨.string, text⟩ := by
  refine .of_ordinary '"' (text.toList.flatMap escapedChar ++ ['"']) rfl
    (fun rest _ => bare_cons _ (by decide) (by decide)) (fun rest _ => h.locates _)
    (fun _ => by decide) (fun rest _ => .string (.inl rfl) ?_)
  rw [List.append_assoc, List.singleton_append, stringBody_escaped, Nat.zero_add,
    List.length_append, List.length_singleton]

/-! ## What words look like -/

/-- What the text of a word looks like, given its kind. The literals with a free spelling are left
out: they are written in another way than they are read. -/
def Shaped (w : Word) : Prop :=
  match w.kind with
  | .keyword _ | .identifier => IsName w.text.toList ∧ wordKind w.text.toList = w.kind
  | .mark m => w.text = m.text
  | .version => Legible (some (.mark .atSign)) w
  | .uri => Legible (some (.keyword .fromKw)) w
  | .pattern => ∀ previous, Plain previous → Legible previous w
  | .string | .integer | .float => True

theorem regular_of_not_lowerCase {c : Char} (h : isLowerCase c = false) : Regular c := by
  simp [Regular, h]

theorem Ordinary.regular {c : Char} {cs : List Char} {x : Lexeme} (h : Ordinary c cs x) :
    Regular c := by
  have hall : signChars.all fun d => isLowerCase d = false := by decide +kernel
  have hsign (d : Char) (hd : d ∈ signChars) : isLowerCase d = false := by
    simpa using List.all_eq_true.mp hall d hd
  cases h with
  | mark hm =>
    have hmem := (Mark.of_ofChar? hm).1
    exact regular_of_not_lowerCase (hsign c (List.mem_of_mem_take (i := 11) hmem))
  | arrow hc | negative hc | pattern hc =>
    exact regular_of_not_lowerCase (hsign c (by simp [hc, signChars]))
  | string hc =>
    exact regular_of_not_lowerCase (hsign c (by rcases hc with rfl | rfl <;> simp [signChars]))
  | numeral hd => exact fun _ => isAlphanumeric_of_isDigit hd
  | word hi _ =>
    simp only [isIdentifierStart, Bool.or_eq_true, decide_eq_true_eq] at hi
    rcases hi with (hl | rfl) | rfl
    · exact fun _ => by simp [isAlphanumeric, hl]
    · exact regular_of_not_lowerCase (by decide +kernel)
    · exact regular_of_not_lowerCase (by decide +kernel)

theorem regular_of_layout {c : Char} {cs : List Char} {n : Nat}
    (h : layoutLength (c :: cs) = .ok (n + 1)) : Regular c := by
  have hchar : c ∈ [' ', '\t', '\r', '\n', '\ufeff', '/'] := by
    refine Decidable.byContradiction fun hm => ?_
    simp only [List.mem_cons, List.not_mem_nil, or_false, not_or] at hm
    obtain ⟨h1, h2, h3, h4, h5, h6⟩ := hm
    have := (bare_cons cs (by simp [isLayoutBlank, h1, h2, h3, h4, h5]) h6).layoutLength
    rw [this] at h
    cases h
  have hall : [' ', '\t', '\r', '\n', '\ufeff', '/'].all fun d => isLowerCase d = false := by
    decide +kernel
  exact regular_of_not_lowerCase (by simpa using List.all_eq_true.mp hall c hchar)

/-- What follows a version is no letter that could have continued it. -/
theorem Scans.regular {p : Position} {cs : List Char} {stream : TokenStream}
    (h : Scans (some .version) p cs stream) : ∀ d ∈ cs.head?, Regular d := by
  intro d hd
  obtain ⟨ds, rfl⟩ := List.head?_eq_some_iff.mp hd
  generalize hcs : d :: ds = cs at h
  cases h with
  | done hgap =>
    subst hcs
    exact regular_of_layout hgap
  | @token _ _ _ gap body rest _ c _ _ hgap hx _ =>
    cases gap with
    | nil =>
      cases hcs
      rw [Plain.lexeme (by decide)] at hx
      exact (Ordinary.of_ordinary hx).regular
    | cons e gap =>
      cases hcs
      exact regular_of_layout hgap

/-- A version that was read can be read again behind its mark. -/
theorem Legible.version {c : Char} {cs : List Char} {n : Nat} (hbare : Bare (c :: cs))
    (hd : isDigit c = true) (hv : versionLength (c :: cs) = .ok (n + 1))
    (hrest : ∀ d ∈ (cs.drop n).head?, Regular d) :
    Legible (some (.mark .atSign)) ⟨.version, String.ofList (c :: cs.take n)⟩ := by
  refine ⟨c, cs.take n, by simp [Word.spelling], fun other hs => ⟨hbare.cut hs.head_ne n, ?_⟩⟩
  have hcut := versionLength_cut hs.halts hv (Nat.le_refl _) hrest
  rw [List.take_succ_cons, List.cons_append] at hcut
  have hn : n ≤ cs.length := Nat.le_of_succ_le_succ (versionLength_le hv)
  have hl : locates (some (.mark .atSign)) (c :: (cs.take n ++ other)) = false := rfl
  rw [lexeme, hl, if_neg Bool.false_ne_true, if_pos (by simp [hd]), hcut]
  simp [verbatim, Nat.min_eq_left hn]

/-- A location that was read can be read again. -/
theorem Legible.uri {c : Char} {cs run : List Char} (hbare : Bare (c :: cs))
    (hrun : (c :: cs).takeWhile (!isUriEnd ·) = run) (hscheme : hasScheme run = true) :
    Legible (some (.keyword .fromKw)) ⟨.uri, String.ofList (c :: cs.take (run.length - 1))⟩ := by
  have hpos : 0 < run.length := by
    cases run with
    | nil => simp [hasScheme] at hscheme
    | cons => simp
  have htake : c :: cs.take (run.length - 1) = run := by
    have := take_takeWhile_length (!isUriEnd ·) (c :: cs)
    rwa [hrun, ← Nat.sub_add_cancel hpos, List.take_succ_cons] at this
  have hpass : ∀ d ∈ run, (!isUriEnd d) = true := fun d hm =>
    List.mem_takeWhile_imp (p := (!isUriEnd ·)) (hrun ▸ hm)
  have hcut : ∀ other, Ends other → Bare (c :: (cs.take (run.length - 1) ++ other)) :=
    fun other hs => hbare.cut hs.head_ne _
  generalize cs.take (run.length - 1) = body at htake hcut ⊢
  subst htake
  refine ⟨c, body, by simp [Word.spelling], fun other hs => ⟨hcut other hs, ?_⟩⟩
  have hagain : (c :: (body ++ other)).takeWhile (!isUriEnd ·) = c :: body := by
    rw [← List.cons_append, takeWhile_ends hs (by decide), List.takeWhile_eq_self_iff.mpr hpass]
  have hl : locates (some (.keyword .fromKw)) (c :: (body ++ other)) = true := by
    simp [locates, hagain, hscheme]
  rw [lexeme, hl, if_pos rfl, hagain, List.length_cons, Nat.add_sub_cancel, verbatim,
    List.take_left, String.toList_ofList]

/-- A pattern that was read can be read again as a literal. -/
theorem Legible.pattern {previous : Option TokenKind} {c : Char} {cs : List Char} {n : Nat}
    (h : Plain previous) (hbare : Bare (c :: cs)) (hx : Ordinary c cs (verbatim .pattern c cs n)) :
    Legible previous ⟨.pattern, String.ofList (c :: cs.take n)⟩ := by
  have hlen : (cs.take n).length = n := List.length_take_of_le hx.extent_le
  refine .of_ordinary c (cs.take n) (by simp [Word.spelling])
    (fun other hs => hbare.cut hs.head_ne n) (fun other _ => h.locates _) (fun ha => absurd ha h.2)
    (fun other hs => ?_)
  rw [String.toList_ofList, hlen]
  exact hx.cut hs.halts (Nat.le_refl _)

theorem shaped_of_isNumeral {w : Word} (h : w.kind = .float ∨ w.kind = .integer) : Shaped w := by
  rcases h with h | h <;> simp [Shaped, h]

theorem shaped_iff_isName {w : Word} (h : Reader.isName w.kind = true) :
    Shaped w ↔ IsName w.text.toList ∧ wordKind w.text.toList = w.kind := by
  obtain ⟨kind, text⟩ := w
  cases kind with
  | keyword | identifier => exact Iff.rfl
  | mark | string | integer | float | pattern | version | uri => cases h

theorem shaped_of_ordinary {c : Char} {cs : List Char} {x : Lexeme} (hbare : Bare (c :: cs))
    (h : Ordinary c cs x) : Shaped ⟨x.kind, String.ofList x.value⟩ := by
  have hx := h
  cases h with
  | mark hm =>
    show String.ofList [c] = _
    rw [← (Mark.of_ofChar? hm).2, String.ofList_toList]
  | arrow => rfl
  | negative | numeral => exact shaped_of_isNumeral (numeral_kind ..)
  | pattern => exact fun previous hp => .pattern hp hbare hx
  | string => trivial
  | word hi hd =>
    have hname : IsName (c :: cs.takeWhile isIdentifierChar) :=
      ⟨hi, hd, fun d hm => List.mem_takeWhile_imp hm⟩
    rw [verbatim, take_takeWhile_length]
    exact (shaped_iff_isName (isName_wordKind _)).mpr (by simpa using hname)

theorem shaped_of_lexeme {previous : Option TokenKind} {c : Char} {cs : List Char} {x : Lexeme}
    (hbare : Bare (c :: cs)) (hx : lexeme previous c cs = .ok x)
    (hrest : x.kind = .version → ∀ d ∈ (cs.drop x.extent).head?, Regular d) :
    Shaped ⟨x.kind, String.ofList x.value⟩ := by
  rw [lexeme] at hx
  split at hx
  · rename_i hl
    cases hx
    simp only [locates, Bool.and_eq_true] at hl
    exact .uri hbare rfl hl.2
  split at hx
  · rename_i hd
    split at hx
    · cases hx
    · rename_i r hr
      cases hx
      obtain ⟨n, rfl⟩ : ∃ n, r = n + 1 := ⟨r - 1, by have := versionLength_pos hr; omega⟩
      simp only [Bool.and_eq_true] at hd
      exact .version hbare hd.2 hr (hrest rfl)
  · exact shaped_of_ordinary hbare (.of_ordinary hx)

/-- Locations and versions are read in their context only. -/
theorem Ordinary.kind_ne {c : Char} {cs : List Char} {x : Lexeme} (h : Ordinary c cs x) :
    x.kind ≠ .uri ∧ x.kind ≠ .version := by
  cases h with
  | mark | arrow | pattern | string => simp [verbatim]
  | negative | numeral => rcases numeral_kind c cs with hn | hn <;> simp [hn]
  | word =>
    have hname := isName_wordKind (c :: cs.takeWhile isIdentifierChar)
    simp only [verbatim]
    constructor <;> intro hk <;> rw [hk] at hname <;> cases hname

theorem Shaped.isVersionChar {text : String} (h : Shaped ⟨.version, text⟩) :
    ∀ c ∈ text.toList, isVersionChar c = true := by
  obtain ⟨c, body, -, hread⟩ := h
  have hx := (hread [] .nil).2
  rw [lexeme] at hx
  split at hx
  · cases hx
  split at hx
  · split at hx
    · cases hx
    · rename_i r hr
      have hpos := versionLength_pos hr
      simp only [verbatim, Except.ok.injEq, Lexeme.mk.injEq] at hx
      rw [← hx.2.1, ← List.take_succ_cons, Nat.sub_add_cancel hpos]
      exact isVersionChar_version hr
  · exact absurd rfl (Ordinary.of_ordinary hx).kind_ne.2

/-- Every word of a text has the shape of its kind. -/
theorem Scans.shaped {previous : Option TokenKind} {p : Position} {cs : List Char}
    {stream : TokenStream} (h : Scans previous p cs stream) :
    ∀ w ∈ stream.tokens.map Token.word, Shaped w := by
  induction h with
  | done => simp
  | @token previous p finish gap body rest value c kind ts hgap hx hnext ih =>
    have hbare : Bare (c :: (body ++ rest)) := by
      have := bare_drop hgap
      rwa [List.drop_left] at this
    have hfirst : Shaped ⟨kind, String.ofList value⟩ := by
      refine shaped_of_lexeme hbare hx fun hk => ?_
      cases hk
      simpa using hnext.regular
    rw [List.map_cons, List.forall_mem_cons]
    exact ⟨hfirst, ih⟩

end Lexer

end Covenant
