/-
Layout says nothing. Layout that starts with a line end can be written before any token
of a text and behind its last one: the text still has tokens, and they are the same
apart from their places, so the same document is read, or none in both cases
(`tokenize_insert_layout`).

The line end is what every scanner that looks ahead stops at: a number, a version, a
location or a line comment before the inserted layout is not longer than it was.
-/
import Covenant.Proofs.Insertion

namespace Covenant

/-- The places of the tokens and of the end of a text. -/
def TokenStream.places (stream : TokenStream) : List Position :=
  stream.tokens.map (·.position) ++ [stream.finish]

namespace Lexer

/-- A text goes on with a further line, even if it ends with a comment that no line end closes. -/
theorem Scans.append_line {previous : Option TokenKind} {p : Position} {cs s : List Char}
    {stream more : TokenStream} (h : Scans previous p cs stream)
    (hmore : Scans (lastKind previous stream.tokens) stream.finish ('\n' :: s) more) :
    Scans previous p (cs ++ '\n' :: s) ⟨stream.tokens ++ more.tokens, more.finish⟩ := by
  induction h with
  | @done _ _ gap hgap =>
    have hlayout : Layout true gap := @Layout.of_layoutLength gap [] (by rwa [List.append_nil])
    exact hmore.behind_gap (hlayout.layoutLength_append (by simp))
  | @token _ _ _ gap body rest _ c kind _ hgap hx hnext ih =>
    have hrest : rest ++ [] = rest := List.append_nil rest
    have hresumed := @Scans.resume_token _ _ more.finish _ _ _ _ _ rest [] ('\n' :: s) _
      (by rwa [hrest]) (by rwa [hrest]) (fun hk => by cases hk; rw [hrest]; exact hnext.regular)
      (fun _ => .inl (by simp [isUriEnd])) (.line s) (ih hmore)
    simpa using hresumed

/-- A further line is read as it is behind the text alone. -/
theorem Scans.of_append_line {previous : Option TokenKind} {p : Position} {cs s : List Char}
    {stream whole : TokenStream} (h : Scans previous p cs stream)
    (hwhole : Scans previous p (cs ++ '\n' :: s) whole) :
    ∃ more, Scans (lastKind previous stream.tokens) stream.finish ('\n' :: s) more ∧
      whole = ⟨stream.tokens ++ more.tokens, more.finish⟩ := by
  induction h generalizing whole with
  | @done _ _ gap hgap =>
    have hlayout : Layout true gap := @Layout.of_layoutLength gap [] (by rwa [List.append_nil])
    exact ⟨whole, hwhole.of_behind_gap (hlayout.layoutLength_append (by simp)), rfl⟩
  | @token _ _ _ gap body rest _ c kind _ hgap hx hnext ih =>
    rw [← List.append_nil rest] at hgap hx
    obtain ⟨hlayout, hlexeme⟩ := lexeme_resume hgap hx
      (fun hk => by cases hk; rw [List.append_nil]; exact hnext.regular)
      (fun _ => .inl (by simp [isUriEnd])) (.line s)
    rw [List.append_assoc, List.cons_append, List.append_assoc] at hwhole
    obtain ⟨ts, finish, rfl, hrest⟩ := hwhole.token_inv hlayout hlexeme
    obtain ⟨more, hmore, heq⟩ := ih hrest
    cases heq
    exact ⟨more, hmore, rfl⟩

/-- A text can be cut at each of its places and go on with a further line there. -/
theorem Scans.insert_line {previous : Option TokenKind} {p : Position}
    {before after run : List Char}
    {stream : TokenStream} (h : Scans previous p (before ++ after) stream)
    (hplace : p.after before ∈ stream.places) (hrun : Layout false ('\n' :: run)) :
    ∃ other, Scans previous p (before ++ ('\n' :: run ++ after)) other ∧
      other.tokens.map Token.word = stream.tokens.map Token.word := by
  -- what follows the cut has the same words behind the inserted layout
  have hbehind {q : Option TokenKind} {place : Position} {rest : TokenStream}
      (hrest : Scans q place after rest) :
      ∃ other, Scans q place ('\n' :: run ++ after) other ∧
        other.tokens.map Token.word = rest.tokens.map Token.word := by
    obtain ⟨other, hother, hwords⟩ := hrest.move (place.after ('\n' :: run))
    exact ⟨other, hother.behind_gap (hrun.layoutLength_append (by simp)), hwords⟩
  rcases List.mem_append.mp hplace with htoken | hend
  · obtain ⟨t, ht, hposition⟩ := List.mem_map.mp htoken
    obtain ⟨ts, more, htokens⟩ := List.append_of_mem ht
    obtain ⟨tokens, finish⟩ := stream
    obtain rfl : tokens = ts ++ t :: more := htokens
    obtain ⟨before', after', hsplit, hcut, hafter⟩ := h.cut
    obtain ⟨rfl, rfl⟩ := Position.split_unique hsplit (hposition.symm.trans hcut.place.symm)
    obtain ⟨other, hother, hwords⟩ := hbehind hafter
    refine ⟨_, hcut.resume (.line (run ++ after)) hother, ?_⟩
    rw [List.map_append, List.map_append, hwords]
  · have hfinish : p.after before = p.after (before ++ after) := by
      rw [List.mem_singleton.mp hend, h.finish_eq]
    obtain ⟨-, rfl⟩ := Position.split_unique (List.append_nil (before ++ after)).symm hfinish
    rw [List.append_nil] at h
    have hnothing : Scans (lastKind previous stream.tokens) stream.finish [] ⟨[], stream.finish⟩ :=
      .done (Bare.layoutLength trivial)
    obtain ⟨other, hother, hwords⟩ := hbehind hnothing
    refine ⟨_, h.append_line hother, ?_⟩
    rw [List.map_append, hwords, List.map_nil, List.append_nil]

end Lexer

/-- Layout that starts with a line end, written before a token or at the end of a text that has
tokens, changes neither the words of the text nor what is read from it. -/
theorem tokenize_insert_layout {source : String} {stream : TokenStream}
    (h : tokenize source = .ok stream) {offset : Nat}
    (hplace : Position.ofOffset source.toList offset ∈ stream.places) {run : List Char}
    (hrun : Lexer.Layout false run) (hline : run.head? = some '\n') :
    let longer := String.ofList (source.toList.take offset ++ (run ++ source.toList.drop offset))
    (∃ other, tokenize longer = .ok other ∧
      other.tokens.map Token.word = stream.tokens.map Token.word) ∧
    ∀ m, Model.read longer = .ok m ↔ Model.read source = .ok m := by
  intro longer
  obtain ⟨others, rfl⟩ := List.head?_eq_some_iff.mp hline
  have hscans : Lexer.Scans none .start (source.toList.take offset ++ source.toList.drop offset)
      stream := by
    rw [List.take_append_drop]
    exact .of_scan h
  rw [← Position.start_after_take] at hplace
  obtain ⟨other, hother, hwords⟩ := hscans.insert_line hplace hrun
  have hlonger : tokenize longer = .ok other := by
    rw [tokenize, String.toList_ofList]
    exact hother.scan_eq
  refine ⟨⟨other, hlonger, hwords⟩, fun m => ?_⟩
  simp [Model.read_eq_ok, hlonger, h, hwords]

/-- A location is read behind a line with a location in a comment, and a document that ends with an
open comment goes on with a further line. -/
theorem tokenize_insert_layout_location :
    ∃ stream, tokenize "namespace a import b.T from x://y // end" = .ok stream ∧
      (∃ other, tokenize "namespace a import b.T from \n// u://v\n/*/ @1 */\tx://y // end" =
          .ok other ∧
        other.tokens.map Token.word = stream.tokens.map Token.word) ∧
      (∃ other, tokenize "namespace a import b.T from x://y // end\n// u://v\n/*/ @1 */\t" =
          .ok other ∧
        other.tokens.map Token.word = stream.tokens.map Token.word) := by
  have hrun : Lexer.Layout false "\n// u://v\n/*/ @1 */\t".toList := by
    refine .blank (by decide) (@Lexer.Layout.line false " u://v".toList _ (by decide)
      (.blank (by decide) (@Lexer.Layout.block false "/ @1 ".toList _ (by decide)
        (.blank (by decide) .nil))))
  refine ⟨⟨[⟨.keyword .namespaceKw, "namespace", ⟨1, 1⟩⟩, ⟨.identifier, "a", ⟨1, 11⟩⟩,
    ⟨.keyword .importKw, "import", ⟨1, 13⟩⟩, ⟨.identifier, "b", ⟨1, 20⟩⟩,
      ⟨.mark .dot, ".", ⟨1, 21⟩⟩,
    ⟨.identifier, "T", ⟨1, 22⟩⟩, ⟨.keyword .fromKw, "from", ⟨1, 24⟩⟩, ⟨.uri, "x://y", ⟨1, 29⟩⟩],
    ⟨1, 41⟩⟩, ?source, ?_, ?_⟩
  · decide +kernel
  · exact (@tokenize_insert_layout _ _ ?source 28 (by decide +kernel) _ hrun rfl).1
  · exact (@tokenize_insert_layout _ _ ?source 40 (by decide +kernel) _ hrun rfl).1

end Covenant
