/-
The canonical document of a model is read back as that model. `Printing` shows that
its words spell the model; here each of them can be read behind the one before it.
A literal needs a word before it that opens neither a version nor a location, and a
version and a location need exactly the words that open them.
-/
import Covenant.Proofs.Printing

namespace Covenant

open Covenant.Number Covenant.Lexer

/-! ## Words one behind the other -/

/-- The words can be read one behind the other, the first one behind every token that passes. -/
def Readable (behind : Option TokenKind → Prop) (ws : List Word) : Prop :=
  ∀ previous, behind previous → LegibleFrom previous ws

/-- Behind every token, or at the start of the document. -/
def anywhere (_ : Option TokenKind) : Prop :=
  True

namespace Readable

variable {α : Type} {behind wider : Option TokenKind → Prop} {ws vs : List Word}

theorem nil : Readable behind [] :=
  fun _ _ => trivial

theorem mono (h : Readable wider ws) (hb : ∀ previous, behind previous → wider previous) :
    Readable behind ws :=
  fun previous hp => h previous (hb previous hp)

theorem cons {w : Word} (hw : ∀ previous, behind previous → Legible previous w)
    (h : Readable (· = some w.kind) ws) : Readable behind (w :: ws) :=
  fun previous hp => ⟨hw previous hp, h _ rfl⟩

theorem append (h : Readable behind ws) (hv : Readable anywhere vs) :
    Readable behind (ws ++ vs) := by
  intro previous hp
  have hfrom := h previous hp
  clear h hp
  induction ws generalizing previous with
  | nil => exact hv previous trivial
  | cons w ws ih => exact ⟨hfrom.1, ih _ hfrom.2⟩

theorem flatMap {as : List α} {words : α → List Word} (h : ∀ a ∈ as, Readable anywhere (words a)) :
    Readable anywhere (as.flatMap words) := by
  induction as with
  | nil => exact nil
  | cons a as ih =>
    rw [List.forall_mem_cons] at h
    exact (h.1).append (ih h.2)

/-- A mark and what can be read behind it. -/
theorem mark_append (m : Mark) (hb : behind (some (.mark m))) (h : Readable behind ws) :
    Readable anywhere ([.ofMark m] ++ ws) :=
  cons (fun previous _ => .mark previous m) (h.mono fun _ hp => hp ▸ hb)

theorem mark (m : Mark) : Readable anywhere [.ofMark m] :=
  cons (fun previous _ => .mark previous m) nil

theorem name {name : String} (h : IsName name.toList) : Readable anywhere [.ofName name] :=
  cons (fun _ _ => .name h) nil

/-- A keyword and what can be read behind it. -/
theorem keyword_append (k : Keyword) (hb : behind (some (.keyword k))) (h : Readable behind ws) :
    Readable anywhere ([.ofKeyword k] ++ ws) :=
  cons (fun previous _ => .keyword previous k) (h.mono fun _ hp => hp ▸ hb)

theorem keyword (k : Keyword) : Readable anywhere [.ofKeyword k] :=
  cons (fun previous _ => .keyword previous k) nil

/-! ## Canonical words -/

theorem dotted {name : String} (h : IsDotted name) : Readable anywhere (dottedWords name) := by
  obtain ⟨first, others, rfl, hparts⟩ := h
  rw [dottedWords_intercalate hparts]
  rw [List.forall_mem_cons] at hparts
  have hothers : Readable anywhere (others.flatMap fun part => [.ofMark .dot, .ofName part]) :=
    flatMap fun part hm => (mark .dot).append (.name (hparts.2 part hm))
  exact (Readable.name hparts.1).append (hothers.append nil)

theorem number {n : Number} (hf : n.isInteger = true) : Readable Plain [n.word] := by
  cases n with
  | int n => exact cons (fun _ hp => .integer hp n) nil
  | float => cases hf

theorem literal {v : Literal} (hf : v.isFloatFree = true) : Readable Plain [v.word] := by
  cases v with
  | text text => exact cons (fun _ hp => .string hp text) nil
  | number n => exact number hf
  | flag b =>
    cases b with
    | true => exact (keyword .trueKw).mono fun _ _ => trivial
    | false => exact (keyword .falseKw).mono fun _ _ => trivial

/-- Items with commas between them, the first one behind a token that passes. -/
theorem listed {word : α → Word} {as : List α} (hb : behind (some (.mark .comma)))
    (h : ∀ a ∈ as, Readable behind [word a]) : Readable behind (listedWords (as.map word)) := by
  cases as with
  | nil => exact nil
  | cons a as =>
    rw [List.forall_mem_cons] at h
    have hothers : Readable anywhere ((as.map word).flatMap fun v => [.ofMark .comma, v]) := by
      rw [List.flatMap_map]
      exact flatMap fun b hm => mark_append .comma hb (h.2 b hm)
    exact h.1.append (hothers.append nil)

theorem arguments {vs : List Literal} (hf : vs.all (·.isFloatFree) = true) :
    Readable anywhere (argumentsWords vs) := by
  cases vs with
  | nil => exact nil
  | cons v vs =>
    have hvs : Readable Plain (listedWords ((v :: vs).map (·.word))) :=
      listed (by decide) fun u hu => literal (List.all_eq_true.mp hf u hu)
    exact mark_append .leftParen (by decide) (hvs.append ((mark .rightParen).append nil))

theorem decorator {d : Decorator} (h : d.WellFormed) (hf : d.isFloatFree = true) :
    Readable anywhere d.words :=
  (mark .atSign).append ((name h.name).append ((arguments hf).append nil))

theorem decorators {ds : List Decorator} (h : ∀ d ∈ ds, d.WellFormed)
    (hf : ds.all (·.isFloatFree) = true) : Readable anywhere (decoratorsWords ds) :=
  flatMap fun d hd => decorator (h d hd) (List.all_eq_true.mp hf d hd)

theorem bound {n? : Option Number} (hf : n?.all (·.isInteger) = true) :
    Readable Plain (boundWords n?) := by
  cases n? with
  | none => exact nil
  | some n => exact number hf

theorem bounds {b : Bounds} (hf : b.isFloatFree = true) : Readable anywhere b.words := by
  rw [Bounds.isFloatFree, Bool.and_eq_true] at hf
  have hupper := mark_append .comma (by decide)
    ((bound hf.2).append ((mark .rightBracket).append nil))
  exact mark_append .leftBracket (by decide) ((bound hf.1).append hupper)

theorem brackets (isArray : Bool) : Readable anywhere (bracketsWords isArray) := by
  cases isArray with
  | true => exact (mark .leftBracket).append ((mark .rightBracket).append nil)
  | false => exact nil

theorem version {version? : Option String} (h : ∀ text ∈ version?, Shaped ⟨.version, text⟩) :
    Readable anywhere (versionWords version?) := by
  cases version? with
  | none => exact nil
  | some text =>
    exact cons (fun previous _ => .mark previous .atSign) (cons (fun _ hp => hp ▸ h text rfl) nil)

theorem scope {scope : ImportScope} (h : scope.WellFormed) : Readable anywhere scope.words := by
  cases scope with
  | wildcard => exact mark .star
  | types names =>
    have hnames : Readable anywhere (listedWords (names.map .ofName)) :=
      listed trivial fun n hn => name (h.2 n hn)
    exact (mark .leftBrace).append (hnames.append ((mark .rightBrace).append nil))

theorem target {n : Namespace} {scope : ImportScope} (hn : n.WellFormed) (hs : scope.WellFormed) :
    Readable anywhere (targetWords n scope) :=
  (dotted hn.name).append ((version hn.version).append
    ((mark .dot).append ((Readable.scope hs).append nil)))

theorem importLine {i : Import} (h : i.WellFormed) : Readable anywhere i.words := by
  have ht := target h.target h.scope
  unfold Import.words
  split
  · exact (keyword .importKw).append (ht.append nil)
  · rename_i uri huri
    have hlocation : Readable anywhere [[.ofKeyword .fromKw], [⟨.uri, uri⟩]].flatten :=
      cons (fun previous _ => .keyword previous .fromKw)
        (cons (fun _ hp => hp ▸ h.uri uri huri) nil)
    exact (keyword .importKw).append (ht.append hlocation)

theorem modifier {m : Reader.Modifier} (h : m.WellFormed) (hf : m.isFloatFree = true) :
    Readable anywhere m.words := by
  cases m with
  | optional => exact keyword .optional
  | default v =>
    exact (keyword .defaultKw).append (mark_append .equals (by decide) ((literal hf).append nil))
  | pattern text =>
    exact (keyword .regex).append (mark_append .equals (by decide) (cons h nil))
  | range b => exact (keyword .range).append ((mark .equals).append ((bounds hf).append nil))
  | length b => exact (keyword .length).append ((mark .equals).append ((bounds hf).append nil))

theorem marker (isRelationship : Bool) : Readable anywhere [markerWord isRelationship] := by
  cases isRelationship with
  | false => exact keyword .field
  | true => exact mark .arrow

theorem property {p : Property} (h : p.WellFormed) (hf : p.isFloatFree = true) :
    Readable anywhere p.words := by
  rw [Property.isFloatFree, Bool.and_eq_true] at hf
  have hms : Readable anywhere (p.modifiers.flatMap (·.words)) := flatMap fun m hm =>
    modifier (Phrase.wellFormed_modifiers h m hm) (List.all_eq_true.mp hf.2 m hm)
  exact (decorators h.decorators hf.1).append ((marker _).append ((dotted h.typeName).append
    ((brackets _).append ((name h.name).append (hms.append nil)))))

theorem clause {c : Reader.Clause} (h : c.WellFormed) : Readable anywhere c.words := by
  cases c with
  | identified name? =>
    cases name? with
    | none => exact keyword .identified
    | some n =>
      exact (keyword .identified).append ((keyword .byKw).append ((name (h n rfl)).append nil))
  | subtypeOf n => exact (keyword .extendsKw).append ((dotted h).append nil)

theorem abstract (isAbstract : Bool) : Readable anywhere (abstractWords isAbstract) := by
  cases isAbstract with
  | true => exact keyword .abstractKw
  | false => exact nil

theorem declarationBody {n : String} {body : DeclarationBody} (hn : IsIdentifier n)
    (h : body.WellFormed)
    (hf : ∀ c, body = .classBody c → c.properties.all (·.isFloatFree) = true) :
    Readable anywhere (body.words n) := by
  have hname := name hn.1
  cases body with
  | classBody body =>
    have hcs : Readable anywhere (body.clauses.flatMap (·.words)) :=
      flatMap fun c hc => clause (Phrase.wellFormed_clauses h c hc)
    have hps : Readable anywhere (body.properties.flatMap (·.words)) := flatMap fun p hp =>
      property (h.properties p hp) (List.all_eq_true.mp (hf body rfl) p hp)
    exact (abstract _).append ((keyword _).append (hname.append (hcs.append
      ((mark .leftBrace).append (hps.append ((mark .rightBrace).append nil))))))
  | enumeration values =>
    have hvs : Readable anywhere (values.flatMap fun value => [.ofKeyword .field, .ofName value]) :=
      flatMap fun value hm => (keyword .field).append (name (h value hm))
    exact (keyword .enum).append (hname.append ((mark .leftBrace).append
      (hvs.append ((mark .rightBrace).append nil))))
  | scalar base =>
    exact (keyword .scalar).append (hname.append ((keyword .extendsKw).append
      ((name h.1).append nil)))
  | map key value =>
    exact (keyword .map).append (hname.append ((mark .leftBrace).append ((keyword .field).append
      ((dotted h.1).append ((keyword .field).append ((dotted h.2).append
        ((mark .rightBrace).append nil)))))))

theorem declaration {d : Declaration} (h : d.WellFormed) (hf : d.isFloatFree = true) :
    Readable anywhere d.words := by
  rw [Declaration.isFloatFree, Bool.and_eq_true] at hf
  refine (decorators h.decorators hf.1).append ((declarationBody h.name h.body ?_).append nil)
  intro c hc
  simpa [Declaration.properties, hc] using hf.2

theorem language (version? : Option String) : Readable anywhere (languageWords version?) := by
  cases version? with
  | none => exact nil
  | some text =>
    have htext : Readable Plain [⟨.string, text⟩] := cons (fun _ hp => .string hp text) nil
    exact (keyword .concerto).append
      (keyword_append .version (by decide) (htext.append nil))

/-- The words of a model can be read one behind the other. -/
theorem model {m : Model} (h : m.WellFormed) (hf : m.isFloatFree = true) :
    Readable anywhere m.words := by
  rw [Model.isFloatFree, Bool.and_eq_true] at hf
  have hid : Readable anywhere m.id.words :=
    (keyword .namespaceKw).append ((dotted h.id.name).append ((version h.id.version).append nil))
  have himports : Readable anywhere (m.imports.flatMap (·.words)) :=
    flatMap fun i hi => importLine (h.imports i hi)
  have hheader : Readable anywhere m.headerWords :=
    (language _).append ((decorators h.decorators hf.1).append (hid.append (himports.append nil)))
  have hds : Readable anywhere (m.declarations.flatMap (·.words)) := flatMap fun d hd =>
    declaration (h.declarations d hd) (List.all_eq_true.mp hf.2 d hd)
  exact hheader.append (hds.append nil)

end Readable

/-- The canonical document of a well-formed model is read as that model. -/
theorem Model.read_print_of_wellFormed {m : Model} (h : m.WellFormed) (hf : m.isFloatFree = true) :
    Model.read m.print = .ok m := by
  obtain ⟨stream, hscan, hwords⟩ :=
    scan_spell (Readable.model h hf none trivial) Position.start
  refine Model.read_eq_ok.mpr ⟨stream, ?_, ?_⟩
  · rw [tokenize, Model.print, String.toList_ofList, hscan]
  · rw [hwords]
    exact Phrase.document_words h hf

/-- What was read from a document is read again from its canonical document. -/
theorem Model.read_print {source : String} {m : Model} (h : Model.read source = .ok m)
    (hf : m.isFloatFree = true) : Model.read m.print = .ok m :=
  Model.read_print_of_wellFormed (Model.wellFormed_of_read h) hf

/-- A document with an open import, a comment, a quote inside a string, keywords as names and a
negative zero, and its canonical form. -/
theorem Model.read_print_orders :
    ∃ m, Model.read ("namespace from@1.2.0-rc import a.T // open\n" ++
        "concept C \x7b @doc('\"', T[]) o Long[] o range=[-0,]\x7d") = .ok m ∧
      m.print = "namespace from @ 1.2.0-rc import a . \x7b T \x7d " ++
        "concept C \x7b @ doc ( \"\\\"\" , \"T[]\" ) o Long [ ] o range = [ 0 , ] \x7d" ∧
      Model.read m.print = .ok m := by
  let m : Model := {
    id := ⟨"from", some "1.2.0-rc"⟩
    imports := [⟨⟨"a", none⟩, .types ["T"], none⟩]
    declarations := [
      { name := "C"
        body := .classBody {
          kind := .concept
          properties := [
            { name := "o", typeName := "Long", isArray := true,
              range? := some ⟨some (.int 0), none⟩,
              decorators := [⟨"doc", [.text "\"", .text "T[]"]⟩] }] } }] }
  refine ⟨m, ?read, by decide +kernel, Model.read_print ?read (by decide)⟩
  decide +kernel

end Covenant
