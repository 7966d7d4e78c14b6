/-
The errors that a document can cause. A text that is not read has a fault of its characters
or of its grammar; registering such a document is refused under its name, and ordering it is
a fault of loading. There is one exception, and it is the same for all three: a numeral that
cannot be read, in a place where a numeral may stand, stops them with an error that no
document, place or stage belongs to (`errors_documented_iff_not_spoilt`).
-/
import Covenant.Proofs.Arrangement
import Covenant.Proofs.FirstFault
import Covenant.Proofs.Numerals

namespace Covenant

open Covenant.Number

/-! ## Spoilt documents -/

/-- A word of the token's kind may stand behind the tokens before: a document goes on with one. -/
def Token.Fits (t : Token) (before : List Token) : Prop :=
  ∃ text more m, Phrase.Document (before.map Token.word ++ ⟨t.kind, text⟩ :: more) m

/-- A document is spoilt by a numeral that cannot be read, in a place where a numeral may stand. -/
inductive SpoiltBy (source : String) (e : NumeralError) : Prop
  | intro {stream : TokenStream} {before after : List Token} {t : Token} :
    tokenize source = .ok stream → stream.tokens = before ++ t :: after →
    t.Unreadable e → t.Fits before → SpoiltBy source e

/-- The first of the documents that is not read is spoilt. -/
def SpoiltAmong (documents : List SchemaDocument) (e : NumeralError) : Prop :=
  ∃ before d after models, documents = before ++ d :: after ∧ ReadAs before models ∧
    SpoiltBy d.text e

/-! ## Reading -/

/-- Reading stops at a numeral that names no number, and only where a numeral may stand. -/
theorem Reader.model_eq_numeral {tokens : List Token} {e : NumeralError} :
    model tokens = .error (.numeral e) ↔
      ∃ before t after, tokens = before ++ t :: after ∧ Nameless t e ∧ t.Fits before := by
  constructor
  · intro h
    exact (model_obeys tokens).refuses h
  · rintro ⟨before, t, after, rfl, ht, text, more, m, hdocument⟩
    -- The document with a numeral there has been read, so its reader asks for the numeral's value.
    obtain ⟨others, rfl⟩ := TokenStream.exists_tokens more
    let numeral : Token := { t with text }
    have hread := model_reads hdocument (before ++ numeral :: others) []
      (by simp [numeral, Token.word]) rfl
    have hasks : Asks model before t.kind :=
      (model_obeys _).asks (t := numeral) (List.append_assoc ..) hread ht.kind
    exact hasks t after e rfl ht

theorem Model.ofTokens_eq_numeral {stream : TokenStream} {e : NumeralError} :
    Model.ofTokens stream = .error (.numeral e) ↔
      Reader.model stream.tokens = .error (.numeral e) := by
  unfold Model.ofTokens
  split
  · simp [*]
  · simp [*]
  · split <;> simp [*]

theorem Model.read_eq_numeral {source : String} {e : NumeralError} :
    Model.read source = .error (.numeral e) ↔ SpoiltBy source e := by
  unfold Model.read
  constructor
  · intro h
    split at h
    · cases h
    · rename_i stream htokens
      obtain ⟨before, t, after, hstream, ht, hfits⟩ :=
        Reader.model_eq_numeral.mp (Model.ofTokens_eq_numeral.mp h)
      have hmem : t ∈ stream.tokens := by simp [hstream]
      exact ⟨htokens, hstream, (Reader.nameless_iff_unreadable htokens hmem).mp ht, hfits⟩
  · rintro ⟨htokens, hstream, ht, hfits⟩
    rename_i stream before after t
    have hmem : t ∈ stream.tokens := by simp [hstream]
    have hnameless := (Reader.nameless_iff_unreadable htokens hmem).mpr ht
    simp only [htokens]
    exact Model.ofTokens_eq_numeral.mpr
      (Reader.model_eq_numeral.mpr ⟨before, t, after, hstream, hnameless, hfits⟩)

theorem Model.read_documented {source : String} :
    ((∃ m, Model.read source = .ok m) ∨ (∃ e, Model.read source = .error (.lexical e)) ∨
      ∃ e, Model.read source = .error (.grammar e)) ↔ ¬ ∃ e, SpoiltBy source e := by
  simp only [← Model.read_eq_numeral]
  rcases Model.read source with (_ | _ | _) | _ <;> simp

/-! ## Registering -/

namespace Registry

variable {r : Registry} {text name : String}

theorem add_error {m : Model} {error : RegistrationError} (h : r.add m text name = .error error) :
    ∃ reason, error = .rejected name reason := by
  unfold add at h
  split at h
  · split at h
    · cases h
    · exact ⟨_, (Except.error.inj h).symm⟩
  · cases h

/-- A document that is not registered is refused under its name, or it is spoilt. -/
theorem register_error {error : RegistrationError} (h : r.register text name = .error error) :
    (∃ reason, error = .rejected name reason) ∨ ∃ e, error = .numeral e ∧ SpoiltBy text e := by
  unfold register at h
  split at h
  · rename_i e hread
    cases e with
    | lexical | grammar => exact .inl ⟨_, (Except.error.inj h).symm⟩
    | numeral e => exact .inr ⟨e, (Except.error.inj h).symm, Model.read_eq_numeral.mp hread⟩
  · split at h
    · exact .inl (add_error h)
    · exact .inl ⟨_, (Except.error.inj h).symm⟩

theorem register_of_spoilt {e : NumeralError} (h : SpoiltBy text e) :
    r.register text name = .error (.numeral e) := by
  simp [register, Model.read_eq_numeral.mpr h, RegistrationError.ofRead]

theorem register_eq_numeral {e : NumeralError} :
    r.register text name = .error (.numeral e) ↔ SpoiltBy text e := by
  refine ⟨fun h => ?_, register_of_spoilt⟩
  obtain ⟨reason, herror⟩ | ⟨e', herror, hspoilt⟩ := register_error h
  · cases herror
  · cases herror
    exact hspoilt

theorem register_documented :
    ((∃ result, r.register text name = .ok result) ∨
      ∃ reason, r.register text name = .error (.rejected name reason)) ↔
        ¬ ∃ e, SpoiltBy text e := by
  constructor
  · rintro (⟨_, h⟩ | ⟨_, h⟩) ⟨e, he⟩ <;> simp [register_of_spoilt he] at h
  · intro hread
    cases h : r.register text name with
    | ok result => exact .inl ⟨result, rfl⟩
    | error error =>
      obtain ⟨reason, rfl⟩ | ⟨e, -, he⟩ := register_error h
      · exact .inr ⟨reason, rfl⟩
      · exact absurd ⟨e, he⟩ hread

end Registry

/-! ## Ordering -/

theorem SchemaDocument.dependencies_eq_numeral {d : SchemaDocument} {e : NumeralError} :
    d.dependencies = .error (.numeral e) ↔ SpoiltBy d.text e := by
  rw [← Model.read_eq_numeral]
  unfold dependencies
  split <;> simp [*]

theorem orderByImports_eq_numeral {documents : List SchemaDocument} {e : NumeralError} :
    orderByImports documents = .error (.numeral e) ↔ SpoiltAmong documents e := by
  constructor
  · intro h
    obtain ⟨models, hmodels⟩ | ⟨before, d, after, models, error, rfl, hbefore, hd⟩ :=
      readAs_cases documents
    · obtain ⟨_, -, hcycle⟩ | ⟨-, _, hok, -⟩ := orderByImports_cases hmodels
      · simp [hcycle] at h
      · simp [hok] at h
    · rw [orderByImports_of_error hbefore hd] at h
      obtain rfl := Except.error.inj h
      exact ⟨before, d, after, models, rfl, hbefore, d.dependencies_eq_numeral.mp hd⟩
  · rintro ⟨before, d, after, models, rfl, hbefore, hspoilt⟩
    exact orderByImports_of_error hbefore (d.dependencies_eq_numeral.mpr hspoilt)

theorem orderDocuments_eq_numeral {ordering : DocumentOrder} {documents : List SchemaDocument}
    {e : NumeralError} : orderDocuments ordering documents = .error (.numeral e) ↔
      ordering = .topological ∧ SpoiltAmong documents e := by
  cases ordering with
  | heuristic => simp [orderDocuments]
  | topological => simp [orderDocuments, orderByImports_eq_numeral]

theorem orderDocuments_documented {ordering : DocumentOrder} {documents : List SchemaDocument} :
    ((∃ result, orderDocuments ordering documents = .ok result) ∨
      ∃ error fault, orderDocuments ordering documents = .error error ∧
        error.toBuildError = .fault fault ∧ fault.stage = .load) ↔
      ¬ (ordering = .topological ∧ ∃ e, SpoiltAmong documents e) := by
  rw [← exists_and_left]
  simp only [← orderDocuments_eq_numeral]
  cases h : orderDocuments ordering documents with
  | ok result => simp
  | error error =>
    cases error with
    | unordered cycle => exact absurd h (orderDocuments_ne_unordered ordering documents cycle)
    | _ => simp [OrderingError.toBuildError, BuildFault.stage]

/-- A text is read or has a fault of its characters or its grammar, a document is registered or
refused under its name, and documents are ordered or have a fault of loading, if and only if no
numeral spoils them. One that does is the error of all three. Ordering by import lines does not read
the documents, so nothing spoils it. -/
theorem errors_documented_iff_not_spoilt (text name : String) (r : Registry)
    (ordering : DocumentOrder) (documents : List SchemaDocument) :
    (((∃ m, Model.read text = .ok m) ∨ (∃ e, Model.read text = .error (.lexical e)) ∨
      ∃ e, Model.read text = .error (.grammar e)) ↔ ¬ ∃ e, SpoiltBy text e) ∧
    (((∃ result, r.register text name = .ok result) ∨
      ∃ reason, r.register text name = .error (.rejected name reason)) ↔ ¬ ∃ e, SpoiltBy text e) ∧
    (((∃ result, orderDocuments ordering documents = .ok result) ∨
      ∃ error fault, orderDocuments ordering documents = .error error ∧
        error.toBuildError = .fault fault ∧ fault.stage = .load) ↔
      ¬ (ordering = .topological ∧ ∃ e, SpoiltAmong documents e)) ∧
    ∀ e, (Model.read text = .error (.numeral e) ↔ SpoiltBy text e) ∧
      (r.register text name = .error (.numeral e) ↔ SpoiltBy text e) ∧
      (orderDocuments ordering documents = .error (.numeral e) ↔
        ordering = .topological ∧ SpoiltAmong documents e) := by
  refine ⟨Model.read_documented, Registry.register_documented,
    orderDocuments_documented, fun e => ?_⟩
  exact ⟨Model.read_eq_numeral, Registry.register_eq_numeral, orderDocuments_eq_numeral⟩

/-- A raised digit has no value. The text that holds it is neither read nor has it a fault of its
characters or its grammar, no registry refuses it, and behind another document it stops the order.
-/
theorem errors_documented_iff_not_spoilt_superscript :
    let text := "@x(²) namespace a"
    SpoiltBy text (.notInteger "²") ∧
      ¬ ((∃ m, Model.read text = .ok m) ∨ (∃ e, Model.read text = .error (.lexical e)) ∨
        ∃ e, Model.read text = .error (.grammar e)) ∧
      (∀ (r : Registry) name, r.register text name = .error (.numeral (.notInteger "²"))) ∧
      orderDocuments .topological [sameFile "namespace a", sameFile text] =
        .error (.numeral (.notInteger "²")) := by
  intro text
  let documents := [sameFile "namespace a", sameFile text]
  have hfirst : Model.read (sameFile "namespace a").text = .ok (importing "a" []) := by
    decide +kernel
  have hall (r : Registry) (name : String) :=
    errors_documented_iff_not_spoilt text name r .topological documents
  obtain ⟨hdocumented, -, -, hnumeral⟩ := hall .empty "a.cto"
  obtain ⟨hread, -, horder⟩ := hnumeral (.notInteger "²")
  have hspoilt : SpoiltBy text (.notInteger "²") := hread.mp (by decide +kernel)
  refine ⟨hspoilt, fun h => hdocumented.mp h ⟨_, hspoilt⟩, fun r name => ?_, horder.mpr ⟨rfl, ?_⟩⟩
  · obtain ⟨-, -, -, hregister⟩ := hall r name
    exact (hregister _).2.1.mpr hspoilt
  · exact ⟨[sameFile "namespace a"], sameFile text, [], _, rfl, .cons hfirst .nil, hspoilt⟩

end Covenant
