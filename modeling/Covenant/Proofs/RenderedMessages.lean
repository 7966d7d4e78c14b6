/-
A contract is described twice: by the table of its messages, which its states follow and
its documentation lists, and by the text of its implementation. The two agree. The
functions that the text marks as messages are those of the table, in order, and each is
declared and guarded as the table says (`Contract.messages_implemented`).

The functions are found in the text by their marks alone (`messageFunctions`), so nothing
rests on how the text was made. That no other line of it passes for a mark or for the end
of a function follows from how far lines are indented, whatever the names in them are.
-/
import Covenant.Contract.Render
import Mathlib.Data.List.Forall2

namespace Covenant

open Covenant.Text

/-! ## Functions among lines -/

/-- A function as it stands among lines: the line that declares it and the lines of its body. -/
structure WrittenFunction where
  header : String
  body : List String
deriving DecidableEq, Repr

/-- The line that marks a message. -/
def messageMark : String := "    #[ink(message)]"

/-- The line that ends a function. -/
def functionEnd : String := "    \x7d"

/-- The functions that are marked as messages, in order. -/
def messageFunctions : List String → List WrittenFunction
  | [] => []
  | line :: rest =>
    if line = messageMark then
      ⟨rest.headD "", rest.tail.takeWhile (· ≠ functionEnd)⟩ :: messageFunctions rest
    else messageFunctions rest

/-- The line that declares the function of a message. -/
def Message.header (m : Message) : String :=
  let receiver := if m.mutates then "&mut self" else "&self"
  let params := ", ".intercalate (receiver :: m.params.map fun (name, type) => name ++ ": " ++ type)
  s!"    pub fn {m.name}({params}) -> {m.returns} \x7b"

/-- How a function starts that refuses others than the owner. -/
def ownerCheck : List String :=
  ["        let caller = self.env().caller();",
   "        if caller != self.owner \x7b",
   "            return Err(ContractError::Unauthorized);",
   "        \x7d"]

/-- How a function starts that refuses while the contract is paused. -/
def activeCheck : List String :=
  ["        if self.paused \x7b",
   "            return Err(ContractError::ContractPaused);",
   "        \x7d"]

/-- The function is declared and guarded as the message says. -/
structure Message.ImplementedBy (m : Message) (f : WrittenFunction) : Prop where
  header : f.header = m.header
  ownerOnly : m.ownerOnly = true ↔ ownerCheck <+: f.body
  requiresActive : m.requiresActive = true ↔ activeCheck <+: f.body

instance (m : Message) (f : WrittenFunction) : Decidable (m.ImplementedBy f) :=
  decidable_of_iff (f.header = m.header ∧ (m.ownerOnly = true ↔ ownerCheck <+: f.body) ∧
      (m.requiresActive = true ↔ activeCheck <+: f.body))
    ⟨fun ⟨h, ho, ha⟩ => ⟨h, ho, ha⟩, fun ⟨h, ho, ha⟩ => ⟨h, ho, ha⟩⟩

/-! ## Finding functions -/

theorem messageFunctions_append_of_not_mem {lines : List String} (h : messageMark ∉ lines)
    (rest : List String) : messageFunctions (lines ++ rest) = messageFunctions rest := by
  induction lines with
  | nil => rfl
  | cons line lines ih =>
    rw [List.mem_cons, not_or] at h
    rw [List.cons_append, messageFunctions, if_neg (Ne.symm h.1), ih h.2]

theorem messageFunctions_marked {header : String} {body : List String}
    (hheader : header ≠ messageMark)
    (hbody : messageMark ∉ body) (hend : functionEnd ∉ body) (rest : List String) :
    messageFunctions (messageMark :: header :: (body ++ functionEnd :: rest)) =
      ⟨header, body⟩ :: messageFunctions rest := by
  have hskip : messageMark ∉ header :: (body ++ [functionEnd]) := by
    simp only [List.mem_cons, List.mem_append, List.not_mem_nil, or_false, not_or]
    exact ⟨Ne.symm hheader, hbody, by decide⟩
  have hrest := messageFunctions_append_of_not_mem hskip rest
  rw [List.cons_append, List.append_assoc, List.singleton_append] at hrest
  rw [messageFunctions, if_pos rfl, List.headD_cons, List.tail_cons,
    takeWhile_ne_append hend, hrest]

/-- A line that is moved right twice starts with eight blanks or is empty. -/
theorem mem_indent_indent {line : String} {lines : List String}
    (h : line ∈ indent (indent lines)) : line = "" ∨ ∃ text, line = "        " ++ text := by
  simp only [indent, List.map_map, List.mem_map, Function.comp_apply] at h
  obtain ⟨text, -, rfl⟩ := h
  by_cases htext : text.isEmpty = true
  · simp [htext]
  · refine .inr ⟨text, ?_⟩
    rw [if_neg htext, if_neg (by simp), ← String.append_assoc]
    rfl

/-- A line of a body is neither a mark nor the end of a function. -/
theorem not_mem_indent_indent {mark : String} (lines : List String)
    (hmark : mark.toList.take 8 ≠ "        ".toList) (hne : mark ≠ "") :
    mark ∉ indent (indent lines) := by
  intro hmem
  rcases mem_indent_indent hmem with rfl | ⟨text, rfl⟩
  · exact hne rfl
  · simp at hmark

/-! ## Methods -/

namespace Contract

theorem indent_append (lines rest : List String) :
    indent (lines ++ rest) = indent lines ++ indent rest :=
  List.map_append

/-- The line that declares a method in the implementation. -/
def Method.header (m : Method) : String :=
  let params := ", ".intercalate m.params
  s!"    {m.marker.visibility}fn {m.name}({params}) -> {m.returns} \x7b"

/-- A method as it stands in the implementation. -/
def Method.written (m : Method) : WrittenFunction :=
  ⟨m.header, indent (indent m.body)⟩

theorem Method.header_ne_messageMark (m : Method) : m.header ≠ messageMark := by
  intro h
  have hfifth := congrArg (fun line => line.toList[4]?) h
  cases hmarker : m.marker <;>
    simp [Method.header, Marker.visibility, hmarker, messageMark, toString] at hfifth

theorem Method.indent_lines (m : Method) :
    indent m.lines = indent m.marker.lines ++
      m.header :: (indent (indent m.body) ++ [functionEnd]) := by
  have hend : indent ["\x7d"] = [functionEnd] := by decide
  simp only [Method.lines, indent_append, hend, List.append_assoc]
  refine congrArg (indent m.marker.lines ++ ·) ?_
  simp [indent, Method.header, toString, String.append_assoc]

theorem Method.messageFunctions_lines (m : Method) (rest : List String) :
    messageFunctions (indent m.lines ++ rest) =
      (if m.marker = .message then [m.written] else []) ++ messageFunctions rest := by
  have hbody : messageMark ∉ indent (indent m.body) :=
    not_mem_indent_indent _ (by decide) (by decide)
  have hend : functionEnd ∉ indent (indent m.body) :=
    not_mem_indent_indent _ (by decide) (by decide)
  rw [m.indent_lines]
  by_cases hmarker : m.marker = .message
  · have hmark : indent m.marker.lines = [messageMark] := by rw [hmarker]; decide
    have hfound := messageFunctions_marked m.header_ne_messageMark hbody hend rest
    rw [if_pos hmarker, hmark]
    simpa [Method.written] using hfound
  · have hmark : messageMark ∉ indent m.marker.lines := by
      cases hcase : m.marker <;> first | contradiction | decide
    rw [if_neg hmarker, List.nil_append]
    refine messageFunctions_append_of_not_mem ?_ rest
    simp only [List.mem_append, List.mem_cons, List.not_mem_nil, or_false, not_or]
    exact ⟨hmark, m.header_ne_messageMark.symm, hbody, by decide⟩

/-- Among methods with empty lines between them, the functions found are those of messages. -/
theorem messageFunctions_methods (ms : List Method) (rest : List String) :
    messageFunctions (indent (separated (ms.map (·.lines))) ++ rest) =
      (ms.filter (·.marker = .message)).map Method.written ++ messageFunctions rest := by
  induction ms with
  | nil => rfl
  | cons m ms ih =>
    have hfilter : ((m :: ms).filter (·.marker = .message)).map Method.written =
        (if m.marker = .message then [m.written] else []) ++
          (ms.filter (·.marker = .message)).map Method.written := by
      by_cases hm : m.marker = .message <;> simp [hm]
    rw [hfilter, List.append_assoc, ← ih]
    cases ms with
    | nil =>
      simpa [separated, indent] using m.messageFunctions_lines rest
    | cons next ms =>
      have hempty : messageMark ∉ indent [""] := by decide
      rw [separated, List.map_cons, List.map_cons, List.intercalate_cons_cons, indent_append,
        indent_append, List.append_assoc, List.append_assoc, m.messageFunctions_lines,
        messageFunctions_append_of_not_mem hempty]
      rfl

theorem messageFunctions_implLines (contract : Contract) :
    messageFunctions contract.implLines =
      (contract.methods.filter (·.marker = .message)).map Method.written := by
  have hopen : messageMark ∉ [s!"impl {contract.name} \x7b"] := by
    rw [List.mem_singleton]
    intro h
    have hfirst := congrArg (fun line => line.toList.head?) h
    simp [messageMark, toString] at hfirst
  have hclose : messageFunctions ["\x7d"] = [] := by decide
  rw [implLines, List.append_assoc, messageFunctions_append_of_not_mem hopen,
    messageFunctions_methods, hclose, List.append_nil]

/-! ## Messages and their methods -/

theorem domain_synthesize (c : Classification) (given? : Option String) :
    (synthesize c given?).domain = domainFields c.primaryTemplateModel? := by
  have hsource : ∀ field ∈ domainFields c.primaryTemplateModel?, field.source?.isSome = true := by
    unfold domainFields fieldsOf
    split
    · exact List.forall_mem_map.mpr fun _ _ => rfl
    · simp
  simpa [domain, synthesize, storageFields] using hsource

theorem messageMethods_eq (contract : Contract) :
    contract.methods.filter (·.marker = .message) =
      controlMethods
        ++ (match contract.exchange? with
          | some (request, response) => [processMethod request response]
          | none => [])
        ++ contract.domain.map getterMethod := by
  have hgetters : (contract.domain.map getterMethod).filter (·.marker = .message) =
      contract.domain.map getterMethod := by
    rw [List.filter_eq_self, List.forall_mem_map]
    exact fun _ _ => rfl
  rw [methods, List.filter_append, List.filter_append, hgetters]
  congr 2
  cases contract.exchange? <;> rfl

/-- A method that is marked as a message and has its name, parameters and result is declared as the
message is. -/
theorem Method.header_eq_of_message {method : Method} {m : Message}
    (hmarker : method.marker = .message) (hname : method.name = m.name)
    (hparams : method.params = (if m.mutates then "&mut self" else "&self") ::
      m.params.map fun (name, type) => typed name type)
    (hreturns : method.returns = m.returns) : method.header = m.header := by
  have hvisibility : toString "    " ++ toString (Marker.visibility .message) ++ toString "fn " =
      toString "    pub fn " := by decide
  rw [Method.header, hmarker, hname, hparams, hreturns, hvisibility]
  rfl

theorem control_implemented :
    List.Forall₂ Message.ImplementedBy controlMessages (controlMethods.map Method.written) := by
  decide

theorem processing_implemented (request response : Classified) :
    (processingMessage request response).ImplementedBy
      (processMethod request response).written where
  header := Method.header_eq_of_message rfl rfl rfl rfl
  ownerOnly := by
    simp [Method.written, processMethod, processingMessage, ownerCheck, indent]
  requiresActive := by
    simp [Method.written, processMethod, processingMessage, activeCheck, indent]

theorem getter_implemented (field : StorageField) :
    (getterMessage field).ImplementedBy (getterMethod field).written where
  header := Method.header_eq_of_message rfl rfl rfl rfl
  ownerOnly := by
    simp [Method.written, getterMethod, getterMessage, ownerCheck, indent]
  requiresActive := by
    simp [Method.written, getterMethod, getterMessage, activeCheck, indent]

/-- The functions that the implementation marks as messages are those of the contract's messages,
in order, each declared and guarded as its message says. -/
theorem messages_implemented (c : Classification) (given? : Option String) :
    List.Forall₂ Message.ImplementedBy (synthesize c given?).messages
      (messageFunctions (synthesize c given?).implLines) := by
  have hexchange : (synthesize c given?).exchange? = Covenant.exchange? c := rfl
  rw [messageFunctions_implLines, messageMethods_eq, hexchange, domain_synthesize,
    List.map_append, List.map_append]
  refine List.rel_append (List.rel_append control_implemented ?_) ?_
  · cases Covenant.exchange? c with
    | none => exact .nil
    | some exchange => exact .cons (processing_implemented exchange.1 exchange.2) .nil
  · rw [List.map_map, List.forall₂_map_left_iff, List.forall₂_map_right_iff, List.forall₂_same]
    exact fun field _ => getter_implemented field

end Contract

end Covenant
