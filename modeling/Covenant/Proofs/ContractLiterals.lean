/-
The structure literals in the text of a contract. The logic of a contract answers with a literal
of the response, and one of its tests sends a literal of the request. A literal has the fields of
the declaration it is written for, a structure those of the first request or response of its name.
For the request these are the same, since it is the first of all. The response may come second: if
a request of another namespace has its name, that one gives the structure its fields, and the
literal fits only if both have the same ones (`Contract.literals_fit_iff`).

The literals are read off the lines of the text, so nothing rests on how they were made: a
function is found by how its first line starts and ends with a line of its own, and so does a
literal in it.
-/
import Covenant.Proofs.ContractStructures
import Covenant.Proofs.RenderedMessages
import Covenant.Proofs.RegistrationOrder
import Covenant.Proofs.Validation

namespace Covenant

open Covenant.Text

/-! ## Literals among lines -/

/-- The lines from the first one on that has this start. -/
def fromStart (start : String) (lines : List String) : List String :=
  lines.dropWhile fun line => !start.toList.isPrefixOf line.toList

/-- The body of the function whose first line has this start. -/
def functionBody (start : String) (lines : List String) : List String :=
  ((fromStart start lines).drop 1).takeWhile (· ≠ functionEnd)

/-- The field that a line of a literal gives a value to. The value holds no blank, so the last one
stands before it, behind the colon. -/
def initialisedName (line : String) : String :=
  String.ofList ((beforeLast ' ' line).toList.drop 12).dropLast

/-- The type and the fields of the first literal whose first line has this start, up to the line
that ends it. -/
def literal? (start closing : String) (lines : List String) : Option (String × List String) :=
  match fromStart start lines with
  | [] => none
  | opening :: rest =>
    some (String.ofList (opening.toList.drop start.length).dropLast.dropLast,
      (rest.takeWhile (· ≠ closing)).map initialisedName)

theorem fromStart_append {start : String} {before : List String}
    (h : ∀ line ∈ before, ¬ start.toList <+: line.toList) (text : String) (rest : List String) :
    fromStart start (before ++ (start ++ text) :: rest) = (start ++ text) :: rest := by
  have hskip : ∀ line ∈ before, (!start.toList.isPrefixOf line.toList) = true := by
    simpa only [Bool.not_eq_true', ← Bool.not_eq_true, List.isPrefixOf_iff_prefix] using h
  exact dropWhile_run hskip (by simp)

theorem functionBody_eq {start : String} {before body : List String}
    (h : ∀ line ∈ before, ¬ start.toList <+: line.toList) (hbody : functionEnd ∉ body)
    (text : String) (rest : List String) :
    functionBody start (before ++ (start ++ text) :: (body ++ functionEnd :: rest)) = body := by
  rw [functionBody, fromStart_append h, List.drop_succ_cons, List.drop_zero,
    takeWhile_ne_append hbody]

theorem literal?_eq {start closing : String} {before fields : List String}
    (h : ∀ line ∈ before, ¬ start.toList <+: line.toList) (hfields : closing ∉ fields)
    (type : String) (rest : List String) :
    literal? start closing (before ++ (start ++ (type ++ " \x7b")) :: (fields ++ closing :: rest)) =
      some (type, fields.map initialisedName) := by
  have hlength : start.length = start.toList.length := rfl
  rw [literal?, fromStart_append h]
  simp only [takeWhile_ne_append hfields, String.toList_append, hlength, List.drop_left]
  simp

/-! ## Values without a blank -/

theorem blank_not_mem_defaultValue (type : String) : ' ' ∉ (Target.defaultValue type).toList := by
  unfold Target.defaultValue
  repeat' split
  all_goals decide

theorem initialisedName_field {value : String} (h : ' ' ∉ value.toList) (name : String) :
    initialisedName ("            " ++ name ++ ": " ++ value ++ ",") = name := by
  have hvalue : ' ' ∉ (value ++ ",").toList := by simpa using h
  have hlast : beforeLast ' ' ("            " ++ name ++ ": " ++ value ++ ",") =
      "            " ++ name ++ ":" := beforeLast_eq (by simp) hvalue
  rw [initialisedName, hlast]
  simp

namespace Contract

/-- The lines of a literal's fields as they stand in a function. -/
theorem indent_literalFields (d : Classified) : indent (indent (literalFields d)) =
    (d.properties.filter fun p => !transientProperties.contains p.name).map fun p =>
      "            " ++ p.fieldName ++ ": " ++ Target.defaultValue p.targetType ++ "," := by
  simp only [literalFields, indent, List.map_map]
  refine List.map_congr_left fun p _ => ?_
  simp [toString, ← String.append_assoc]

/-- The names of the fields that a request or a response is exchanged with. -/
def exchangedNames (d : Classified) : List String :=
  (fieldsOf transientProperties d.properties).map (·.name)

theorem initialisedNames_literalFields (d : Classified) :
    (indent (indent (literalFields d))).map initialisedName = exchangedNames d := by
  rw [indent_literalFields, List.map_map, exchangedNames, fieldsOf, List.map_map]
  exact List.map_congr_left fun p _ =>
    initialisedName_field (blank_not_mem_defaultValue p.targetType) p.fieldName

/-- A line that ends a literal is none of its fields. -/
theorem not_mem_literalFields {closing : String} (h : closing.toList[8]? ≠ some ' ')
    (d : Classified) : closing ∉ indent (indent (literalFields d)) := by
  rw [indent_literalFields, List.mem_map]
  rintro ⟨p, -, rfl⟩
  simp at h

/-! ## Functions -/

/-- Before a block, others stand with an empty line behind each. -/
theorem separated_append (blocks : List (List String)) (block : List String)
    (later : List (List String)) : ∃ rest, separated (blocks ++ block :: later) =
      blocks.flatMap (· ++ [""]) ++ (block ++ rest) := by
  induction blocks with
  | nil =>
    cases later with
    | nil => exact ⟨[], by simp [separated]⟩
    | cons next later =>
      exact ⟨[""] ++ separated (next :: later), by simp [separated, List.intercalate_cons_cons]⟩
  | cons first blocks ih =>
    obtain ⟨rest, hrest⟩ := ih
    refine ⟨rest, ?_⟩
    obtain ⟨next, others, hnext⟩ := List.exists_cons_of_ne_nil
      (List.append_ne_nil_of_right_ne_nil blocks (List.cons_ne_nil block later))
    unfold separated at hrest ⊢
    rw [List.cons_append, hnext, List.intercalate_cons_cons, ← hnext, hrest]
    simp

section

variable {start line : String} (hstart : start.toList[4]? = some 'f')

include hstart

theorem not_start_of_fifth (h : line.toList[4]? ≠ some 'f') : ¬ start.toList <+: line.toList := by
  rintro ⟨text, htext⟩
  refine h ?_
  rw [← htext, List.getElem?_append_left (List.getElem?_eq_some_iff.mp hstart).1, hstart]

/-- A line that is moved right twice does not start a function. -/
theorem not_start_of_deep {lines : List String} (h : line ∈ indent (indent lines)) :
    ¬ start.toList <+: line.toList := by
  refine not_start_of_fifth hstart ?_
  rcases mem_indent_indent h with rfl | ⟨text, rfl⟩ <;> simp

/-- Only a helper starts without being made public. -/
theorem Method.not_start {m : Method} (hm : m.marker ≠ .helper) (h : line ∈ indent m.lines) :
    ¬ start.toList <+: line.toList := by
  rw [m.indent_lines] at h
  simp only [List.mem_append, List.mem_cons, List.not_mem_nil, or_false] at h
  rcases h with hmark | rfl | hbody | rfl
  · refine not_start_of_fifth hstart ?_
    cases hmarker : m.marker with
    | helper => exact absurd hmarker hm
    | constructor | message =>
      rw [hmarker] at hmark
      rw [List.mem_singleton.mp hmark]
      decide
  · refine not_start_of_fifth hstart ?_
    cases hmarker : m.marker with
    | helper => exact absurd hmarker hm
    | constructor | message => simp [Method.header, Marker.visibility, hmarker, toString]
  · exact not_start_of_deep hstart hbody
  · exact not_start_of_fifth hstart (by decide)

/-- Neither do blocks of lines in which nothing does, with an empty line behind each. -/
theorem not_start_of_blocks {blocks : List (List String)}
    (hblocks : ∀ block ∈ blocks, ∀ line ∈ indent block, ¬ start.toList <+: line.toList)
    (h : line ∈ indent (blocks.flatMap (· ++ [""]))) : ¬ start.toList <+: line.toList := by
  obtain ⟨text, htext, rfl⟩ := List.mem_map.mp h
  obtain ⟨block, hblock, htext⟩ := List.mem_flatMap.mp htext
  rcases List.mem_append.mp htext with htext | htext
  · exact hblocks block hblock _ (List.mem_map_of_mem htext)
  · rw [List.mem_singleton.mp htext]
    exact not_start_of_fifth hstart (by decide)

end

/-! ## The logic -/

/-- The literal that the logic of a contract answers with. -/
def logicLiteral? (contract : Contract) : Option (String × List String) :=
  literal? "        Ok(" "        \x7d)"
    (functionBody "    fn execute_contract_logic(" contract.implLines)

theorem functionBody_implLines {contract : Contract} {request response : Classified}
    (h : contract.exchange? = some (request, response)) :
    functionBody "    fn execute_contract_logic(" contract.implLines =
      indent (indent (logicMethod request response).body) := by
  let logic := logicMethod request response
  have hstart : "    fn execute_contract_logic(".toList[4]? = some 'f' := by decide
  -- all methods before the logic are public
  obtain ⟨ms, hmethods, hpublic⟩ : ∃ ms, contract.methods = ms ++ logic ::
      contract.domain.map getterMethod ∧ ∀ m ∈ ms, m.marker ≠ .helper := by
    refine ⟨[newMethod contract.domain, defaultMethod contract.domain, ownerMethod, pausedMethod,
      switchMethod "pause" "true" "ContractPaused",
        switchMethod "unpause" "false" "ContractUnpaused",
      processMethod request response], ?_, ?_⟩
    · rw [methods, h]
      rfl
    · simp [newMethod, defaultMethod, ownerMethod, pausedMethod, switchMethod, processMethod]
  have hbefore : ∀ line ∈ [s!"impl {contract.name} \x7b"] ++
      indent ((ms.map (·.lines)).flatMap (· ++ [""])),
      ¬ "    fn execute_contract_logic(".toList <+: line.toList := by
    rw [List.forall_mem_append, List.forall_mem_singleton]
    constructor
    · simp [toString]
    · refine fun line hline => not_start_of_blocks hstart ?_ hline
      rw [List.forall_mem_map]
      exact fun m hm line hline => Method.not_start hstart (hpublic m hm) hline
  have hbody : functionEnd ∉ indent (indent logic.body) :=
    not_mem_indent_indent _ (by decide) (by decide)
  obtain ⟨rest, hrest⟩ := separated_append (ms.map (·.lines)) logic.lines
    ((contract.domain.map getterMethod).map (·.lines))
  obtain ⟨text, htext⟩ : ∃ text, logic.header = "    fn execute_contract_logic(" ++ text :=
    ⟨"&self, " ++ ("_request: " ++ request.name ++ (") -> " ++ ("Result<" ++ response.name ++
      ("> \x7b")))), by
        simp [logic, logicMethod, Method.header, Marker.visibility, typed, toString,
          String.append_assoc]⟩
  have hlines : contract.implLines =
      [s!"impl {contract.name} \x7b"] ++ indent ((ms.map (·.lines)).flatMap (· ++ [""])) ++
        ("    fn execute_contract_logic(" ++ text) ::
          (indent (indent logic.body) ++ functionEnd :: (indent rest ++ ["\x7d"])) := by
    have hmark : indent logic.marker.lines = [] := rfl
    rw [implLines, hmethods, List.map_append, List.map_cons, hrest, indent_append, indent_append,
      logic.indent_lines, hmark, htext]
    simp
  rw [hlines]
  exact functionBody_eq hbefore hbody text _

theorem logicLiteral?_eq {contract : Contract} {request response : Classified}
    (h : contract.exchange? = some (request, response)) :
    contract.logicLiteral? = some (response.name, exchangedNames response) := by
  have hbefore : ∀ line ∈ ["        // Placeholder values; the clause logic belongs here."],
      ¬ "        Ok(".toList <+: line.toList := by decide
  have hclosing : "        \x7d)" ∉ indent (indent (literalFields response)) :=
    not_mem_literalFields (by decide) response
  have hbody : indent (indent (logicMethod request response).body) =
      ["        // Placeholder values; the clause logic belongs here."] ++
        ("        Ok(" ++ (response.name ++ " \x7b")) ::
          (indent (indent (literalFields response)) ++ ["        \x7d)"]) := by
    simp only [logicMethod, indent_append]
    simp [indent, toString, ← String.append_assoc]
  rw [logicLiteral?, functionBody_implLines h, hbody, literal?_eq hbefore hclosing,
    initialisedNames_literalFields]

/-! ## The test -/

/-- The literal that a contract is tested with while it is paused. -/
def testLiteral? (contract : Contract) : Option (String × List String) :=
  literal? "        let request = " "        \x7d;"
    (functionBody "    fn process_request_rejected_while_paused(" contract.testModuleLines)

theorem indent_testLines (name : String) (body : List String) : indent (testLines name body) =
    "    #[ink::test]" :: ("    fn " ++ name ++ "() \x7b") ::
      (indent (indent body) ++ [functionEnd]) := by
  simp only [testLines, indent_append]
  simp [indent, functionEnd, toString, ← String.append_assoc]

/-- Tests of other names do not start like this one. -/
theorem testLines_not_start {start name line : String} {body : List String}
    (hstart : start.toList[4]? = some 'f')
    (hname : ¬ start.toList <+: ("    fn " ++ name ++ "() \x7b").toList)
    (h : line ∈ indent (testLines name body)) : ¬ start.toList <+: line.toList := by
  rw [indent_testLines] at h
  simp only [List.mem_append, List.mem_cons, List.not_mem_nil, or_false] at h
  rcases h with rfl | rfl | hbody | rfl
  · exact not_start_of_fifth hstart (by decide)
  · exact hname
  · exact not_start_of_deep hstart hbody
  · exact not_start_of_fifth hstart (by decide)

theorem functionBody_testModuleLines {contract : Contract} {request response : Classified}
    (h : contract.exchange? = some (request, response)) :
    ∃ later, functionBody "    fn process_request_rejected_while_paused(" contract.testModuleLines =
      indent (indent ([s!"let mut contract = {contract.name}::default();",
        s!"let request = {request.name} \x7b"] ++ literalFields request ++ "\x7d;" :: later)) := by
  have hstart : "    fn process_request_rejected_while_paused(".toList[4]? = some 'f' := by decide
  obtain ⟨later, htest⟩ : ∃ later, pausedRequestTest contract request =
      testLines "process_request_rejected_while_paused"
        ([s!"let mut contract = {contract.name}::default();",
          s!"let request = {request.name} \x7b"] ++ literalFields request ++ "\x7d;" :: later) :=
    ⟨_, rfl⟩
  obtain ⟨blocks, htests, hothers⟩ : ∃ blocks, contract.tests =
      blocks ++ [pausedRequestTest contract request] ∧
      ∀ block ∈ blocks, ∀ line ∈ indent block,
        ¬ "    fn process_request_rejected_while_paused(".toList <+: line.toList := by
    refine ⟨_, by rw [tests, h], ?_⟩
    simp only [List.forall_mem_cons, List.not_mem_nil, false_implies, implies_true, and_true]
    refine ⟨by decide, ?_, ?_, ?_, ?_⟩
    all_goals exact fun line hline => testLines_not_start hstart (by decide) hline
  have hbefore :
      ∀ line ∈ ["#[cfg(test)]", "mod tests \x7b"] ++ indent (blocks.flatMap (· ++ [""])) ++
          ["    #[ink::test]"],
        ¬ "    fn process_request_rejected_while_paused(".toList <+: line.toList := by
    rw [List.forall_mem_append, List.forall_mem_append]
    exact ⟨⟨by decide, fun line hline => not_start_of_blocks hstart hothers hline⟩, by decide⟩
  obtain ⟨rest, hrest⟩ := separated_append blocks (pausedRequestTest contract request) []
  refine ⟨later, ?_⟩
  set body := [s!"let mut contract = {contract.name}::default();",
    s!"let request = {request.name} \x7b"] ++ literalFields request ++ "\x7d;" :: later with hbody
  have hlines : contract.testModuleLines =
      ["#[cfg(test)]", "mod tests \x7b"] ++ indent (blocks.flatMap (· ++ [""])) ++
        ["    #[ink::test]"] ++ ("    fn process_request_rejected_while_paused(" ++ ") \x7b") ::
          (indent (indent body) ++ functionEnd :: (indent rest ++ ["\x7d"])) := by
    rw [testModuleLines, htests, hrest, indent_append, indent_append, htest, indent_testLines]
    simp
  rw [hlines]
  exact functionBody_eq hbefore (not_mem_indent_indent _ (by decide) (by decide)) _ _

theorem testLiteral?_eq {contract : Contract} {request response : Classified}
    (h : contract.exchange? = some (request, response)) :
    contract.testLiteral? = some (request.name, exchangedNames request) := by
  obtain ⟨later, hbody⟩ := functionBody_testModuleLines h
  have hbefore : ∀ line ∈ ["        let mut contract = " ++ contract.name ++ "::default();"],
      ¬ "        let request = ".toList <+: line.toList := by
    simp
  have hclosing : "        \x7d;" ∉ indent (indent (literalFields request)) :=
    not_mem_literalFields (by decide) request
  have hsplit :
      functionBody "    fn process_request_rejected_while_paused(" contract.testModuleLines =
        ["        let mut contract = " ++ contract.name ++ "::default();"] ++
          ("        let request = " ++ (request.name ++ " \x7b")) ::
            (indent (indent (literalFields request)) ++
              "        \x7d;" :: indent (indent later)) := by
    rw [hbody]
    simp only [indent_append]
    simp [indent, toString, ← String.append_assoc]
  rw [testLiteral?, hsplit, literal?_eq hbefore hclosing, initialisedNames_literalFields]

/-! ## Structures -/

/-- The structure that a contract has under a name, and the only one. -/
structure IsStructureOf (contract : Contract) (name : String) (s : DataStructure) : Prop where
  mem : s ∈ contract.structures
  called : s.name = name
  unique : ∀ other ∈ contract.structures, other.name = name → other = s

/-- The first request or response of a name gives the structure of that name its fields. -/
theorem isStructureOf_first {c : Classification} {name : String} {d : Classified}
    (h : (c.requests ++ c.responses).find? (·.name = name) = some d) (given? : Option String) :
    (synthesize c given?).IsStructureOf name (exchangedStructure d) := by
  have hname : d.name = name := by simpa using List.find?_some h
  subst hname
  have hexchanged : d ∈ exchangedDeclarations c := mem_firstOfEachName_iff.mpr ⟨by simp, h⟩
  have hmem : exchangedStructure d ∈ dataStructures c := by
    rw [dataStructures, List.append_assoc]
    exact List.mem_append_left _ (List.mem_map_of_mem hexchanged)
  exact ⟨hmem, rfl, fun other hother hname => List.inj_on_of_nodup_map
    (Classification.nodup_names_dataStructures c) hother hmem hname⟩

theorem names_exchangedStructure (d : Classified) :
    (exchangedStructure d).fields.map (·.name) = exchangedNames d :=
  rfl

section

variable {c : Classification} {request response : Classified}

theorem find?_request (h : c.primaryRequest? = some request) :
    (c.requests ++ c.responses).find? (·.name = request.name) = some request := by
  obtain ⟨others, hrequests⟩ := List.head?_eq_some_iff.mp h
  simp [hrequests]

/-- The response is not the first of its name if a request has it. -/
theorem find?_response (h : c.primaryResponse? = some response) :
    (c.requests ++ c.responses).find? (·.name = response.name) =
      some ((c.requests.find? (·.name = response.name)).getD response) := by
  obtain ⟨others, hresponses⟩ := List.head?_eq_some_iff.mp h
  rw [List.find?_append, hresponses, List.find?_cons_of_pos (by simp)]
  cases c.requests.find? (·.name = response.name) <;> rfl

/-- In a contract with a request and a response, the literal of its test has the type of the first
request and the literal of its logic that of the first response. The fields of the one are, in
order, those of the structure of that type. The fields of the other are if and only if no request
has the name of the response, or the first that has it has the same fields. -/
theorem literals_fit_iff (hrequest : c.primaryRequest? = some request)
    (hresponse : c.primaryResponse? = some response) (given? : Option String) :
    let contract := synthesize c given?
    (∃ s names, contract.testLiteral? = some (request.name, names) ∧
      contract.IsStructureOf request.name s ∧ names = s.fields.map (·.name)) ∧
    ∃ s names, contract.logicLiteral? = some (response.name, names) ∧
      contract.IsStructureOf response.name s ∧
      (names = s.fields.map (·.name) ↔ ∀ d ∈ c.requests.find? (·.name = response.name),
        exchangedNames d = exchangedNames response) := by
  intro contract
  have hexchange : contract.exchange? = some (request, response) := by
    simp [contract, exchange?, synthesize, hrequest, hresponse]
  refine ⟨⟨_, _, testLiteral?_eq hexchange, isStructureOf_first (find?_request hrequest) given?,
    rfl⟩, _, _, logicLiteral?_eq hexchange,
    isStructureOf_first (find?_response hresponse) given?, ?_⟩
  rw [names_exchangedStructure]
  cases c.requests.find? (·.name = response.name) with
  | none => simp
  | some d => simp [eq_comm]

end

/-- A request and a response of the same name, in two namespaces. -/
def namesakes : Registry where
  entries := [
    { model := {
        id := ⟨"a", none⟩
        declarations := [
          ⟨"Request", .classBody { kind := .event }, []⟩,
          ⟨"Response", .classBody { kind := .event }, []⟩,
          ⟨"N", .classBody {
            kind := .event, superType? := some "Request"
            properties := [{ name := "x", typeName := "Long" }] }, []⟩] }
      name := "a.cto"
      text := "namespace a event Request\x7b\x7devent Response\x7b\x7d" ++
        "event N extends Request\x7bo Long x\x7d" },
    { model := {
        id := ⟨"b", none⟩
        declarations := [⟨"N", .classBody {
          kind := .event, superType? := some "a.Response"
          properties := [{ name := "y", typeName := "Long" }] }, []⟩] }
      name := "b.cto"
      text := "namespace b event N extends a.Response\x7bo Long y\x7d" }]

/-- They are valid, and the literal of the response does not fit. -/
theorem literals_fit_iff_namesakes :
    let r := namesakes
    let contract := synthesize (r.classify .substring) none
    r.Reachable ∧ r.validate = [] ∧
      (∃ s names, contract.testLiteral? = some ("N", names) ∧ contract.IsStructureOf "N" s ∧
        names = s.fields.map (·.name)) ∧
      ∃ s names, contract.logicLiteral? = some ("N", names) ∧ contract.IsStructureOf "N" s ∧
        names ≠ s.fields.map (·.name) := by
  intro r contract
  let c := r.classify .substring
  have hr : r.Reachable := Registry.reachable_of_submissions (by decide +kernel)
  have hvalid : r.validate = [] :=
    Registry.validate_eq_nil_of_flat (by decide +kernel) (by decide +kernel)
  have hfirst : c.primaryRequest?.map (·.name) = some "N" ∧
      (c.primaryResponse?.map fun d => (d.name, exchangedNames d)) = some ("N", ["y"]) ∧
      (c.requests.find? (·.name = "N")).map exchangedNames = some ["x"] := by decide +kernel
  simp only [Option.map_eq_some_iff, Prod.mk.injEq] at hfirst
  obtain ⟨⟨request, hrequest, hname⟩, ⟨response, hresponse, hname', hfields⟩,
    first, hfirst, hother⟩ := hfirst
  obtain ⟨htest, s, names, hlogic, hstructure, hfits⟩ := literals_fit_iff hrequest hresponse none
  rw [hname] at htest
  rw [hname'] at hlogic hstructure hfits
  refine ⟨hr, hvalid, htest, s, names, hlogic, hstructure, fun hsame => ?_⟩
  have hsame := hfits.mp hsame first hfirst
  rw [hother, hfields] at hsame
  exact absurd hsame (by decide)

end Contract

end Covenant
