/-
The literals of the scaffold fit the structs of the data crate. The scaffold finds the
declaration of a literal by its name, the module goes through the declarations of its
namespace; each then walks up the supertypes. They end with the same fields: what a literal
of the scaffold gives values to are, one by one, the fields of the struct that the module of
the namespace holds under that name (`Crate.scaffold_fits`).

The fields of a struct are read off the lines of its module (`declaredFields`), so nothing
rests on how the lines were made.
-/
import Covenant.Crate.Scaffold
import Covenant.Proofs.Roles
import Covenant.Proofs.StructFields

namespace Covenant

open Covenant.Lexer Covenant.Text

namespace Crate

/-! ## Structs among lines -/

/-- The line that opens a struct. -/
def structHeader (name : String) : String :=
  s!"pub struct {name} \x7b"

/-- The line that ends a struct. -/
def structEnd : String := "\x7d"

/-- The lines of the struct of that name, without its first and its last one. -/
def structBlock (name : String) (lines : List String) : List String :=
  ((lines.dropWhile (· ≠ structHeader name)).drop 1).takeWhile (· ≠ structEnd)

/-- How a line starts that declares a field. -/
def fieldStart : String := "    pub "

/-- The name and the type that a line declares: the text before the colon, and that behind the colon
and the blank, without the comma. -/
def declaredField? (line : String) : Option (String × String) :=
  if fieldStart.toList.isPrefixOf line.toList then
    let text := line.toList.drop fieldStart.length
    some (String.ofList (text.takeWhile (· ≠ ':')),
      String.ofList ((text.dropWhile (· ≠ ':')).drop 2).dropLast)
  else none

/-- The names and types of the fields of a struct, as they stand among lines. -/
def declaredFields (name : String) (lines : List String) : List (String × String) :=
  (structBlock name lines).filterMap declaredField?

theorem structBlock_eq {name : String} {before body : List String}
    (hbefore : structHeader name ∉ before) (hbody : structEnd ∉ body) (rest : List String) :
    structBlock name (before ++ structHeader name :: (body ++ structEnd :: rest)) = body := by
  rw [structBlock, dropWhile_ne_append hbefore, List.drop_succ_cons, List.drop_zero,
    takeWhile_ne_append hbody]

/-! ## Fields -/

/-- The lines of a field are indented. -/
theorem indented_of_mem_lines {f : StructField} {line : String} (h : line ∈ f.lines) :
    ∃ text, line = "    " ++ text := by
  rw [StructField.lines, List.mem_append, List.mem_singleton] at h
  rcases h with h | rfl
  · split at h
    · cases h
    · rw [List.mem_singleton.mp h]
      exact ⟨"#[serde(" ++ ", ".intercalate f.attributes ++ ")]", by simp [← String.append_assoc]⟩
  · exact ⟨s!"pub {f.name}: {f.type.text},", by simp [toString, ← String.append_assoc]⟩

theorem declaredField?_serde (text : String) :
    declaredField? ("    #[serde(" ++ text) = none := by
  simp [declaredField?, fieldStart]

theorem declaredField?_field {name : String} (h : ':' ∉ name.toList) (type : String) :
    declaredField? s!"    pub {name}: {type}," = some (name, type) := by
  have hline : (s!"    pub {name}: {type},").toList =
      fieldStart.toList ++ (name.toList ++ ':' :: ' ' :: (type.toList ++ [','])) := by
    simp [toString, fieldStart]
  have hlength : fieldStart.length = fieldStart.toList.length := rfl
  simp only [declaredField?, hline, hlength, List.drop_left, takeWhile_ne_append h,
    dropWhile_ne_append h]
  simp

/-- The lines of a field declare it and nothing else. -/
theorem declared_lines {f : StructField} (h : ':' ∉ f.name.toList) :
    f.lines.filterMap declaredField? = [(f.name, f.type.text)] := by
  unfold StructField.lines
  rw [List.filterMap_append, List.filterMap_cons_some (declaredField?_field h f.type.text)]
  split
  · rfl
  · rw [String.append_assoc, List.filterMap_cons_none (declaredField?_serde _)]
    rfl

/-! ## Modules -/

theorem structHeader_ne_indented (name text : String) : structHeader name ≠ "    " ++ text := by
  intro he
  simpa [structHeader, toString] using congrArg String.toList he

theorem structHeader_not_mem_enumLines (name enum : String) (values : List String) :
    structHeader name ∉ enumLines enum values := by
  have hvalues : structHeader name ∉ enumValueLines values := by
    cases values with
    | nil => simp [enumValueLines]
    | cons first others =>
      rw [enumValueLines, List.mem_cons, List.mem_map, not_or]
      refine ⟨structHeader_ne_indented name "#[default]", ?_⟩
      rintro ⟨value, -, he⟩
      refine structHeader_ne_indented name s!"{value}," ?_
      rw [← he]
      simp [toString, ← String.append_assoc]
  intro h
  simp only [enumLines, List.mem_append, List.mem_cons, List.not_mem_nil, or_false] at h
  rcases h with ((h | h | h) | h) | h
  · simp [structHeader, toString, ← String.toList_inj] at h
  · simp [structHeader, toString, ← String.toList_inj] at h
  · simp [structHeader, toString, ← String.toList_inj] at h
  · exact hvalues h
  · simp [structHeader, toString, ← String.toList_inj] at h

/-- Only the first line of the declaration's own struct opens a struct. -/
theorem eq_of_structHeader_mem {r : Registry} {l : Located} {name : String}
    (h : structHeader name ∈ declarationLines r l) : name = l.declaration.name := by
  unfold declarationLines at h
  split at h
  · simp only [structLines, List.mem_append, List.mem_cons, List.mem_flatMap, List.not_mem_nil,
      or_false] at h
    rcases h with ((h | h) | ⟨f, -, h⟩) | h
    · simp [structHeader, toString, ← String.toList_inj] at h
    · simpa [structHeader, toString, ← String.toList_inj] using h
    · obtain ⟨text, hline⟩ := indented_of_mem_lines h
      exact absurd hline (structHeader_ne_indented name text)
    · simp [structHeader, toString, ← String.toList_inj] at h
  · exact absurd h (structHeader_not_mem_enumLines _ _ _)
  · simp [structHeader, toString, ← String.toList_inj] at h
  · simp [structHeader, toString, ← String.toList_inj] at h

/-- Lines of declarations with other names do not open the struct. -/
theorem structHeader_not_mem_flatMap {r : Registry} {key name : String} {ds : List Declaration}
    (h : name ∉ ds.map (·.name)) :
    structHeader name ∉ ds.flatMap fun d => "" :: declarationLines r ⟨key, d⟩ := by
  intro hmem
  obtain ⟨d, hd, hline⟩ := List.mem_flatMap.mp hmem
  rcases List.mem_cons.mp hline with hempty | hline
  · simp [structHeader, toString, ← String.toList_inj] at hempty
  · exact h (List.mem_map.mpr ⟨d, hd, (eq_of_structHeader_mem hline).symm⟩)

/-- No line before the declarations opens a struct. -/
theorem moduleLines_opening (r : Registry) (m : Model) :
    ∃ opening, (∀ name, structHeader name ∉ opening) ∧ moduleLines r m =
      opening ++ m.declarations.flatMap fun d => "" :: declarationLines r ⟨m.key, d⟩ := by
  refine ⟨_, fun name => ?_, rfl⟩
  simp [structHeader, useLine, toString, ← String.toList_inj]

/-- Where the struct of a class stands in its module. -/
theorem moduleLines_split {r : Registry} {m : Model} (hnames : (m.declarations.map (·.name)).Nodup)
    {d : Declaration} (hd : d ∈ m.declarations) {body : ClassBody}
    (hbody : d.body = .classBody body) :
    ∃ before rest, structHeader d.name ∉ before ∧ structHeader d.name ∉ rest ∧
      moduleLines r m = before ++ structHeader d.name ::
        ((structFields r ⟨m.key, d⟩).flatMap (·.lines) ++ structEnd :: rest) := by
  obtain ⟨opening, hopening, hmodule⟩ := moduleLines_opening r m
  obtain ⟨ds, ds', hsplit⟩ := List.append_of_mem hd
  rw [hsplit, List.map_append, List.map_cons, List.nodup_append, List.nodup_cons] at hnames
  obtain ⟨-, ⟨hlater, -⟩, hearlier⟩ := hnames
  let derives := "#[derive(Debug, Clone, Default, Serialize, Deserialize)]"
  have hlines : declarationLines r ⟨m.key, d⟩ = derives :: structHeader d.name ::
      ((structFields r ⟨m.key, d⟩).flatMap (·.lines) ++ [structEnd]) := by
    simp only [declarationLines, hbody]
    rfl
  refine ⟨opening ++ (ds.flatMap fun d => "" :: declarationLines r ⟨m.key, d⟩) ++ ["", derives],
    ds'.flatMap fun d => "" :: declarationLines r ⟨m.key, d⟩, ?_,
    structHeader_not_mem_flatMap hlater, ?_⟩
  · rw [List.mem_append, List.mem_append, not_or, not_or]
    refine ⟨⟨hopening d.name, structHeader_not_mem_flatMap fun hmem => ?_⟩, ?_⟩
    · exact hearlier _ hmem _ List.mem_cons_self rfl
    · simp [derives, structHeader, toString, ← String.toList_inj]
  · rw [hmodule, hsplit, List.flatMap_append, List.flatMap_cons, hlines]
    simp

section

variable {r : Registry} {m : Model} {d : Declaration} {body : ClassBody}

/-- A module holds one struct of the name of a class. -/
theorem count_structHeader (hnames : (m.declarations.map (·.name)).Nodup) (hd : d ∈ m.declarations)
    (hbody : d.body = .classBody body) : (moduleLines r m).count (structHeader d.name) = 1 := by
  obtain ⟨before, rest, hbefore, hrest, hlines⟩ := moduleLines_split (r := r) hnames hd hbody
  have hfields : structHeader d.name ∉
      (structFields r ⟨m.key, d⟩).flatMap (·.lines) ++ structEnd :: rest := by
    rw [List.mem_append, List.mem_cons, List.mem_flatMap]
    rintro (⟨f, -, hline⟩ | hend | hline)
    · obtain ⟨text, he⟩ := indented_of_mem_lines hline
      exact structHeader_ne_indented _ text he
    · simp [structHeader, structEnd, toString, ← String.toList_inj] at hend
    · exact hrest hline
  rw [hlines, List.count_append, List.count_eq_zero.mpr hbefore, List.count_cons_self,
    List.count_eq_zero.mpr hfields]

/-- Its lines are those of the fields of the class. -/
theorem structBlock_moduleLines (hnames : (m.declarations.map (·.name)).Nodup)
    (hd : d ∈ m.declarations) (hbody : d.body = .classBody body) :
    structBlock d.name (moduleLines r m) = (structFields r ⟨m.key, d⟩).flatMap (·.lines) := by
  obtain ⟨before, rest, hbefore, -, hlines⟩ := moduleLines_split (r := r) hnames hd hbody
  have hinside : structEnd ∉ (structFields r ⟨m.key, d⟩).flatMap (·.lines) := by
    intro hmem
    obtain ⟨f, -, hline⟩ := List.mem_flatMap.mp hmem
    obtain ⟨text, he⟩ := indented_of_mem_lines hline
    simp [structEnd, ← String.toList_inj] at he
  rw [hlines, structBlock_eq hbefore hinside]

/-- It has the fields of the class. -/
theorem declaredFields_moduleLines (hnames : (m.declarations.map (·.name)).Nodup)
    (hd : d ∈ m.declarations) (hbody : d.body = .classBody body)
    (hfields : ∀ f ∈ structFields r ⟨m.key, d⟩, ':' ∉ f.name.toList) :
    declaredFields d.name (moduleLines r m) =
      (structFields r ⟨m.key, d⟩).map fun f => (f.name, f.type.text) := by
  rw [declaredFields, structBlock_moduleLines hnames hd hbody, List.filterMap_flatMap]
  generalize structFields r ⟨m.key, d⟩ = fields at hfields
  induction fields with
  | nil => rfl
  | cons f fields ih =>
    rw [List.forall_mem_cons] at hfields
    rw [List.flatMap_cons, declared_lines hfields.1, ih hfields.2]
    rfl

end

/-- The properties of a registered declaration all have names. -/
theorem isName_of_mem_allProperties {r : Registry} (h : r.Sound) {l : Located}
    (hl : l ∈ r.declarations) {p : Property} (hp : p ∈ r.allProperties l) :
    IsName p.name.toList := by
  rw [Registry.allProperties, List.mem_append, List.mem_flatMap] at hp
  rcases hp with himplicit | ⟨a, ha, hp⟩
  · exact isName_of_implicit h hl himplicit
  · have ha := (h.mem_lineage_iff hl).mp (List.mem_reverse.mp ha)
    exact h.isName_property (Registry.mem_declarations_of_reflTransGen hl ha) hp

/-- No field of a registered declaration has a colon in its name. -/
theorem colon_not_mem_structFields {r : Registry} (h : r.Sound) {l : Located}
    (hl : l ∈ r.declarations) : ∀ f ∈ structFields r l, ':' ∉ f.name.toList := by
  intro f hf
  obtain ⟨p, hp, rfl⟩ := List.mem_map.mp hf
  simp only [structField]
  exact Target.colon_not_mem_fieldName (isName_of_mem_allProperties h hl hp)

end Crate

/-! ## Classified declarations -/

namespace Registry

/-- A declaration that plays a role is a class. -/
theorem classBody_of_roleOf {r : Registry} {strategy : Strategy} {l : Located} {role : Role}
    (h : r.roleOf strategy l = .ok role) : ∃ body, l.declaration.body = .classBody body := by
  cases hbody : l.declaration.body with
  | classBody body => exact ⟨body, rfl⟩
  | enumeration | scalar | map =>
    -- without a supertype, only the category can give it a role
    have hsuper : r.superType? l = none := by
      simp [superType?, Declaration.superType?, hbody]
    have hnames : r.superTypeNames l = [] := by
      rw [superTypeNames, superTypeNamesFrom_none hsuper]
      simp [Declaration.superType?, hbody]
    simp [roleOf, hnames, assignRole, Role.extendedBy, Declaration.kind, hbody] at h
    cases strategy <;> simp at h

/-- In its own namespace a declaration is found by its name, unless that is the name of a primitive
type. -/
theorem Sound.resolve?_name {r : Registry} (h : r.Sound) {l : Located} (hl : l ∈ r.declarations) :
    r.resolve? l.key l.declaration.name =
      if isPrimitive l.declaration.name then none else some l := by
  obtain ⟨m, hm, hkey, hd⟩ := mem_declarations.mp hl
  have hshort : isQualified l.declaration.name = false := by
    simpa [isQualified] using h.dot_not_mem hl
  unfold resolve?
  refine if_congr Iff.rfl rfl ?_
  rw [if_neg (by simp [hshort]), resolveShort?, hkey, h.model?_eq_some_iff.mpr ⟨hm, rfl⟩]
  cases hfind : m.find? l.declaration.name with
  | none =>
    have hother := List.find?_eq_none.mp hfind _ hd
    simp at hother
  | some declaration =>
    have hname : declaration.name = l.declaration.name := by simpa using List.find?_some hfind
    obtain rfl : declaration = l.declaration :=
      List.inj_on_of_nodup_map (h.nodup_declared hm) (List.mem_of_find?_eq_some hfind) hd hname
    simp only [hfind, ← hkey]

end Registry

namespace Crate

/-! ## Scaffolds -/

variable {r : Registry} {strategy : Strategy} {package : String}

/-- The values are given to the fields, in order, of the only struct of that name in the module of
the declaration's namespace. -/
def FillsStruct (r : Registry) (d : Classified) (values : List FieldValue) : Prop :=
  ∃ m ∈ r.models, m.key = d.key ∧ (moduleLines r m).count (structHeader d.name) = 1 ∧
    values.map (fun v => (v.name, v.type)) = declaredFields d.name (moduleLines r m)

/-- The first declaration of a role is one of the registered declarations that play it. -/
theorem mem_ofRole_of_head? (role : Role) {d : Classified}
    (h : ((r.classify strategy).ofRole role).head? = some d) : d ∈ r.ofRole strategy role :=
  r.ofRole_classify strategy role ▸ List.mem_of_head? h

theorem exists_of_mem_ofRole {role : Role} {d : Classified} (h : d ∈ r.ofRole strategy role) :
    ∃ l ∈ r.declarations, r.roleOf strategy l = .ok role ∧ d = r.classified l role := by
  obtain ⟨l, hl, rfl⟩ := List.mem_map.mp h
  obtain ⟨hmem, hrole⟩ := List.mem_filter.mp hl
  refine ⟨l, hmem, ?_, rfl⟩
  cases hassigned : r.roleOf strategy l with
  | error reason => simp [hassigned, Except.toOption] at hrole
  | ok assigned => simpa [hassigned, Except.toOption] using hrole

/-- The scaffold finds the fields of a classified declaration, unless its name is that of a
primitive type. -/
theorem classifiedFields_classified (h : r.Sound) {l : Located} (hl : l ∈ r.declarations)
    (role : Role) : classifiedFields r (r.classified l role) =
      if isPrimitive l.declaration.name then .error ⟨l.fullName⟩ else .ok (structFields r l) := by
  simp only [classifiedFields, Registry.classified, h.resolve?_name hl]
  cases isPrimitive l.declaration.name <;> rfl

/-- The fields that the scaffold finds for a classified declaration are those of its struct. -/
theorem declaredFields_of_classifiedFields (h : r.Sound) {role : Role} {d : Classified}
    (hd : d ∈ r.ofRole strategy role) {fields : List StructField}
    (hfields : classifiedFields r d = .ok fields) {values : List FieldValue}
    (hvalues : values.map (fun v => (v.name, v.type)) =
      fields.map fun f => (f.name, f.type.text)) : FillsStruct r d values := by
  obtain ⟨l, hl, hrole, rfl⟩ := exists_of_mem_ofRole hd
  obtain ⟨m, hm, hkey, hdeclared⟩ := Registry.mem_declarations.mp hl
  obtain ⟨body, hbody⟩ := Registry.classBody_of_roleOf hrole
  have hl' : (⟨m.key, l.declaration⟩ : Located) = l := by rw [← hkey]
  have hread : declaredFields l.declaration.name (moduleLines r m) =
      (structFields r l).map fun f => (f.name, f.type.text) := by
    have hcolon := colon_not_mem_structFields h hl
    rw [← hl'] at hcolon ⊢
    exact declaredFields_moduleLines (h.nodup_declared hm) hdeclared hbody hcolon
  rw [classifiedFields_classified h hl] at hfields
  split at hfields
  · cases hfields
  · obtain rfl := Except.ok.inj hfields
    exact ⟨m, hm, hkey.symm, count_structHeader (h.nodup_declared hm) hdeclared hbody,
      hvalues.trans hread.symm⟩

/-- What is planned: the fields found for a declaration get their values one by one. -/
theorem planScaffold_values {template request response : Classified} {s : Scaffold}
    (h : planScaffold r package template request response = .ok s) :
    s.template = template ∧ s.request = request ∧ s.response = response ∧
      ∃ templateFields requestFields responseFields,
        classifiedFields r template = .ok templateFields ∧
        classifiedFields r request = .ok requestFields ∧
        classifiedFields r response = .ok responseFields ∧
        s.templateFields = templateFields.map (fun f => fieldValue f (fixture r template f).1) ∧
        s.requestFields = requestFields.map (fun f => fieldValue f (fixture r request f).1) ∧
        s.responseFields =
          responseFields.map (fun f => fieldValue f (placeholder response.fullName f)) := by
  have hzip (d : Classified) (fields : List StructField) :
      List.zipWith (fun f v => fieldValue f v.1) fields (fields.map (fixture r d)) =
        fields.map fun f => fieldValue f (fixture r d f).1 := by
    rw [List.zipWith_map_right, List.zipWith_self]
  unfold planScaffold at h
  cases hresponse : classifiedFields r response with
  | error e => simp [hresponse, bind, Except.bind] at h
  | ok responseFields =>
    cases htemplate : classifiedFields r template with
    | error e => simp [hresponse, htemplate, bind, Except.bind] at h
    | ok templateFields =>
      cases hrequest : classifiedFields r request with
      | error e => simp [hresponse, htemplate, hrequest, bind, Except.bind] at h
      | ok requestFields =>
        rw [hresponse, htemplate, hrequest] at h
        obtain rfl := Except.ok.inj h
        exact ⟨rfl, rfl, rfl, _, _, _, rfl, rfl, rfl, hzip _ _, hzip _ _, rfl⟩

/-- Each literal gets the fields found for its declaration. -/
theorem planScaffold_cases {template request response : Classified} {s : Scaffold}
    (h : planScaffold r package template request response = .ok s) :
    s.template = template ∧ s.request = request ∧ s.response = response ∧
      ∃ templateFields requestFields responseFields,
        classifiedFields r template = .ok templateFields ∧
        classifiedFields r request = .ok requestFields ∧
        classifiedFields r response = .ok responseFields ∧
        s.templateFields.map (fun v => (v.name, v.type)) =
          templateFields.map (fun f => (f.name, f.type.text)) ∧
        s.requestFields.map (fun v => (v.name, v.type)) =
          requestFields.map (fun f => (f.name, f.type.text)) ∧
        s.responseFields.map (fun v => (v.name, v.type)) =
          responseFields.map (fun f => (f.name, f.type.text)) := by
  have hnames (fields : List StructField) (value : StructField → String) :
      (fields.map fun f => fieldValue f (value f)).map (fun v => (v.name, v.type)) =
        fields.map fun f => (f.name, f.type.text) := by
    rw [List.map_map]
    rfl
  obtain ⟨rfl, rfl, rfl, _, _, _, htemplate, hrequest, hresponse, hvalues, hvalues', hvalues''⟩ :=
    planScaffold_values h
  refine ⟨rfl, rfl, rfl, _, _, _, htemplate, hrequest, hresponse, ?_, ?_, ?_⟩
  · rw [hvalues, hnames]
  · rw [hvalues', hnames]
  · rw [hvalues'', hnames]

/-- Whatever is registered, the scaffold that is planned for its classification gives values to
exactly the fields, in order, of the structs that the data crate holds for the first response, the
first template model and the first request. -/
theorem scaffold_fits (hr : r.Reachable) {s : Scaffold}
    (h : scaffold? r (r.classify strategy) package = .ok (some s)) :
    (r.classify strategy).primaryTemplateModel? = some s.template ∧
      (r.classify strategy).primaryRequest? = some s.request ∧
      (r.classify strategy).primaryResponse? = some s.response ∧
      FillsStruct r s.template s.templateFields ∧ FillsStruct r s.request s.requestFields ∧
      FillsStruct r s.response s.responseFields := by
  unfold scaffold? at h
  split at h
  · rename_i template request response htemplate hrequest hresponse
    cases hplan : planScaffold r package template request response with
    | error e => simp [hplan, Except.map] at h
    | ok planned =>
      obtain rfl : planned = s := by simpa [hplan, Except.map] using h
      obtain ⟨rfl, rfl, rfl, _, _, _, hfound, hfound', hfound'', hvalues, hvalues', hvalues''⟩ :=
        planScaffold_cases hplan
      have hmodel := mem_ofRole_of_head? .templateModel htemplate
      have hask := mem_ofRole_of_head? .request hrequest
      have hanswer := mem_ofRole_of_head? .response hresponse
      exact ⟨htemplate, hrequest, hresponse,
        declaredFields_of_classifiedFields hr.sound hmodel hfound hvalues,
        declaredFields_of_classifiedFields hr.sound hask hfound' hvalues',
        declaredFields_of_classifiedFields hr.sound hanswer hfound'' hvalues''⟩
  · simp at h

/-- A template model that inherits a field from another namespace. -/
def scaffoldRegistry : Registry where
  entries := [
    { model := {
        id := ⟨"a", none⟩
        declarations := [⟨"Contract", .classBody {
          kind := .asset, properties := [{ name := "x", typeName := "Long" }] }, []⟩] }
      name := "a.cto"
      text := "namespace a asset Contract\x7bo Long x\x7d" },
    { model := {
        id := ⟨"b", none⟩
        imports := [⟨⟨"a", none⟩, .types ["Contract"], none⟩]
        declarations := [
          ⟨"T", .classBody {
            kind := .asset, superType? := some "Contract"
            properties := [{ name := "type", typeName := "String" }] }, []⟩,
          ⟨"Q", .classBody { kind := .event, superType? := some "a.Request" }, []⟩,
          ⟨"P", .classBody { kind := .event, superType? := some "a.Response" }, []⟩] }
      name := "b.cto"
      text := "namespace b import a.Contract asset T extends Contract\x7bo String type\x7d" ++
        "event Q extends a.Request\x7b\x7devent P extends a.Response\x7b\x7d" }]

theorem scaffold_fits_inherited :
    let r := scaffoldRegistry
    ∃ s, r.Reachable ∧ scaffold? r (r.classify .substring) "m" = .ok (some s) ∧
      s.templateFields.map (fun v => (v.name, v.type)) =
        [("class", "String"), ("identifier", "String"), ("x", "f64"), ("r#type", "String")] ∧
      FillsStruct r s.template s.templateFields ∧ FillsStruct r s.request s.requestFields ∧
      FillsStruct r s.response s.responseFields := by
  intro r
  have hr : r.Reachable := Registry.reachable_of_submissions (by decide +kernel)
  have hplanned : (scaffold? r (r.classify .substring) "m").map
      (·.map fun s => s.templateFields.map fun v => (v.name, v.type)) = .ok (some
        [("class", "String"), ("identifier", "String"), ("x", "f64"), ("r#type", "String")]) := by
    decide +kernel
  rcases hs : scaffold? r (r.classify .substring) "m" with e | - | s
  · simp [hs, Except.map] at hplanned
  · simp [hs, Except.map] at hplanned
  · have hfields := Option.some.inj (Except.ok.inj (hs ▸ hplanned))
    obtain ⟨-, -, -, hfits⟩ := scaffold_fits hr hs
    exact ⟨s, hr, rfl, hfields, hfits⟩

end Crate

end Covenant
