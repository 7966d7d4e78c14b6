/-
What comes of planning a scaffold. A classification without a template model, a request or a
response has none, and one finding says what is missing. Otherwise the three declarations are
looked up again by their names, the response first. A lookup takes the name of a primitive type
for that type, and a document may declare a class of such a name; so planning fails on the first
of the three that has one, although it is registered, and succeeds if none has
(`Settings.planScaffold_outcome`).
-/
import Covenant.Build.Workspace
import Covenant.Proofs.Emission
import Covenant.Proofs.ScaffoldFields

namespace Covenant

namespace Crate

variable {r : Registry} {strategy : Strategy} {template request response : Classified}

/-- A classified declaration is found again, unless its name is that of a primitive type. -/
theorem exists_classifiedFields (h : r.Sound) {role : Role} {d : Classified}
    (hd : d ∈ r.ofRole strategy role) : ∃ fields, classifiedFields r d =
      if isPrimitive d.name then .error ⟨d.fullName⟩ else .ok fields := by
  obtain ⟨l, hl, -, rfl⟩ := exists_of_mem_ofRole hd
  exact ⟨structFields r l, classifiedFields_classified h hl role⟩

/-! ## Plans -/

section

variable (h : r.Sound) (htemplate : template ∈ r.ofRole strategy .templateModel)
  (hrequest : request ∈ r.ofRole strategy .request)
  (hresponse : response ∈ r.ofRole strategy .response)

include h htemplate hrequest hresponse

theorem exists_planScaffold
    (hnames : ∀ d ∈ [response, template, request], isPrimitive d.name = false) (package : String) :
    ∃ s, planScaffold r package template request response = .ok s := by
  simp only [List.forall_mem_cons, List.not_mem_nil, false_implies, implies_true, and_true]
    at hnames
  obtain ⟨fields, hfields⟩ := exists_classifiedFields h hresponse
  obtain ⟨fields', hfields'⟩ := exists_classifiedFields h htemplate
  obtain ⟨fields'', hfields''⟩ := exists_classifiedFields h hrequest
  unfold planScaffold
  rw [hfields, hfields', hfields'', hnames.1, hnames.2.1, hnames.2.2]
  exact ⟨_, rfl⟩

/-- The first of the three that is not found makes the plan fail. -/
theorem planScaffold_eq_error {d : Classified}
    (hd : [response, template, request].find? (fun d => isPrimitive d.name) = some d)
    (package : String) :
    planScaffold r package template request response = .error ⟨d.fullName⟩ := by
  obtain ⟨fields, hfields⟩ := exists_classifiedFields h hresponse
  obtain ⟨fields', hfields'⟩ := exists_classifiedFields h htemplate
  obtain ⟨fields'', hfields''⟩ := exists_classifiedFields h hrequest
  unfold planScaffold
  rw [hfields, hfields', hfields'']
  cases hname : isPrimitive response.name with
  | true =>
    obtain rfl : response = d := by simpa [hname] using hd
    rfl
  | false =>
    cases hname' : isPrimitive template.name with
    | true =>
      obtain rfl : template = d := by simpa [hname, hname'] using hd
      rfl
    | false =>
      obtain ⟨hname'', rfl⟩ : isPrimitive request.name = true ∧ request = d := by
        simpa [hname, hname', List.find?_singleton] using hd
      rw [hname'']
      rfl

end

theorem scaffold?_eq_none {c : Classification} {package : String}
    (h : c.primaryTemplateModel? = none ∨ c.primaryRequest? = none ∨ c.primaryResponse? = none) :
    scaffold? r c package = .ok none := by
  unfold scaffold?
  split
  · simp_all
  · rfl

theorem scaffold?_eq_some {c : Classification} (htemplate : c.primaryTemplateModel? = some template)
    (hrequest : c.primaryRequest? = some request) (hresponse : c.primaryResponse? = some response)
    (r : Registry) (package : String) :
    scaffold? r c package = (planScaffold r package template request response).map some := by
  unfold scaffold?
  rw [htemplate, hrequest, hresponse]

end Crate

namespace Settings

open Crate

variable {checked : Checked} {settings : Settings} {session : Session}

/-! ## Steps -/

theorem run_planScaffold_some {scaffold : Scaffold}
    (h : Crate.scaffold? checked.loaded.registry checked.classification settings.packageName =
      .ok (some scaffold)) :
    (settings.planScaffold checked).run session = (.ok (some scaffold, []), session) := by
  unfold planScaffold
  rw [Step.run_bind, h]
  rfl

/-- That there is no scaffold is a finding, and the log warns of it. -/
theorem run_planScaffold_none
    (h : Crate.scaffold? checked.loaded.registry checked.classification settings.packageName =
      .ok none) :
    (settings.planScaffold checked).run session =
      (.ok (none, [missingDiagnostic checked.classification]), { session with
        log := session.log ++ [⟨LogLevel.warning, "ctogen.codegen.logic",
          "Logic scaffold skipped: " ++ missingMessage checked.classification⟩] }) := by
  unfold planScaffold
  rw [Step.run_bind, h]
  rfl

theorem run_planScaffold_error {e : UnregisteredError}
    (h : Crate.scaffold? checked.loaded.registry checked.classification settings.packageName =
      .error e) :
    (settings.planScaffold checked).run session = (.error (.unregistered e), session) := by
  unfold planScaffold
  rw [Step.run_bind, h]
  rfl

/-- Whatever is registered and however it is classified: without a template model, a request or a
response there is no scaffold and one finding. With all three, the scaffold is planned for the
first ones if none of them has the name of a primitive type; else planning fails on the first of
response, template model and request that has one. -/
theorem planScaffold_outcome (settings : Settings) (checked : Checked) {strategy : Strategy}
    (hr : checked.loaded.registry.Reachable)
    (hc : checked.classification = checked.loaded.registry.classify strategy) (session : Session) :
    let c := checked.classification
    let run := (settings.planScaffold checked).run session
    (c.primaryTemplateModel? = none ∨ c.primaryRequest? = none ∨ c.primaryResponse? = none →
      run = (.ok (none, [missingDiagnostic c]), { session with
        log := session.log ++ [⟨LogLevel.warning, "ctogen.codegen.logic",
          "Logic scaffold skipped: " ++ missingMessage c⟩] })) ∧
    ∀ template request response, c.primaryTemplateModel? = some template →
      c.primaryRequest? = some request → c.primaryResponse? = some response →
      ((∀ d ∈ [response, template, request], isPrimitive d.name = false) →
        ∃ s, run = (.ok (some s, []), session) ∧
          s.template = template ∧ s.request = request ∧ s.response = response) ∧
      ∀ d, [response, template, request].find? (fun d => isPrimitive d.name) = some d →
        run = (.error (.unregistered ⟨d.fullName⟩), session) := by
  intro c run
  refine ⟨fun hmissing => run_planScaffold_none (scaffold?_eq_none hmissing), ?_⟩
  intro template request response htemplate hrequest hresponse
  have hplan := scaffold?_eq_some htemplate hrequest hresponse checked.loaded.registry
    settings.packageName
  have hlisted : template ∈ checked.loaded.registry.ofRole strategy .templateModel ∧
      request ∈ checked.loaded.registry.ofRole strategy .request ∧
      response ∈ checked.loaded.registry.ofRole strategy .response := by
    simp only [c, hc] at htemplate hrequest hresponse
    exact ⟨mem_ofRole_of_head? .templateModel htemplate, mem_ofRole_of_head? .request hrequest,
      mem_ofRole_of_head? .response hresponse⟩
  obtain ⟨hlisted, hlisted', hlisted''⟩ := hlisted
  constructor
  · intro hnames
    obtain ⟨s, hs⟩ := exists_planScaffold hr.sound hlisted hlisted' hlisted'' hnames
      settings.packageName
    rw [hs] at hplan
    obtain ⟨hsame, hsame', hsame'', -⟩ := planScaffold_cases hs
    exact ⟨s, run_planScaffold_some hplan, hsame, hsame', hsame''⟩
  · intro d hd
    rw [planScaffold_eq_error hr.sound hlisted hlisted' hlisted'' hd] at hplan
    exact run_planScaffold_error hplan

/-- A template model, a request and a response; the request is called `Long`. -/
def longRequest : Registry where
  entries := [{
    model := {
      id := ⟨"a", none⟩
      declarations := [
        ⟨"Clause", .classBody { kind := .asset }, []⟩,
        ⟨"T", .classBody { kind := .asset, superType? := some "Clause" }, []⟩,
        ⟨"Request", .classBody { kind := .event }, []⟩,
        ⟨"Long", .classBody { kind := .event, superType? := some "Request" }, []⟩,
        ⟨"Response", .classBody { kind := .event }, []⟩,
        ⟨"P", .classBody { kind := .event, superType? := some "Response" }, []⟩] }
    name := "a.cto"
    text := "namespace a asset Clause\x7b\x7dasset T extends Clause\x7b\x7devent Request\x7b\x7d" ++
      "event Long extends Request\x7b\x7devent Response\x7b\x7devent P extends Response\x7b\x7d" }]

/-- It is valid, and the request is not found. Where supertypes are recognised exactly, there is
none to look for. -/
theorem planScaffold_outcome_long :
    let r := longRequest
    let plan strategy := (({} : Settings).planScaffold
      ⟨⟨r, [], [], []⟩, r.classify strategy, []⟩).run { tree := .empty }
    r.Reachable ∧ r.validate = [] ∧ (plan .substring).1 = .error (.unregistered ⟨"a.Long"⟩) ∧
      (plan .exact).1 = .ok (none, [missingDiagnostic (r.classify .exact)]) := by
  intro r plan
  let checked strategy : Checked := ⟨⟨r, [], [], []⟩, r.classify strategy, []⟩
  have hr : r.Reachable := by
    refine Registry.Reachable.empty.register (?_ : Registry.empty.register
      (r.entries.head (by decide)).text "a.cto" =
        .ok (.added (r.entries.head (by decide)).model, r))
    decide +kernel
  have hvalid : r.validate = [] :=
    Registry.validate_eq_nil_of_flat (by decide +kernel) (by decide +kernel)
  have hfirst : ((r.classify .substring).primaryTemplateModel?.map (·.name),
      (r.classify .substring).primaryRequest?.map fun d => (d.name, d.fullName),
      (r.classify .substring).primaryResponse?.map (·.name)) =
        (some "T", some ("Long", "a.Long"), some "P") := by decide +kernel
  have hnone : (r.classify .exact).primaryRequest? = none := by decide +kernel
  refine ⟨hr, hvalid, ?_, ?_⟩
  · simp only [Prod.mk.injEq, Option.map_eq_some_iff] at hfirst
    obtain ⟨⟨template, htemplate, hname⟩, ⟨request, hrequest, hname'⟩,
      response, hresponse, hname''⟩ := hfirst
    obtain ⟨hname', hfull⟩ := hname'
    have hlost : [response, template, request].find? (fun d => isPrimitive d.name) =
        some request := by
      simp [hname, hname', hname'', isPrimitive, primitiveTypes]
    have houtcome := ((planScaffold_outcome {} (checked .substring) hr rfl { tree := .empty }).2
      template request response htemplate hrequest hresponse).2 request hlost
    rw [hfull] at houtcome
    exact congrArg Prod.fst houtcome
  · have houtcome := (planScaffold_outcome {} (checked .exact) hr rfl { tree := .empty }).1
      (.inr (.inl hnone))
    exact congrArg Prod.fst houtcome

end Settings

end Covenant
