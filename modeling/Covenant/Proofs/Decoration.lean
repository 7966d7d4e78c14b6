/-
A decorator written before a declaration. It decorates the declaration and changes
nothing else, unless it stands right behind an open line, `namespace a.b` or
`import a.b.T`: there its mark is read as that of a version, and the document is
refused (`Model.read_insert_decorator`).
-/
import Covenant.Proofs.Insertion

namespace Covenant

open Covenant.Lexer Phrase

/-! ## Behind an open line -/

namespace Reader

variable {α β : Type}

/-- Behind the words, the reader takes a mark for that of a version and stops at what follows. -/
def Balks (p : Reader α) (ws : List Word) : Prop :=
  ∀ (ts rest : List Token) (a b : Token), ts.map Token.word = ws → a.kind = .mark .atSign →
    b.kind ≠ .version →
      p (ts ++ a :: b :: rest) = .error (.unexpected (.oneOf [.version]) (b :: rest))

theorem Balks.bind {p : Reader α} {ws : List Word} (h : Balks p ws) (f : α → Reader β) :
    Balks (p >>= f) ws :=
  fun ts rest a b hts ha hb => bind_of_error (h ts rest a b hts ha hb)

theorem Reads.balks {p : Reader α} {f : α → Reader β} {w v : List Word} {a : α}
    (hp : ∀ follow, Reads p w a (kinds v ++ .mark .atSign :: follow)) (hf : Balks (f a) v) :
    Balks (p >>= f) (w ++ v) := by
  intro ts rest c b hts hc hb
  obtain ⟨ts₁, ts₂, rfl, h₁, h₂⟩ := List.map_eq_append_iff.mp hts
  have hread : p (ts₁ ++ (ts₂ ++ c :: b :: rest)) = .ok (a, ts₂ ++ c :: b :: rest) :=
    hp (b.kind :: rest.map (·.kind)) ts₁ _ h₁ (by rw [List.map_append, map_kind, h₂]; simp [hc])
  rw [List.append_assoc, bind_of_ok hread]
  exact hf ts₂ rest c b h₂ hc hb

theorem version?_balks : Balks version? [] := by
  intro ts rest a b hts ha hb
  obtain rfl := List.map_eq_nil_iff.mp hts
  have haccept : acceptMark .atSign (a :: b :: rest) = .ok (true, b :: rest) := accept_of_head ha _
  rw [List.nil_append, version?, bind_of_ok haccept]
  refine bind_of_error ?_
  simp [expect, expectOneOf, take, hb]

theorem namespaceLine_balks {w n : List Word} {name : String}
    (hw : Sign (.keyword .namespaceKw) w ()) (hn : Dotted n name) :
    Balks namespaceLine [w, n].flatten :=
  Reads.balks (fun _ => expectKeyword_reads hw)
    (Reads.balks (fun _ => dottedName_reads hn (by simp)) (version?_balks.bind _))

theorem importTarget_balks (start : List Token) {w : List Word} {r : Namespace × ImportScope}
    (h : Target true w r) : Balks (importTarget start) w := by
  cases h with
  | plain hw hws _ =>
    refine Reads.balks (fun _ => name_reads hw) (Reads.balks (fun follow => nameParts_reads hws ?_)
      (version?_balks.bind _))
    cases follow <;> simp [namePartKinds]

theorem Balks.get {f : List Token → Reader β} {ws : List Word} (h : ∀ ts, Balks (f ts) ws) :
    Balks (get >>= f) ws := by
  intro ts rest a b hts ha hb
  rw [bind_of_ok (p := MonadState.get) rfl]
  exact h _ ts rest a b hts ha hb

theorem importLine_balks {w : List Word} {i : Import} (h : ImportLine true w i) :
    Balks importLine w := by
  cases h with
  | @here _ _ t _ _ hw ht =>
    refine Balks.get fun start => Reads.balks (fun _ => expectKeyword_reads hw) ?_
    have := (importTarget_balks start ht).bind fun r => do
      if ← acceptKeyword .fromKw then
        return (⟨r.1, r.2, some (← expect .uri).text⟩ : Import)
      return ⟨r.1, r.2, none⟩
    simpa using this

/-- A repetition fails where one of its items does. -/
theorem Balks.many {more : List Token → Bool} {test : List TokenKind → Bool} {item : Reader α}
    {ws : List Word} (hmore : KindTest more test)
    (passes : ∀ follow, test (kinds ws ++ follow) = true) (h : Balks item ws) :
    Balks (many more item) ws := by
  intro ts rest a b hts ha hb
  have hpass : more (ts ++ a :: b :: rest) = true := by
    rw [hmore, List.map_append, map_kind, hts]
    exact passes _
  exact many_of_error hpass (h ts rest a b hts ha hb)

theorem Balks.many_cons {more : List Token → Bool} {test : List TokenKind → Bool} {item : Reader α}
    {w ws : List Word} {i : α} (hmore : KindTest more test)
    (nonempty : w ≠ []) (passes : ∀ follow, test (kinds w ++ follow) = true)
    (hitem : ∀ follow, Reads item w i (kinds ws ++ .mark .atSign :: follow))
    (hmany : Balks (Reader.many more item) ws) : Balks (Reader.many more item) (w ++ ws) := by
  intro ts rest a b hts ha hb
  obtain ⟨ts₁, ts₂, rfl, rfl, h₂⟩ := List.map_eq_append_iff.mp hts
  have hpass : more (ts₁ ++ (ts₂ ++ a :: b :: rest)) = true := by
    rw [hmore, List.map_append, map_kind]
    exact passes _
  have hread := hitem (b.kind :: rest.map (·.kind)) ts₁ (ts₂ ++ a :: b :: rest) rfl
    (by rw [List.map_append, map_kind, h₂]; simp [ha])
  rw [List.append_assoc, many_of_item hpass hread (by simpa using nonempty),
    hmany ts₂ rest a b h₂ ha hb]
  rfl

theorem imports_balk {before : Bool} {ws : List Word} {is : List Import}
    (h : Imports before true ws is) (hne : is ≠ []) :
    Balks (many (startsWith [.keyword .importKw]) importLine) ws := by
  generalize hafter : true = after at h
  induction h with
  | nil => exact absurd rfl hne
  | @cons _ o _ w ws i is hw hws ih =>
    have passes (follow : List TokenKind) :
        (kinds w ++ follow).head?.any (List.contains [.keyword .importKw]) = true :=
      hw.starts.any follow (by simp)
    cases hws with
    | nil =>
      subst hafter
      rw [List.append_nil]
      exact .many (startsWith_kindTest _) passes (importLine_balks hw)
    | @cons _ _ _ _ vs _ _ hv _ =>
      have hnext := hv.starts.append vs
      have hitem (follow : List TokenKind) :
          Reads importLine w i (kinds _ ++ .mark .atSign :: follow) :=
        importLine_reads hw (fun _ => hnext.stops (by simp) _)
          (hnext.stops (by simp [importStops]) _)
      exact .many_cons (startsWith_kindTest _) hw.starts.ne_nil passes hitem (ih (by simp) hafter)

/-- A header whose last line is open takes the mark of a decorator for that of a version. -/
theorem header_balks {ws : List Word} {front : Model} (h : Header true ws front) :
    Balks header ws := by
  generalize ho : true = o at h
  cases h with
  | @intro _ _ n is _ _ _ imports hl hd hn hi =>
    refine Reads.balks (fun _ => languageVersion?_reads hl ?_)
      (Reads.balks (fun _ => decorators_reads hd ?_) ?_)
    · exact (Many.starts_append hd (fun h => h.starts) (hn.starts.append _)).stops (by simp) _
    · exact (hn.starts.append _).stops (by simp [decoratorStops]) _
    by_cases hnone : imports = []
    · subst hnone
      obtain ⟨hw, hname, hversion⟩ := hn
      cases hi with
      | nil =>
        cases hversion with
        | absent => simpa using (namespaceLine_balks hw hname).bind _
        | present => cases ho
    · subst ho
      have hnext := hi.starts hnone
      have hline (follow : List TokenKind) :
          Reads namespaceLine n _ (kinds is ++ .mark .atSign :: follow) :=
        namespaceLine_reads hn (fun _ => hnext.stops (by simp) _) (fun _ => hnext.stops (by simp) _)
      rw [List.flatten_cons, List.flatten_cons, List.flatten_nil, List.append_nil]
      exact Reads.balks hline ((imports_balk hi hnone).bind _)

theorem model_balks {ws : List Word} {front : Model} (h : Header true ws front) :
    Balks model ws :=
  (header_balks h).bind _

end Reader

/-! ## Which lines are open -/

namespace Phrase

/-- The words end with an open line: `namespace` or `import` and a plain dotted name. -/
def EndsOpen (ws : List Word) : Prop :=
  ∃ (fs ns : List Word) (w : Word) (name : String), ws = fs ++ w :: ns ∧
    (w.kind = .keyword .namespaceKw ∨ w.kind = .keyword .importKw) ∧ Dotted ns name

/-- The words end with a word that is part of no dotted name, or with such a word, a point and one
more word. -/
def EndsClosed (ws : List Word) : Prop :=
  ∃ (fs tail : List Word) (v : Word), ws = fs ++ v :: tail ∧
    Reader.isName v.kind = false ∧ v.kind ≠ .mark .dot ∧
    (tail = [] ∨ ∃ d n : Word, tail = [d, n] ∧ d.kind = .mark .dot)

theorem EndsOpen.append_left {ws : List Word} (h : EndsOpen ws) (vs : List Word) :
    EndsOpen (vs ++ ws) := by
  obtain ⟨fs, ns, w, name, rfl, hw, hn⟩ := h
  exact ⟨vs ++ fs, ns, w, name, by simp, hw, hn⟩

theorem EndsClosed.append_left {ws : List Word} (h : EndsClosed ws) (vs : List Word) :
    EndsClosed (vs ++ ws) := by
  obtain ⟨fs, tail, v, rfl, hv⟩ := h
  exact ⟨vs ++ fs, tail, v, by simp, hv⟩

theorem Dotted.mem {ws : List Word} {name : String} (h : Dotted ws name) :
    ∀ w ∈ ws, Reader.isName w.kind = true ∨ w.kind = .mark .dot := by
  obtain ⟨⟨hn⟩, hns⟩ := h
  simp only [List.flatten_cons, List.flatten_nil, List.append_nil, List.singleton_append,
    List.forall_mem_cons]
  refine ⟨.inl hn, ?_⟩
  induction hns with
  | nil => simp
  | cons hp _ ih =>
    obtain ⟨⟨text⟩, ⟨hn⟩⟩ := hp
    simp only [List.cons_append, List.nil_append, List.forall_mem_cons]
    exact ⟨.inr trivial, .inl hn, ih⟩

/-- No line is open and closed. -/
theorem EndsClosed.not_endsOpen {ws : List Word} (h : EndsClosed ws) : ¬ EndsOpen ws := by
  rintro ⟨fs, ns, w, name, rfl, hw, hn⟩
  obtain ⟨fs', tail, v, heq, hv, hdot, htail⟩ := h
  have hname : Reader.isName w.kind = true := by rcases hw with hw | hw <;> rw [hw] <;> rfl
  have hmem : v ∉ w :: ns := by
    rw [List.mem_cons, not_or]
    refine ⟨fun h => by simp [h, hname] at hv, fun h => ?_⟩
    rcases hn.mem v h with h | h
    · simp [h] at hv
    · exact hdot h
  -- the keyword of the open line stands behind the closing word
  obtain ⟨vs, rfl⟩ : ∃ vs, tail = vs ++ w :: ns := by
    rcases List.append_eq_append_iff.mp heq with ⟨us, -, h⟩ | ⟨us, -, h⟩
    · exact absurd (h ▸ by simp) hmem
    · cases us with
      | nil => exact absurd (by simp [show w :: ns = v :: tail by simpa using h.symm]) hmem
      | cons u us => exact ⟨us, (List.cons.inj h).2⟩
  have hne := hn.starts.ne_nil
  rcases htail with htail | ⟨d, n, htail, hd⟩
  · simp at htail
  · match vs, htail with
    | [], htail =>
      obtain ⟨rfl, -⟩ := List.cons.inj htail
      simp [hd, Reader.isName] at hname
    | [_], htail => exact hne (by simpa using congrArg (List.drop 2) htail)
    | _ :: _ :: _, htail => simp at htail

theorem Sign.endsClosed {k : TokenKind} {w : List Word} (h : Sign k w ())
    (hname : Reader.isName k = false) (hdot : k ≠ .mark .dot) : EndsClosed w := by
  obtain ⟨text⟩ := h
  exact ⟨[], [], _, rfl, hname, hdot, .inl rfl⟩

theorem ClosedScope.endsClosed {w : List Word} {scope : ImportScope} (h : ClosedScope w scope) :
    EndsClosed w := by
  cases h with
  | star hw => exact hw.endsClosed rfl (by simp)
  | @braces l ws r _ _ _ hr =>
    simpa using (hr.endsClosed rfl (by simp)).append_left (l ++ ws)

theorem Target.endsClosed {w : List Word} {r : Namespace × ImportScope} (h : Target false w r) :
    EndsClosed w := by
  cases h with
  | @closed w ws d _ _ _ _ _ _ _ hscope =>
    simpa using hscope.endsClosed.append_left (w ++ ws ++ d)
  | @versioned w ws a v d s _ version _ _ _ _ _ hv hd hscope =>
    cases hscope with
    | closed hc => simpa using hc.endsClosed.append_left (w ++ ws ++ a ++ v ++ d)
    | type hn =>
      obtain @⟨name, -⟩ := hn
      obtain ⟨text⟩ := hd
      obtain ⟨⟩ := hv
      exact ⟨w ++ ws ++ a, [⟨.mark .dot, text⟩, name], ⟨.version, version⟩, by simp, rfl, by simp,
        .inr ⟨_, _, rfl, rfl⟩⟩

theorem ImportLine.endsClosed {w : List Word} {i : Import} (h : ImportLine false w i) :
    EndsClosed w := by
  cases h with
  | @here _ w t _ _ _ ht => simpa using ht.endsClosed.append_left w
  | @located _ w t f u _ _ _ _ _ _ hu =>
    simpa using (hu.sign.endsClosed rfl (by simp)).append_left (w ++ t ++ f)

theorem ImportLine.endsOpen {w : List Word} {i : Import} (h : ImportLine true w i) :
    EndsOpen w := by
  cases h with
  | here hw ht =>
    obtain ⟨text⟩ := hw
    cases ht with
    | plain hn hns _ => exact ⟨[], _, _, _, rfl, .inr rfl, by simpa using Dotted.intro hn hns⟩

/-- Whether the words end with an open line, by what stood before the imports. -/
theorem Imports.endsOpen {before after : Bool} {ws vs : List Word} {is : List Import}
    (h : Imports before after ws is) (hvs : if before then EndsOpen vs else EndsClosed vs) :
    if after then EndsOpen (vs ++ ws) else EndsClosed (vs ++ ws) := by
  induction h generalizing vs with
  | nil => simpa using hvs
  | @cons _ o _ w ws _ _ hw _ ih =>
    rw [← List.append_assoc]
    refine ih ?_
    cases o with
    | true => exact hw.endsOpen.append_left vs
    | false => exact hw.endsClosed.append_left vs

theorem NamespaceLine.endsOpen {w : List Word} {id : Namespace} (h : NamespaceLine w id) :
    if id.version?.isNone then EndsOpen w else EndsClosed w := by
  cases h with
  | @intro w n v _ _ hw hn hv =>
    cases hv with
    | absent =>
      obtain ⟨text⟩ := hw
      exact ⟨[], _, _, _, rfl, .inl rfl, by simpa using hn⟩
    | @present a _ _ _ hv =>
      simpa using (hv.sign.endsClosed rfl (by simp)).append_left (w ++ n ++ a)

theorem Header.endsOpen_iff {o : Bool} {ws : List Word} {front : Model} (h : Header o ws front) :
    EndsOpen ws ↔ o = true := by
  cases h with
  | @intro l ds n is _ _ _ _ _ _ hn hi =>
    have hline : if o then EndsOpen (n ++ is) else EndsClosed (n ++ is) := hi.endsOpen hn.endsOpen
    have hwords : [l, ds, n, is].flatten = (l ++ ds) ++ (n ++ is) := by simp
    rw [hwords]
    cases o with
    | true => exact ⟨fun _ => rfl, fun _ => EndsOpen.append_left hline _⟩
    | false => simpa using (EndsClosed.append_left hline (l ++ ds)).not_endsOpen

/-! ## One declaration among many -/

theorem Many.ne_nil {α : Type} {item : Phrase α} {first : TokenKind → Prop} {ws : List Word}
    {as : List α} (h : Many item ws as) (starts : ∀ {w a}, item w a → Starts first w)
    (hne : as ≠ []) : ws ≠ [] := by
  cases h with
  | nil => exact absurd rfl hne
  | cons hw _ => exact ((starts hw).append _).ne_nil

/-- An item of a repetition may be replaced. -/
theorem Many.modify {α : Type} {item : Phrase α} {ws : List Word} {as : List α}
    (h : Many item ws as) {k : Nat} (hk : k < as.length) :
    ∃ (front w back : List Word) (a : α), ws = front ++ (w ++ back) ∧ item w a ∧
      Many item front (as.take k) ∧ ∀ {v : List Word} {f : α → α}, item v (f a) →
        Many item (front ++ (v ++ back)) (as.modify k f) := by
  induction h generalizing k with
  | nil => simp at hk
  | @cons w ws a as hw hws ih =>
    cases k with
    | zero =>
      refine ⟨[], w, ws, a, rfl, hw, .nil, fun {v _} hv => ?_⟩
      exact show Many item (v ++ ws) _ from .cons hv hws
    | succ k =>
      obtain ⟨front, v, back, b, rfl, hv, hfront, hback⟩ := ih (Nat.lt_of_succ_lt_succ hk)
      refine ⟨w ++ front, v, back, b, by simp, hv, .cons hw hfront, fun hu => ?_⟩
      rw [List.append_assoc]
      exact .cons hw (hback hu)

end Phrase

/-- The declaration with one more decorator, before those it has. -/
def Declaration.decorate (decorator : Decorator) (d : Declaration) : Declaration :=
  { d with decorators := decorator :: d.decorators }

theorem Phrase.DeclarationOf.decorate {w : List Word} {d : Declaration} (h : DeclarationOf w d)
    (mark name : String) :
    DeclarationOf (⟨.mark .atSign, mark⟩ :: ⟨.identifier, name⟩ :: w) (d.decorate ⟨name, []⟩) := by
  obtain ⟨hd, hb⟩ := h
  have hdecorator :
      DecoratorOf [[⟨.mark .atSign, mark⟩], [⟨.identifier, name⟩], []].flatten ⟨name, []⟩ :=
    .intro (.intro mark) (.intro rfl) .absent
  exact .intro (.cons hdecorator hd) hb

namespace Phrase

/-- Where declaration `k` of a document starts: behind the words of the header, of which the last
line is open or not, and those of the declarations before it. -/
structure SplitAt (m : Model) (k : Nat) (o : Bool) (head front rest : List Word) : Prop where
  header : Header o head { m with declarations := [] }
  before : Many DeclarationOf front (m.declarations.take k)
  starts : Starts (fun k => k = .mark .atSign ∨ k ∈ declarationWords) rest
  undecked : o = true → Stops [.mark .atSign] (kinds (front ++ rest))
  decorated : ∀ mark name, Many DeclarationOf
    (front ++ ⟨.mark .atSign, mark⟩ :: ⟨.identifier, name⟩ :: rest)
    (m.declarations.modify k (·.decorate ⟨name, []⟩))

theorem Document.splitAt {ws : List Word} {m : Model} (h : Document ws m) {k : Nat}
    (hk : k < m.declarations.length) :
    ∃ o head front rest, ws = head ++ (front ++ rest) ∧ SplitAt m k o head front rest := by
  cases h with
  | @intro o head words header ds hheader hds hstops =>
    obtain ⟨front, w, back, d, rfl, hd, hfront, hmodify⟩ := hds.modify hk
    refine ⟨o, head, front, w ++ back, by simp, ?_, hfront, hd.starts.append back, hstops, ?_⟩
    · cases hheader
      exact .intro ‹_› ‹_› ‹_› ‹_›
    · exact fun mark name => hmodify (hd.decorate mark name)

theorem SplitAt.front_eq_nil {m : Model} {k : Nat} {o : Bool} {head front rest : List Word}
    (h : SplitAt m k o head front rest) (hk : k = 0) : front = [] := by
  subst hk
  have hnone := h.before
  rw [List.take_zero] at hnone
  cases hnone
  rfl

theorem SplitAt.endsOpen_iff {m : Model} {k : Nat} {o : Bool} {head front rest : List Word}
    (h : SplitAt m k o head front rest) (hk : k = 0) : EndsOpen (head ++ front) ↔ o = true := by
  rw [h.front_eq_nil hk, List.append_nil]
  exact h.header.endsOpen_iff

/-- A decorator before the declaration gives a document, except right behind an open line. -/
theorem SplitAt.document {m : Model} {k : Nat} {o : Bool} {head front rest : List Word}
    (h : SplitAt m k o head front rest) (hopen : ¬ (k = 0 ∧ o = true))
    (hk : k < m.declarations.length) (mark name : String) :
    Document (head ++ (front ++ ⟨.mark .atSign, mark⟩ :: ⟨.identifier, name⟩ :: rest))
      { m with declarations := m.declarations.modify k (·.decorate ⟨name, []⟩) } := by
  have hfollow : o = true → Stops [.mark .atSign]
      (kinds (front ++ ⟨.mark .atSign, mark⟩ :: ⟨.identifier, name⟩ :: rest)) := by
    intro ho
    have hstart := h.undecked ho
    have hne : m.declarations.take k ≠ [] := by
      have : k ≠ 0 := fun hzero => hopen ⟨hzero, ho⟩
      rw [← List.length_pos_iff, List.length_take]
      omega
    obtain ⟨u, us, rfl⟩ := List.exists_cons_of_ne_nil (h.before.ne_nil (fun h => h.starts) hne)
    simpa using hstart
  simpa using Document.intro h.header (h.decorated mark name) hfollow

end Phrase

/-! ## The place of a declaration -/

namespace Reader

/-- Reads declarations and forgets them. -/
def skip : Nat → Reader Unit
  | 0 => pure ()
  | k + 1 => do
    let _ ← declaration
    skip k

theorem skip_reads {ws : List Word} {ds : List Declaration} {follow : List TokenKind}
    (h : Many DeclarationOf ws ds) (hs : Stops valueModifiers follow) :
    Reads (skip ds.length) ws () follow := by
  induction h with
  | nil => exact .pure
  | cons hd hds ih =>
    refine (declaration_reads hd ?_).bind ih
    exact hds.stops (fun h => h.starts) (by simp [valueModifiers, declarationWords]) hs

end Reader

/-- Where the first token of declaration `k` stands, its decorators included. -/
def declarationPlace? (source : String) (k : Nat) : Option Position :=
  match tokenize source with
  | .error _ => none
  | .ok stream =>
    match (do let _ ← Reader.header; Reader.skip k : Reader Unit) stream.tokens with
    | .ok (_, t :: _) => some t.position
    | _ => none

/-- The text falls into two parts right before the first token of declaration `k`. -/
structure CutBeforeDeclaration (source : String) (k : Nat) (before after : String) : Prop where
  parts : source = before ++ after
  place : declarationPlace? source k = some (Position.start.after before.toList)

instance (source : String) (k : Nat) (before after : String) :
    Decidable (CutBeforeDeclaration source k before after) :=
  decidable_of_iff (source = before ++ after ∧
      declarationPlace? source k = some (Position.start.after before.toList))
    ⟨fun h => ⟨h.1, h.2⟩, fun h => ⟨h.parts, h.place⟩⟩

theorem CutBeforeDeclaration.unique {source : String} {k : Nat}
    {before after before' after' : String} (h : CutBeforeDeclaration source k before after)
    (h' : CutBeforeDeclaration source k before' after') : before = before' ∧ after = after' := by
  have hparts : before.toList ++ after.toList = before'.toList ++ after'.toList := by
    rw [← String.toList_append, ← String.toList_append, ← h.parts, ← h'.parts]
  have hplace : Position.start.after before.toList = Position.start.after before'.toList := by
    simpa [h.place] using h'.place
  obtain ⟨hbefore, hafter⟩ := Position.split_unique hparts hplace
  exact ⟨String.toList_inj.mp hbefore, String.toList_inj.mp hafter⟩

theorem Phrase.SplitAt.place {m : Model} {k : Nat} {o : Bool} {head front : List Word}
    {source : String} {ts more : List Token} {t : Token} {finish : Position}
    (h : SplitAt m k o head front ((t :: more).map Token.word)) (hk : k < m.declarations.length)
    (hts : ts.map Token.word = head ++ front)
    (hsource : tokenize source = .ok ⟨ts ++ t :: more, finish⟩) :
    declarationPlace? source k = some t.position := by
  have hrest (stops : List TokenKind)
      (hstops : ∀ k ∈ stops, k ≠ .mark .atSign ∧ k ∉ declarationWords) :
      Stops stops (kinds ((t :: more).map Token.word) ++ []) :=
    h.starts.stops (fun k hk hmem => hk.elim (hstops k hmem).1 (hstops k hmem).2) []
  have hlength : (m.declarations.take k).length = k := by simp [Nat.min_eq_left (Nat.le_of_lt hk)]
  have hfront := Reader.skip_reads h.before (hrest Reader.valueModifiers (by decide))
  have hhead : Reader.Reads Reader.header head _ _ := Reader.header_reads h.header
    (fun ho => by simpa using h.undecked ho)
    (Reader.declarations_follow h.before (hrest Reader.headerStops (by decide)))
  have hread := hhead.bind (f := fun _ => Reader.skip k) (hlength ▸ hfront)
  have := hread ts (t :: more) hts (by rw [List.append_nil, Reader.map_kind])
  simp only [declarationPlace?, hsource, this]

/-! ## A decorator in a document -/

/-- The text ends with an open line. -/
def EndsOpen (before : String) : Prop :=
  ∃ stream, tokenize before = .ok stream ∧ Phrase.EndsOpen (stream.tokens.map Token.word)

theorem endsOpen_iff {before : String} {ts : List Token} {finish : Position}
    (h : tokenize before = .ok ⟨ts, finish⟩) :
    EndsOpen before ↔ Phrase.EndsOpen (ts.map Token.word) := by
  simp [EndsOpen, h]

/-- The text before a token, on its own, has the tokens before that token. -/
theorem Lexer.CutBefore.tokenize_before {ts : List Token} {t : Token} {before after : List Char}
    (h : CutBefore none .start ts t before after) :
    tokenize (String.ofList before) = .ok ⟨ts, t.position⟩ := by
  have hnothing : Scans (lastKind none ts) t.position [] ⟨[], t.position⟩ :=
    .done (by simp [layoutLength])
  simpa [tokenize] using (h.resume .nil hnothing).scan_eq

/-- The mark of a decorator right behind an open line is read as that of a version. -/
theorem Model.read_eq_error {ws : List Word} {front : Model} (h : Header true ws front)
    {source : String} {ts rest : List Token} {a b : Token} {finish : Position}
    (hsource : tokenize source = .ok ⟨ts ++ a :: b :: rest, finish⟩) (hts : ts.map Token.word = ws)
    (ha : a.kind = .mark .atSign) (hb : b.kind ≠ .version) :
    Model.read source = .error (.grammar ⟨.oneOf [.version], b.text, b.position⟩) := by
  simp only [Model.read, hsource, Model.ofTokens, Reader.model_balks h ts rest a b hts ha hb]

/-- A decorator `x` written before declaration `k` of a document decorates that declaration and
changes nothing else, with one exception: if it is the first declaration and the line before it is
open, the document is refused where the name of the decorator stands. -/
theorem Model.read_insert_decorator {source x : String} {m : Model} {k : Nat}
    (h : Model.read source = .ok m) (hk : k < m.declarations.length) (hx : IsIdentifier x) :
    (∃ before after, CutBeforeDeclaration source k before after) ∧
    ∀ before after, CutBeforeDeclaration source k before after →
      (¬ (k = 0 ∧ EndsOpen before) → Model.read (before ++ "@" ++ x ++ " " ++ after) =
        .ok { m with declarations := m.declarations.modify k (·.decorate ⟨x, []⟩) }) ∧
      (k = 0 ∧ EndsOpen before → Model.read (before ++ "@" ++ x ++ " " ++ after) =
        .error (.grammar ⟨.oneOf [.version], x, Position.start.after (before ++ "@").toList⟩)) := by
  obtain ⟨⟨tokens, finish⟩, hsource, hdocument⟩ := Model.read_eq_ok.mp h
  obtain ⟨o, head, front, rest, hwords, hsplit⟩ := hdocument.splitAt hk
  -- the tokens before the declaration, its first one, and the rest
  rw [← List.append_assoc] at hwords
  obtain ⟨ts, others, rfl, hts, rfl⟩ := List.map_eq_append_iff.mp hwords
  obtain ⟨_, _, hcons, hkind⟩ := hsplit.starts
  obtain ⟨t, more, rfl, rfl, rfl⟩ := List.map_eq_cons_iff.mp hcons
  have hordinary : t.kind ≠ .uri ∧ t.kind ≠ .version := by
    constructor <;> intro he <;> simp [Token.word, he, declarationWords] at hkind
  obtain ⟨before, after, htext, hcut, hafter⟩ := (Scans.of_scan hsource).cut
  have hhere : CutBeforeDeclaration source k (String.ofList before) (String.ofList after) := by
    constructor
    · rw [← String.ofList_append, ← htext, String.ofList_toList]
    · rw [hsplit.place hk hts hsource, String.toList_ofList, hcut.place]
  refine ⟨⟨_, _, hhere⟩, fun before' after' h' => ?_⟩
  obtain ⟨rfl, rfl⟩ := hhere.unique h'
  have hline : k = 0 ∧ EndsOpen (String.ofList before) ↔ k = 0 ∧ o = true := by
    rw [endsOpen_iff hcut.tokenize_before, hts]
    exact and_congr_right fun hzero => hsplit.endsOpen_iff hzero
  obtain ⟨others, finish', hscan, hothers⟩ :=
    hcut.insert_decorator hafter hordinary.1 hordinary.2 hx
  have hinserted : tokenize (String.ofList before ++ "@" ++ x ++ " " ++ String.ofList after) =
      .ok ⟨ts ++ ⟨.mark .atSign, "@", t.position⟩ ::
        ⟨.identifier, x, t.position.after ['@']⟩ :: others, finish'⟩ := by
    rw [tokenize]
    simpa [decoratorText] using hscan.scan_eq
  refine ⟨fun hclosed => Model.read_eq_ok.mpr ⟨_, hinserted, ?_⟩, fun hopen => ?_⟩
  · have := hsplit.document (fun hopen => hclosed (hline.mpr hopen)) hk "@" x
    simpa [hts, hothers, Token.word] using this
  · obtain ⟨rfl, rfl⟩ := hline.mp hopen
    obtain rfl := hsplit.front_eq_nil rfl
    rw [List.append_nil] at hts
    rw [Model.read_eq_error hsplit.header hinserted hts rfl (by simp)]
    simp [Position.after_append, hcut.place]

/-- Behind `namespace a.b` a decorator is refused before the first declaration, not before the
second one. -/
theorem Model.read_insert_decorator_behind_namespace :
    ∃ m, Model.read "namespace a.b\nconcept C \x7b\x7d enum E \x7b\x7d" = .ok m ∧
      1 < m.declarations.length ∧
      Model.read "namespace a.b\n@x concept C \x7b\x7d enum E \x7b\x7d" =
        .error (.grammar ⟨.oneOf [.version], "x", ⟨2, 2⟩⟩) ∧
      Model.read "namespace a.b\nconcept C \x7b\x7d @x enum E \x7b\x7d" =
        .ok { m with declarations := m.declarations.modify 1 (·.decorate ⟨"x", []⟩) } := by
  let m : Model := {
    id := ⟨"a.b", none⟩
    declarations := [⟨"C", .classBody { kind := .concept }, []⟩, ⟨"E", .enumeration [], []⟩] }
  have hx : IsIdentifier "x" := by decide +kernel
  have hopen : EndsOpen "namespace a.b\n" := by
    refine ⟨⟨[⟨.keyword .namespaceKw, "namespace", ⟨1, 1⟩⟩, ⟨.identifier, "a", ⟨1, 11⟩⟩,
      ⟨.mark .dot, ".", ⟨1, 12⟩⟩, ⟨.identifier, "b", ⟨1, 13⟩⟩], ⟨2, 1⟩⟩, by decide +kernel, ?_⟩
    exact ⟨[], _, _, _, rfl, .inl rfl,
      .intro (.intro rfl) (.cons (.intro (.intro ".") (.intro rfl)) .nil)⟩
  refine ⟨m, ?read, by decide, ?_, ?_⟩
  · decide +kernel
  · exact ((Model.read_insert_decorator ?read (by decide) hx).2 "namespace a.b\n"
      "concept C \x7b\x7d enum E \x7b\x7d" (by decide +kernel)).2 ⟨rfl, hopen⟩
  · exact ((Model.read_insert_decorator ?read (by decide) hx).2 "namespace a.b\nconcept C \x7b\x7d "
      "enum E \x7b\x7d" (by decide +kernel)).1 (by simp)

end Covenant
