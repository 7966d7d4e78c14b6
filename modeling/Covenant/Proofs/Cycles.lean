/-
The search for cycles is exact: it finds one if and only if some node leads back to
itself, and what it finds is a cycle, along edges and without a node that comes twice
on the way (`Graph.cycle?_correct`).

One invariant carries each direction. Along the search the path follows edges to every
node that is still to be entered, and no node is on it twice, so what closes on a node of
the path is a cycle. And every node passed as clear has no infinite way out of it, since
all that it leads to was clear before; so if all nodes are clear, none is on a cycle.
-/
import Covenant.Graph
import Covenant.Text.Split
import Mathlib.Data.List.Chain
import Mathlib.Logic.Relation

namespace Covenant.Graph

variable {α : Type} [DecidableEq α]

/-- The graph has an edge from `a` to `b`. -/
def Edge (g : Graph α) (a b : α) : Prop :=
  b ∈ g.neighbours a

theorem Edge.mem_nodes {g : Graph α} {a b : α} (h : g.Edge a b) : a ∈ g.nodes := by
  refine Decidable.by_contra fun hunlisted => ?_
  rw [Edge, neighbours_eq_nil hunlisted] at h
  cases h

/-- There is a way along the edges that starts and ends at the same node. -/
def Cyclic (g : Graph α) : Prop :=
  ∃ a, Relation.TransGen g.Edge a a

/-- No infinite way leaves the node. -/
abbrev Ends (g : Graph α) (a : α) : Prop :=
  Acc (Function.swap g.Edge) a

/-- The list is a cycle: edges lead from each node to the next, and back to the first at the end.
No node comes twice before that. -/
structure IsCycle (g : Graph α) (cycle : List α) : Prop where
  long : 2 ≤ cycle.length
  closed : cycle.head? = cycle.getLast?
  distinct : cycle.dropLast.Nodup
  edges : cycle.IsChain g.Edge

/-- A chain that ends where it starts leads from there back to itself. -/
theorem exists_transGen_of_closed {β : Type} {leads : β → β → Prop} {cycle : List β}
    (hlong : 2 ≤ cycle.length) (hclosed : cycle.head? = cycle.getLast?)
    (hchain : cycle.IsChain leads) : ∃ a, Relation.TransGen leads a a := by
  have htrans : cycle.Pairwise (Relation.TransGen leads) :=
    (hchain.imp fun _ _ hleads => .single hleads).pairwise
  cases cycle with
  | nil => simp at hlong
  | cons a others =>
    have hothers : others ≠ [] := by
      rintro rfl
      simp at hlong
    rw [List.head?_cons, List.getLast?_cons, List.getLast?_eq_some_getLast hothers,
      Option.getD_some, Option.some.injEq] at hclosed
    have hlast : a ∈ others := by
      have hmem := List.getLast_mem hothers
      rwa [← hclosed] at hmem
    exact ⟨a, (List.pairwise_cons.mp htrans).1 a hlast⟩

theorem IsCycle.cyclic {g : Graph α} {cycle : List α} (h : g.IsCycle cycle) : g.Cyclic :=
  exists_transGen_of_closed h.long h.closed h.edges

theorem IsCycle.mem_nodes {g : Graph α} {cycle : List α} (h : g.IsCycle cycle) {a : α}
    (ha : a ∈ cycle.dropLast) : a ∈ g.nodes := by
  obtain ⟨i, hi, rfl⟩ := List.getElem_of_mem ha
  rw [List.length_dropLast] at hi
  rw [List.getElem_dropLast]
  exact (h.edges.getElem i (by omega)).mem_nodes

/-! ## The search -/

/-- A path to one of its own nodes closes a cycle. -/
theorem isCycle_closing {g : Graph α} {path : List α} {node : α} (hpath : node ∈ path)
    (hdistinct : path.Nodup) (htrail : (node :: path).IsChain (Function.swap g.Edge)) :
    g.IsCycle (closing path node) := by
  obtain ⟨before, after, rfl, hbefore⟩ := List.eq_append_cons_of_mem hpath
  have hclosing :
      closing (before ++ node :: after) node = (node :: (before ++ [node])).reverse := by
    rw [closing, Text.takeWhile_ne_append hbefore]
    simp
  -- the path up to the node, its end in front
  rw [List.append_cons] at hdistinct htrail
  have hdistinct : (before ++ [node]).Nodup := (List.nodup_append.mp hdistinct).1
  have htrail : (node :: (before ++ [node])).IsChain (Function.swap g.Edge) :=
    List.IsChain.left_of_append htrail
  rw [hclosing]
  refine ⟨by simp, ?_, ?_, List.isChain_reverse.mpr htrail⟩
  · rw [List.head?_reverse, List.getLast?_reverse, ← List.cons_append, List.getLast?_concat]
    rfl
  · rw [List.reverse_cons, List.dropLast_concat]
    exact (List.reverse_perm _).nodup_iff.mpr hdistinct

theorem explore_error {g : Graph α} {path clear next cycle : List α}
    (h : g.explore path clear next = .error cycle) (hdistinct : path.Nodup)
    (htrail : ∀ a ∈ next, (a :: path).IsChain (Function.swap g.Edge)) : g.IsCycle cycle := by
  fun_induction explore g path clear next generalizing cycle with
  | case1 => cases h
  | case2 path clear node others hpath =>
    cases h
    exact isCycle_closing hpath hdistinct (htrail node List.mem_cons_self)
  | case3 path clear node others hpath hclear ih =>
    exact ih h hdistinct fun a ha => htrail a (List.mem_cons_of_mem _ ha)
  | case4 path clear node others hpath hclear found hfound ih =>
    cases h
    refine ih hfound (List.nodup_cons.mpr ⟨hpath, hdistinct⟩) fun a ha => ?_
    exact List.isChain_cons_cons.mpr ⟨ha, htrail node List.mem_cons_self⟩
  | case5 path clear node others hpath hclear clear' hclear' _ ih =>
    exact ih h hdistinct fun a ha => htrail a (List.mem_cons_of_mem _ ha)

theorem explore_ok {g : Graph α} {path clear next result : List α}
    (h : g.explore path clear next = .ok result) (ends : ∀ a ∈ clear, g.Ends a) :
    clear ⊆ result ∧ next ⊆ result ∧ ∀ a ∈ result, g.Ends a := by
  fun_induction explore g path clear next generalizing result with
  | case1 path clear =>
    cases h
    exact ⟨List.Subset.refl _, List.nil_subset _, ends⟩
  | case2 => cases h
  | case3 path clear node others hpath hclear ih =>
    obtain ⟨hsub, hothers, hends⟩ := ih h ends
    exact ⟨hsub, List.cons_subset.mpr ⟨hsub hclear, hothers⟩, hends⟩
  | case4 => cases h
  | case5 path clear node others hpath hclear clear' hclear' ih₁ ih₂ =>
    obtain ⟨hsub, hneighbours, hends⟩ := ih₁ hclear' ends
    have hnode : g.Ends node := .intro node fun b hb => hends b (hneighbours hb)
    have hcons : ∀ a ∈ node :: clear', g.Ends a := by
      simpa using ⟨hnode, hends⟩
    obtain ⟨hsub', hothers, hends'⟩ := ih₂ h hcons
    obtain ⟨hmem, hsub'⟩ := List.cons_subset.mp hsub'
    exact ⟨List.Subset.trans hsub hsub', List.cons_subset.mpr ⟨hmem, hothers⟩, hends'⟩

theorem Ends.irrefl {g : Graph α} {a : α} (h : g.Ends a) : ¬ Relation.TransGen g.Edge a a := by
  rw [← Relation.transGen_swap]
  replace h := h.transGen
  induction h with
  | intro a _ ih => exact fun hcycle => ih a hcycle hcycle

theorem isCycle_of_cycle?_eq_some {g : Graph α} {cycle : List α} (h : g.cycle? = some cycle) :
    g.IsCycle cycle := by
  unfold cycle? at h
  split at h
  · rename_i found hfound
    cases h
    exact explore_error hfound List.nodup_nil (by simp)
  · cases h

theorem ends_of_cycle?_eq_none {g : Graph α} (h : g.cycle? = none) (a : α) : g.Ends a := by
  unfold cycle? at h
  split at h
  · cases h
  · rename_i clear hclear
    obtain ⟨-, hnodes, hends⟩ := explore_ok hclear (by simp)
    by_cases hlisted : a ∈ g.nodes
    · exact hends a (hnodes hlisted)
    · exact .intro a fun b hb => absurd (Edge.mem_nodes hb) hlisted

/-- The search finds no cycle if and only if there is none. -/
theorem cycle?_eq_none_iff {g : Graph α} : g.cycle? = none ↔ ¬ g.Cyclic := by
  constructor
  · rintro h ⟨a, ha⟩
    exact (ends_of_cycle?_eq_none h a).irrefl ha
  · intro h
    cases hfound : g.cycle? with
    | none => rfl
    | some cycle => exact absurd (isCycle_of_cycle?_eq_some hfound).cyclic h

/-- The search answers that there is no cycle if and only if no node leads back to itself. Otherwise
it answers with a cycle. -/
theorem cycle?_correct (g : Graph α) :
    (g.cycle? = none ↔ ¬ ∃ a, Relation.TransGen g.Edge a a) ∧
      ∀ cycle, g.cycle? = some cycle → g.IsCycle cycle :=
  ⟨cycle?_eq_none_iff, fun _ => isCycle_of_cycle?_eq_some⟩

/-- Below `a`, which is on no cycle, `b` and `c` lead to each other. -/
theorem cycle?_correct_below :
    let g : Graph String :=
      .ofEntries [("a", ["d", "b"]), ("b", ["d", "c", "b"]), ("c", ["x", "b"])]
    g.cycle? = some ["b", "c", "b"] ∧ g.IsCycle ["b", "c", "b"] := by
  intro g
  have hfound : g.cycle? = some ["b", "c", "b"] := by
    simp [g, ofEntries, insert, empty, cycle?, nodes, explore, neighbours,
      List.lookup_cons, closing]
  exact ⟨hfound, (cycle?_correct g).2 _ hfound⟩

/-- A graph has no cycle if its edges all end at nodes that lead nowhere. -/
theorem cycle?_eq_none_of_flat {g : Graph α}
    (h : ∀ a ∈ g.nodes, ∀ b ∈ g.neighbours a, b ∉ g.nodes) : g.cycle? = none := by
  rw [cycle?_eq_none_iff]
  rintro ⟨a, ha⟩
  obtain ⟨_, hfirst, -⟩ := Relation.TransGen.head'_iff.mp ha
  obtain ⟨c, -, hlast⟩ := Relation.TransGen.tail'_iff.mp ha
  exact h c hlast.mem_nodes a hlast hfirst.mem_nodes

/-! ## Graphs from lists -/

theorem foldl_insert_entries {g : Graph α} {entries : List (α × List α)}
    (h : ((g.entries ++ entries).map Prod.fst).Nodup) :
    (entries.foldl (fun g entry => g.insert entry.1 entry.2) g).entries = g.entries ++ entries := by
  induction entries generalizing g with
  | nil => simp
  | cons entry entries ih =>
    have hfresh : entry.1 ∉ g.nodes := by
      rw [List.map_append, List.nodup_append] at h
      exact fun hmem => h.2.2 entry.1 hmem entry.1 (by simp) rfl
    have hinsert : (g.insert entry.1 entry.2).entries = g.entries ++ [entry] := by
      simp [insert, hfresh]
    rw [List.foldl_cons, ih, hinsert, List.append_assoc, List.singleton_append]
    rw [hinsert, List.append_assoc, List.singleton_append]
    exact h

/-- A list without a node twice is kept as it is. -/
theorem ofEntries_entries {entries : List (α × List α)} (h : (entries.map Prod.fst).Nodup) :
    (ofEntries entries).entries = entries := by
  simpa [ofEntries, empty] using foldl_insert_entries (g := empty) (by simpa [empty] using h)

theorem lookup_eq_some_iff_mem {entries : List (α × List α)} (h : (entries.map Prod.fst).Nodup)
    {a : α} {edges : List α} : entries.lookup a = some edges ↔ (a, edges) ∈ entries := by
  induction entries with
  | nil => simp
  | cons entry entries ih =>
    obtain ⟨b, others⟩ := entry
    rw [List.map_cons, List.nodup_cons] at h
    by_cases hab : a = b
    · subst hab
      have hnot : (a, edges) ∉ entries := fun hmem => h.1 (List.mem_map.mpr ⟨_, hmem, rfl⟩)
      simp [hnot, eq_comm]
    · have : (a == b) = false := by simpa using hab
      rw [List.lookup_cons, this]
      simp [ih h.2, hab]

theorem edge_ofEntries {entries : List (α × List α)} (h : (entries.map Prod.fst).Nodup) {a b : α} :
    (ofEntries entries).Edge a b ↔ ∃ edges, (a, edges) ∈ entries ∧ b ∈ edges := by
  unfold Edge neighbours
  rw [ofEntries_entries h]
  cases hlookup : entries.lookup a with
  | none =>
    have hnone (edges : List α) : (a, edges) ∉ entries := by
      rw [← lookup_eq_some_iff_mem h, hlookup]
      simp
    simp [hnone]
  | some edges =>
    have hsome (others : List α) : (a, others) ∈ entries ↔ edges = others := by
      rw [← lookup_eq_some_iff_mem h, hlookup, Option.some.injEq]
    simp [hsome]

end Covenant.Graph
