/-
The order of a graph is the stable one: of all lists that hold every node behind what it
leads to, it is the first in the lexicographic order of the positions at which the nodes are
listed (`Graph.order_stable`). So a list that is already in order stays as it is, and nodes
that are listed anew in their order keep it.

The comparison goes node by node. What any order has in front is ready, and of the ready
nodes the one that is placed is listed first. If the two are the same the rest is compared,
and otherwise the difference is decided here.
-/
import Covenant.Proofs.GraphOrder

namespace Covenant.Graph

variable {α : Type} [DecidableEq α] {g : Graph α} {placed remaining order : List α}

/-- Where a node is listed. -/
def position (g : Graph α) (a : α) : Nat :=
  g.nodes.idxOf a

/-- The same edges, with the nodes listed in another order. -/
def relisted (g : Graph α) (order : List α) : Graph α :=
  .ofEntries (order.map fun a => (a, g.neighbours a))

/-! ## Orders, node by node -/

theorem follows_of_behind {before after : List α} (hdistinct : (before ++ after).Nodup)
    (hbehind : ∀ a b, g.restrict.Edge a b → (before ++ after).idxOf b < (before ++ after).idxOf a) :
    g.Follows before.reverse after := by
  induction after generalizing before with
  | nil => exact .nil
  | cons a after ih =>
    have hfresh : a ∉ before := fun hmem =>
      (List.nodup_append.mp hdistinct).2.2 a hmem a List.mem_cons_self rfl
    refine .cons (fun b hedge => ?_) ?_
    · have hlt := hbehind a b hedge
      rw [List.idxOf_append_of_notMem hfresh, List.idxOf_cons_self, Nat.add_zero] at hlt
      refine List.mem_reverse.mpr (Decidable.by_contra fun hb => ?_)
      rw [List.idxOf_append_of_notMem hb] at hlt
      omega
    · rw [List.append_cons] at hdistinct hbehind
      simpa using ih hdistinct hbehind

theorem IsOrder.follows (h : g.IsOrder order) : g.Follows [] order := by
  have hdistinct : order.Nodup := h.perm.nodup_iff.mpr g.distinct
  have hbehind (a b : α) (hedge : g.restrict.Edge a b) : order.idxOf b < order.idxOf a := by
    obtain ⟨hedge, hb⟩ := edge_restrict_iff.mp hedge
    exact h.behind a b hedge hb
  simpa using @follows_of_behind _ _ g [] order hdistinct hbehind

/-- Nodes that remain in order are placed as they are. -/
theorem Follows.place_eq (h : g.Follows placed order) : g.place placed order = order := by
  induction h with
  | nil => rw [place]
  | @cons placed order a hready hfollows ih =>
    have hpick : g.pick placed a order = a := by
      simp [pick, ready_eq_true_iff.mpr hready]
    rw [place, hpick, List.erase_cons_head, ih]

/-! ## The least order -/

/-- Of the remaining nodes that are ready, the one that is placed comes first. -/
theorem pick_first {r : α → α → Prop} {first a : α} {others : List α}
    (hsorted : (first :: others).Pairwise r) (ha : a ∈ first :: others)
    (hready : g.ready placed a = true) :
    a = g.pick placed first others ∨ r (g.pick placed first others) a := by
  obtain ⟨-, before, after, heq, hbefore⟩ :=
    List.find?_eq_some_iff_append.mp (find?_ready ⟨a, ha, hready⟩)
  rw [heq] at ha hsorted
  rcases List.mem_append.mp ha with hmem | hmem
  · simpa [hready] using hbefore a hmem
  · rcases List.mem_cons.mp hmem with rfl | hmem
    · exact .inl rfl
    · exact .inr ((List.pairwise_cons.mp (List.pairwise_append.mp hsorted).2.1).1 a hmem)

theorem place_least (hsorted : remaining.Pairwise fun a b => g.position a < g.position b)
    (hperm : order.Perm remaining) (hfollows : g.Follows placed order) :
    order = g.place placed remaining ∨
      List.Lex (· < ·) ((g.place placed remaining).map g.position) (order.map g.position) := by
  fun_induction place g placed remaining generalizing order with
  | case1 => exact .inl hperm.eq_nil
  | case2 placed first others node =>
    rename_i ih
    cases hfollows with
    | nil => exact absurd hperm.symm.eq_nil (by simp)
    | @cons _ order a hready hfollows =>
      have ha : a ∈ first :: others := hperm.mem_iff.mp List.mem_cons_self
      rcases pick_first hsorted ha (ready_eq_true_iff.mpr hready) with rfl | hlt
      · have hrest := (List.cons_perm_iff_perm_erase.mp hperm).2
        rcases ih (hsorted.sublist List.erase_sublist) hrest hfollows with rfl | hlex
        · exact .inl rfl
        · exact .inr (.cons hlex)
      · exact .inr (.rel hlt)

theorem pairwise_position (g : Graph α) :
    g.nodes.Pairwise fun a b => g.position a < g.position b := by
  rw [List.pairwise_iff_getElem]
  intro i j hi hj hij
  have hdistinct : g.nodes.Nodup := g.distinct
  rw [position, position, hdistinct.idxOf_getElem i hi, hdistinct.idxOf_getElem j hj]
  exact hij

/-! ## Listing the nodes in order -/

theorem nodup_relisted (h : order.Nodup) :
    ((order.map fun a => (a, g.neighbours a)).map Prod.fst).Nodup := by
  simpa [Function.comp_def] using h

theorem nodes_relisted (h : order.Nodup) : (g.relisted order).nodes = order := by
  rw [nodes, relisted, ofEntries_entries (nodup_relisted h)]
  simp [Function.comp_def]

theorem edge_relisted_iff (h : order.Perm g.nodes) {a b : α} :
    (g.relisted order).Edge a b ↔ g.Edge a b := by
  have hdistinct : order.Nodup := h.nodup_iff.mpr g.distinct
  rw [relisted, edge_ofEntries (nodup_relisted hdistinct)]
  constructor
  · rintro ⟨edges, hmem, hb⟩
    obtain ⟨a', -, heq⟩ := List.mem_map.mp hmem
    cases heq
    exact hb
  · intro hedge
    have ha : a ∈ order := h.mem_iff.mpr hedge.mem_nodes
    exact ⟨_, List.mem_map_of_mem ha, hedge⟩

/-- Nodes that are listed in their order are ordered as they are listed. -/
theorem order_relisted (hacyclic : ¬ g.Cyclic) (h : g.IsOrder order) :
    (g.relisted order).order = .ok order := by
  have hnodes : (g.relisted order).nodes = order := nodes_relisted (h.perm.nodup_iff.mpr g.distinct)
  have hedge : (g.relisted order).Edge = g.Edge := by
    funext a b
    exact propext (edge_relisted_iff h.perm)
  have horder : (g.relisted order).IsOrder order := by
    refine ⟨by rw [hnodes], fun a b hab hb => ?_⟩
    rw [hedge] at hab
    rw [hnodes] at hb
    exact h.behind a b hab (h.perm.mem_iff.mp hb)
  have hacyclic' : ¬ (g.relisted order).restrict.Cyclic := by
    rw [cyclic_restrict_iff, Cyclic, hedge]
    exact hacyclic
  rw [order_eq_place hacyclic', hnodes, horder.follows.place_eq]

/-- Without a cycle the nodes are ordered, and no other order comes before that one when the nodes
are compared by where they are listed. If the nodes are listed in order they stay so, and if they
are listed anew in their order the order is the same. -/
theorem order_stable (g : Graph α) (h : ¬ g.Cyclic) :
    ∃ nodes, g.order = .ok nodes ∧ g.IsOrder nodes ∧
      (∀ other, g.IsOrder other → other = nodes ∨
        List.Lex (· < ·) (nodes.map g.position) (other.map g.position)) ∧
      (g.IsOrder g.nodes → nodes = g.nodes) ∧
      (g.relisted nodes).order = .ok nodes := by
  have hacyclic : ¬ g.restrict.Cyclic := mt cyclic_restrict_iff.mp h
  have hplace : g.IsOrder (g.place [] g.nodes) :=
    (follows_place hacyclic).isOrder (g.place_perm [] g.nodes)
  refine ⟨_, order_eq_place hacyclic, hplace, fun other hother => ?_, fun hlisted => ?_, ?_⟩
  · exact place_least g.pairwise_position hother.perm hother.follows
  · exact hlisted.follows.place_eq
  · exact order_relisted h hplace

/-- A node that waits for another is placed right behind it, before a free node that is listed
later. -/
theorem order_stable_waiting :
    let g : Graph String := .ofEntries [("c", ["a"]), ("a", []), ("b", ["x"])]
    g.order = .ok ["a", "c", "b"] ∧
    g.IsOrder ["b", "a", "c"] ∧ List.Lex (· < ·) [1, 0, 2] (["b", "a", "c"].map g.position) ∧
    (g.relisted ["a", "c", "b"]).order = .ok ["a", "c", "b"] := by
  intro g
  have horder : g.order = .ok ["a", "c", "b"] := by
    simp [g, ofEntries, insert, empty, order, restrict, cycle?, nodes, explore, neighbours,
      List.lookup_cons, place, pick, ready]
  have hacyclic : ¬ g.Cyclic := by
    rw [← cycle?_eq_none_iff]
    simp [g, ofEntries, insert, empty, cycle?, nodes, explore, neighbours, List.lookup_cons]
  have hother : g.IsOrder ["b", "a", "c"] := by
    refine ⟨by decide, fun a b hedge hb => ?_⟩
    obtain ⟨edges, hmem, hedge⟩ := (edge_ofEntries (by decide)).mp hedge
    simp only [List.mem_cons, Prod.mk.injEq, List.not_mem_nil, or_false] at hmem
    obtain ⟨rfl, rfl⟩ | ⟨rfl, rfl⟩ | ⟨rfl, rfl⟩ := hmem
    · obtain rfl := List.mem_singleton.mp hedge
      decide
    · cases hedge
    · obtain rfl := List.mem_singleton.mp hedge
      exact absurd hb (by decide)
  obtain ⟨nodes, hok, -, hleast, -, hrelisted⟩ := order_stable g hacyclic
  obtain rfl : ["a", "c", "b"] = nodes := Except.ok.inj (horder.symm.trans hok)
  exact ⟨horder, hother, (hleast _ hother).resolve_left (by decide), hrelisted⟩

end Covenant.Graph
