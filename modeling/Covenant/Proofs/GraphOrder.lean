/-
Ordering the nodes of a graph. Where the edges between listed nodes make no cycle, the
order holds every listed node once, behind all listed nodes that it leads to; where they
make one, the answer is a cycle (`Graph.order_correct`).

The nodes are placed one at a time, round by round. What carries the argument is that
there is always one to place next (`Graph.exists_ready`): from a remaining node that is not
ready an edge leads to another remaining node, and such a way has to end. So no round ever
falls back on a node that is not ready.
-/
import Covenant.Proofs.Cycles

namespace Covenant.Graph

variable {α : Type} [DecidableEq α] {g : Graph α}

/-! ## Edges between listed nodes -/

theorem neighbours_restrict (g : Graph α) (a : α) :
    g.restrict.neighbours a = (g.neighbours a).filter (· ∈ g.nodes) := by
  have hlookup (entries : List (α × List α)) :
      ((entries.map fun entry => (entry.1, entry.2.filter (· ∈ g.nodes))).lookup a).getD [] =
        ((entries.lookup a).getD []).filter (· ∈ g.nodes) := by
    induction entries with
    | nil => rfl
    | cons entry entries ih =>
      rw [List.map_cons, List.lookup_cons, List.lookup_cons]
      cases a == entry.1
      · exact ih
      · rfl
  exact hlookup g.entries

theorem edge_restrict_iff {a b : α} : g.restrict.Edge a b ↔ g.Edge a b ∧ b ∈ g.nodes := by
  simp [Edge, neighbours_restrict]

/-- The way from one listed node to another passes listed nodes only. -/
theorem transGen_restrict {a b : α} (h : Relation.TransGen g.Edge a b) (hb : b ∈ g.nodes) :
    Relation.TransGen g.restrict.Edge a b := by
  induction h with
  | single hedge => exact .single (edge_restrict_iff.mpr ⟨hedge, hb⟩)
  | tail _ hedge ih => exact (ih hedge.mem_nodes).tail (edge_restrict_iff.mpr ⟨hedge, hb⟩)

/-- Every cycle is one among the listed nodes. -/
theorem cyclic_restrict_iff : g.restrict.Cyclic ↔ g.Cyclic := by
  constructor
  · rintro ⟨a, ha⟩
    exact ⟨a, Relation.TransGen.mono (fun b c hedge => (edge_restrict_iff.mp hedge).1) a a ha⟩
  · rintro ⟨a, ha⟩
    obtain ⟨b, hedge, -⟩ := Relation.TransGen.head'_iff.mp ha
    exact ⟨a, transGen_restrict ha hedge.mem_nodes⟩

/-! ## Placing nodes -/

theorem ready_eq_true_iff {placed : List α} {a : α} :
    g.ready placed a = true ↔ ∀ b, g.restrict.Edge a b → b ∈ placed := by
  simp only [ready, List.all_eq_true, decide_eq_true_eq, edge_restrict_iff]
  constructor
  · rintro h b ⟨hedge, hlisted⟩
    exact (h b hedge).resolve_right (not_not_intro hlisted)
  · intro h b hedge
    exact Decidable.or_iff_not_imp_right.mpr fun hlisted => h b
      ⟨hedge, Decidable.not_not.mp hlisted⟩

/-- Without a cycle, one of the remaining nodes can be placed next. -/
theorem exists_ready (hends : ∀ a, g.restrict.Ends a) {placed remaining : List α}
    (hall : ∀ a ∈ g.nodes, a ∈ placed ∨ a ∈ remaining) {a : α} (ha : a ∈ remaining) :
    ∃ b ∈ remaining, g.ready placed b = true := by
  -- along the edges from `a`, which lead from one remaining node to another
  induction hends a with
  | intro a _ ih =>
    by_cases hready : g.ready placed a = true
    · exact ⟨a, ha, hready⟩
    · obtain ⟨b, hedge, hb⟩ : ∃ b, g.restrict.Edge a b ∧ b ∉ placed := by
        simpa [ready_eq_true_iff] using hready
      exact ih b hedge ((hall b (edge_restrict_iff.mp hedge).2).resolve_left hb)

/-- The node that is placed next is the first that is ready, if any of the remaining ones is. -/
theorem find?_ready {placed others : List α} {first : α}
    (h : ∃ b ∈ first :: others, g.ready placed b = true) :
    (first :: others).find? (g.ready placed) = some (g.pick placed first others) := by
  unfold pick
  cases hfound : (first :: others).find? (g.ready placed) with
  | none =>
    obtain ⟨b, hb, hready⟩ := h
    exact absurd hready (List.find?_eq_none.mp hfound b hb)
  | some node => rfl

theorem mem_or_mem_erase {placed remaining : List α} {a : α} (h : a ∈ placed ∨ a ∈ remaining)
    (node : α) : a ∈ node :: placed ∨ a ∈ remaining.erase node := by
  by_cases hnode : a = node
  · exact .inl (by simp [hnode])
  · exact h.imp (List.mem_cons_of_mem node) (List.mem_erase_of_ne hnode).mpr

theorem place_perm (g : Graph α) (placed remaining : List α) :
    (g.place placed remaining).Perm remaining := by
  fun_induction place g placed remaining with
  | case1 => exact .refl []
  | case2 placed first others node ih =>
    exact (ih.cons node).trans (List.perm_cons_erase (g.pick_mem placed first others)).symm

/-- Each node of the list comes behind the listed nodes that it leads to, where those in `placed`
came before. -/
inductive Follows (g : Graph α) : (placed order : List α) → Prop
  | nil {placed : List α} : Follows g placed []
  | cons {placed order : List α} {a : α} : (∀ b, g.restrict.Edge a b → b ∈ placed) →
    Follows g (a :: placed) order → Follows g placed (a :: order)

theorem place_follows (hends : ∀ a, g.restrict.Ends a) {placed remaining : List α}
    (hall : ∀ a ∈ g.nodes, a ∈ placed ∨ a ∈ remaining) :
    g.Follows placed (g.place placed remaining) := by
  fun_induction place g placed remaining with
  | case1 => exact .nil
  | case2 placed first others node ih =>
    have hready : g.ready placed node = true :=
      List.find?_some (find?_ready (exists_ready hends hall List.mem_cons_self))
    exact .cons (ready_eq_true_iff.mp hready) (ih fun a ha => mem_or_mem_erase (hall a ha) node)

theorem Follows.idxOf_lt {placed order : List α} (h : g.Follows placed order) {a b : α}
    (ha : a ∈ order) (hedge : g.restrict.Edge a b) (hb : b ∉ placed) :
    order.idxOf b < order.idxOf a := by
  induction h with
  | nil => cases ha
  | @cons placed order c hc _ ih =>
    by_cases hac : a = c
    · exact absurd (hc b (hac ▸ hedge)) hb
    · by_cases hbc : b = c
      · subst hbc
        simp [List.idxOf_cons, beq_false_of_ne (Ne.symm hac)]
      · have hlt := ih ((List.mem_cons.mp ha).resolve_left hac) (by simp [hb, hbc])
        simpa [List.idxOf_cons, beq_false_of_ne (Ne.symm hac), beq_false_of_ne (Ne.symm hbc)]
          using hlt

/-! ## Rounds -/

/-- The rounds in which the nodes are placed: what has been placed so far, the last one in front,
and what remains. -/
inductive Round (g : Graph α) : (placed remaining : List α) → Prop
  | start : Round g [] g.nodes
  | next {placed others : List α} {first : α} : Round g placed (first :: others) →
    Round g (g.pick placed first others :: placed)
      ((first :: others).erase (g.pick placed first others))

/-- What has been placed begins the order, and the rounds to come complete it. -/
theorem Round.place_eq {placed remaining : List α} (h : g.Round placed remaining) :
    g.place [] g.nodes = placed.reverse ++ g.place placed remaining := by
  induction h with
  | start => rfl
  | next _ ih => rw [ih, place, List.reverse_cons, List.append_assoc, List.singleton_append]

theorem Round.mem_or_mem {placed remaining : List α} (h : g.Round placed remaining) {a : α}
    (ha : a ∈ g.nodes) : a ∈ placed ∨ a ∈ remaining := by
  induction h with
  | start => exact .inr ha
  | next _ ih => exact mem_or_mem_erase ih _

/-- Without a cycle, every round finds a node that is ready, which comes next in the order. -/
theorem Round.next_ready (hends : ∀ a, g.restrict.Ends a) {placed others : List α} {first : α}
    (h : g.Round placed (first :: others)) :
    ∃ node later, (first :: others).find? (g.ready placed) = some node ∧
      g.place [] g.nodes = placed.reverse ++ node :: later := by
  have hready := exists_ready hends (fun a ha => h.mem_or_mem ha) List.mem_cons_self
  exact ⟨_, _, find?_ready hready, by rw [h.place_eq, place]⟩

/-! ## Orders -/

/-- The list holds every listed node once, behind all listed nodes that it leads to. -/
structure IsOrder (g : Graph α) (order : List α) : Prop where
  perm : order.Perm g.nodes
  behind : ∀ a b, g.Edge a b → b ∈ g.nodes → order.idxOf b < order.idxOf a

theorem Follows.isOrder {order : List α} (h : g.Follows [] order) (hperm : order.Perm g.nodes) :
    g.IsOrder order := by
  refine ⟨hperm, fun a b hedge hb => ?_⟩
  exact h.idxOf_lt (hperm.mem_iff.mpr hedge.mem_nodes) (edge_restrict_iff.mpr ⟨hedge, hb⟩)
    List.not_mem_nil

theorem order_eq_place (h : ¬ g.restrict.Cyclic) : g.order = .ok (g.place [] g.nodes) := by
  rw [order, cycle?_eq_none_iff.mpr h]

theorem ends_of_not_cyclic (h : ¬ g.restrict.Cyclic) (a : α) : g.restrict.Ends a :=
  ends_of_cycle?_eq_none (cycle?_eq_none_iff.mpr h) a

theorem follows_place (h : ¬ g.restrict.Cyclic) : g.Follows [] (g.place [] g.nodes) :=
  place_follows (ends_of_not_cyclic h) fun _ ha => .inr ha

/-- The nodes of a graph are ordered, or there is a cycle among the listed ones. -/
theorem order_cases (g : Graph α) :
    (∃ cycle, g.order = .error cycle ∧ g.restrict.IsCycle cycle) ∨
      ¬ g.restrict.Cyclic ∧ ∃ nodes, g.order = .ok nodes ∧ g.IsOrder nodes := by
  cases hcycle : g.restrict.cycle? with
  | some cycle =>
    exact .inl ⟨cycle, by rw [order, hcycle], isCycle_of_cycle?_eq_some hcycle⟩
  | none =>
    have hacyclic := cycle?_eq_none_iff.mp hcycle
    exact .inr ⟨hacyclic, _, order_eq_place hacyclic,
      (follows_place hacyclic).isOrder (g.place_perm [] g.nodes)⟩

/-- A graph is refused if and only if there is a cycle among its listed nodes, and the complaint is
such a cycle. Otherwise its nodes are ordered, and every round of placing them finds one that is
ready, which comes next in the order. -/
theorem order_correct (g : Graph α) :
    ((∃ cycle, g.order = .error cycle) ↔ g.restrict.Cyclic) ∧
    (∀ cycle, g.order = .error cycle → g.restrict.IsCycle cycle) ∧
    ∀ nodes, g.order = .ok nodes → g.IsOrder nodes ∧
      ∀ placed first others, g.Round placed (first :: others) →
        ∃ node later, (first :: others).find? (g.ready placed) = some node ∧
          nodes = placed.reverse ++ node :: later := by
  obtain ⟨cycle, herror, hcycle⟩ | ⟨hacyclic, nodes, hok, horder⟩ := g.order_cases
  · rw [herror]
    refine ⟨⟨fun _ => hcycle.cyclic, fun _ => ⟨cycle, rfl⟩⟩, fun other hother => ?_, nofun⟩
    cases hother
    exact hcycle
  · rw [hok]
    refine ⟨⟨nofun, fun hcyclic => absurd hcyclic hacyclic⟩, nofun, fun other hother => ?_⟩
    cases hother
    obtain rfl : g.place [] g.nodes = nodes :=
      Except.ok.inj ((order_eq_place hacyclic).symm.trans hok)
    exact ⟨horder, fun placed first others hround =>
      hround.next_ready (ends_of_not_cyclic hacyclic)⟩

/-- A node that leads to itself is refused. A node that leads to a listed and to an unlisted one
waits for the listed one, and is ready in the second round. -/
theorem order_correct_waiting :
    let loop : Graph String := .ofEntries [("a", []), ("b", ["a", "b"])]
    let g : Graph String := .ofEntries [("b", ["x", "a"]), ("a", [])]
    loop.order = .error ["b", "b"] ∧ loop.restrict.IsCycle ["b", "b"] ∧
    g.order = .ok ["a", "b"] ∧ g.IsOrder ["a", "b"] ∧ g.Round ["a"] ["b"] ∧
      ∃ node later, ["b"].find? (g.ready ["a"]) = some node ∧
        ["a", "b"] = ["a"] ++ node :: later := by
  intro loop g
  have hloop : loop.order = .error ["b", "b"] := by
    simp [loop, ofEntries, insert, empty, order, restrict, cycle?, nodes, explore, neighbours,
      List.lookup_cons, closing]
  have horder : g.order = .ok ["a", "b"] := by
    simp [g, ofEntries, insert, empty, order, restrict, cycle?, nodes, explore, neighbours,
      List.lookup_cons, place, pick, ready]
  have hround : g.Round ["a"] ["b"] := by
    have hstart : g.Round [] ["b", "a"] := .start
    have hpick : g.pick [] "b" ["a"] = "a" := by decide
    have hnext := hstart.next
    rw [hpick] at hnext
    exact hnext
  obtain ⟨hok, hrounds⟩ := (order_correct g).2.2 _ horder
  exact ⟨hloop, (order_correct loop).2.1 _ hloop, horder, hok, hround, hrounds _ _ _ hround⟩

end Covenant.Graph
