/-
Finite directed graphs as ordered adjacency maps: every node is listed once, with
the nodes its edges lead to. A node that only occurs at the end of an edge has no
edges of its own. The two questions asked are whether there is a cycle, and which
order puts every node behind the nodes it depends on.

The search for a cycle goes as deep as the longest path. No limit is set on its depth:
where a search of limited depth would give up, on a path of about a thousand nodes, this
one still gives its answer.
-/
import Covenant.Walk

namespace Covenant

/-- Nodes in the order in which they were listed, with what they lead to. -/
structure Graph (α : Type) where
  entries : List (α × List α)
  distinct : (entries.map Prod.fst).Nodup

namespace Graph

variable {α : Type} [DecidableEq α]

/-! ## Building -/

def empty : Graph α :=
  ⟨[], List.nodup_nil⟩

/-- The listed nodes, in order. -/
def nodes (g : Graph α) : List α :=
  g.entries.map Prod.fst

/-- What the edges of a node lead to. -/
def neighbours (g : Graph α) (node : α) : List α :=
  (g.entries.lookup node).getD []

/-- Lists a node with its edges. A node that is listed already keeps its place and takes the new
edges. -/
def insert (g : Graph α) (node : α) (edges : List α) : Graph α :=
  if h : node ∈ g.nodes then
    { entries := g.entries.map fun entry => (entry.1, if entry.1 = node then edges else entry.2)
      distinct := by
        have same : (Prod.fst ∘ fun entry : α × List α =>
            (entry.1, if entry.1 = node then edges else entry.2)) = Prod.fst := rfl
        rw [List.map_map, same]
        exact g.distinct }
  else
    { entries := g.entries ++ [(node, edges)]
      distinct := by
        rw [List.map_append, List.nodup_append]
        refine ⟨g.distinct, by simp, ?_⟩
        intro a ha b hb eq
        simp only [List.map_cons, List.map_nil, List.mem_singleton] at hb
        exact h (hb ▸ eq ▸ ha) }

/-- The graph that lists these nodes one after the other. -/
def ofEntries (entries : List (α × List α)) : Graph α :=
  entries.foldl (fun g entry => g.insert entry.1 entry.2) empty

/-- The same nodes with only the edges that lead to listed nodes. -/
def restrict (g : Graph α) : Graph α where
  entries := g.entries.map fun entry => (entry.1, entry.2.filter (· ∈ g.nodes))
  distinct := by
    have same : (Prod.fst ∘ fun entry : α × List α =>
        (entry.1, entry.2.filter (· ∈ g.nodes))) = Prod.fst := rfl
    rw [List.map_map, same]
    exact g.distinct

/-! ## Cycles -/

theorem neighbours_eq_nil {g : Graph α} {node : α} (h : node ∉ g.nodes) :
    g.neighbours node = [] := by
  have : g.entries.lookup node = none := by
    rw [List.lookup_eq_none_iff]
    intro entry member
    have : node ≠ entry.1 := fun eq => h (eq ▸ List.mem_map_of_mem member)
    simpa using this
  simp [neighbours, this]

/-- The cycle that an edge from the end of the path back to `node` closes. The path is kept with
its end in front. -/
def closing (path : List α) (node : α) : List α :=
  node :: (path.takeWhile (· ≠ node)).reverse ++ [node]

/-- Follows all edges from the end of the path to the nodes given. A node on the path closes a
cycle, which is the error; nodes known to lead to none are passed by, and all such nodes are the
result. -/
def explore (g : Graph α) (path clear : List α) (next : List α) : Except (List α) (List α) :=
  match next with
  | [] => .ok clear
  | node :: others =>
    if node ∈ path then .error (closing path node)
    else if node ∈ clear then explore g path clear others
    else
      match explore g (node :: path) clear (g.neighbours node) with
      | .error cycle => .error cycle
      | .ok clear => explore g path (node :: clear) others
termination_by (unvisited g.nodes path, next.length)
decreasing_by
  · exact Prod.Lex.right _ (by simp)
  · rename_i fresh _
    by_cases listed : node ∈ g.nodes
    · exact Prod.Lex.left _ _ (unvisited_cons_lt listed fresh)
    · rw [neighbours_eq_nil listed, unvisited_cons_of_not_mem listed]
      exact Prod.Lex.right _ (by simp)
  · exact Prod.Lex.right _ (by simp)

/-- A cycle, its first node repeated at the end, if there is one. -/
def cycle? (g : Graph α) : Option (List α) :=
  match g.explore [] [] g.nodes with
  | .error cycle => some cycle
  | .ok _ => none

/-! ## Orders -/

/-- Whether all listed nodes that a node leads to have been placed. -/
def ready (g : Graph α) (placed : List α) (node : α) : Bool :=
  (g.neighbours node).all fun other => other ∈ placed ∨ other ∉ g.nodes

/-- The first of the remaining nodes that is ready, or else the last one. -/
def pick (g : Graph α) (placed : List α) (first : α) (others : List α) : α :=
  ((first :: others).find? (g.ready placed)).getD ((first :: others).getLast (by simp))

theorem pick_mem (g : Graph α) (placed : List α) (first : α) (others : List α) :
    g.pick placed first others ∈ first :: others := by
  unfold pick
  cases found : (first :: others).find? (g.ready placed) with
  | none => exact List.getLast_mem _
  | some node => exact List.mem_of_find?_eq_some found

/-- Places the remaining nodes one after the other. -/
def place (g : Graph α) (placed remaining : List α) : List α :=
  match remaining with
  | [] => []
  | first :: others =>
    let node := g.pick placed first others
    node :: place g (node :: placed) ((first :: others).erase node)
termination_by remaining.length
decreasing_by
  have member := g.pick_mem placed first others
  have := List.length_erase_of_mem member
  simp only [List.length_cons] at this ⊢
  omega

/-- The listed nodes in an order in which each follows what it leads to, as near to the listed
order as that allows; the error is a cycle among the listed nodes. -/
def order (g : Graph α) : Except (List α) (List α) :=
  match g.restrict.cycle? with
  | some cycle => .error cycle
  | none => .ok (g.place [] g.nodes)

/-- The complaint about a cycle that stands in the way of an order. -/
def cycleMessage (cycle : List String) : String :=
  "Cycle detected: " ++ " -> ".intercalate cycle

end Graph

end Covenant
