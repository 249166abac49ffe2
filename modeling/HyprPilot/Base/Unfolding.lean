import Mathlib.Data.List.Basic

/-!
# The unfolding of a graph

A graph gives each node a list of next nodes; some nodes are kept and the others are dropped with
everything below them. `unfolding` lists the paths from a node in pre-order, each by its last node
and its depth, down to a number of levels. The graph may share nodes and have cycles: the number of
levels is what bounds the list.
-/

namespace Graph

variable {ν : Type} (keep : ν → Bool) (next : ν → List ν)

def unfolding : Nat → Nat → ν → List (ν × Nat)
  | 0, _, _ => []
  | levels + 1, depth, node =>
    if keep node then (node, depth) :: (next node).flatMap (unfolding levels (depth + 1)) else []

variable {keep next}

theorem unfolding_dropped {node : ν} (dropped : keep node = false) (levels depth : Nat) :
    unfolding keep next levels depth node = [] := by
  cases levels with
  | zero => rfl
  | succ levels => rw [unfolding, if_neg (by simp [dropped])]

theorem unfolding_kept {node : ν} (kept : keep node = true) (levels depth : Nat) :
    unfolding keep next (levels + 1) depth node =
      (node, depth) :: (next node).flatMap (unfolding keep next levels (depth + 1)) := by
  rw [unfolding, if_pos kept]

theorem unfoldings_dropped {nodes : List ν} (dropped : ∀ node ∈ nodes, keep node = false)
    (levels depth : Nat) : nodes.flatMap (unfolding keep next levels depth) = [] := by
  rw [List.flatMap_eq_nil_iff]
  intro node member
  exact unfolding_dropped (dropped node member) levels depth

theorem depth_unfolding {levels depth : Nat} {node : ν} {v : ν × Nat}
    (member : v ∈ unfolding keep next levels depth node) : depth ≤ v.2 ∧ v.2 < depth + levels := by
  induction levels generalizing depth node with
  | zero => simp [unfolding] at member
  | succ levels ih =>
    cases kept : keep node with
    | false => simp [unfolding_dropped kept] at member
    | true =>
      rw [unfolding_kept kept, List.mem_cons, List.mem_flatMap] at member
      rcases member with rfl | ⟨child, _, member⟩
      · exact ⟨Nat.le_refl depth, by omega⟩
      · have bounds := ih member
        omega

/-- In pre-order a node has at least as many nodes before it as it is levels below the start. -/
theorem depth_le_index {levels depth i : Nat} {node : ν} {v : ν × Nat}
    (place : (unfolding keep next levels depth node)[i]? = some v) : v.2 ≤ depth + i := by
  induction levels generalizing depth node i with
  | zero => simp [unfolding] at place
  | succ levels ih =>
    cases kept : keep node with
    | false => simp [unfolding_dropped kept] at place
    | true =>
      rw [unfolding_kept kept] at place
      cases i with
      | zero =>
        simp only [List.getElem?_cons_zero, Option.some.injEq] at place
        subst place
        exact Nat.le_refl depth
      | succ i =>
        rw [List.getElem?_cons_succ] at place
        have below : v.2 ≤ depth + 1 + i := by
          generalize next node = nodes at place
          induction nodes generalizing i with
          | nil => simp at place
          | cons child rest inner =>
            rw [List.flatMap_cons, List.getElem?_append] at place
            split at place
            · exact ih place
            · have := inner _ place
              omega
        omega

variable (keep next) in
/-- What is still to be listed when the nodes of a stack, each with its depth, are yet to be read
and nothing below a depth `bound` is. -/
def pending (bound : Nat) (stack : List (ν × Nat)) : List (ν × Nat) :=
  stack.flatMap fun v => unfolding keep next (bound + 1 - v.2) v.2 v.1

variable {bound : Nat}

theorem pending_nil : pending keep next bound [] = [] := rfl

theorem pending_append (front back : List (ν × Nat)) :
    pending keep next bound (front ++ back) =
      pending keep next bound front ++ pending keep next bound back := by
  rw [pending, List.flatMap_append]
  rfl

theorem pending_too_deep {v : ν × Nat} (deep : bound < v.2) (rest : List (ν × Nat)) :
    pending keep next bound (v :: rest) = pending keep next bound rest := by
  have none_left : bound + 1 - v.2 = 0 := by omega
  rw [pending, List.flatMap_cons, none_left]
  rfl

theorem pending_dropped {v : ν × Nat} (dropped : keep v.1 = false) (rest : List (ν × Nat)) :
    pending keep next bound (v :: rest) = pending keep next bound rest := by
  rw [pending, List.flatMap_cons, unfolding_dropped dropped]
  rfl

theorem pending_kept {node : ν} {depth : Nat} (kept : keep node = true) (within : depth ≤ bound)
    (rest : List (ν × Nat)) :
    pending keep next bound ((node, depth) :: rest) =
      (node, depth) :: pending keep next bound ((next node).map (·, depth + 1) ++ rest) := by
  have levels : bound + 1 - depth = (bound + 1 - (depth + 1)) + 1 := by omega
  rw [pending, List.flatMap_cons, levels, unfolding_kept kept, pending_append]
  rw [pending, List.flatMap_map]
  rfl

theorem pending_all_dropped {nodes : List ν} (dropped : ∀ node ∈ nodes, keep node = false)
    (depth : Nat) (rest : List (ν × Nat)) :
    pending keep next bound (nodes.map (·, depth) ++ rest) = pending keep next bound rest := by
  have nothing : pending keep next bound (nodes.map (·, depth)) = [] := by
    rw [pending, List.flatMap_map]
    exact unfoldings_dropped dropped (bound + 1 - depth) depth
  rw [pending_append, nothing, List.nil_append]

theorem depth_pending {stack : List (ν × Nat)} {least : Nat}
    (deep : ∀ v ∈ stack, keep v.1 = true → least ≤ v.2) {v : ν × Nat}
    (member : v ∈ pending keep next bound stack) : least ≤ v.2 := by
  obtain ⟨top, listed, member⟩ := List.mem_flatMap.mp member
  cases kept : keep top.1 with
  | false => simp [unfolding_dropped kept] at member
  | true => exact Nat.le_trans (deep top listed kept) (depth_unfolding member).1

end Graph
