import HyprPilot.A11y.Walk
import HyprPilot.Base.Unfolding

/-!
# The walk as a truncated pre-order listing

The recursive listing of a subtree is the unfolding of the accessibility graph at the application's
root. The walk's stack holds what is still to be listed, so the loop returns the elements it has and
as many of the pending ones as the cap leaves room for. The depth on the stack is a `u32`: below a
node at the deepest one it starts again at zero, where no bound stops the walk.
-/

namespace HyprPilot

namespace Service

variable {ν : Type} (s : Service ν)

/-- A null node and one that no proxy can be built for are dropped. -/
def reads (node : ν) : Bool := !s.isNull node && s.asAccessibleProxy node

def visits (maxDepth : Nat) (root : ν) : List (ν × Nat) :=
  Graph.unfolding s.reads s.children (maxDepth + 1) 0 root

def shown (visits : List (ν × Nat)) : List Element := visits.map fun v => s.element v.1 v.2

def listing (maxDepth : Nat) (root : ν) : List Element := s.shown (s.visits maxDepth root)

/-- One of the first nodes is at the deepest depth of a `u32` and has a child that can be read. -/
def Overruns (visits : List (ν × Nat)) (room : Nat) : Prop :=
  ∃ node, (node, 4294967295) ∈ visits.take room ∧ ∃ child ∈ s.children node, s.reads child = true

def pending (maxDepth : Nat) (stack : List (ν × Nat)) : List (ν × Nat) :=
  Graph.pending s.reads s.children maxDepth stack

variable {s} {opts : WalkOpts}

theorem reads_iff {node : ν} :
    s.reads node = true ↔ s.isNull node = false ∧ s.asAccessibleProxy node = true := by
  simp [reads]

theorem append_shown_cons (out : List Element) (node : ν) (depth : Nat) (rest : List (ν × Nat)) :
    out ++ s.shown ((node, depth) :: rest) = out ++ [s.element node depth] ++ s.shown rest := by
  rw [List.append_assoc]
  rfl

theorem push_eq (node : ν) (depth : Nat) (stack : List (ν × Nat)) :
    s.push node depth stack =
      (s.children node).map (·, (depth + 1) % 4294967296) ++ stack := by
  rw [push, List.foldl_reverse]
  induction s.children node with
  | nil => rfl
  | cons child rest ih => rw [List.foldr_cons, ih]; rfl

/-! ### One turn of the loop -/

theorem walkLoop_full {out : List Element} (full : opts.maxNodes ≤ out.length)
    (stack : List (ν × Nat)) : s.walkLoop opts stack out = out := by
  cases stack with
  | nil => rw [walkLoop]
  | cons v stack => rw [walkLoop, if_pos full]

theorem walkLoop_skip {out : List Element} {node : ν} {depth : Nat}
    (skipped : opts.maxDepth < depth ∨ s.reads node = false) (stack : List (ν × Nat)) :
    s.walkLoop opts ((node, depth) :: stack) out = s.walkLoop opts stack out := by
  rw [walkLoop]
  by_cases full : opts.maxNodes ≤ out.length
  · rw [if_pos full, walkLoop_full full]
  · rw [if_neg full]
    by_cases cut : opts.maxDepth < depth ∨ s.isNull node = true
    · rw [if_pos cut]
    · have unread : s.asAccessibleProxy node = false := by
        simp only [reads] at skipped
        grind
      rw [if_neg cut, if_pos (by simp [unread])]

theorem walkLoop_read {out : List Element} {node : ν} {depth : Nat}
    (room : out.length < opts.maxNodes) (within : depth ≤ opts.maxDepth)
    (read : s.reads node = true) (stack : List (ν × Nat)) :
    s.walkLoop opts ((node, depth) :: stack) out =
      s.walkLoop opts (s.push node depth stack) (out ++ [s.element node depth]) := by
  obtain ⟨present, built⟩ := reads_iff.mp read
  have uncut : ¬ (opts.maxDepth < depth ∨ s.isNull node = true) := by
    simp only [present, Bool.false_eq_true, or_false]
    omega
  rw [walkLoop, if_neg (by omega), if_neg uncut, if_neg (by simp [built])]

variable (s opts) in
/-- The three ways a turn of the loop can go, as an induction over the loop. -/
theorem walkLoop_induction {motive : List (ν × Nat) → List Element → Prop}
    (nil : ∀ out, motive [] out)
    (full : ∀ stack out, opts.maxNodes ≤ out.length → motive stack out)
    (skip : ∀ node depth stack out, opts.maxDepth < depth ∨ s.reads node = false →
      motive stack out → motive ((node, depth) :: stack) out)
    (read : ∀ node depth stack out, out.length < opts.maxNodes → depth ≤ opts.maxDepth →
      s.reads node = true → motive (s.push node depth stack) (out ++ [s.element node depth]) →
      motive ((node, depth) :: stack) out)
    (stack : List (ν × Nat)) (out : List Element) : motive stack out := by
  induction stack, out using walkLoop.induct s opts with
  | case1 out => exact nil out
  | case2 out node depth stack capped => exact full _ out capped
  | case3 out node depth stack _ cut ih =>
    refine skip node depth stack out ?_ ih
    simp only [reads]
    grind
  | case4 out node depth stack _ _ unbuilt ih =>
    refine skip node depth stack out ?_ ih
    simp only [reads]
    grind
  | case5 out node depth stack room uncut built ih =>
    refine read node depth stack out (by omega) (by omega) ?_ ih
    simp only [reads]
    grind

theorem prefix_walkLoop (stack : List (ν × Nat)) (out : List Element) :
    out <+: s.walkLoop opts stack out := by
  induction stack, out using walkLoop_induction s opts with
  | nil out => simp [walkLoop]
  | full stack out capped => simp [walkLoop_full capped]
  | skip node depth stack out skipped ih => rwa [walkLoop_skip skipped]
  | read node depth stack out room within kept ih =>
    rw [walkLoop_read room within kept]
    exact (List.prefix_append out _).trans ih

/-! ### The depth at which the count starts again -/

theorem overruns_cons {node : ν} {depth room : Nat} {rest : List (ν × Nat)} :
    s.Overruns ((node, depth) :: rest) (room + 1) ↔
      (depth = 4294967295 ∧ ∃ child ∈ s.children node, s.reads child = true) ∨
        s.Overruns rest room := by
  simp only [Overruns, List.take_succ_cons, List.mem_cons, Prod.mk.injEq]
  constructor
  · rintro ⟨deep, ⟨rfl, rfl⟩ | member, readable⟩
    · exact Or.inl ⟨rfl, readable⟩
    · exact Or.inr ⟨deep, member, readable⟩
  · rintro (⟨rfl, readable⟩ | ⟨deep, member, readable⟩)
    · exact ⟨node, Or.inl ⟨rfl, rfl⟩, readable⟩
    · exact ⟨deep, Or.inr member, readable⟩

theorem not_overruns_zero (visits : List (ν × Nat)) : ¬ s.Overruns visits 0 := by
  rintro ⟨node, member, _⟩
  simp at member

/-- Children that cannot be read are dropped at whatever depth they stand. -/
theorem pending_push {maxDepth depth : Nat} {node : ν} (bounded : depth < 4294967296)
    (passes : ¬ (depth = 4294967295 ∧ ∃ child ∈ s.children node, s.reads child = true))
    (stack : List (ν × Nat)) :
    s.pending maxDepth (s.push node depth stack) =
      s.pending maxDepth ((s.children node).map (·, depth + 1) ++ stack) := by
  rw [push_eq]
  by_cases shallow : depth + 1 < 4294967296
  · rw [Nat.mod_eq_of_lt shallow]
  · have dropped : ∀ child ∈ s.children node, s.reads child = false := by
      intro child member
      by_contra read
      exact passes ⟨by omega, child, member, by simpa using read⟩
    exact (Graph.pending_all_dropped dropped _ _).trans
      (Graph.pending_all_dropped dropped _ _).symm

theorem pending_read {maxDepth depth : Nat} {node : ν} (kept : s.reads node = true)
    (within : depth ≤ maxDepth) (stack : List (ν × Nat)) :
    s.pending maxDepth ((node, depth) :: stack) =
      (node, depth) :: s.pending maxDepth ((s.children node).map (·, depth + 1) ++ stack) :=
  Graph.pending_kept kept within stack

theorem pending_skip {node : ν} {depth : Nat} (skipped : opts.maxDepth < depth ∨ s.reads node = false)
    (stack : List (ν × Nat)) :
    s.pending opts.maxDepth ((node, depth) :: stack) = s.pending opts.maxDepth stack := by
  rcases skipped with deep | dropped
  · exact Graph.pending_too_deep deep stack
  · exact Graph.pending_dropped dropped stack

theorem small_push {node : ν} {depth : Nat} {stack : List (ν × Nat)}
    (small : ∀ v ∈ (node, depth) :: stack, v.2 < 4294967296) :
    ∀ v ∈ s.push node depth stack, v.2 < 4294967296 := by
  intro v member
  rw [push_eq, List.mem_append, List.mem_map] at member
  rcases member with ⟨child, _, rfl⟩ | member
  · exact Nat.mod_lt _ (by decide)
  · exact small v (List.mem_cons_of_mem _ member)

/-! ### The loop returns what is pending, up to the cap -/

/-- What one read node adds: if its children are pending as the listing has them, or the cap is
reached with it, the loop goes on as the listing does. -/
theorem walkLoop_eq (stack : List (ν × Nat)) (out : List Element)
    (fits : out.length ≤ opts.maxNodes) (small : ∀ v ∈ stack, v.2 < 4294967296)
    (calm : ¬ s.Overruns (s.pending opts.maxDepth stack) (opts.maxNodes - 1 - out.length)) :
    s.walkLoop opts stack out =
      (out ++ s.shown (s.pending opts.maxDepth stack)).take opts.maxNodes := by
  induction stack, out using walkLoop_induction s opts with
  | nil out =>
    have nothing : s.shown (s.pending opts.maxDepth []) = [] := rfl
    rw [walkLoop, nothing, List.append_nil, List.take_of_length_le fits]
  | full stack out capped =>
    have length : out.length = opts.maxNodes := by omega
    rw [walkLoop_full capped, ← length, List.take_left]
  | skip node depth stack out skipped ih =>
    rw [pending_skip skipped] at calm
    rw [walkLoop_skip skipped, pending_skip skipped]
    exact ih fits (fun v member => small v (List.mem_cons_of_mem _ member)) calm
  | read node depth stack out room within kept ih =>
    rw [pending_read kept within] at calm
    rw [walkLoop_read room within kept, pending_read kept within, append_shown_cons]
    have length : (out ++ [s.element node depth]).length = out.length + 1 := List.length_append
    by_cases last : out.length + 1 = opts.maxNodes
    · rw [walkLoop_full (by omega), ← last, ← length, List.take_left]
    have left : opts.maxNodes - 1 - out.length = opts.maxNodes - 1 - (out.length + 1) + 1 := by omega
    rw [left, overruns_cons, not_or] at calm
    obtain ⟨passes, calm⟩ := calm
    rw [pending_push (small (node, depth) List.mem_cons_self) passes, length] at ih
    exact ih (by omega) (small_push small) calm

/-! ### Below the deepest depth the walk starts counting at zero -/

/-- With a child on the stack that can be read at depth zero, the next element has depth zero. -/
theorem walkLoop_restarts {children : List ν} {out : List Element}
    (room : out.length < opts.maxNodes) (readable : ∃ child ∈ children, s.reads child = true)
    (stack : List (ν × Nat)) :
    ∃ e : Element, e.depth = 0 ∧
      out ++ [e] <+: s.walkLoop opts (children.map (·, 0) ++ stack) out := by
  induction children with
  | nil => simp at readable
  | cons first rest ih =>
    rw [List.map_cons, List.cons_append]
    cases read : s.reads first with
    | true =>
      rw [walkLoop_read room (Nat.zero_le _) read]
      exact ⟨s.element first 0, rfl, prefix_walkLoop _ _⟩
    | false =>
      rw [walkLoop_skip (Or.inr read)]
      obtain ⟨child, member, reads⟩ := readable
      rcases List.mem_cons.mp member with rfl | member
      · simp [read] at reads
      · exact ih ⟨child, member, reads⟩

/-- Every element still to come is below the root. -/
theorem depth_shown {maxDepth : Nat} {stack : List (ν × Nat)}
    (below : ∀ v ∈ stack, s.reads v.1 = true → 0 < v.2) {e : Element}
    (member : e ∈ s.shown (s.pending maxDepth stack)) : 0 < e.depth := by
  obtain ⟨v, listed, rfl⟩ := List.mem_map.mp member
  exact Graph.depth_pending below listed

/-- An element at depth zero past the first place is no element of the listing. -/
theorem walkLoop_differs {children : List ν} {out : List Element} {later : List Element}
    (room : out.length < opts.maxNodes) (readable : ∃ child ∈ children, s.reads child = true)
    (below : ∀ e ∈ later, 0 < e.depth) (stack : List (ν × Nat)) :
    s.walkLoop opts (children.map (·, 0) ++ stack) out ≠ (out ++ later).take opts.maxNodes := by
  intro equal
  obtain ⟨e, zero, front⟩ := walkLoop_restarts room readable stack
  rw [equal] at front
  have place : [e] <+: later :=
    (List.prefix_append_right_inj out).mp (front.trans (List.take_prefix opts.maxNodes _))
  have positive := below e (place.subset List.mem_cons_self)
  omega

theorem below_children {children : List ν} {depth : Nat} {stack : List (ν × Nat)}
    (above : ∀ child ∈ children, s.reads child = true → 0 < depth)
    (below : ∀ v ∈ stack, s.reads v.1 = true → 0 < v.2) :
    ∀ v ∈ children.map (·, depth) ++ stack, s.reads v.1 = true → 0 < v.2 := by
  intro v member read
  rw [List.mem_append, List.mem_map] at member
  rcases member with ⟨child, listed, rfl⟩ | member
  · exact above child listed read
  · exact below v member read

/-- A walk that agrees with the listing past a node does not pass the deepest depth there. -/
theorem passes_of_walkLoop_eq {node : ν} {depth : Nat} {stack : List (ν × Nat)} {out : List Element}
    (room : (out ++ [s.element node depth]).length < opts.maxNodes)
    (below : ∀ v ∈ stack, s.reads v.1 = true → 0 < v.2)
    (equal : s.walkLoop opts (s.push node depth stack) (out ++ [s.element node depth]) =
      (out ++ [s.element node depth] ++ s.shown (s.pending opts.maxDepth
        ((s.children node).map (·, depth + 1) ++ stack))).take opts.maxNodes) :
    ¬ (depth = 4294967295 ∧ ∃ child ∈ s.children node, s.reads child = true) := by
  rintro ⟨rfl, readable⟩
  have above : ∀ child ∈ s.children node, s.reads child = true → 0 < 4294967295 + 1 :=
    fun _ _ _ => Nat.succ_pos _
  have later := below_children above below
  rw [push_eq] at equal
  exact walkLoop_differs room readable (fun e member => depth_shown later member) stack equal

theorem below_push {node : ν} {depth : Nat} {stack : List (ν × Nat)} (bounded : depth < 4294967296)
    (passes : ¬ (depth = 4294967295 ∧ ∃ child ∈ s.children node, s.reads child = true))
    (below : ∀ v ∈ stack, s.reads v.1 = true → 0 < v.2) :
    ∀ v ∈ s.push node depth stack, s.reads v.1 = true → 0 < v.2 := by
  rw [push_eq]
  apply below_children _ below
  intro child listed read
  have shallow : depth ≠ 4294967295 := fun deepest => passes ⟨deepest, child, listed, read⟩
  omega

theorem calm_of_walkLoop_eq (stack : List (ν × Nat)) (out : List Element)
    (small : ∀ v ∈ stack, v.2 < 4294967296)
    (below : ∀ v ∈ stack.tail, s.reads v.1 = true → 0 < v.2)
    (equal : s.walkLoop opts stack out =
      (out ++ s.shown (s.pending opts.maxDepth stack)).take opts.maxNodes) :
    ¬ s.Overruns (s.pending opts.maxDepth stack) (opts.maxNodes - 1 - out.length) := by
  induction stack, out using walkLoop_induction s opts with
  | nil out =>
    rintro ⟨node, member, _⟩
    have listed := List.mem_of_mem_take member
    simp [pending, Graph.pending_nil] at listed
  | full stack out capped =>
    have none_left : opts.maxNodes - 1 - out.length = 0 := by omega
    rw [none_left]
    exact not_overruns_zero _
  | skip node depth stack out skipped ih =>
    rw [pending_skip skipped] at equal ⊢
    rw [walkLoop_skip skipped] at equal
    exact ih (fun v member => small v (List.mem_cons_of_mem _ member))
      (fun v member => below v (List.mem_of_mem_tail member)) equal
  | read node depth stack out room within kept ih =>
    have bounded : depth < 4294967296 := small (node, depth) List.mem_cons_self
    have length : (out ++ [s.element node depth]).length = out.length + 1 := List.length_append
    rw [walkLoop_read room within kept, pending_read kept within, append_shown_cons] at equal
    rw [pending_read kept within]
    by_cases last : out.length + 1 = opts.maxNodes
    · have none_left : opts.maxNodes - 1 - out.length = 0 := by omega
      rw [none_left]
      exact not_overruns_zero _
    have left : opts.maxNodes - 1 - out.length = opts.maxNodes - 1 - (out.length + 1) + 1 := by omega
    rw [left, overruns_cons, not_or]
    have passes := passes_of_walkLoop_eq (by omega) below equal
    rw [pending_push bounded passes, length] at ih
    have under := below_push bounded passes below
    exact ⟨passes, ih (small_push small) (fun v member => under v (List.mem_of_mem_tail member)) equal⟩

/-! ### The whole walk -/

theorem pending_root (maxDepth : Nat) (root : ν) :
    s.pending maxDepth [(root, 0)] = s.visits maxDepth root := by
  rw [pending, Graph.pending, List.flatMap_singleton]
  rfl

theorem walk_of_calm {root : ν}
    (calm : ¬ s.Overruns (s.visits opts.maxDepth root) (opts.maxNodes - 1)) :
    s.walk root opts = (s.listing opts.maxDepth root).take opts.maxNodes := by
  rw [← pending_root] at calm
  rw [listing, ← pending_root]
  exact walkLoop_eq [(root, 0)] [] (Nat.zero_le _) (by simp) calm

theorem calm_of_walk_eq {root : ν}
    (equal : s.walk root opts = (s.listing opts.maxDepth root).take opts.maxNodes) :
    ¬ s.Overruns (s.visits opts.maxDepth root) (opts.maxNodes - 1) := by
  rw [listing, ← pending_root] at equal
  rw [← pending_root]
  exact calm_of_walkLoop_eq [(root, 0)] [] (by simp) (by simp) equal

variable (s) in
theorem walk_preorder_iff (root : ν) (opts : WalkOpts) :
    s.walk root opts = (s.listing opts.maxDepth root).take opts.maxNodes ↔
      ¬ s.Overruns (s.visits opts.maxDepth root) (opts.maxNodes - 1) :=
  ⟨calm_of_walk_eq, walk_of_calm⟩

/-- A bound on the depth below the deepest one, or a cap that a path so deep cannot fit in. -/
theorem not_overruns {maxDepth room : Nat} {root : ν}
    (bounded : maxDepth < 4294967295 ∨ room < 4294967296) :
    ¬ s.Overruns (s.visits maxDepth root) room := by
  rintro ⟨node, member, _⟩
  rcases bounded with shallow | few
  · have depth := (Graph.depth_unfolding (List.mem_of_mem_take member)).2
    omega
  · obtain ⟨i, place⟩ := List.mem_iff_getElem?.mp member
    rw [List.getElem?_take] at place
    split at place
    · have depth := Graph.depth_le_index place
      omega
    · cases place

theorem walk_bounded (root : ν) {opts : WalkOpts}
    (bounded : opts.maxDepth < 4294967295 ∨ opts.maxNodes ≤ 4294967296) :
    s.walk root opts = (s.listing opts.maxDepth root).take opts.maxNodes := by
  apply walk_of_calm
  apply not_overruns
  omega

/-! ### A node that is its own child -/

def endless : Service Unit where
  isNull _ := false
  path _ := "/"
  asAccessibleProxy _ := true
  getRole _ := none
  name _ := none
  proxies _ := false
  component _ := false
  getExtents _ := none
  text _ := false
  characterCount _ := none
  getText _ _ _ := none
  getChildren _ := .ok [()]

theorem unfolding_endless (levels depth : Nat) :
    Graph.unfolding endless.reads endless.children levels depth () =
      (List.range' depth levels).map fun d => ((), d) := by
  induction levels generalizing depth with
  | zero => rfl
  | succ levels ih =>
    have own : endless.children () = [()] := rfl
    rw [Graph.unfolding_kept rfl, own, List.flatMap_singleton, ih, List.range'_succ, List.map_cons]

theorem endless_overruns {maxDepth room : Nat} (deep : 4294967295 ≤ maxDepth)
    (wide : 4294967295 < room) : endless.Overruns (endless.visits maxDepth ()) room := by
  refine ⟨(), ?_, (), List.mem_singleton.mpr rfl, rfl⟩
  have place : ((endless.visits maxDepth ()).take room)[4294967295]? = some ((), 4294967295) := by
    rw [List.getElem?_take_of_lt wide, visits, unfolding_endless, List.getElem?_map,
      List.getElem?_range' (by omega)]
    simp
  exact List.mem_of_getElem? place

theorem endless_walk :
    endless.walk () ⟨4294967297, 4294967295⟩ ≠ (endless.listing 4294967295 ()).take 4294967297 := by
  intro equal
  exact calm_of_walk_eq equal (endless_overruns (Nat.le_refl _) (Nat.lt_succ_self _))

end Service

end HyprPilot
