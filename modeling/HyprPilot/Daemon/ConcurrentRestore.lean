import HyprPilot.Base.Pool
import HyprPilot.Core.RestoreFlips
import HyprPilot.Daemon.Server

/-!
# Two restores at once

Two clients restore one snapshot. Each captures the live windows, diffs, and dispatches action by
action, and the two action lists interleave. The compositor flips a flag once for every flip it is
sent, so the second client must not count on a flip that the first has still to send.
-/

namespace HyprPilot
open Interact Daemon

/-! ### The live windows -/

def Client.flag (c : Client) : FlipKind → Bool
  | .floating => c.floating
  | .pinned => c.pinned

def Flip.apply (f : Flip) (c : Client) : Client :=
  if c.address = f.address then
    match f.kind with
    | .floating => { c with floating := !c.floating }
    | .pinned => { c with pinned := !c.pinned }
  else c

def odd (fs : List Flip) (f : Flip) : Bool := decide (fs.count f % 2 = 1)

theorem odd_append (fs : List Flip) (f g : Flip) : odd (fs ++ [g]) f = (odd fs f ^^ decide (g = f)) := by
  unfold odd
  by_cases same : g = f
  · subst same
    rw [List.count_append, List.count_singleton_self, decide_eq_true rfl, Bool.xor_true, ← decide_not]
    apply decide_eq_decide.mpr
    omega
  · have none : List.count f [g] = 0 := by
      rw [List.count_eq_zero]
      exact fun member => same (List.mem_singleton.mp member).symm
    rw [List.count_append, none, decide_eq_false same, Bool.xor_false, Nat.add_zero]

theorem odd_nodup {fs : List Flip} (once : fs.Nodup) (f : Flip) : odd fs f = decide (f ∈ fs) := by
  unfold odd
  by_cases member : f ∈ fs
  · rw [List.count_eq_one_of_mem once member, decide_eq_true member]
    rfl
  · rw [List.count_eq_zero.mpr member, decide_eq_false member]
    rfl

/-- What the diff reads of a window, apart from its flags, is what it was. -/
def SameClient (c d : Client) : Prop :=
  c.address = d.address ∧ c.pid = d.pid ∧ c.initialClass = d.initialClass ∧
    c.initialTitle = d.initialTitle

/-- The windows of `init` after the flips `fs`, in their other fields changed at will. -/
def Flipped (fs : List Flip) (init cs : List Client) : Prop :=
  ∃ g : Client → Client, cs = init.map g ∧ ∀ c ∈ init, SameClient (g c) c ∧
    ∀ kind, (g c).flag kind = (c.flag kind ^^ odd fs ⟨kind, c.address⟩)

def Kept (cs ds : List Client) : Prop :=
  ∃ g : Client → Client, ds = cs.map g ∧ ∀ c, SameClient (g c) c ∧ ∀ kind, (g c).flag kind = c.flag kind

section Flipped

variable {fs : List Flip} {init cs ds : List Client}

theorem flipped_refl (init : List Client) : Flipped [] init init :=
  ⟨id, (List.map_id _).symm, fun _ _ => ⟨⟨rfl, rfl, rfl, rfl⟩, fun _ => (Bool.xor_false _).symm⟩⟩

theorem SameClient.trans {a b c : Client} (first : SameClient a b) (second : SameClient b c) :
    SameClient a c :=
  ⟨first.1.trans second.1, first.2.1.trans second.2.1, first.2.2.1.trans second.2.2.1,
    first.2.2.2.trans second.2.2.2⟩

theorem Flipped.keep (flipped : Flipped fs init cs) (kept : Kept cs ds) : Flipped fs init ds := by
  obtain ⟨g, rfl, changed⟩ := flipped
  obtain ⟨h, rfl, still⟩ := kept
  refine ⟨h ∘ g, by rw [List.map_map], fun c member => ?_⟩
  obtain ⟨same, flags⟩ := changed c member
  refine ⟨(still (g c)).1.trans same, fun kind => ?_⟩
  exact ((still (g c)).2 kind).trans (flags kind)

theorem apply_same (f : Flip) (c : Client) : SameClient (f.apply c) c := by
  unfold Flip.apply
  split
  · split <;> exact ⟨rfl, rfl, rfl, rfl⟩
  · exact ⟨rfl, rfl, rfl, rfl⟩

theorem apply_flag (f : Flip) (c : Client) (kind : FlipKind) :
    (f.apply c).flag kind = (c.flag kind ^^ decide (f = ⟨kind, c.address⟩)) := by
  obtain ⟨k, address⟩ := f
  unfold Flip.apply
  by_cases named : c.address = address
  · subst named
    cases k <;> cases kind <;> simp [Client.flag]
  · have other : (⟨k, address⟩ : Flip) ≠ ⟨kind, c.address⟩ := fun same => named (Flip.mk.inj same).2.symm
    simp [named, other]

theorem Flipped.flip (flipped : Flipped fs init cs) (f : Flip) :
    Flipped (fs ++ [f]) init (cs.map f.apply) := by
  obtain ⟨g, rfl, changed⟩ := flipped
  refine ⟨f.apply ∘ g, by rw [List.map_map], fun c member => ?_⟩
  obtain ⟨same, flags⟩ := changed c member
  refine ⟨(apply_same f (g c)).trans same, fun kind => ?_⟩
  rw [Function.comp_apply, apply_flag, flags, same.1, odd_append, Bool.xor_assoc]

theorem Flipped.addresses (flipped : Flipped fs init cs) :
    cs.map (·.address) = init.map (·.address) := by
  obtain ⟨g, rfl, changed⟩ := flipped
  rw [List.map_map]
  exact List.map_congr_left fun c member => (changed c member).1.1

end Flipped

/-! ### What a capture owes -/

/-- The window that a capture makes of a client. -/
def windowOf (monitors : List Monitor) (c : Client) : WindowSnapshot :=
  { address := c.address, pid := c.pid, initialClass := c.initialClass
    initialTitle := c.initialTitle, className := c.className, title := c.title
    workspaceId := c.workspace.id
    monitorName := ((monitors.reverse.find? fun m => m.id = c.monitor).map (·.name)).getD ""
    at_ := c.at_, size := c.size, floating := c.floating, fullscreen := c.fullscreen
    pinned := c.pinned }

def liveOf (cs : List Client) : Snapshot :=
  { name := "", createdAtUnix := 0, hyprlandVersion := "", monitors := [], workspaces := []
    windows := cs.map (windowOf []), activeWindowAddress := none, activeWorkspaceId := 0 }

/-- The flips of the diff against a capture of these windows. -/
def owed (target : Snapshot) (cs : List Client) : List Flip := target.flips (liveOf cs)

theorem windowOf_flag (monitors : List Monitor) (c : Client) (kind : FlipKind) :
    (windowOf monitors c).flag kind = c.flag kind := by
  cases kind <;> rfl

section Owed

variable {target : Snapshot} {init cs : List Client} {made : List Flip}
  (distinct : (init.map (·.address)).Nodup)
include distinct

/-- A change of the windows that keeps them recognisable is a function of the windows. -/
theorem exists_renewal {a : Client → WindowSnapshot}
    (same : ∀ c ∈ init, SameIdentity (a c) (windowOf [] c)) :
    ∃ f : WindowSnapshot → WindowSnapshot, (∀ w, SameIdentity (f w) w) ∧
      ∀ c ∈ init, f (windowOf [] c) = a c := by
  classical
  let source (w : WindowSnapshot) := init.find? fun c => decide (SameIdentity (windowOf [] c) w)
  have source_spec {w : WindowSnapshot} {c : Client} (found : source w = some c) :
      c ∈ init ∧ SameIdentity (windowOf [] c) w := by
    have accepted := List.find?_some found
    exact ⟨List.mem_of_find?_eq_some found, of_decide_eq_true accepted⟩
  refine ⟨fun w => ((source w).map a).getD w, fun w => ?_, fun c member => ?_⟩
  · show SameIdentity (((source w).map a).getD w) w
    cases found : source w with
    | none => exact ⟨rfl, rfl, rfl, rfl⟩
    | some c =>
      obtain ⟨member, second⟩ := source_spec found
      have first := same c member
      exact ⟨first.1.trans second.1, first.2.1.trans second.2.1, first.2.2.1.trans second.2.2.1,
        first.2.2.2.trans second.2.2.2⟩
  · show ((source (windowOf [] c)).map a).getD (windowOf [] c) = a c
    cases found : source (windowOf [] c) with
    | none =>
      have missing := List.find?_eq_none.mp found c member
      exact absurd (decide_eq_true ⟨rfl, rfl, rfl, rfl⟩) missing
    | some d =>
      obtain ⟨other, second⟩ := source_spec found
      have equal : d = c := List.inj_on_of_nodup_map distinct other member second.1
      rw [equal]
      rfl

/-- A capture after some of the flips that were owed at first owes the others. -/
theorem capture_owes {live : Snapshot} {monitors : List Monitor} (flipped : Flipped made init cs)
    (captured : live.windows = cs.map (windowOf monitors)) (once : made.Nodup)
    (sub : ∀ f ∈ made, f ∈ owed target init) :
    target.flips live = (owed target init).filter (· ∉ made) := by
  obtain ⟨g, rfl, changed⟩ := flipped
  obtain ⟨f, same, renews⟩ := exists_renewal distinct
    (a := fun c => windowOf monitors (g c)) fun c member => (changed c member).1
  have addresses : ((liveOf init).windows.map (·.address)).Nodup := by
    rwa [liveOf, List.map_map]
  refine flips_after addresses same ?_ sub ?_
  · rw [captured, liveOf, List.map_map, List.map_map]
    exact List.map_congr_left fun c member => (renews c member).symm
  · intro w member kind
    obtain ⟨c, here, rfl⟩ := List.mem_map.mp member
    rw [renews c here, windowOf_flag, windowOf_flag, (changed c here).2, odd_nodup once]
    rfl

theorem owed_after (flipped : Flipped made init cs) (once : made.Nodup)
    (sub : ∀ f ∈ made, f ∈ owed target init) :
    owed target cs = (owed target init).filter (· ∉ made) :=
  capture_owes distinct flipped rfl once sub

theorem owed_same (flipped : Flipped [] init cs) : owed target cs = owed target init := by
  rw [owed_after distinct flipped List.nodup_nil (by simp)]
  simp

end Owed

theorem capture_owed {target live : Snapshot} {cs : List Client} {monitors : List Monitor}
    (distinct : (cs.map (·.address)).Nodup) (captured : live.windows = cs.map (windowOf monitors)) :
    target.flips live = owed target cs := by
  rw [capture_owes distinct (flipped_refl cs) captured List.nodup_nil (by simp)]
  simp

/-! ### Two clients and one compositor -/

structure Scene where
  clients : List Client
  /-- The flips dispatched so far, each with the client that sent it. -/
  log : List (Bool × Flip)
  /-- What each client has captured. -/
  seen : Bool → Option (List Client)
  /-- A client captured while the other had flips of its diff still to send. -/
  raced : Bool

/-- The flips of one client among those of both. -/
def sentBy (i : Bool) (log : List (Bool × Flip)) : List Flip :=
  log.filterMap fun e => if e.1 = i then some e.2 else none

def Scene.sent (s : Scene) (i : Bool) : List Flip := sentBy i s.log

def Scene.owes (target : Snapshot) (s : Scene) (i : Bool) : Bool :=
  match s.seen i with
  | some cs => decide (s.sent i ≠ owed target cs)
  | none => false

def dispatchFlip : Dispatcher → Option Flip
  | .toggleFloatingWindow (.address a) => some ⟨.floating, a⟩
  | .pinWindow (.address a) => some ⟨.pinned, a⟩
  | _ => none

/-- The dispatchers of a restore: two flip the named window's flag, the others leave flags alone. -/
def DispatchEffect : Dispatcher → List Client → List Client → Prop
  | .toggleFloatingWindow (.address a), cs, ds => ds = cs.map (Flip.apply ⟨.floating, a⟩)
  | .pinWindow (.address a), cs, ds => ds = cs.map (Flip.apply ⟨.pinned, a⟩)
  | .moveToWorkspaceSilent _ _, cs, ds | .moveWindowPixel _ _ _, cs, ds
  | .resizeWindowPixel _ _ _, cs, ds | .setFullscreenState _ _ _, cs, ds
  | .focusWindow _, cs, ds => Kept cs ds
  | _, _, _ => True

def RestoreDispatcher : Dispatcher → Prop
  | .toggleFloatingWindow (.address _) | .pinWindow (.address _) | .moveToWorkspaceSilent _ _
  | .moveWindowPixel _ _ _ | .resizeWindowPixel _ _ _ | .setFullscreenState _ _ _
  | .focusWindow _ => True
  | _ => False

variable {κ : Type}

/-- Queries and dispatches succeed, and each acts at once. -/
def SceneActs (target : Snapshot) (i : Bool) : (c : Daemon.Cmd κ) → Scene → Daemon.Ans c → Scene → Prop
  | .cache (.hypr (.query .clients)), s, x, t => x = .ok s.clients ∧
    t = { s with seen := Function.update s.seen i (some s.clients), raced := s.raced || s.owes target !i }
  | .cache (.hypr (.query _)), s, x, t => (∃ v, x = .ok v) ∧ t = s
  | .cache (.hypr (.dispatch d)), s, x, t => x = .ok () ∧ ∃ cs, DispatchEffect d s.clients cs ∧
    t = { s with clients := cs, log := s.log ++ (dispatchFlip d).toList.map fun f => (i, f) }
  | _, s, _, t => t = s

def sceneRules (target : Snapshot) : Pool.Rules (Daemon.Cmd κ) Daemon.Ans Scene Bool where
  act := SceneActs target
  env _ _ := False

/-! ### What one client sends -/

/-- What a client has captured and sent. -/
abbrev Progress := Option (List Client) × List Flip

def Scene.progress (i : Bool) (s : Scene) : Progress := (s.seen i, s.sent i)

def Advances : (c : Daemon.Cmd κ) → Daemon.Ans c → Progress → Progress → Prop
  | .cache (.hypr (.query .clients)), x, p, q =>
    ∃ cs, x = .ok cs ∧ (cs.map (·.address)).Nodup ∧ q = (some cs, p.2)
  | .cache (.hypr (.query _)), x, p, q => (∃ v, x = .ok v) ∧ q = p
  | .cache (.hypr (.dispatch d)), x, p, q => x = .ok () ∧ q = (p.1, p.2 ++ (dispatchFlip d).toList)
  | _, _, p, q => q = p

/-- A client captures once, before its first flip, and sends the flips that its capture owes. -/
def InOrder (target : Snapshot) : Daemon.Cmd κ → Progress → Prop
  | .cache (.hypr (.query .clients)), p => p = (none, [])
  | .cache (.hypr (.dispatch d)), p => RestoreDispatcher d ∧
    ∃ cs, p.1 = some cs ∧ p.2 ++ (dispatchFlip d).toList <+: owed target cs
  | _, _ => True

def Delivered (target : Snapshot) (p : Progress) : Prop := ∃ cs, p = (some cs, owed target cs)

section Sends

variable {target : Snapshot} {cs : List Client}

theorem applyAction_sends (action : RestoreAction) {done : List Flip}
    (next : done ++ action.flip.toList <+: owed target cs) :
    (hypr (applyAction action) : Handler κ ApplyOutcome).wp Advances (InOrder target)
      (fun _ p => p = (some cs, done ++ action.flip.toList)) (some cs, done) := by
  have quiet : done ++ [] <+: owed target cs := by
    rw [List.append_nil]
    exact (List.prefix_append _ _).trans next
  cases action with
  | windowMissing | windowNotInSnapshot => simp [applyAction, hypr, RestoreAction.flip]
  | repositionFloating address targetAt targetSize currentAt currentSize =>
    refine ⟨⟨trivial, cs, rfl, quiet⟩, ?_⟩
    rintro _ _ ⟨rfl, rfl⟩
    refine ⟨⟨trivial, cs, rfl, ?_⟩, ?_⟩
    · show done ++ [] ++ [] <+: owed target cs
      rwa [List.append_nil]
    · rintro _ _ ⟨rfl, rfl⟩
      show (some cs, done ++ [] ++ []) = (some cs, done ++ [])
      rw [List.append_nil]
  -- One dispatch.
  | _ =>
    refine ⟨⟨trivial, cs, rfl, next⟩, ?_⟩
    rintro _ _ ⟨rfl, rfl⟩
    rfl

theorem applyActions_sends {actions : List RestoreAction} {done : List Flip}
    (next : done ++ actions.filterMap RestoreAction.flip <+: owed target cs) :
    (hypr (applyActions actions) : Handler κ (List ApplyOutcome)).wp Advances (InOrder target)
      (fun _ p => p = (some cs, done ++ actions.filterMap RestoreAction.flip)) (some cs, done) := by
  induction actions generalizing done with
  | nil =>
    show (some cs, done) = (some cs, done ++ [])
    rw [List.append_nil]
  | cons action rest ih =>
    have split : (action :: rest).filterMap RestoreAction.flip =
        action.flip.toList ++ rest.filterMap RestoreAction.flip := by
      rw [List.filterMap_cons]
      cases action.flip <;> rfl
    rw [split, ← List.append_assoc] at next
    rw [split, ← List.append_assoc]
    have first := applyAction_sends (κ := κ) action ((List.prefix_append _ _).trans next)
    unfold applyActions hypr
    rw [Prog.relabel_bind, Prog.wp_bind]
    refine Prog.wp_mono ?_ first
    rintro outcome _ rfl
    rw [Prog.relabel_bind, Prog.wp_bind]
    refine Prog.wp_mono ?_ (ih next)
    rintro outcomes _ rfl
    rfl

theorem capture_sends (name : String) :
    (hypr (Snapshot.capture name) : Handler κ (CoreResult Snapshot)).wp Advances (InOrder target)
      (fun result p => ∃ live cs monitors, result = .ok live ∧ p = (some cs, []) ∧
        (cs.map (·.address)).Nodup ∧ live.windows = cs.map (windowOf monitors)) (none, []) := by
  refine ⟨trivial, ?_⟩
  rintro _ _ ⟨⟨version, rfl⟩, rfl⟩
  refine ⟨rfl, ?_⟩
  rintro _ _ ⟨cs, rfl, distinct, rfl⟩
  refine ⟨trivial, ?_⟩
  rintro _ _ ⟨⟨workspaces, rfl⟩, rfl⟩
  refine ⟨trivial, ?_⟩
  rintro _ _ ⟨⟨monitors, rfl⟩, rfl⟩
  refine ⟨trivial, ?_⟩
  rintro _ _ ⟨⟨activeWindow, rfl⟩, rfl⟩
  refine ⟨trivial, ?_⟩
  rintro _ _ ⟨⟨activeWorkspace, rfl⟩, rfl⟩
  refine ⟨trivial, ?_⟩
  rintro now _ rfl
  exact ⟨_, cs, monitors, rfl, rfl, distinct, rfl⟩

theorem restoreTo_sends (name pre : String) :
    (restoreTo name pre target : Handler κ Response).wp Advances (InOrder target)
      (fun _ p => Delivered target p) (none, []) := by
  unfold restoreTo
  rw [Prog.wp_bind]
  refine Prog.wp_mono ?_ (capture_sends "_live_")
  rintro _ _ ⟨live, cs, monitors, rfl, rfl, distinct, captured⟩
  have owes : (target.diffAgainst live).actions.filterMap RestoreAction.flip = owed target cs :=
    capture_owed distinct captured
  have all : [] ++ (target.diffAgainst live).actions.filterMap RestoreAction.flip <+: owed target cs := by
    rw [owes]
    exact List.prefix_rfl
  show Prog.wp Advances (InOrder target) _ (hypr (applyDiff (target.diffAgainst live)) >>= _) _
  rw [Prog.wp_bind]
  refine Prog.wp_mono ?_ (applyActions_sends all)
  rintro outcomes _ rfl
  rw [owes]
  exact ⟨cs, rfl⟩

end Sends

/-! ### Both clients -/

/-- How far the two restores of the windows `init` have come. `made` are the flips that the first
client to capture had sent when the second one captured. -/
inductive Stage (target : Snapshot) (init : List Client) (s : Scene) : Prop where
  | none : (∀ i, s.seen i = none) → s.log = [] → s.raced = false → Stage target init s
  | one (i : Bool) (cs : List Client) : s.seen i = some cs → s.seen (!i) = none →
      s.raced = false → owed target cs = owed target init → s.sent i <+: owed target init →
      s.sent (!i) = [] → Stage target init s
  | both (i : Bool) (cs ds : List Client) (made : List Flip) : s.seen i = some cs →
      s.seen (!i) = some ds → s.raced = decide (made ≠ owed target init) →
      owed target cs = owed target init → made <+: owed target init → s.sent i <+: owed target init →
      owed target ds = (owed target init).filter (· ∉ made) → s.sent (!i) <+: owed target ds →
      Stage target init s

structure Going (target : Snapshot) (init : List Client) (s : Scene) : Prop where
  flipped : Flipped (s.log.map (·.2)) init s.clients
  stage : Stage target init s

section Log

variable {s : Scene} {log : List (Bool × Flip)} {i : Bool} {fs : List Flip}

theorem sentBy_append_self (i : Bool) (log : List (Bool × Flip)) (fs : List Flip) :
    sentBy i (log ++ fs.map fun f => (i, f)) = sentBy i log ++ fs := by
  simp [sentBy, List.filterMap_map]

theorem sentBy_append_other (i : Bool) (log : List (Bool × Flip)) (fs : List Flip) :
    sentBy (!i) (log ++ fs.map fun f => (i, f)) = sentBy (!i) log := by
  simp [sentBy, List.filterMap_map]

theorem sentBy_all (alone : sentBy (!i) log = []) : sentBy i log = log.map (·.2) := by
  induction log with
  | nil => rfl
  | cons e rest ih =>
    obtain ⟨j, f⟩ := e
    by_cases own : j = i
    · subst own
      have others : sentBy (!j) rest = [] := by simpa [sentBy] using alone
      have later := ih others
      simpa [sentBy] using later
    · have other : j = !i := Bool.eq_not_of_ne own
      subst other
      simp [sentBy] at alone

theorem count_sentBy (i : Bool) (log : List (Bool × Flip)) (f : Flip) :
    (log.map (·.2)).count f = (sentBy i log).count f + (sentBy (!i) log).count f := by
  induction log with
  | nil => rfl
  | cons e rest ih =>
    obtain ⟨j, g⟩ := e
    have sender : j = i ∨ j = !i := by
      cases j <;> cases i <;> simp
    rcases sender with rfl | rfl
    all_goals
      simp only [sentBy, List.map_cons, List.count_cons, List.filterMap_cons] at ih ⊢
      simp [List.count_cons]
      omega

end Log

section Step

variable {target : Snapshot} {init : List Client} {s t : Scene} {i : Bool}

theorem Flipped.dispatch {fs : List Flip} {cs ds : List Client} {d : Dispatcher}
    (flipped : Flipped fs init cs) (sends : RestoreDispatcher d) (effect : DispatchEffect d cs ds) :
    Flipped (fs ++ (dispatchFlip d).toList) init ds := by
  have kept (none : dispatchFlip d = none) (kept : Kept cs ds) :
      Flipped (fs ++ (dispatchFlip d).toList) init ds := by
    rw [none, Option.toList_none, List.append_nil]
    exact flipped.keep kept
  cases d with
  | toggleFloatingWindow sel =>
    cases sel with
    | address a =>
      obtain rfl : ds = _ := effect
      exact flipped.flip _
    | _ => exact sends.elim
  | pinWindow sel =>
    cases sel with
    | address a =>
      obtain rfl : ds = _ := effect
      exact flipped.flip _
    | _ => exact sends.elim
  | moveToWorkspaceSilent | moveWindowPixel | resizeWindowPixel | setFullscreenState | focusWindow =>
    exact kept rfl effect
  | _ => exact sends.elim

theorem capture_stage (distinct : (init.map (·.address)).Nodup) (going : Going target init s)
    (fresh : s.progress i = (none, [])) :
    Stage target init { s with seen := Function.update s.seen i (some s.clients)
                               raced := s.raced || s.owes target !i } := by
  obtain ⟨unseen, unsent⟩ := Prod.mk.inj fresh
  have flipped := going.flipped
  have self : Function.update s.seen i (some s.clients) i = some s.clients := Function.update_self ..
  have other : Function.update s.seen i (some s.clients) (!i) = s.seen !i :=
    Function.update_of_ne (Bool.not_ne_self i) ..
  cases going.stage with
  | none seen log quiet =>
    rw [log] at flipped
    refine .one i s.clients self (other.trans (seen _)) ?_ (owed_same distinct flipped) ?_ ?_
    · show (s.raced || s.owes target !i) = false
      rw [quiet, Scene.owes, seen]
      rfl
    · show sentBy i s.log <+: _
      rw [log]
      exact List.nil_prefix
    · show sentBy (!i) s.log = []
      rw [log]
      rfl
  | one j cs seen missing quiet owes prefix_ silent =>
    have first : j = !i := by
      refine Bool.eq_not_of_ne fun same => ?_
      rw [same, unseen] at seen
      cases seen
    subst first
    rw [Bool.not_not] at missing silent
    have all : sentBy (!i) s.log = s.log.map (·.2) := sentBy_all (by rwa [Bool.not_not])
    rw [← all] at flipped
    have once : (sentBy (!i) s.log).Nodup := prefix_.sublist.nodup (flips_nodup _ _)
    have sub : ∀ f ∈ sentBy (!i) s.log, f ∈ owed target init := fun f member => prefix_.subset member
    refine .both (!i) cs s.clients (sentBy (!i) s.log) (other.trans seen) (by rwa [Bool.not_not]) ?_
      owes prefix_ prefix_ (owed_after distinct flipped once sub) ?_
    · show (s.raced || s.owes target !i) = _
      rw [quiet, Bool.false_or, Scene.owes, seen]
      show decide (sentBy (!i) s.log ≠ owed target cs) = _
      rw [owes]
    · show sentBy (!!i) s.log <+: _
      rw [Bool.not_not]
      show sentBy i s.log <+: _
      rw [show sentBy i s.log = [] from silent]
      exact List.nil_prefix
  | both j cs ds made seen seen' =>
    exfalso
    by_cases same : i = j
    · rw [← same, unseen] at seen
      cases seen
    · rw [← Bool.eq_not_of_ne same, unseen] at seen'
      cases seen'

theorem dispatch_stage {cs : List Client} {fs : List Flip} (stage : Stage target init s)
    (next : ∃ cs, s.seen i = some cs ∧ s.sent i ++ fs <+: owed target cs) :
    Stage target init { s with clients := cs, log := s.log ++ fs.map fun f => (i, f) } := by
  obtain ⟨captured, here, next⟩ := next
  have self := sentBy_append_self i s.log fs
  have other := sentBy_append_other i s.log fs
  cases stage with
  | none seen =>
    rw [seen] at here
    cases here
  | one j cs seen missing quiet owes prefix_ silent =>
    have same : i = j := by
      by_contra different
      rw [Bool.eq_not_of_ne different, missing] at here
      cases here
    subst same
    rw [seen] at here
    obtain rfl := Option.some.inj here
    refine .one i cs seen missing quiet owes ?_ (other.trans silent)
    show sentBy i (s.log ++ fs.map fun f => (i, f)) <+: _
    rw [self, ← owes]
    exact next
  | both j cs ds made seen seen' race owes madePrefix prefix_ owes' prefix' =>
    by_cases same : i = j
    · subst same
      rw [seen] at here
      obtain rfl := Option.some.inj here
      refine .both i cs ds made seen seen' race owes madePrefix ?_ owes' ?_
      · show sentBy i (s.log ++ fs.map fun f => (i, f)) <+: _
        rw [self, ← owes]
        exact next
      · show sentBy (!i) (s.log ++ fs.map fun f => (i, f)) <+: _
        rw [other]
        exact prefix'
    · obtain rfl : j = !i := (Bool.eq_not_of_ne (Ne.symm same))
      rw [Bool.not_not, here] at seen'
      obtain rfl := Option.some.inj seen'
      refine .both (!i) cs captured made seen (by rwa [Bool.not_not]) race owes madePrefix ?_ owes' ?_
      · show sentBy (!i) (s.log ++ fs.map fun f => (i, f)) <+: _
        rw [other]
        exact prefix_
      · show sentBy (!!i) (s.log ++ fs.map fun f => (i, f)) <+: _
        rw [Bool.not_not, self]
        exact next

theorem Going.act {c : Daemon.Cmd κ} {x : Daemon.Ans c} (distinct : (init.map (·.address)).Nodup)
    (going : Going target init s) (ordered : InOrder target c (s.progress i))
    (acts : SceneActs target i c s x t) : Going target init t := by
  unfold SceneActs at acts
  split at acts
  · obtain ⟨-, rfl⟩ := acts
    exact ⟨going.flipped, capture_stage distinct going ordered⟩
  · obtain ⟨-, rfl⟩ := acts
    exact going
  · obtain ⟨-, cs, effect, rfl⟩ := acts
    obtain ⟨sends, next⟩ := ordered
    refine ⟨?_, dispatch_stage going.stage next⟩
    have flipped := going.flipped.dispatch sends effect
    simpa [List.map_append, Function.comp_def] using flipped
  · obtain rfl := acts
    exact going

theorem Going.advances {c : Daemon.Cmd κ} {x : Daemon.Ans c} (distinct : (init.map (·.address)).Nodup)
    (going : Going target init s) (acts : SceneActs target i c s x t) :
    Advances c x (s.progress i) (t.progress i) := by
  cases c with
  | cache c =>
    cases c with
    | hypr c =>
      cases c with
      | query q =>
        cases q with
        | clients =>
          obtain ⟨rfl, rfl⟩ := acts
          have addresses := going.flipped.addresses
          refine ⟨s.clients, rfl, by rwa [addresses], ?_⟩
          show (Function.update s.seen i (some s.clients) i, _) = _
          rw [Function.update_self]
          rfl
        | _ =>
          obtain ⟨answered, rfl⟩ := acts
          exact ⟨answered, rfl⟩
      | dispatch d =>
        obtain ⟨rfl, cs, -, rfl⟩ := acts
        refine ⟨rfl, ?_⟩
        show (s.seen i, sentBy i (s.log ++ (dispatchFlip d).toList.map fun f => (i, f))) = _
        rw [sentBy_append_self]
        rfl
      | _ => exact congrArg (Scene.progress i) acts
    | _ => exact congrArg (Scene.progress i) acts
  | _ => exact congrArg (Scene.progress i) acts

theorem progress_other {c : Daemon.Cmd κ} {x : Daemon.Ans c} {j : Bool} (different : j ≠ i)
    (acts : SceneActs target i c s x t) : t.progress j = s.progress j := by
  unfold SceneActs at acts
  split at acts
  · obtain ⟨-, rfl⟩ := acts
    show (Function.update s.seen i (some s.clients) j, _) = _
    rw [Function.update_of_ne different]
    rfl
  · obtain ⟨-, rfl⟩ := acts
    rfl
  · obtain ⟨-, cs, -, rfl⟩ := acts
    obtain rfl : j = !i := Bool.eq_not_of_ne different
    show (s.seen !i, sentBy (!i) (s.log ++ List.map (fun f => (i, f)) _)) = _
    rw [sentBy_append_other]
    rfl
  · obtain rfl := acts
    rfl

end Step

/-! ### Once both have finished -/

/-- Every live window matched to a target window has its flags. -/
def Settled (target : Snapshot) (cs : List Client) : Prop :=
  ∀ snap w, (snap, some w) ∈ target.pairing (liveOf cs) →
    w.floating = snap.floating ∧ (snap.floating = true → w.pinned = snap.pinned)

theorem settled_iff {target : Snapshot} {cs : List Client} :
    Settled target cs ↔ owed target cs = [] := by
  have onTarget (snap w : WindowSnapshot) :
      (w.floating = snap.floating ∧ (snap.floating = true → w.pinned = snap.pinned)) ↔
        ∀ kind, off snap kind (w.flag kind) = false := by
    constructor
    · rintro ⟨floats, pins⟩ kind
      cases kind with
      | floating => simp [off, WindowSnapshot.flag, floats]
      | pinned =>
        by_cases floating : snap.floating = true
        · simp [off, WindowSnapshot.flag, pins floating]
        · simp [off, floating]
    · intro right
      have floats := right .floating
      have pins := right .pinned
      simp [off, WindowSnapshot.flag] at floats pins
      exact ⟨floats, pins⟩
  constructor
  · intro settled
    apply List.eq_nil_iff_forall_not_mem.mpr
    intro f member
    obtain ⟨snap, w, paired, -, wrong⟩ := mem_flips.mp member
    rw [(onTarget snap w).mp (settled snap w paired) f.kind] at wrong
    cases wrong
  · intro none snap w paired
    refine (onTarget snap w).mpr fun kind => ?_
    by_contra wrong
    have member : (⟨kind, w.address⟩ : Flip) ∈ owed target cs :=
      mem_flips.mpr ⟨snap, w, paired, rfl, by simpa using wrong⟩
    rw [none] at member
    cases member

section Finished

variable {target : Snapshot} {init cs : List Client} {fs : List Flip} {s : Scene}

theorem mem_of_odd {f : Flip} (once : odd fs f = true) : f ∈ fs := by
  have positive : fs.count f % 2 = 1 := of_decide_eq_true once
  apply List.count_pos_iff.mp
  omega

/-- Whatever was sent among the flips owed at first, those sent an odd number of times are made. -/
theorem Flipped.owed (distinct : (init.map (·.address)).Nodup) (flipped : Flipped fs init cs)
    (sub : ∀ f ∈ fs, f ∈ owed target init) :
    HyprPilot.owed target cs = (HyprPilot.owed target init).filter fun f => !odd fs f := by
  have unique : ((HyprPilot.owed target init).filter (odd fs)).Nodup := (flips_nodup _ _).filter _
  have same : Flipped ((HyprPilot.owed target init).filter (odd fs)) init cs := by
    obtain ⟨g, rfl, changed⟩ := flipped
    refine ⟨g, rfl, fun c member => ⟨(changed c member).1, fun kind => ?_⟩⟩
    rw [(changed c member).2, odd_nodup unique]
    by_cases once : odd fs ⟨kind, c.address⟩ = true
    · simp [once, sub _ (mem_of_odd once)]
    · simp [once]
  rw [owed_after distinct same unique fun f member => (List.mem_filter.mp member).1]
  apply List.filter_congr
  intro f member
  simp [member]

section Sent

variable {i : Bool} {log : List (Bool × Flip)} {due made : List Flip} (all : sentBy i log = due)
  (rest : sentBy (!i) log = due.filter (· ∉ made))
include all rest

/-- One client sends all that was due, the other what was not made before. -/
theorem count_sent (f : Flip) :
    (log.map (·.2)).count f = due.count f + (due.filter (· ∉ made)).count f := by
  rw [count_sentBy i, all, rest]

theorem due_of_sent {f : Flip} (member : f ∈ log.map (·.2)) : f ∈ due := by
  have positive := List.count_pos_iff.mpr member
  rw [count_sent all rest] at positive
  by_contra foreign
  have first : due.count f = 0 := List.count_eq_zero.mpr foreign
  have second : (due.filter (· ∉ made)).count f = 0 :=
    List.count_eq_zero.mpr fun kept => foreign (List.mem_filter.mp kept).1
  omega

/-- A flip is sent by both clients unless the second one saw it made. -/
theorem odd_sent (unique : due.Nodup) {f : Flip} (member : f ∈ due) :
    odd (log.map (·.2)) f = decide (f ∈ made) := by
  unfold odd
  rw [count_sent all rest, List.count_eq_one_of_mem unique member]
  by_cases before : f ∈ made
  · have none : (due.filter (· ∉ made)).count f = 0 := List.count_eq_zero.mpr (by simp [before])
    rw [none, decide_eq_true before]
    rfl
  · have again : (due.filter (· ∉ made)).count f = 1 :=
      List.count_eq_one_of_mem (unique.filter _) (by simp [member, before])
    rw [again, decide_eq_false before]
    rfl

end Sent

theorem Going.settled_iff (distinct : (init.map (·.address)).Nodup) (going : Going target init s)
    (delivered : ∀ i, Delivered target (s.progress i)) : Settled target s.clients ↔ s.raced = false := by
  have seen (i : Bool) : ∃ cs, s.seen i = some cs ∧ s.sent i = HyprPilot.owed target cs := by
    obtain ⟨cs, here⟩ := delivered i
    obtain ⟨captured, sent⟩ := Prod.mk.inj here
    exact ⟨cs, captured, sent⟩
  cases going.stage with
  | none unseen =>
    obtain ⟨cs, captured, -⟩ := seen true
    rw [unseen] at captured
    cases captured
  | one i cs _ missing =>
    obtain ⟨cs, captured, -⟩ := seen !i
    rw [missing] at captured
    cases captured
  | both i cs ds made here there race owes madePrefix _ owes' _ =>
    have all : s.sent i = owed target init := by
      obtain ⟨_, captured, sent⟩ := seen i
      rw [here] at captured
      obtain rfl := Option.some.inj captured
      exact sent.trans owes
    have rest : s.sent (!i) = (owed target init).filter (· ∉ made) := by
      obtain ⟨_, captured, sent⟩ := seen !i
      rw [there] at captured
      obtain rfl := Option.some.inj captured
      exact sent.trans owes'
    have unique : (owed target init).Nodup := flips_nodup _ _
    have sub : ∀ f ∈ s.log.map (·.2), f ∈ owed target init := fun f member => due_of_sent all rest member
    have parity : ∀ f ∈ owed target init, odd (s.log.map (·.2)) f = decide (f ∈ made) :=
      fun f member => odd_sent all rest unique member
    rw [HyprPilot.settled_iff, going.flipped.owed distinct sub, race, decide_eq_false_iff_not, not_not,
      List.filter_eq_nil_iff]
    constructor
    · intro all
      refine madePrefix.sublist.eq_of_length_le (unique.subperm fun f member => ?_).length_le
      have before := all f member
      rw [parity f member] at before
      simpa using before
    · rintro rfl f member
      simp [parity f member, member]

end Finished

section Concurrent

variable {target : Snapshot} {init : List Client}

/-- Two restores of one snapshot, neither of them begun. -/
def restoring (target : Snapshot) (init : List Client) (names pres : Bool → String) :
    Pool (Daemon.Cmd κ) Daemon.Ans Response Scene Bool :=
  ⟨⟨init, [], fun _ => none, false⟩, fun i => restoreTo (names i) (pres i) target⟩

/-- Two restores of one snapshot end on its flags exactly when neither captured while the other had
flips still to send. -/
theorem restores_settle_iff (target : Snapshot) (init : List Client) (names pres : Bool → String)
    (Q : Pool (Daemon.Cmd κ) Daemon.Ans Response Scene Bool)
    (distinct : (init.map (·.address)).Nodup)
    (run : Pool.Reach (sceneRules target) (restoring target init names pres) Q)
    (finished : ∀ i, ∃ response, Q.progs i = .ret response) :
    Settled target Q.shared.clients ↔ Q.shared.raced = false := by
  have begun : Going target init (restoring (κ := κ) target init names pres).shared :=
    ⟨flipped_refl init, .none (fun _ => rfl) rfl rfl⟩
  obtain ⟨going, outlined⟩ := Pool.reach_outlined Scene.progress Advances
    (fun _ => InOrder target) (fun _ _ p => Delivered target p) (Going target init)
    (fun _ _ _ _ _ going acts => going.advances distinct acts)
    (fun _ _ _ _ _ _ different acts => progress_other different acts)
    (fun _ _ _ (moved : False) => moved.elim)
    (fun _ _ _ _ _ going ordered acts => going.act distinct ordered acts)
    (fun _ _ _ (moved : False) => moved.elim)
    begun (fun i => restoreTo_sends (names i) (pres i)) run
  refine going.settled_iff distinct fun i => ?_
  obtain ⟨response, ended⟩ := finished i
  have here := outlined i
  rw [ended] at here
  exact here

end Concurrent

/-! ### Two runs over one window -/

section Runs

variable {target : Snapshot} {i : Bool}
  {P : Pool (Daemon.Cmd κ) Daemon.Ans Response Scene Bool}

def captureOf (cs : List Client) : Snapshot :=
  .ofReplies "_live_" 0 ⟨"", "", ""⟩ cs [] [] none ⟨1, "1", "", 0, 1, false, "", ""⟩

def restoreFrom (name pre : String) (target live : Snapshot) : Handler κ Response :=
  hypr (applyDiff (target.diffAgainst live)) >>= fun outcomes =>
    .ret (.ok (.restored name pre (target.diffAgainst live).mutationCount outcomes
      (.fromSnapshotAndDiff target (target.diffAgainst live))))

def Scene.captured (target : Snapshot) (i : Bool) (s : Scene) : Scene :=
  { s with seen := Function.update s.seen i (some s.clients), raced := s.raced || s.owes target !i }

theorem captures (name pre : String) (next : P.progs i = restoreTo name pre target) :
    Pool.Reach (sceneRules target) P ⟨P.shared.captured target i,
      Function.update P.progs i (restoreFrom name pre target (captureOf P.shared.clients))⟩ := by
  have run : Prog.Exec (SceneActs target i)
      (hypr (Snapshot.capture "_live_") : Handler κ (CoreResult Snapshot)) P.shared
      (.ok (captureOf P.shared.clients)) (P.shared.captured target i) :=
    .ask (.ok _) ⟨⟨_, rfl⟩, rfl⟩ <| .ask (.ok _) ⟨rfl, rfl⟩ <| .ask (.ok _) ⟨⟨_, rfl⟩, rfl⟩ <|
    .ask (.ok _) ⟨⟨_, rfl⟩, rfl⟩ <| .ask (.ok _) ⟨⟨_, rfl⟩, rfl⟩ <| .ask (.ok _) ⟨⟨_, rfl⟩, rfl⟩ <|
    .ask (0 : Int) rfl (.ret _ _)
  have reach := Pool.reach_bind (R := sceneRules target) next run
  exact reach

def tiledClient : Client where
  address := "0xa"
  at_ := (0, 0)
  size := (800, 600)
  workspace := ⟨1, "1"⟩
  floating := false
  monitor := 0
  className := "kitty"
  title := "shell"
  initialClass := "kitty"
  initialTitle := "shell"
  pid := 7
  pinned := false
  fullscreen := 0
  tags := []
  focusHistoryId := 0

def floatingTarget : Snapshot := liveOf [{ tiledClient with floating := true }]

def Scene.toggled (i : Bool) (s : Scene) : Scene :=
  { s with clients := s.clients.map (Flip.apply ⟨.floating, "0xa"⟩)
           log := s.log ++ [(i, ⟨.floating, "0xa"⟩)] }

theorem toggles (name pre : String)
    (next : P.progs i = restoreFrom name pre floatingTarget (captureOf [tiledClient])) :
    ∃ response, Pool.Reach (sceneRules floatingTarget) P
      ⟨P.shared.toggled i, Function.update P.progs i (.ret response)⟩ := by
  have run : Prog.Exec (SceneActs floatingTarget i)
      (hypr (applyDiff (floatingTarget.diffAgainst (captureOf [tiledClient]))) : Handler κ _)
      P.shared _ (P.shared.toggled i) :=
    .ask (.ok ()) ⟨rfl, _, rfl, rfl⟩ (.ret _ _)
  have reach := Pool.reach_bind (R := sceneRules floatingTarget) next run
  exact ⟨_, reach⟩

def bothBegun : Pool (Daemon.Cmd Unit) Daemon.Ans Response Scene Bool :=
  restoring floatingTarget [tiledClient] (fun _ => "a") fun _ => "b"

/-- What a client that captured the tiled window has left to run. -/
def tiledSeen : Handler Unit Response := restoreFrom "a" "b" floatingTarget (captureOf [tiledClient])

end Runs

/-- The second client captures after the first one's toggle, and leaves the window floating. -/
theorem restores_settle_in_turn : ∃ Q, Pool.Reach (sceneRules floatingTarget) bothBegun Q ∧
    Settled floatingTarget Q.shared.clients := by
  have first := captures "a" "b" (P := bothBegun) (i := true) rfl
  obtain ⟨response, second⟩ := toggles "a" "b" (i := true)
    (P := ⟨bothBegun.shared.captured floatingTarget true, Function.update bothBegun.progs true tiledSeen⟩) rfl
  have third := captures "a" "b" (i := false)
    (P := ⟨(bothBegun.shared.captured floatingTarget true).toggled true,
      Function.update (Function.update bothBegun.progs true tiledSeen) true (.ret response)⟩) rfl
  have run := (first.trans second).trans third
  refine ⟨_, run, (restores_settle_iff floatingTarget [tiledClient] (fun _ => "a") (fun _ => "b") _
    (by decide) run ?_).mpr ?_⟩
  · intro i
    cases i with
    | false => exact ⟨_, rfl⟩
    | true => exact ⟨response, rfl⟩
  · show (((bothBegun.shared.captured floatingTarget true).toggled true).captured floatingTarget
      false).raced = false
    decide

/-- Both clients capture the tiled window; the second toggle tiles it again. -/
theorem restores_cancel : ¬ ∀ (target : Snapshot) (init : List Client) (names pres : Bool → String)
    (Q : Pool (Daemon.Cmd Unit) Daemon.Ans Response Scene Bool), (init.map (·.address)).Nodup →
    Pool.Reach (sceneRules target) (restoring target init names pres) Q →
    (∀ i, ∃ response, Q.progs i = .ret response) → Settled target Q.shared.clients := by
  intro settles
  have first := captures "a" "b" (P := bothBegun) (i := true) rfl
  have second := captures "a" "b" (i := false)
    (P := ⟨bothBegun.shared.captured floatingTarget true, Function.update bothBegun.progs true tiledSeen⟩) rfl
  let seen : Scene := (bothBegun.shared.captured floatingTarget true).captured floatingTarget false
  obtain ⟨response, third⟩ := toggles "a" "b" (i := true)
    (P := ⟨seen, Function.update (Function.update bothBegun.progs true tiledSeen) false tiledSeen⟩) rfl
  obtain ⟨response', fourth⟩ := toggles "a" "b" (i := false)
    (P := ⟨seen.toggled true, Function.update (Function.update (Function.update bothBegun.progs true
      tiledSeen) false tiledSeen) true (.ret response)⟩) rfl
  have run := ((first.trans second).trans third).trans fourth
  have settled : Settled floatingTarget ((seen.toggled true).toggled false).clients := by
    refine settles _ _ _ _ _ (by decide) run fun i => ?_
    cases i with
    | false => exact ⟨response', rfl⟩
    | true => exact ⟨response, rfl⟩
  rw [settled_iff] at settled
  revert settled
  decide

end HyprPilot
