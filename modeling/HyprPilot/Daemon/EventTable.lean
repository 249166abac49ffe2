import HyprPilot.Base.Pool
import HyprPilot.Core.Hyprland
import HyprPilot.Daemon.CacheWorld

/-!
# The event table and Hyprland's changes

Which fields each change of Hyprland marks, and which it shows in without marking them: the table
overlooks the workspace entries' last window when a focus or a title changes, the monitors' workspace
when another is switched to, and the active workspace when its monitor is removed. A run in which no
clean field is overlooked keeps every clean field equal to Hyprland's own value.
-/

namespace HyprPilot
open Interact

namespace StateCache

def live (h : Hyprland) (f : Field) : Option f.Value := (h.reply f.query).map f.ofReply

/-! ### The table -/

/-- What every form of a change's events marks. -/
def Marked : Change → List Field
  | .openWindow .. | .closeWindow .. | .moveWindow .. | .setFullscreen .. =>
    [.clients, .workspaces, .activeWorkspace]
  | .focusWindow .. | .setFloating .. | .setPinned .. => [.clients]
  | .setTitle .. => []
  | .switchWorkspace .. => [.workspaces, .activeWorkspace, .clients]
  | .focusMonitor .. => [.monitors, .activeWorkspace, .clients]
  | .addMonitor .. | .removeMonitor .. => [.monitors, .workspaces, .clients]
  | .reload .. => [.binds, .monitors]

/-- A change shows in a field that its events do not mark. -/
def Overlooked (h : Hyprland) : Change → Field → Prop
  | .focusWindow p, .workspaces =>
    ∃ c s, h.window p = some c ∧ s ∈ h.spaces ∧ s.id = c.workspace.id ∧ s.lastWindow ≠ p.address
  | .focusWindow p, .activeWorkspace =>
    ∃ c s, h.window p = some c ∧ h.shown = some s ∧ s.id = c.workspace.id ∧ s.lastWindow ≠ p.address
  | .setTitle p title, .workspaces =>
    ∃ c s, h.window p = some c ∧ c.title ≠ title ∧ s ∈ h.spaces ∧ s.lastWindow = p.address
  | .setTitle p title, .activeWorkspace =>
    ∃ c s, h.window p = some c ∧ c.title ≠ title ∧ h.shown = some s ∧ s.lastWindow = p.address
  | .switchWorkspace target, .monitors => ∃ m ∈ h.screens, m.id = h.focused ∧ m.shows ≠ target
  | .removeMonitor id _, .activeWorkspace =>
    h.focused = id ∨ ∃ s, h.shown = some s ∧ s.monitorId = id
  | _, _ => False

section Table

variable {h : Hyprland} {change : Change} {raw : RawEvent} {raws : List RawEvent} {f : Field}

theorem marks_event (emitted : raw ∈ h.events change) (marked : f ∈ Marked change) :
    f ∈ marks (.fromRaw raw) := by
  cases change with
  | setTitle => cases marked
  | focusWindow p =>
    simp only [Hyprland.events] at emitted
    split at emitted
    · simp only [List.mem_cons, List.not_mem_nil, or_false] at emitted
      rcases emitted with rfl | rfl <;> exact marked
    · cases emitted
  | moveWindow | switchWorkspace | addMonitor =>
    simp only [Hyprland.events, List.mem_cons, List.not_mem_nil, or_false] at emitted
    rcases emitted with rfl | rfl <;> exact marked
  | _ =>
    obtain rfl := List.mem_singleton.mp emitted
    exact marked

theorem marksAny_emitted (emits : h.Emits change raws) (some : h.events change ≠ [])
    (marked : f ∈ Marked change) : marksAny raws f = true := by
  obtain ⟨raw, member⟩ := List.exists_mem_of_ne_nil raws (emits.2 some)
  exact List.any_eq_true.mpr ⟨raw, member, decide_eq_true (marks_event (emits.1.subset member) marked)⟩

end Table

/-! ### The views -/

section Views

variable {cs : List Client} {g : Client → Client} {s : Space}

theorem titleOf_map {address : String} (kept : ∀ c, (g c).address = c.address ∧ (g c).title = c.title) :
    titleOf (cs.map g) address = titleOf cs address := by
  unfold titleOf
  rw [List.find?_map, Option.map_map]
  have same : (fun c : Client => decide (c.address = address)) ∘ g = fun c => decide (c.address = address) := by
    funext c
    simp [(kept c).1]
  rw [same]
  cases cs.find? fun c => c.address = address with
  | none => rfl
  | some c => exact (kept c).2

theorem workspaceOf_map (kept : ∀ c, (g c).workspace = c.workspace ∧ (g c).fullscreen = c.fullscreen)
    (title : titleOf (cs.map g) s.lastWindow = titleOf cs s.lastWindow) :
    workspaceOf (cs.map g) s = workspaceOf cs s := by
  have count : (cs.map g).countP (fun c => c.workspace.id = s.id) = cs.countP fun c => c.workspace.id = s.id := by
    rw [List.countP_map]
    apply List.countP_congr
    intro c _
    simp [(kept c).1]
  have full : ((cs.map g).any fun c => c.workspace.id = s.id && c.fullscreen != 0) =
      cs.any fun c => c.workspace.id = s.id && c.fullscreen != 0 := by
    rw [List.any_map]
    congr 1
    funext c
    simp [kept c]
  unfold workspaceOf
  rw [count, full, title]

theorem onWindow_keeps {α : Type} (field : Client → α) {f : Client → Client} (address : String)
    (kept : ∀ c, field (f c) = field c) (c : Client) : field (onWindow address f c) = field c := by
  unfold onWindow
  split
  · exact kept c
  · rfl

theorem refocus_keeps {α : Type} (field : Client → α) (before : Int) (address : String)
    (kept : ∀ c n, field { c with focusHistoryId := n } = field c) (c : Client) :
    field (refocus before address c) = field c := by
  unfold refocus
  split
  · exact kept c 0
  · split
    · exact kept c _
    · rfl

theorem workspaceOf_focusOn (address : String) : workspaceOf (focusOn address cs) s = workspaceOf cs s :=
  workspaceOf_map
    (fun c => ⟨refocus_keeps (·.workspace) _ _ (fun _ _ => rfl) c, refocus_keeps (·.fullscreen) _ _ (fun _ _ => rfl) c⟩)
    (titleOf_map fun c => ⟨refocus_keeps (·.address) _ _ (fun _ _ => rfl) c,
      refocus_keeps (·.title) _ _ (fun _ _ => rfl) c⟩)

theorem workspaceOf_onWindow {address : String} {f : Client → Client}
    (kept : ∀ c, (f c).workspace = c.workspace ∧ (f c).fullscreen = c.fullscreen ∧
      (f c).address = c.address ∧ (f c).title = c.title) :
    workspaceOf (cs.map (onWindow address f)) s = workspaceOf cs s := by
  have workspace := onWindow_keeps (·.workspace) address fun c => (kept c).1
  have full := onWindow_keeps (·.fullscreen) address fun c => (kept c).2.1
  have named := onWindow_keeps (·.address) address fun c => (kept c).2.2.1
  have title := onWindow_keeps (·.title) address fun c => (kept c).2.2.2
  exact workspaceOf_map (fun c => ⟨workspace c, full c⟩) (titleOf_map fun c => ⟨named c, title c⟩)

/-- A title shows in the workspaces that had its window last. -/
theorem titleOf_retitled {address title other : String}
    (same : address ≠ other ∨ ∀ c, cs.find? (fun c => c.address = address) = some c → c.title = title) :
    titleOf (cs.map (onWindow address fun c => { c with title := title })) other = titleOf cs other := by
  have kept : ∀ c, (onWindow address (fun c => { c with title := title }) c).address = c.address :=
    onWindow_keeps (·.address) address fun _ => rfl
  unfold titleOf
  rw [List.find?_map, Option.map_map]
  have found : (fun c : Client => decide (c.address = other)) ∘
      onWindow address (fun c => { c with title := title }) = fun c => decide (c.address = other) := by
    funext c
    simp [kept c]
  rw [found]
  cases here : cs.find? fun c => c.address = other with
  | none => rfl
  | some c =>
    have named : c.address = other := of_decide_eq_true (List.find?_some (p := fun c : Client => decide (c.address = other)) here)
    show (onWindow address _ c).title = c.title
    unfold onWindow
    split
    · rename_i equal
      rcases same with different | same
      · exact absurd (equal.symm.trans named) different
      · rw [← named, equal] at here
        exact (same c here).symm
    · rfl

end Views

/-! ### What a change leaves as it is -/

section Kept

variable {h : Hyprland} {change : Change} {s : Space}

theorem find_ensure {target : ClientWorkspace} {monitor : String} {monitorId id : Int} {spaces : List Space}
    (found : spaces.find? (fun s => s.id = id) = some s) :
    (ensure target monitor monitorId spaces).find? (fun s => s.id = id) = some s := by
  unfold ensure
  split
  · exact found
  · rw [List.find?_append, found]
    rfl

theorem find_map {g : Space → Space} {id : Int} {spaces : List Space} (kept : ∀ s, (g s).id = s.id)
    (found : spaces.find? (fun s => s.id = id) = some s) :
    (spaces.map g).find? (fun s => s.id = id) = some (g s) := by
  have same : (fun s : Space => decide (s.id = id)) ∘ g = fun s => decide (s.id = id) := by
    funext s
    simp [kept s]
  rw [List.find?_map, same, found]
  rfl

/-- What a workspace's reply reads of the windows changes only with the title of its last window. -/
theorem workspaceOf_after (unmarked : .workspaces ∉ Marked change ∨ .activeWorkspace ∉ Marked change)
    (seen : ∀ p title c, change = .setTitle p title → h.window p = some c → c.title ≠ title →
      s.lastWindow ≠ p.address) :
    workspaceOf (h.after change).windows s = workspaceOf h.windows s := by
  cases change with
  | openWindow | closeWindow | moveWindow | setFullscreen | switchWorkspace =>
    exact absurd unmarked (by simp [Marked])
  | focusWindow p =>
    show workspaceOf (h.focusing p).windows s = _
    unfold Hyprland.focusing
    split
    · exact workspaceOf_focusOn p.address
    · rfl
  | setTitle p title =>
    refine workspaceOf_map (fun c => ?_) (titleOf_retitled ?_)
    · have workspace := onWindow_keeps (·.workspace) p.address (f := fun c => { c with title := title }) fun _ => rfl
      have full := onWindow_keeps (·.fullscreen) p.address (f := fun c => { c with title := title }) fun _ => rfl
      exact ⟨workspace c, full c⟩
    · by_cases last : s.lastWindow = p.address
      · refine Or.inr fun c found => ?_
        by_contra differs
        exact seen p title c rfl found differs last
      · exact Or.inl (Ne.symm last)
  | setFloating | setPinned => exact workspaceOf_onWindow fun _ => ⟨rfl, rfl, rfl, rfl⟩
  | focusMonitor => exact workspaceOf_focusOn _
  | removeMonitor id heir =>
    refine workspaceOf_map (fun c => ?_) (titleOf_map fun c => ?_) <;> split <;> exact ⟨rfl, rfl⟩
  | addMonitor | reload => rfl

theorem focus_kept {c : Client} {p : Pointer} (last : s.id = c.workspace.id → s.lastWindow = p.address) :
    s.focus c.workspace.id p.address = s := by
  unfold Space.focus
  split
  · rename_i own
    rw [← last own]
  · rfl

theorem workspaces_kept (unmarked : .workspaces ∉ Marked change) (seen : ¬ Overlooked h change .workspaces) :
    (h.after change).spaces.map (workspaceOf (h.after change).windows) =
      h.spaces.map (workspaceOf h.windows) := by
  have views : ∀ s ∈ h.spaces, workspaceOf (h.after change).windows s = workspaceOf h.windows s := by
    intro s member
    refine workspaceOf_after (Or.inl unmarked) fun p title c same found differs last => seen ?_
    subst same
    exact ⟨c, s, found, differs, member, last⟩
  have spaces : (h.after change).spaces = h.spaces := by
    cases change with
    | openWindow | closeWindow | moveWindow | setFullscreen | switchWorkspace | addMonitor | removeMonitor =>
      exact absurd (by simp [Marked]) unmarked
    | focusWindow p =>
      show (h.focusing p).spaces = h.spaces
      unfold Hyprland.focusing
      cases found : h.window p with
      | none => rfl
      | some c =>
        have same : h.spaces.map (Space.focus c.workspace.id p.address) = h.spaces.map id := by
          refine List.map_congr_left fun s member => focus_kept fun own => ?_
          by_contra differs
          exact seen ⟨c, s, found, member, own, differs⟩
        exact same.trans (List.map_id _)
    | _ => rfl
  rw [spaces]
  exact List.map_congr_left views

theorem shown_kept (unmarked : .activeWorkspace ∉ Marked change)
    (seen : ¬ Overlooked h change .activeWorkspace) (here : h.shown = some s) :
    (h.after change).shown = some s := by
  obtain ⟨m, screen, found⟩ := Option.bind_eq_some_iff.mp here
  cases change with
  | openWindow | closeWindow | moveWindow | setFullscreen | switchWorkspace | focusMonitor =>
    exact absurd (by simp [Marked]) unmarked
  | focusWindow p =>
    show (h.focusing p).shown = some s
    unfold Hyprland.focusing
    cases window : h.window p with
    | none => exact here
    | some c =>
      refine Option.bind_eq_some_iff.mpr ⟨m, screen, ?_⟩
      rw [find_map (fun s => by unfold Space.focus; split <;> rfl) found, focus_kept]
      intro own
      by_contra differs
      exact seen ⟨c, s, window, here, own, differs⟩
  | addMonitor new =>
    refine Option.bind_eq_some_iff.mpr ⟨m, ?_, find_ensure found⟩
    show List.find? (fun m => m.id = h.focused) (h.screens ++ [new]) = some m
    have first : List.find? (fun m => m.id = h.focused) h.screens = some m := screen
    rw [List.find?_append, first]
    rfl
  | removeMonitor id heir =>
    have away : h.focused ≠ id := fun same => seen (Or.inl same)
    have stays : s.inherit id heir (h.nameOf heir) = s := by
      unfold Space.inherit
      split
      · rename_i same
        exact absurd (Or.inr ⟨s, here, same⟩) seen
      · rfl
    refine Option.bind_eq_some_iff.mpr ⟨m, ?_, ?_⟩
    · show List.find? (fun m => m.id = if h.focused = id then heir else h.focused)
        (h.screens.filter fun m => m.id ≠ id) = some m
      have first : List.find? (fun m => m.id = h.focused) h.screens = some m := screen
      rw [if_neg away, List.find?_filter, ← first]
      congr 1
      funext m
      by_cases focused : m.id = h.focused <;> simp [focused, away]
    · have moved := find_map (g := Space.inherit id heir (h.nameOf heir))
        (fun s => by unfold Space.inherit; split <;> rfl) found
      rw [stays] at moved
      exact moved
  | reload binds areas =>
    refine Option.bind_eq_some_iff.mpr ⟨m.place areas, ?_, found⟩
    show List.find? (fun m => m.id = h.focused) (h.screens.map (Screen.place areas)) = _
    have first : List.find? (fun m => m.id = h.focused) h.screens = some m := screen
    have same : (fun m : Screen => decide (m.id = h.focused)) ∘ Screen.place areas =
      fun m => decide (m.id = h.focused) := rfl
    rw [List.find?_map, same, first]
    rfl
  | setTitle | setFloating | setPinned => exact here

theorem activeWorkspace_kept (unmarked : .activeWorkspace ∉ Marked change)
    (seen : ¬ Overlooked h change .activeWorkspace) (here : h.shown = some s) :
    (h.after change).shown.map (workspaceOf (h.after change).windows) =
      some (workspaceOf h.windows s) := by
  have view : workspaceOf (h.after change).windows s = workspaceOf h.windows s := by
    refine workspaceOf_after (Or.inr unmarked) fun p title c same found differs last => seen ?_
    subst same
    exact ⟨c, s, found, differs, here, last⟩
  rw [shown_kept unmarked seen here, Option.map_some, view]

theorem monitors_kept (unmarked : .monitors ∉ Marked change) (seen : ¬ Overlooked h change .monitors) :
    (h.after change).screens.map (monitorOf (h.after change).focused) =
      h.screens.map (monitorOf h.focused) := by
  cases change with
  | focusMonitor | addMonitor | removeMonitor | reload => exact absurd (by simp [Marked]) unmarked
  | focusWindow p =>
    show (h.focusing p).screens.map (monitorOf (h.focusing p).focused) = _
    unfold Hyprland.focusing
    split <;> rfl
  | switchWorkspace target =>
    show (h.screens.map fun m => if m.id = h.focused then { m with shows := target } else m).map _ = _
    rw [List.map_map]
    refine List.map_congr_left fun m member => ?_
    show monitorOf h.focused (if m.id = h.focused then { m with shows := target } else m) = _
    split
    · rename_i focused
      by_contra differs
      refine seen ⟨m, member, focused, fun same => differs ?_⟩
      rw [← same]
    · rfl
  | _ => rfl

theorem binds_kept (unmarked : .binds ∉ Marked change) : (h.after change).binds = h.binds := by
  cases change with
  | reload => exact absurd (by simp [Marked]) unmarked
  | focusWindow p =>
    show (h.focusing p).binds = h.binds
    unfold Hyprland.focusing
    split <;> rfl
  | _ => rfl

theorem version_kept (change : Change) : (h.after change).version = h.version := by
  cases change with
  | focusWindow p =>
    show (h.focusing p).version = h.version
    unfold Hyprland.focusing
    split <;> rfl
  | _ => rfl

theorem windows_kept (unmarked : .clients ∉ Marked change) :
    (h.after change).windows = h.windows ∨ ∃ p title, change = .setTitle p title := by
  cases change with
  | reload => exact Or.inl rfl
  | setTitle p title => exact Or.inr ⟨p, title, rfl⟩
  | _ => exact absurd (by simp [Marked]) unmarked

/-- A field that a change neither marks nor is overlooked in keeps its value, titles of windows apart. -/
theorem live_kept {f : Field} {v : f.Value} (unmarked : f ∉ Marked change) (seen : ¬ Overlooked h change f)
    (here : live h f = some v) : live (h.after change) f = some v ∨
      f = .clients ∧ ∃ p title, change = .setTitle p title := by
  cases f with
  | clients =>
    rcases windows_kept unmarked with same | titled
    · left
      rw [← here]
      exact congrArg some same
    · exact Or.inr ⟨rfl, titled⟩
  | workspaces =>
    left
    rw [← here]
    exact congrArg some (workspaces_kept unmarked seen)
  | monitors =>
    left
    rw [← here]
    exact congrArg some (monitors_kept unmarked seen)
  | activeWorkspace =>
    left
    have reply : (h.shown.map (workspaceOf h.windows)).map (Field.ofReply .activeWorkspace) = some v := here
    cases shown : h.shown with
    | none =>
      rw [shown] at reply
      cases reply
    | some s =>
      rw [shown] at reply
      rw [← reply]
      exact congrArg (Option.map (Field.ofReply .activeWorkspace)) (activeWorkspace_kept unmarked seen shown)
  | binds =>
    left
    rw [← here]
    show some (Field.ofReply .binds (h.after change).binds) = _
    rw [binds_kept unmarked]
    rfl
  | version =>
    left
    rw [← here]
    exact congrArg some (version_kept change)

end Kept

end StateCache

end HyprPilot
