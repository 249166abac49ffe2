import HyprPilot.Daemon.CacheWorld
import HyprPilot.Daemon.Footprint
import Mathlib.Logic.Relation

/-!
# Queries after a dispatch

One connection sends requests while the cache task, the other connections, Hyprland and the clock
move on. A query that follows an accepted dispatch is answered with what Hyprland said after that
dispatch, or with a cached value that is young and that no applied event has marked.
-/

namespace HyprPilot
open Interact StateCache

namespace Daemon

variable {κ ι : Type} [DecidableEq ι]

/-! ### Every handler uses the cache by its rules -/

def Learns : (c : Cmd κ) → Ans c → View → View → Prop
  | .cache c, x, v, w => View.Learns c x v w
  | _, _, v, w => w = v

def Allows : Cmd κ → View → Prop
  | .cache c, v => View.Allows c v
  | _, _ => True

def Plain : Cmd κ → Prop
  | .cache (.hypr _) => True
  | .cache _ => False
  | _ => True

theorem plain_allows {c : Cmd κ} (v : View) (plain : Plain c) : Allows c v := by
  cases c with
  | cache c =>
    cases c with
    | hypr c => trivial
    | _ => exact plain.elim
  | _ => trivial

/-- A handler stores only what it was answered. -/
abbrev Obeys {α : Type} (p : Handler κ α) : Prop :=
  ∀ v, p.wp Learns Allows (fun _ _ => True) v

section Obeys

variable {α β : Type}

theorem Obeys.of_plain {p : Handler κ α} (plain : p.Asks Plain) : Obeys p :=
  fun v => plain.wp (fun _ v => plain_allows v) v

theorem Obeys.bind {p : Handler κ α} {f : α → Handler κ β} (first : Obeys p)
    (rest : ∀ a, Obeys (f a)) : Obeys (p >>= f) :=
  fun v => Prog.wp_bind.mpr (Prog.wp_mono (fun a w _ => rest a w) (first v))

theorem obeys_ret (a : α) : Obeys (.ret a : Handler κ α) := fun _ => trivial

theorem obeys_read (f : Field) : Obeys (cached (StateCache.read f) : Handler κ _) := by
  intro v
  have outlined := Prog.wp_mono (fun _ _ _ => trivial) (outlined_read f v)
  refine Prog.wp_relabel.mpr (Prog.wp_conseq ?_ (fun _ _ h => h) outlined)
  rintro c x v w ⟨y, rfl, learned⟩
  exact learned

theorem obeys_served (reply : α → Reply) {p : StateCache.Call (CoreResult α)}
    (obeys : Obeys (cached p : Handler κ _)) : Obeys (served reply p : Handler κ Response) :=
  obeys.bind fun _ => obeys_ret _

theorem obeys_activeWindow : Obeys (cached activeWindow : Handler κ _) := by
  unfold activeWindow StateCache.clients cached
  rw [Prog.relabel_bind]
  refine (obeys_read .clients).bind fun clients => ?_
  cases clients <;> exact obeys_ret _

theorem obeys_gated {state : State κ} {request : Handler κ Response} (obeys : Obeys request) :
    Obeys (gated state request) := by
  unfold gated
  split
  · exact obeys
  · exact obeys_ret _

theorem obeys_inputMouseMove (state : State κ) (x y : Int) (absolute : Bool) :
    Obeys (inputMouseMove state x y absolute) := by
  refine obeys_gated (Obeys.bind ?_ fun point => Obeys.of_plain ⟨trivial, fun result => ?_⟩)
  · unfold pointerTarget logicalToDevice
    cases absolute with
    | false => exact obeys_ret _
    | true => exact (obeys_read .monitors).bind fun monitors => by cases monitors <;> exact obeys_ret _
  · cases result <;> trivial

theorem obeys_a11yRead (pid : Option Int) (query : Option String)
    {read : Int → Handler κ (Except A11yError (List Element))} (plain : ∀ pid, (read pid).Asks Plain) :
    Obeys (a11yRead pid query read) := by
  refine Obeys.bind ?_ fun resolved => Obeys.of_plain ?_
  · cases pid with
    | some p => exact obeys_ret _
    | none =>
      refine obeys_activeWindow.bind fun window => ?_
      rcases window with e | (_ | c) <;> exact obeys_ret _
  · cases resolved with
    | error response => trivial
    | ok pid =>
      refine ⟨trivial, fun connected => ?_⟩
      cases connected with
      | error e => exact asks_a11yErrorResponse trivial e
      | ok _ =>
        refine (plain pid).bind fun elements => ?_
        cases elements with
        | error e => exact asks_a11yErrorResponse trivial e
        | ok elements => trivial

theorem obeys_runBind (combo : KeyCombo) (submap : Option String) (dryRun : Bool) :
    Obeys (runBind combo submap dryRun : Handler κ Response) := by
  refine (obeys_read .binds).bind fun binds => Obeys.of_plain ?_
  cases binds with
  | error e => trivial
  | ok binds =>
    dsimp only
    cases Binds.resolve binds combo submap with
    | none => trivial
    | some bind =>
      cases dryRun with
      | true => trivial
      | false => exact ⟨trivial, fun result => by cases result <;> trivial⟩

theorem obeys_request (state : State κ) (request : Request) : Obeys (handleRequest state request) := by
  have talks : ∀ c, Plain (Cmd.cache (κ := κ) (.hypr c)) := fun _ => trivial
  have calls : ∀ c : Fs.Cmd κ, Plain (Cmd.fs c) := fun _ => trivial
  have pushes : ∀ text inverse, Plain (Cmd.undoPush (κ := κ) text inverse) := fun _ _ => trivial
  have processes : ∀ pid, Plain (Cmd.procCmdline (κ := κ) pid) := fun _ => trivial
  have queries : ∀ q, Plain (Cmd.cache (κ := κ) (.hypr (.query q))) := fun _ => trivial
  cases request with
  | queryClients => exact obeys_served _ (obeys_read .clients)
  | queryWorkspaces => exact obeys_served _ (obeys_read .workspaces)
  | queryMonitors => exact obeys_served _ (obeys_read .monitors)
  | queryActiveWindow => exact obeys_served _ obeys_activeWindow
  | queryActiveWorkspace => exact obeys_served _ (obeys_read .activeWorkspace)
  | queryVersion => exact obeys_served _ (obeys_read .version)
  | queryBinds => exact obeys_served _ (obeys_read .binds)
  | inputMouseMove x y absolute => exact obeys_inputMouseMove state x y absolute
  | a11yTree pid maxNodes => exact obeys_a11yRead pid none fun _ => ⟨trivial, fun _ => trivial⟩
  | a11yFind pid query role maxNodes =>
    exact obeys_a11yRead pid (some query) fun _ => ⟨trivial, fun _ => trivial⟩
  | runBind combo submap dryRun => exact obeys_runBind combo submap dryRun
  | dispatchKillActive => exact Obeys.of_plain (asks_killActiveRecorded talks pushes processes)
  | dispatchCloseWindow selector =>
    exact Obeys.of_plain (asks_closeWindowRecorded talks pushes processes selector)
  | dispatchMoveToWorkspace workspace =>
    exact Obeys.of_plain (asks_moveToWorkspaceRecorded talks pushes workspace false)
  | dispatchMoveToWorkspaceSilent workspace =>
    exact Obeys.of_plain (asks_moveToWorkspaceRecorded talks pushes workspace true)
  | undo => exact Obeys.of_plain (asks_undo talks trivial)
  | snapshotSave name => exact Obeys.of_plain (asks_snapshotSave talks calls state name)
  | snapshotList =>
    exact Obeys.of_plain (asks_snapshotList (fun _ => calls _) state fun _ => calls _)
  | snapshotDiff name =>
    exact Obeys.of_plain (asks_snapshotDiff queries trivial (fun _ => calls _) (fun _ => calls _) state
      name)
  | snapshotPreview name =>
    exact Obeys.of_plain (asks_snapshotPreview queries trivial (fun _ => calls _) (fun _ => calls _)
      state name)
  | snapshotRestore name => exact Obeys.of_plain (asks_snapshotRestore talks calls trivial state name)
  | snapshotDelete name => exact Obeys.of_plain (asks_snapshotDelete calls state name)
  | rulesList => exact Obeys.of_plain (asks_rulesList trivial state)
  | rulesValidate => exact Obeys.of_plain (asks_rulesValidate trivial (fun _ => trivial) state)
  | inputType text =>
    exact obeys_gated (Obeys.of_plain ⟨trivial, fun result => by cases result <;> trivial⟩)
  | inputKeys combo =>
    exact obeys_gated (Obeys.of_plain ⟨trivial, fun result => by cases result <;> trivial⟩)
  | inputShortcut combo selector =>
    exact obeys_gated (Obeys.of_plain ⟨trivial, fun result => by cases result <;> trivial⟩)
  | inputMouseClick button =>
    exact obeys_gated (Obeys.of_plain ⟨trivial, fun result => by cases result <;> trivial⟩)
  | ping | rulesPath => exact obeys_ret _
  | shutdown | undoList | queryCursorPos => exact Obeys.of_plain ⟨trivial, fun _ => trivial⟩
  -- The plain dispatches.
  | _ => exact Obeys.of_plain (asks_void talks _)

theorem obeys_client (state : State κ) (requests : List Request) :
    Obeys (handleClient state requests) := by
  induction requests with
  | nil => exact obeys_ret _
  | cons request rest ih =>
    exact (obeys_request state request).bind fun _ => ih.bind fun _ => obeys_ret _

end Obeys

/-! ### One connection among the others -/

/-- What happens between two commands of connection `i`: Hyprland changes, time passes, the cache
task and the other connections use the cache by its rules. -/
inductive Others (hyprland : History) (i : ι) : World ι → World ι → Prop where
  | env {s t : World ι} : World.Env (fun _ _ => True) s t → Others hyprland i s t
  | act {s t : World ι} (j : ι) {c : StateCache.Cmd} (x : StateCache.Ans c) :
      j ≠ i → View.Allows c (s.view j) → World.Act hyprland (fun _ _ => True) j c s x t →
      Others hyprland i s t

/-- One command of connection `i`, after anything that the others did. -/
def Serving (hyprland : History) (i : ι) (c : Cmd κ) (s : World ι) (x : Ans c) (t : World ι) : Prop :=
  ∃ u, Relation.ReflTransGen (Others hyprland i) s u ∧
    match c, x with
    | .cache c, x => World.Act hyprland (fun _ _ => True) i c u x t
    | _, _ => t = u

/-- The cache records where it read, and no dispatch lies in the future. -/
def Sound (hyprland : History) (s : World ι) : Prop :=
  s.Recorded hyprland ∧ ∀ j, s.acted j ≤ s.changes

section Steps

variable {hyprland : History} {i : ι} {s t : World ι}

/-- The count of changes grows, and only the own dispatch mark moves, up to that count. -/
theorem act_later {c : StateCache.Cmd} {x : StateCache.Ans c}
    (act : World.Act hyprland (fun _ _ => True) i c s x t) :
    s.changes ≤ t.changes ∧ (∀ j, j ≠ i → t.acted j = s.acted j) ∧
      (s.acted i ≤ s.changes → t.acted i ≤ t.changes) := by
  cases act_moves act with
  | dispatched =>
    exact ⟨Nat.le_succ _, fun j other => by simp [other], fun _ => by simp [World.change]⟩
  | slipped => exact ⟨Nat.le_succ _, fun _ _ => rfl, fun early => Nat.le_succ_of_le early⟩
  | answered | stored | taken | applied | linked => exact ⟨Nat.le_refl _, fun _ _ => rfl, id⟩

theorem sound_act {c : StateCache.Cmd} {x : StateCache.Ans c} (sound : Sound hyprland s)
    (allowed : View.Allows c (s.view i)) (act : World.Act hyprland (fun _ _ => True) i c s x t) :
    Sound hyprland t := by
  obtain ⟨later, others, own⟩ := act_later act
  refine ⟨sound.1.act allowed act, fun j => ?_⟩
  by_cases same : j = i
  · subst same
    exact own (sound.2 j)
  · rw [others j same]
    exact Nat.le_trans (sound.2 j) later

theorem others_keep (moved : Others hyprland i s t) :
    s.changes ≤ t.changes ∧ t.view i = s.view i ∧ t.acted i = s.acted i ∧
      (Sound hyprland s → Sound hyprland t) := by
  cases moved with
  | env moved =>
    have same := env_view i moved
    have recorded := fun sound : Sound hyprland s => sound.1.env moved
    rcases moved with ⟨raws, heard, rfl⟩ | ⟨later, after, rfl⟩
    · exact ⟨Nat.le_succ _, same, rfl, fun sound =>
        ⟨recorded sound, fun j => Nat.le_succ_of_le (sound.2 j)⟩⟩
    · exact ⟨Nat.le_refl _, same, rfl, fun sound => ⟨recorded sound, sound.2⟩⟩
  | act j x different allowed act =>
    obtain ⟨later, others, -⟩ := act_later act
    exact ⟨later, (act_view act).2 i different.symm, others i different.symm,
      fun sound => sound_act sound allowed act⟩

theorem others_run (run : Relation.ReflTransGen (Others hyprland i) s t) :
    s.changes ≤ t.changes ∧ t.view i = s.view i ∧ t.acted i = s.acted i ∧
      (Sound hyprland s → Sound hyprland t) := by
  induction run with
  | refl => exact ⟨Nat.le_refl _, rfl, rfl, id⟩
  | tail _ last ih =>
    obtain ⟨later, same, acted, sound⟩ := others_keep last
    obtain ⟨later', same', acted', sound'⟩ := ih
    exact ⟨Nat.le_trans later' later, same.trans same', acted.trans acted',
      fun start => sound (sound' start)⟩

theorem serving_step {c : Cmd κ} {x : Ans c} (sound : Sound hyprland s)
    (allowed : Allows c (s.view i)) (served : Serving hyprland i c s x t) :
    Sound hyprland t ∧ Learns c x (s.view i) (t.view i) := by
  obtain ⟨u, others, act⟩ := served
  obtain ⟨-, same, -, keeps⟩ := others_run others
  cases c with
  | cache c =>
    rw [← same] at allowed ⊢
    exact ⟨sound_act (keeps sound) allowed act, (act_view act).1⟩
  | _ =>
    obtain rfl : t = u := act
    exact ⟨keeps sound, same⟩

theorem serving_later {c : Cmd κ} {x : Ans c} (served : Serving hyprland i c s x t) :
    s.changes ≤ t.changes := by
  obtain ⟨u, others, act⟩ := served
  have first := (others_run others).1
  cases c with
  | cache c => exact Nat.le_trans first (act_later act).1
  | _ =>
    obtain rfl : t = u := act
    exact first

theorem obeys_run {α : Type} {p : Handler κ α} (obeys : Obeys p) {a : α} (sound : Sound hyprland s)
    (run : Prog.Exec (Serving hyprland i) p s a t) : Sound hyprland t ∧ s.changes ≤ t.changes := by
  refine ⟨(Prog.exec_outlined ?_ (obeys (s.view i)) sound run).1, ?_⟩
  · intro c s x t sound allowed served
    exact serving_step sound allowed served
  · exact Prog.Exec.keeps (R := fun s t : World ι => s.changes ≤ t.changes)
      (fun _ => Nat.le_refl _) Nat.le_trans run fun c s x t served => serving_later served

end Steps

/-! ### Dispatches and queries -/

def dispatcherOf : Request → Option Dispatcher
  | .dispatchFocusWindow selector => some (.focusWindow selector)
  | .dispatchCycleNext => some .cycleNext
  | .dispatchCyclePrev => some .cyclePrev
  | .dispatchSwitchWorkspace workspace => some (.switchWorkspace workspace)
  | .dispatchToggleFloating => some .toggleFloating
  | .dispatchFullscreen mode => some (.setFullscreen mode)
  | .dispatchCenterActive => some .centerActive
  | .dispatchPinActive => some .pinActive
  | .dispatchMoveActive direction => some (.moveActive direction)
  | .dispatchResizeActive dx dy => some (.resizeActive dx dy)
  | .dispatchSwapActive direction => some (.swapActive direction)
  | .dispatchFocusMonitor name => some (.focusMonitor name)
  | .dispatchMoveWorkspaceToMonitor monitor => some (.moveWorkspaceToMonitor monitor)
  | _ => none

/-- The dispatching requests: the plain ones and the two recorded moves. -/
def Mutates (request : Request) : Prop :=
  (dispatcherOf request).isSome ∨ (∃ workspace, request = .dispatchMoveToWorkspace workspace) ∨
    ∃ workspace, request = .dispatchMoveToWorkspaceSilent workspace

def servedFrom : Request → Option ((f : Field) × (f.Value → Reply))
  | .queryClients => some ⟨.clients, .clients⟩
  | .queryActiveWindow => some ⟨.clients, fun clients => .activeWindow (activeFrom clients)⟩
  | .queryWorkspaces => some ⟨.workspaces, .workspaces⟩
  | .queryMonitors => some ⟨.monitors, .monitors⟩
  | .queryActiveWorkspace => some ⟨.activeWorkspace, .activeWorkspace⟩
  | _ => none

/-- The entry is clean and young, and no event applied since it was stored marks it. -/
structure Young (s : World ι) (f : Field) : Prop where
  clean : (s.inner f).dirty = false
  stored : ∃ «at», (s.inner f).refreshedAt = some «at» ∧ s.now - «at» < maxAge
  unmarked : ∀ ev ∈ s.since f, f ∉ marks ev

section Requests

variable {hyprland : History} {i : ι} {s t : World ι} {state : State κ}

theorem dispatch_acts {d : Dispatcher} (served : Serving (κ := κ) hyprland i
    (.cache (.hypr (.dispatch d))) s (Except.ok ()) t) : s.changes < t.acted i := by
  obtain ⟨u, others, raws, -, rfl⟩ := served
  have later := (others_run others).1
  show s.changes < Function.update u.acted i (u.changes + 1) i
  rw [Function.update_self]
  omega

theorem moves_act {workspace : WorkspaceRef} {silent : Bool} {reply : Reply}
    (run : Prog.Exec (Serving hyprland i) (moveToWorkspaceRecorded (κ := κ) workspace silent) s
      (.ok reply) t) : s.changes < t.acted i := by
  obtain ⟨window, u, asked, rest⟩ := Prog.exec_ask.mp run
  rcases window with e | (_ | active)
  · cases (Prog.exec_ret.mp rest).1
  · cases (Prog.exec_ret.mp rest).1
  · obtain ⟨result, v, served, pushing⟩ := Prog.exec_ask.mp rest
    cases result with
    | error e => cases (Prog.exec_ret.mp pushing).1
    | ok _ =>
      obtain ⟨_, w, ⟨x, others, same⟩, ending⟩ := Prog.exec_ask.mp pushing
      obtain ⟨-, rfl⟩ := Prog.exec_ret.mp ending
      obtain rfl : t = x := same
      have first := serving_later asked
      have acted : u.changes < v.acted i := dispatch_acts served
      have kept := (others_run others).2.2.1
      omega

theorem handleRequest_dispatches {request : Request} {d : Dispatcher}
    (dispatches : dispatcherOf request = some d) : handleRequest state request = void d := by
  cases request <;> cases dispatches <;> rfl

theorem mutation_acts {request : Request} {reply : Reply} (mutates : Mutates request)
    (run : Prog.Exec (Serving hyprland i) (handleRequest state request) s (.ok reply) t) :
    s.changes < t.acted i := by
  rcases mutates with dispatches | ⟨workspace, rfl⟩ | ⟨workspace, rfl⟩
  · obtain ⟨d, dispatches⟩ := Option.isSome_iff_exists.mp dispatches
    rw [handleRequest_dispatches dispatches] at run
    obtain ⟨x, u, served, ending⟩ := Prog.exec_ask.mp run
    obtain ⟨same, rfl⟩ := Prog.exec_ret.mp ending
    cases x with
    | ok _ => exact dispatch_acts served
    | error e => cases same
  · exact moves_act run
  · exact moves_act run

theorem query_answer {q : Query} {reply : q.Reply}
    (served : Serving (κ := κ) hyprland i (.cache (.hypr (.query q))) s (Except.ok reply) t) :
    ∃ n, s.changes ≤ n ∧ reply = hyprland n q := by
  obtain ⟨u, others, same, rfl⟩ := served
  exact ⟨u.changes, (others_run others).1, same⟩

theorem fetch_exec {f : Field} {v : f.Value}
    (run : Prog.Exec (Serving (κ := κ) hyprland i) (cached (StateCache.hypr f.fetch)) s (.ok v) t) :
    ∃ n, s.changes ≤ n ∧ v = f.ofReply (hyprland n f.query) := by
  cases f with
  | binds =>
    obtain ⟨x, u, served, ending⟩ := Prog.exec_ask.mp run
    cases x with
    | ok reply =>
      obtain ⟨n, later, rfl⟩ := query_answer served
      obtain ⟨same, rfl⟩ := Prog.exec_ret.mp ending
      cases same
      exact ⟨n, later, rfl⟩
    | error e => cases (Prog.exec_ret.mp ending).1
  | _ =>
    obtain ⟨x, u, served, ending⟩ := Prog.exec_ask.mp run
    obtain ⟨same, rfl⟩ := Prog.exec_ret.mp ending
    subst same
    exact query_answer served

theorem read_exec {f : Field} {v : f.Value} (notVersion : f ≠ .version) (sound : Sound hyprland s)
    (run : Prog.Exec (Serving (κ := κ) hyprland i) (cached (StateCache.read f)) s (.ok v) t) :
    ∃ n applied, some v = traced hyprland f n applied ∧
      (s.changes ≤ n ∨ (n = t.stamp f ∧ applied = t.since f ∧ Young t f)) := by
  obtain ⟨held, u, ⟨u', others, got, rfl⟩, rest⟩ := Prog.exec_ask.mp run
  obtain ⟨later, -, -, keeps⟩ := others_run others
  have sound := keeps sound
  cases held with
  | some v =>
    obtain ⟨same, rfl⟩ := Prog.exec_ret.mp rest
    cases same
    rw [Inner.read_eq_get notVersion] at got
    obtain ⟨clean, value, stored⟩ := Cached.get_some got.symm
    obtain ⟨read, -⟩ := sound.1.value f v value
    exact ⟨_, _, read, Or.inr ⟨rfl, rfl, clean, stored, sound.1.clean f clean⟩⟩
  | none =>
    have missed : Prog.Exec (Serving (κ := κ) hyprland i)
        (cached (StateCache.hypr f.fetch >>= _)) u (Except.ok v) t := rest
    rw [cached, Prog.relabel_bind] at missed
    obtain ⟨result, w, fetched, storing⟩ := Prog.exec_bind.mp missed
    cases result with
    | error e => cases (Prog.exec_ret.mp storing).1
    | ok value =>
      obtain ⟨_, x, -, ending⟩ := Prog.exec_ask.mp storing
      obtain ⟨same, rfl⟩ := Prog.exec_ret.mp ending
      cases same
      obtain ⟨n, after, rfl⟩ := fetch_exec fetched
      exact ⟨n, [], rfl, Or.inl (Nat.le_trans later after)⟩

theorem served_exec {α : Type} {reply : α → Reply} {p : StateCache.Call (CoreResult α)}
    {answer : Reply}
    (run : Prog.Exec (Serving (κ := κ) hyprland i) (served reply p) s (.ok answer) t) :
    ∃ v, answer = reply v ∧ Prog.Exec (Serving (κ := κ) hyprland i) (cached p) s (.ok v) t := by
  obtain ⟨result, u, reading, ending⟩ := Prog.exec_bind.mp run
  obtain ⟨same, rfl⟩ := Prog.exec_ret.mp ending
  cases result with
  | ok v => exact ⟨v, Response.ok.inj same, reading⟩
  | error e => cases same

theorem activeWindow_exec {window : Option Client}
    (run : Prog.Exec (Serving (κ := κ) hyprland i) (cached activeWindow) s (.ok window) t) :
    ∃ clients, window = activeFrom clients ∧
      Prog.Exec (Serving (κ := κ) hyprland i) (cached (StateCache.read .clients)) s (.ok clients) t := by
  unfold activeWindow StateCache.clients cached at run
  rw [Prog.relabel_bind] at run
  obtain ⟨result, u, reading, ending⟩ := Prog.exec_bind.mp run
  cases result with
  | ok clients =>
    obtain ⟨same, rfl⟩ := Prog.exec_ret.mp ending
    exact ⟨clients, Except.ok.inj same, reading⟩
  | error e => cases (Prog.exec_ret.mp ending).1

theorem query_exec {query : Request} {f : Field} {reply : f.Value → Reply} {answer : Reply}
    (serves : servedFrom query = some ⟨f, reply⟩)
    (run : Prog.Exec (Serving hyprland i) (handleRequest state query) s (.ok answer) t) :
    f ≠ .version ∧ ∃ v, answer = reply v ∧
      Prog.Exec (Serving (κ := κ) hyprland i) (cached (StateCache.read f)) s (.ok v) t := by
  cases query with
  | queryActiveWindow =>
    cases serves
    obtain ⟨window, rfl, focus⟩ := served_exec run
    obtain ⟨clients, rfl, reading⟩ := activeWindow_exec focus
    exact ⟨by decide, clients, rfl, reading⟩
  | queryClients | queryWorkspaces | queryMonitors | queryActiveWorkspace =>
    cases serves
    exact ⟨by decide, served_exec run⟩
  | _ => cases serves

end Requests

/-- On one connection, in any run of the others: a query after an accepted dispatch shows what
Hyprland answered after that dispatch, or a cached value that is younger than the maximal age and
that no event applied since it was stored marks. -/
theorem query_after_dispatch {hyprland : History} {i : ι} {state : State κ}
    {before between : List Request} {mutation query : Request} {f : Field} {reply : f.Value → Reply}
    {accepted answer : Reply} {early late : List Response} {s₀ s u w t : World ι}
    (start : s₀.Starts) (mutates : Mutates mutation) (serves : servedFrom query = some ⟨f, reply⟩)
    (opened : Prog.Exec (Serving hyprland i) (handleClient state before) s₀ early s)
    (dispatched : Prog.Exec (Serving hyprland i) (handleRequest state mutation) s (.ok accepted) u)
    (went : Prog.Exec (Serving hyprland i) (handleClient state between) u late w)
    (asked : Prog.Exec (Serving hyprland i) (handleRequest state query) w (.ok answer) t) :
    s.changes < u.acted i ∧ ∃ v n applied, answer = reply v ∧ some v = traced hyprland f n applied ∧
      (u.acted i ≤ n ∨ (n = t.stamp f ∧ applied = t.since f ∧ Young t f)) := by
  have sound₀ : Sound hyprland s₀ :=
    ⟨start.recorded hyprland, fun j => by rw [start.acted]; exact Nat.zero_le _⟩
  obtain ⟨sound, -⟩ := obeys_run (obeys_client state before) sound₀ opened
  obtain ⟨soundU, -⟩ := obeys_run (obeys_request state mutation) sound dispatched
  obtain ⟨soundW, later⟩ := obeys_run (obeys_client state between) soundU went
  obtain ⟨notVersion, v, rfl, reading⟩ := query_exec serves asked
  obtain ⟨n, applied, read, cases⟩ := read_exec notVersion soundW reading
  refine ⟨mutation_acts mutates dispatched, v, n, applied, rfl, read, cases.imp_left fun after => ?_⟩
  exact Nat.le_trans (Nat.le_trans (soundU.2 i) later) after

/-! ### A resize and an older answer -/

theorem retitle_sizes (address title : String) (clients : List Client) :
    (retitle address title clients).map (·.size) = clients.map (·.size) := by
  induction clients with
  | nil => rfl
  | cons c rest ih =>
    unfold retitle
    split
    · rfl
    · rw [List.map_cons, List.map_cons, ih]

theorem patched_sizes (ev : Event) (clients : List Client) :
    (patched ev clients).map (·.size) = clients.map (·.size) := by
  unfold patched
  split
  · split
    · exact retitle_sizes _ _ _
    · rfl
  · rfl

theorem traced_sizes {hyprland : History} {n : Nat} {applied : List Event} {v : List Client}
    (read : some v = traced hyprland .clients n applied) :
    v.map (·.size) = (hyprland n .clients).map (·.size) := by
  have folded : ∀ (events : List Event) (old new : List Client),
      some new = events.foldl (fun v ev => patchValue ev .clients v) (some old) →
      new.map (·.size) = old.map (·.size) := by
    intro events
    induction events with
    | nil =>
      intro old new same
      rw [Option.some.inj same]
    | cons ev rest ih =>
      intro old new same
      exact (ih (patched ev old) new same).trans (patched_sizes ev old)
  exact folded applied _ v read

def resizing : History := fun n q =>
  match q with
  | .version => ⟨"0.40", "c", "main"⟩
  | .clients => [{ kitty with size := (if n = 0 then 100 else 110, 100) }]
  | .workspaces | .monitors | .binds => []
  | .activeWorkspace => ⟨1, "1", "eDP-1", 0, 1, false, "", ""⟩
  | .activeWindow => some kitty
  | .cursorPos => ⟨0, 0⟩

/-- The clients are read, the window is resized without an event, and the clients are read again. -/
theorem resize_runs : ∃ s u t : World Unit,
    Prog.Exec (Serving resizing ()) (handleClient plainState [.queryClients]) .initial
      [.ok (.clients (resizing 0 .clients))] s ∧
    Prog.Exec (Serving resizing ()) (handleRequest plainState (.dispatchResizeActive 10 0)) s
      (.ok .null) u ∧
    Prog.Exec (Serving resizing ()) (handleRequest plainState .queryClients) u
      (.ok (.clients (resizing 0 .clients))) t ∧ u.acted () = 1 := by
  let asked : World Unit := { World.initial with
    answered := Function.update World.initial.answered ()
      (Function.update (World.initial.answered ()) .clients (some (0, resizing 0 .clients))) }
  let stored : World Unit := { asked with
    inner := Function.update asked.inner .clients (.set asked.now (resizing 0 .clients))
    stamp := Function.update asked.stamp .clients (asked.readAt () .clients)
    since := Function.update asked.since .clients [] }
  let resized : World Unit := { stored.change [] with
    acted := Function.update stored.acted () (stored.changes + 1) }
  refine ⟨stored, resized, resized, ?_, ?_, ?_, rfl⟩
  · refine .ask none ⟨World.initial, .refl, rfl, rfl⟩ ?_
    refine .ask (u := asked) (Except.ok (resizing 0 .clients)) ⟨World.initial, .refl, ?_⟩ ?_
    · exact ⟨rfl, rfl⟩
    · exact .ask () ⟨asked, .refl, rfl⟩ (.ret _ _)
  · refine .ask (Except.ok ()) ⟨stored, .refl, ?_⟩ (.ret _ _)
    exact ⟨[], trivial, rfl⟩
  · exact .ask (some (resizing 0 .clients)) ⟨resized, .refl, rfl, rfl⟩ (.ret _ _)

theorem query_after_resize : ∃ (s u t : World Unit) (v : List Client) (n : Nat) (applied : List Event),
    s.changes < u.acted () ∧ Reply.clients (resizing 0 .clients) = .clients v ∧
      some v = traced resizing .clients n applied ∧
      (u.acted () ≤ n ∨ (n = t.stamp .clients ∧ applied = t.since .clients ∧ Young t .clients)) := by
  obtain ⟨s, u, t, opened, dispatched, asked, -⟩ := resize_runs
  obtain ⟨acted, v, n, applied, shown, read, cases⟩ :=
    query_after_dispatch World.initial_starts (Or.inl rfl) rfl opened dispatched
      (show Prog.Exec _ (handleClient plainState []) u [] u from .ret _ _) asked
  exact ⟨s, u, t, v, n, applied, acted, shown, read, cases⟩

theorem query_shows_older : ¬ ∀ (hyprland : History) (before between : List Request)
    (mutation query : Request) (f : Field) (reply : f.Value → Reply) (accepted answer : Reply)
    (early late : List Response) (s₀ s u w t : World Unit),
    s₀.Starts → Mutates mutation → servedFrom query = some ⟨f, reply⟩ →
    Prog.Exec (Serving hyprland ()) (handleClient plainState before) s₀ early s →
    Prog.Exec (Serving hyprland ()) (handleRequest plainState mutation) s (.ok accepted) u →
    Prog.Exec (Serving hyprland ()) (handleClient plainState between) u late w →
    Prog.Exec (Serving hyprland ()) (handleRequest plainState query) w (.ok answer) t →
    ∃ v n applied, answer = reply v ∧ some v = traced hyprland f n applied ∧ u.acted () ≤ n := by
  intro always
  obtain ⟨s, u, t, opened, dispatched, asked, acted⟩ := resize_runs
  obtain ⟨v, n, applied, shown, read, after⟩ := always _ _ _ _ _ _ _ _ _ _ _ _ _ _ _ _
    World.initial_starts (Or.inl rfl) rfl opened dispatched
    (show Prog.Exec _ (handleClient plainState []) u [] u from .ret _ _) asked
  rw [acted] at after
  have sizes := traced_sizes read
  cases shown
  have wide : (resizing n .clients).map (·.size) = [(110, 100)] := by
    have later : n ≠ 0 := by omega
    simp [resizing, later]
  rw [wide] at sizes
  exact absurd sizes (by decide)

end Daemon

end HyprPilot
