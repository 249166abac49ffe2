import HyprPilot.Base.Pool
import HyprPilot.Daemon.Server

/-!
# What a recorded inverse names

A handler reads the focused window, dispatches, and pushes an inverse, in three round trips with
nothing held between them. The inverse names the window that the dispatch affected as long as the
focused window is still the one read whenever a recorded dispatch is sent.
-/

namespace HyprPilot
open Interact Daemon

variable {κ ι : Type} [DecidableEq ι]

/-- A window with the command line of its process, just before a dispatch acts on it. -/
structure Affected where
  window : Client
  cmdline : Option (List UInt8)

/-- A pushed inverse, with the window that the last dispatch of the same client affected. -/
structure Push (ι : Type) where
  client : ι
  inverse : InverseAction
  affected : Option Affected

/-- The inverse names the affected window. -/
def Names : InverseAction → Option Affected → Prop
  | .moveToWorkspace selector workspace _, affected =>
    ∃ a, affected = some a ∧ selector = .address a.window.address ∧
      workspace = .id a.window.workspace.id
  | .spawn command, affected => ∃ a, affected = some a ∧ readProcCmdline a.cmdline = some command

/-- The focused window, the processes, and what each client has read, done and pushed. -/
structure Focus (ι : Type) where
  focused : Option Client
  cmdlineOf : Int → Option (List UInt8)
  readWindow : ι → Option Client
  readCmdline : ι → Option (List UInt8)
  affected : ι → Option Affected
  pushed : List (Push ι)

namespace Focus

/-- One round trip of client `i`. A dispatch may change the focus and the processes in any way, one
that failed too. -/
def Act (i : ι) : (c : Daemon.Cmd κ) → Focus ι → Daemon.Ans c → Focus ι → Prop
  | .cache (.hypr (.query .activeWindow)), s, x, t =>
    match x with
    | .ok window => window = s.focused ∧
        t = { s with readWindow := Function.update s.readWindow i window }
    | .error _ => t = s
  | .cache (.hypr (.dispatch _)), s, x, t =>
    ∃ focused cmdlineOf,
      match x with
      | .ok () =>
        t = { s with
          focused := focused
          cmdlineOf := cmdlineOf
          affected := Function.update s.affected i
            (s.focused.map fun w => ⟨w, s.cmdlineOf w.pid⟩) }
      | .error _ => t = { s with focused := focused, cmdlineOf := cmdlineOf }
  | .procCmdline pid, s, x, t =>
    x = s.cmdlineOf pid ∧ t = { s with readCmdline := Function.update s.readCmdline i x }
  | .undoPush _ inverse, s, _, t =>
    t = { s with pushed := ⟨i, inverse, s.affected i⟩ :: s.pushed }
  | _, s, _, t => t = s

def Env (s t : Focus ι) : Prop :=
  ∃ focused cmdlineOf, t = { s with focused := focused, cmdlineOf := cmdlineOf }

/-- A recorded dispatch is sent while the focused window is as the handler read it. -/
def Undisturbed (i : ι) : Daemon.Cmd κ → Focus ι → Prop
  | .cache (.hypr (.dispatch (.moveActiveToWorkspace _))), s
  | .cache (.hypr (.dispatch (.moveActiveToWorkspaceSilent _))), s =>
    ∃ w r, s.focused = some w ∧ s.readWindow i = some r ∧ w.address = r.address ∧
      w.workspace.id = r.workspace.id
  | .cache (.hypr (.dispatch .killActive)), s =>
    ∃ w, s.focused = some w ∧ s.cmdlineOf w.pid = s.readCmdline i
  | _, _ => True

def rules (calm : ι → Daemon.Cmd κ → Focus ι → Prop) :
    Pool.Rules (Daemon.Cmd κ) Daemon.Ans (Focus ι) ι :=
  ⟨fun i c s x t => Act i c s x t ∧ calm i c s, Env⟩

end Focus

/-! ### The outline of a handler -/

structure View where
  readWindow : Option Client
  readCmdline : Option (List UInt8)
  affected : Option Affected

def Focus.view (i : ι) (s : Focus ι) : View := ⟨s.readWindow i, s.readCmdline i, s.affected i⟩

/-- What an answer adds to a client's view, when its recorded dispatches are undisturbed. -/
def View.Learns : (c : Daemon.Cmd κ) → Daemon.Ans c → View → View → Prop
  | .cache (.hypr (.query .activeWindow)), x, _, w =>
    ∀ window, x = .ok window → w.readWindow = window
  | .cache (.hypr (.dispatch (.moveActiveToWorkspace _))), x, v, w
  | .cache (.hypr (.dispatch (.moveActiveToWorkspaceSilent _))), x, v, w =>
    x = .ok () → ∃ a r, w.affected = some a ∧ v.readWindow = some r ∧
      a.window.address = r.address ∧ a.window.workspace.id = r.workspace.id
  | .cache (.hypr (.dispatch .killActive)), x, v, w =>
    x = .ok () → ∃ a, w.affected = some a ∧ a.cmdline = v.readCmdline
  | .procCmdline _, x, _, w => w.readCmdline = x
  | _, _, _, _ => True

def View.Allows : Daemon.Cmd κ → View → Prop
  | .undoPush _ inverse, v => Names inverse v.affected
  | _, _ => True

/-- The requests that record or redirect: moves, kills and focus changes. -/
def RecordsOrFocuses : Request → Prop
  | .dispatchMoveToWorkspace _ | .dispatchMoveToWorkspaceSilent _ | .dispatchKillActive
  | .dispatchFocusWindow _ => True
  | _ => False

abbrev Outlined (α : Type) (p : Handler κ α) (v : View) : Prop :=
  p.wp View.Learns View.Allows (fun _ _ => True) v

theorem outlined_move (ws : WorkspaceRef) (silent : Bool) (v : View) :
    Outlined _ (moveToWorkspaceRecorded (κ := κ) ws silent) v := by
  refine ⟨trivial, fun reply v₁ learned => ?_⟩
  cases reply with
  | error e => trivial
  | ok window =>
    have read : v₁.readWindow = window := learned window rfl
    cases window with
    | none => trivial
    | some active =>
      refine ⟨by cases silent <;> trivial, fun result v₂ learned => ?_⟩
      cases result with
      | error e => trivial
      | ok _ =>
        have affected : ∃ a r, v₂.affected = some a ∧ v₁.readWindow = some r ∧
            a.window.address = r.address ∧ a.window.workspace.id = r.workspace.id := by
          cases silent <;> exact learned rfl
        obtain ⟨a, r, acted, known, address, workspace⟩ := affected
        rw [read] at known
        cases known
        refine ⟨⟨a, acted, by rw [address], by rw [workspace]⟩, fun _ _ _ => trivial⟩

theorem outlined_kill (v : View) : Outlined _ (killActiveRecorded (κ := κ)) v := by
  refine ⟨trivial, fun reply v₁ _ => ?_⟩
  cases reply with
  | error e => trivial
  | ok window =>
    cases window with
    | none => trivial
    | some active =>
      refine ⟨trivial, fun bytes v₂ read => ⟨trivial, fun result v₃ learned => ?_⟩⟩
      cases result with
      | error e => trivial
      | ok _ =>
        obtain ⟨a, acted, cmdline⟩ := learned rfl
        have read : v₂.readCmdline = bytes := read
        have pushes : ∀ command, readProcCmdline bytes = some command →
            Names (.spawn command) v₃.affected :=
          fun command line => ⟨a, acted, by rw [cmdline, read, line]⟩
        dsimp only
        cases line : readProcCmdline bytes with
        | none => trivial
        | some command => exact ⟨pushes command line, fun _ _ _ => trivial⟩

theorem outlined_focus (selector : WindowSelector) (v : View) :
    Outlined _ (void (κ := κ) (.focusWindow selector)) v := ⟨trivial, fun _ _ _ => trivial⟩

theorem outlined_request {request : Request} (records : RecordsOrFocuses request)
    (state : Daemon.State κ) (v : View) : Outlined _ (handleRequest state request) v := by
  cases request with
  | dispatchMoveToWorkspace ws => exact outlined_move ws false v
  | dispatchMoveToWorkspaceSilent ws => exact outlined_move ws true v
  | dispatchKillActive => exact outlined_kill v
  | dispatchFocusWindow selector => exact outlined_focus selector v
  | _ => exact records.elim

theorem outlined_client {requests : List Request}
    (records : ∀ request ∈ requests, RecordsOrFocuses request) (state : Daemon.State κ) (v : View) :
    Outlined _ (handleClient state requests) v := by
  induction requests generalizing v with
  | nil => trivial
  | cons request rest ih =>
    unfold handleClient
    refine Prog.wp_bind.mpr (Prog.wp_mono ?_
      (outlined_request (records request List.mem_cons_self) state v))
    intro _ v' _
    refine Prog.wp_bind.mpr (Prog.wp_mono (fun _ _ _ => trivial) (ih ?_ v'))
    exact fun r member => records r (List.mem_cons_of_mem _ member)

/-! ### Every run -/

theorem own_view {i : ι} {c : Daemon.Cmd κ} {s t : Focus ι} {x : Daemon.Ans c}
    (act : Focus.Act i c s x t) (calm : Focus.Undisturbed i c s) :
    View.Learns c x (s.view i) (t.view i) := by
  have moves : ∀ focused cmdlineOf,
      (∃ w r, s.focused = some w ∧ s.readWindow i = some r ∧ w.address = r.address ∧
        w.workspace.id = r.workspace.id) →
      t = { s with
        focused := focused
        cmdlineOf := cmdlineOf
        affected := Function.update s.affected i
          (s.focused.map fun w => ⟨w, s.cmdlineOf w.pid⟩) } →
      ∃ a r, (t.view i).affected = some a ∧ (s.view i).readWindow = some r ∧
        a.window.address = r.address ∧ a.window.workspace.id = r.workspace.id := by
    rintro focused cmdlineOf ⟨w, r, here, read, address, workspace⟩ rfl
    refine ⟨⟨w, s.cmdlineOf w.pid⟩, r, ?_, read, address, workspace⟩
    simp [Focus.view, here]
  cases c with
  | cache c =>
    cases c with
    | hypr c =>
      cases c with
      | query q =>
        cases q with
        | activeWindow =>
          rintro window rfl
          obtain ⟨-, rfl⟩ := act
          simp [Focus.view]
        | _ => trivial
      | dispatch d =>
        cases d with
        | moveActiveToWorkspace ws =>
          rintro rfl
          obtain ⟨focused, cmdlineOf, same⟩ := act
          exact moves focused cmdlineOf calm same
        | moveActiveToWorkspaceSilent ws =>
          rintro rfl
          obtain ⟨focused, cmdlineOf, same⟩ := act
          exact moves focused cmdlineOf calm same
        | killActive =>
          rintro rfl
          obtain ⟨focused, cmdlineOf, rfl⟩ := act
          obtain ⟨w, here, same⟩ := calm
          refine ⟨⟨w, s.cmdlineOf w.pid⟩, ?_, same⟩
          simp [Focus.view, here]
        | _ => trivial
      | nowUnix => trivial
    | _ => trivial
  | procCmdline pid =>
    obtain ⟨rfl, rfl⟩ := act
    simp [View.Learns, Focus.view]
  | _ => trivial

/-- What a round trip leaves alone: the other clients' views, and the pushes unless it is one. -/
theorem act_frame {i : ι} {c : Daemon.Cmd κ} {s t : Focus ι} {x : Daemon.Ans c}
    (act : Focus.Act i c s x t) :
    (∀ j, j ≠ i → t.view j = s.view j) ∧
      (t.pushed = s.pushed ∨ ∃ description inverse, c = .undoPush description inverse ∧
        t.pushed = ⟨i, inverse, s.affected i⟩ :: s.pushed) := by
  have same : t = s → (∀ j, j ≠ i → t.view j = s.view j) ∧ (t.pushed = s.pushed ∨
      ∃ description inverse, c = .undoPush description inverse ∧
        t.pushed = ⟨i, inverse, s.affected i⟩ :: s.pushed) := by
    rintro rfl
    exact ⟨fun _ _ => rfl, Or.inl rfl⟩
  cases c with
  | cache c =>
    cases c with
    | hypr c =>
      cases c with
      | query q =>
        cases q with
        | activeWindow =>
          cases x with
          | ok window =>
            obtain ⟨-, rfl⟩ := act
            exact ⟨fun j different => by simp [Focus.view, different], Or.inl rfl⟩
          | error e => exact same act
        | _ => exact same act
      | dispatch d =>
        obtain ⟨focused, cmdlineOf, act⟩ := act
        cases x with
        | ok _ =>
          obtain rfl := act
          exact ⟨fun j different => by simp [Focus.view, different], Or.inl rfl⟩
        | error e =>
          obtain rfl := act
          exact ⟨fun _ _ => rfl, Or.inl rfl⟩
      | nowUnix => exact same act
    | _ => exact same act
  | procCmdline pid =>
    obtain ⟨rfl, rfl⟩ := act
    exact ⟨fun j different => by simp [Focus.view, different], Or.inl rfl⟩
  | undoPush description inverse =>
    obtain rfl : t = _ := act
    exact ⟨fun _ _ => rfl, Or.inr ⟨_, _, rfl, rfl⟩⟩
  | _ => exact same act

/-- In every interleaving of any number of clients in which no recorded dispatch is disturbed, every
pushed inverse names the window that its own dispatch affected. -/
theorem pushes_name_affected {state : Daemon.State κ} {requests : ι → List Request}
    (records : ∀ i, ∀ request ∈ requests i, RecordsOrFocuses request) {s : Focus ι}
    {Q : Pool (Daemon.Cmd κ) Daemon.Ans (List Response) (Focus ι) ι}
    (empty : s.pushed = [])
    (run : Pool.Reach (Focus.rules Focus.Undisturbed) ⟨s, fun i => handleClient state (requests i)⟩ Q) :
    ∀ p ∈ Q.shared.pushed, Names p.inverse p.affected := by
  have start : ∀ i, Outlined _ (handleClient state (requests i)) (s.view i) :=
    fun i => outlined_client (records i) state _
  refine (Pool.reach_outlined Focus.view View.Learns (fun _ => View.Allows)
    (fun _ _ _ => True) (fun s : Focus ι => ∀ p ∈ s.pushed, Names p.inverse p.affected)
    ?own ?other ?quiet ?act ?env (by simp [empty]) start run).1
  case own => exact fun i c s x t _ step => own_view step.1 step.2
  case other => exact fun i j c s x t different step => (act_frame step.1).1 j different
  case quiet =>
    rintro i s t ⟨focused, cmdlineOf, rfl⟩
    rfl
  case act =>
    intro i c s x t before allowed step p member
    rcases (act_frame step.1).2 with same | ⟨description, inverse, rfl, pushed⟩
    · exact before p (same ▸ member)
    · rw [pushed] at member
      rcases List.mem_cons.mp member with rfl | old
      · exact allowed
      · exact before p old
  case env =>
    rintro s t before ⟨focused, cmdlineOf, rfl⟩
    exact before

/-! ### Two clients -/

section Steps

variable {calm : ι → Daemon.Cmd κ → Focus ι → Prop}
  {P : Pool (Daemon.Cmd κ) Daemon.Ans (List Response) (Focus ι) ι}

theorem step_read (i : ι) {k : CoreResult (Option Client) → Handler κ (List Response)}
    (next : P.progs i = .ask (.cache (.hypr (.query .activeWindow))) k)
    (quiet : calm i (.cache (.hypr (.query .activeWindow))) P.shared) :
    Pool.Step (Focus.rules calm) P
      ⟨{ P.shared with readWindow := Function.update P.shared.readWindow i P.shared.focused },
        Function.update P.progs i (k (.ok P.shared.focused))⟩ := by
  refine .act (R := Focus.rules calm) i (Except.ok P.shared.focused) next ⟨?_, quiet⟩
  exact ⟨rfl, rfl⟩

theorem step_dispatch (i : ι) {d : Dispatcher} {k : CoreResult Unit → Handler κ (List Response)}
    (focused : Option Client) (next : P.progs i = .ask (.cache (.hypr (.dispatch d))) k)
    (quiet : calm i (.cache (.hypr (.dispatch d))) P.shared) :
    Pool.Step (Focus.rules calm) P
      ⟨{ P.shared with
          focused := focused
          affected := Function.update P.shared.affected i
            (P.shared.focused.map fun w => ⟨w, P.shared.cmdlineOf w.pid⟩) },
        Function.update P.progs i (k (.ok ()))⟩ :=
  .act (R := Focus.rules calm) i (Except.ok ()) next ⟨⟨focused, P.shared.cmdlineOf, rfl⟩, quiet⟩

theorem step_push (i : ι) {description : String} {inverse : InverseAction}
    {k : Unit → Handler κ (List Response)}
    (next : P.progs i = .ask (.undoPush description inverse) k)
    (quiet : calm i (.undoPush description inverse) P.shared) :
    Pool.Step (Focus.rules calm) P
      ⟨{ P.shared with pushed := ⟨i, inverse, P.shared.affected i⟩ :: P.shared.pushed },
        Function.update P.progs i (k ())⟩ :=
  .act (R := Focus.rules calm) i () next ⟨rfl, quiet⟩

end Steps


def firefox : Client := { kitty with address := "0xb", className := "firefox", pid := 8 }

def onKitty : Focus Bool := ⟨some kitty, fun _ => none, fun _ => none, fun _ => none, fun _ => none, []⟩

def moveAndFocus : Bool → List Request
  | true => [.dispatchMoveToWorkspaceSilent (.id 2)]
  | false => [.dispatchFocusWindow (.address "0xb")]

theorem moveAndFocus_records : ∀ i, ∀ request ∈ moveAndFocus i, RecordsOrFocuses request := by
  intro i request member
  cases i <;> cases List.mem_singleton.mp member <;> trivial

def twoClients : Pool (Daemon.Cmd StateFile) Daemon.Ans (List Response) (Focus Bool) Bool :=
  ⟨onKitty, fun i => handleClient plainState (moveAndFocus i)⟩

theorem pushes_name_affected_alone : ∃ Q, Pool.Reach (Focus.rules Focus.Undisturbed) twoClients Q ∧
    Q.shared.pushed.length = 1 ∧ ∀ p ∈ Q.shared.pushed, Names p.inverse p.affected := by
  have run : Pool.Reach (Focus.rules Focus.Undisturbed) twoClients _ :=
    ((Relation.ReflTransGen.refl.tail (step_read true rfl trivial)).tail
      (step_dispatch true (some kitty) rfl ⟨kitty, kitty, rfl, rfl, rfl, rfl⟩)).tail
      (step_push true rfl trivial)
  exact ⟨_, run, rfl, pushes_name_affected moveAndFocus_records rfl run⟩

/-- The other client's focus change between the read and the dispatch: the inverse names the window
that was read, the dispatch moved the other one. -/
theorem pushes_disturbed :
    ¬ ∀ (s : Focus Bool) (requests : Bool → List Request)
        (Q : Pool (Daemon.Cmd StateFile) Daemon.Ans (List Response) (Focus Bool) Bool),
      (∀ i, ∀ request ∈ requests i, RecordsOrFocuses request) → s.pushed = [] →
      Pool.Reach (Focus.rules fun _ _ _ => True)
        ⟨s, fun i => handleClient plainState (requests i)⟩ Q →
      ∀ p ∈ Q.shared.pushed, Names p.inverse p.affected := by
  intro always
  have run : Pool.Reach (Focus.rules fun _ _ _ => True) twoClients _ :=
    (((Relation.ReflTransGen.refl.tail (step_read true rfl trivial)).tail
      (step_dispatch false (some firefox) rfl trivial)).tail
      (step_dispatch true (some firefox) rfl trivial)).tail
      (step_push true rfl trivial)
  obtain ⟨a, affected, named, -⟩ := always _ _ _ moveAndFocus_records rfl run _ List.mem_cons_self
  have moved : (⟨firefox, none⟩ : Affected) = a := Option.some.inj affected
  rw [← moved] at named
  exact absurd named (by decide)

end HyprPilot
