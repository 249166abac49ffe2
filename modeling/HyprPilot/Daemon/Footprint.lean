import HyprPilot.Daemon.Server

/-!
# What each handler may ask for

For every request handler, the commands that its programs can put, whatever the answers: a property
of commands that covers these covers the handler.
-/

namespace HyprPilot
open Interact

namespace Daemon

variable {κ : Type} {P : Cmd κ → Prop}

theorem asks_hypr {α : Type} (talks : ∀ c, P (.cache (.hypr c))) (p : Connection.Call α) :
    (hypr p : Handler κ α).Asks P :=
  Prog.asks_relabel (Prog.Asks.of_all talks p)

theorem asks_files {α : Type} (calls : ∀ c, P (.fs c)) (p : Fs.Call κ α) :
    (files p : Handler κ α).Asks P :=
  Prog.asks_relabel (Prog.Asks.of_all calls p)

/-! ### Reading -/

section Reading

variable (queries : ∀ q, P (.cache (.hypr (.query q))))
include queries

theorem asks_fetch (f : StateCache.Field) : (cached (StateCache.hypr f.fetch) : Handler κ _).Asks P := by
  cases f with
  | binds => exact ⟨queries .binds, fun reply => by cases reply <;> trivial⟩
  | clients => exact ⟨queries .clients, fun _ => trivial⟩
  | workspaces => exact ⟨queries .workspaces, fun _ => trivial⟩
  | monitors => exact ⟨queries .monitors, fun _ => trivial⟩
  | activeWorkspace => exact ⟨queries .activeWorkspace, fun _ => trivial⟩
  | version => exact ⟨queries .version, fun _ => trivial⟩

theorem asks_read (gets : ∀ f, P (.cache (.get f))) (sets : ∀ f v, P (.cache (.set f v)))
    (f : StateCache.Field) : (cached (StateCache.read f) : Handler κ _).Asks P := by
  refine ⟨gets f, fun held => ?_⟩
  cases held with
  | some v => trivial
  | none =>
    show Prog.Asks P (cached (StateCache.hypr f.fetch >>= _))
    rw [cached, Prog.relabel_bind]
    refine (asks_fetch queries f).bind fun result => ?_
    cases result with
    | ok v => exact ⟨sets f v, fun _ => trivial⟩
    | error e => trivial

theorem asks_activeWindow (gets : ∀ f, P (.cache (.get f))) (sets : ∀ f v, P (.cache (.set f v))) :
    (cached StateCache.activeWindow : Handler κ _).Asks P := by
  unfold StateCache.activeWindow StateCache.clients cached
  rw [Prog.relabel_bind]
  exact (asks_read queries gets sets .clients).bind fun clients => by cases clients <;> trivial

theorem asks_capture (clock : P (.cache (.hypr .nowUnix))) (name : String) :
    (hypr (Snapshot.capture name) : Handler κ _).Asks P := by
  refine ⟨queries .version, fun version => ?_⟩
  cases version with
  | error e => trivial
  | ok version =>
  refine ⟨queries .clients, fun clients => ?_⟩
  cases clients with
  | error e => trivial
  | ok clients =>
  refine ⟨queries .workspaces, fun workspaces => ?_⟩
  cases workspaces with
  | error e => trivial
  | ok workspaces =>
  refine ⟨queries .monitors, fun monitors => ?_⟩
  cases monitors with
  | error e => trivial
  | ok monitors =>
  refine ⟨queries .activeWindow, fun activeWindow => ?_⟩
  cases activeWindow with
  | error e => trivial
  | ok activeWindow =>
  refine ⟨queries .activeWorkspace, fun activeWorkspace => ?_⟩
  cases activeWorkspace with
  | error e => trivial
  | ok activeWorkspace => exact ⟨clock, fun _ => trivial⟩

end Reading

theorem asks_loadNamed (looks : ∀ path, P (.fs (.pathExists path))) (reads : ∀ path, P (.fs (.read path)))
    (store : SnapshotStore κ) (name : String) : (files (store.loadNamed name)).Asks P := by
  unfold SnapshotStore.loadNamed
  cases store.snapshotPath name with
  | error e => trivial
  | ok path =>
    refine ⟨looks path, fun found => ?_⟩
    cases found with
    | false => trivial
    | true =>
      refine ⟨reads path, fun raw => ?_⟩
      cases raw with
      | error e => trivial
      | ok raw =>
        dsimp only [Prog.bind]
        cases store.codec.decode raw <;> trivial

theorem asks_listNames (looks : ∀ path, P (.fs (.pathExists path)))
    (lists : ∀ path, P (.fs (.readDir path))) (store : SnapshotStore κ) :
    (files store.listNames).Asks P := by
  refine ⟨looks _, fun found => ?_⟩
  cases found with
  | false => trivial
  | true => exact ⟨lists _, fun entries => by cases entries <;> trivial⟩

section ReadOnly

variable (queries : ∀ q, P (.cache (.hypr (.query q)))) (clock : P (.cache (.hypr .nowUnix)))
  (looks : ∀ path, P (.fs (.pathExists path))) (reads : ∀ path, P (.fs (.read path)))

theorem asks_snapshotList (lists : ∀ path, P (.fs (.readDir path))) (state : State κ)
    (looks : ∀ path, P (.fs (.pathExists path))) : (snapshotList state).Asks P :=
  (asks_listNames looks lists state.store).bind fun names => by cases names <;> trivial

include queries clock looks reads

theorem asks_targetAndLive (state : State κ) (name : String) : (targetAndLive state name).Asks P := by
  refine (asks_loadNamed looks reads state.store name).bind fun target => ?_
  cases target with
  | error e => trivial
  | ok target =>
    exact (asks_capture queries clock "_live_").bind fun live => by cases live <;> trivial

theorem asks_snapshotDiff (state : State κ) (name : String) : (snapshotDiff state name).Asks P :=
  (asks_targetAndLive queries clock looks reads state name).bind fun both => by
    rcases both with response | ⟨target, live⟩ <;> trivial

theorem asks_snapshotPreview (state : State κ) (name : String) :
    (snapshotPreview state name).Asks P :=
  (asks_targetAndLive queries clock looks reads state name).bind fun both => by
    rcases both with response | ⟨target, live⟩ <;> trivial

end ReadOnly

theorem asks_rulesList (loads : P .rulesLoad) (state : State κ) : (rulesList state).Asks P :=
  ⟨loads, fun config => by rcases config with e | (_ | config) <;> trivial⟩

theorem asks_rulesValidate (loads : P .rulesLoad) (compiles : ∀ config, P (.rulesCompile config))
    (state : State κ) : (rulesValidate state).Asks P := by
  refine ⟨loads, fun config => ?_⟩
  rcases config with e | (_ | config)
  · trivial
  · trivial
  · exact ⟨compiles config, fun compiled => by cases compiled <;> trivial⟩

theorem asks_a11yErrorResponse (drops : P .a11yDrop) (e : A11yError) :
    (a11yErrorResponse e : Handler κ Response).Asks P := by
  cases e with
  | unavailable _ => exact ⟨drops, fun _ => trivial⟩
  | noApplication _ => trivial
  | bus _ => trivial

theorem asks_a11yRead (gets : ∀ f, P (.cache (.get f))) (sets : ∀ f v, P (.cache (.set f v)))
    (queries : ∀ q, P (.cache (.hypr (.query q)))) (connects : P .a11yConnect) (drops : P .a11yDrop)
    (pid : Option Int) (query : Option String)
    {read : Int → Handler κ (Except A11yError (List Element))} (reads : ∀ pid, (read pid).Asks P) :
    (a11yRead pid query read).Asks P := by
  refine Prog.Asks.bind ?_ fun resolved => ?_
  · cases pid with
    | some p => trivial
    | none =>
      refine (asks_activeWindow queries gets sets).bind fun window => ?_
      rcases window with e | (_ | c) <;> trivial
  · cases resolved with
    | error response => trivial
    | ok pid =>
      refine ⟨connects, fun connected => ?_⟩
      cases connected with
      | error e => exact asks_a11yErrorResponse drops e
      | ok _ =>
        refine (reads pid).bind fun elements => ?_
        cases elements with
        | error e => exact asks_a11yErrorResponse drops e
        | ok elements => trivial

/-! ### Acting -/

section Acting

variable (talks : ∀ c, P (.cache (.hypr c))) (pushes : ∀ text inverse, P (.undoPush text inverse))
include talks

theorem asks_void (d : Dispatcher) : (void d : Handler κ Response).Asks P :=
  ⟨talks _, fun _ => trivial⟩

theorem asks_undo (pops : P .undoPop) : (undo : Handler κ Response).Asks P := by
  refine ⟨pops, fun entry => ?_⟩
  cases entry with
  | none => trivial
  | some entry => exact (asks_hypr talks _).bind fun result => by cases result <;> trivial

include pushes

theorem asks_moveToWorkspaceRecorded (workspace : WorkspaceRef) (silent : Bool) :
    (moveToWorkspaceRecorded workspace silent : Handler κ Response).Asks P := by
  refine ⟨talks _, fun window => ?_⟩
  rcases window with e | (_ | active)
  · trivial
  · trivial
  · refine ⟨talks _, fun result => ?_⟩
    cases result with
    | error e => trivial
    | ok _ => exact ⟨pushes _ _, fun _ => trivial⟩

variable (processes : ∀ pid, P (.procCmdline pid))
include processes

theorem asks_killActiveRecorded : (killActiveRecorded : Handler κ Response).Asks P := by
  refine ⟨talks _, fun window => ?_⟩
  rcases window with e | (_ | active)
  · trivial
  · trivial
  · refine ⟨processes _, fun bytes => ⟨talks _, fun result => ?_⟩⟩
    cases result with
    | error e => trivial
    | ok _ =>
      dsimp only
      cases readProcCmdline bytes with
      | none => trivial
      | some command => exact ⟨pushes _ _, fun _ => trivial⟩

theorem asks_closeWindowRecorded (selector : WindowSelector) :
    (closeWindowRecorded selector : Handler κ Response).Asks P := by
  refine ⟨talks _, fun clients => ?_⟩
  cases clients with
  | error e => trivial
  | ok clients =>
    show Prog.Asks P (inverseForMatched (clients.find? (selectorMatches selector)) >>= _)
    refine Prog.Asks.bind ?_ fun inverse => ⟨talks _, fun result => ?_⟩
    · cases clients.find? (selectorMatches selector) with
      | none => trivial
      | some c => exact ⟨processes _, fun _ => trivial⟩
    · cases result with
      | error e => trivial
      | ok _ =>
        dsimp only
        cases clients.find? (selectorMatches selector) with
        | none => trivial
        | some c =>
          cases inverse with
          | none => trivial
          | some action => exact ⟨pushes _ _, fun _ => trivial⟩

end Acting

section Snapshots

variable (talks : ∀ c, P (.cache (.hypr c))) (calls : ∀ c, P (.fs c))
include calls

theorem asks_snapshotDelete (state : State κ) (name : String) : (snapshotDelete state name).Asks P := by
  unfold snapshotDelete
  cases validateName name with
  | error e => trivial
  | ok _ => exact (asks_files calls _).bind fun result => by cases result <;> trivial

include talks

theorem asks_snapshotSave (state : State κ) (name : String) : (snapshotSave state name).Asks P := by
  unfold snapshotSave
  cases validateName name with
  | error e => trivial
  | ok _ =>
    refine (asks_hypr talks _).bind fun snap => ?_
    cases snap with
    | error e => trivial
    | ok snap => exact (asks_files calls _).bind fun result => by cases result <;> trivial

theorem asks_snapshotRestore (clock : P .nowUnix) (state : State κ) (name : String) :
    (snapshotRestore state name).Asks P := by
  refine (asks_files calls _).bind fun target => ?_
  cases target with
  | error e => trivial
  | ok target =>
    refine ⟨clock, fun now => (asks_hypr talks _).bind fun snap => ?_⟩
    cases snap with
    | error e => trivial
    | ok snap =>
      refine (asks_files calls _).bind fun _ => (asks_hypr talks _).bind fun live => ?_
      cases live with
      | error e => trivial
      | ok live => exact (asks_hypr talks _).bind fun _ => trivial

end Snapshots

end Daemon

end HyprPilot
