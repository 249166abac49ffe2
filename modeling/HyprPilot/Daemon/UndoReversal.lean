import HyprPilot.Daemon.UndoState

/-!
# Undo reverses moves

One client moves windows while the focus changes and the daemon restarts. Each recorded entry names
the window that moved and the workspace it left, so undoing it gives back the workspaces as they
were before that move. The stack and the history of the run correspond entry by entry.
-/

namespace HyprPilot
open Interact Daemon

/-! ### The desktop -/

abbrev WorkspaceMap := String → Option Int

structure Desktop where
  workspaceOf : WorkspaceMap
  active : Option String

namespace Desktop

/-- `Id(k)` is the workspace `k`; any other reference is some workspace. -/
def Denotes : WorkspaceRef → Int → Prop
  | .id k, n => n = k
  | _, _ => True

/-- The focused window moves, after which any window may have the focus. -/
def MovesActive (ws : WorkspaceRef) (s t : Desktop) : Prop :=
  match s.active with
  | some a => ∃ n, Denotes ws n ∧ t.workspaceOf = Function.update s.workspaceOf a (some n)
  | none => t.workspaceOf = s.workspaceOf

def Effect : Dispatcher → Desktop → Desktop → Prop
  | .focusWindow (.address a), s, t => t.workspaceOf = s.workspaceOf ∧ t.active = some a
  | .moveActiveToWorkspace ws, s, t => MovesActive ws s t
  | .moveActiveToWorkspaceSilent ws, s, t => MovesActive ws s t
  | _, _, _ => True

def Reports (s : Desktop) : CoreResult (Option Client) → Prop
  | .ok (some c) => s.active = some c.address ∧ s.workspaceOf c.address = some c.workspace.id
  | .ok none => s.active = none
  | .error _ => True

end Desktop

structure Session (κ : Type) where
  desktop : Desktop
  undo : UndoState κ

variable {κ : Type}

/-- A rejected dispatch changes nothing; the disk is reliable. -/
def SessionAct (codec : UndoCodec κ) : (c : Daemon.Cmd κ) → Session κ → Daemon.Ans c → Session κ → Prop
  | .cache (.hypr (.query .activeWindow)), s, x, t => s.desktop.Reports x ∧ t = s
  | .cache (.hypr (.dispatch d)), s, x, t =>
    t.undo = s.undo ∧
      match x with
      | .ok () => Desktop.Effect d s.desktop t.desktop
      | .error _ => t.desktop = s.desktop
  | c, s, x, t => t.desktop = s.desktop ∧ UndoAct codec Fs.Reliable c s.undo x t.undo

/-! ### Runs -/

def moveRequest (ws : WorkspaceRef) (silent : Bool) : Request :=
  if silent then .dispatchMoveToWorkspaceSilent ws else .dispatchMoveToWorkspace ws

def Starts (codec : UndoCodec κ) (path : String) (disk : Fs.State κ) (u : UndoState κ) : Prop :=
  ∃ outcome, Prog.Exec Fs.Reliable (startUndo codec path) disk (outcome, u.stack) u.files

/-- A run with the workspaces before each of its successful moves, the last one first. -/
inductive MoveRun (codec : UndoCodec κ) (state : Daemon.State κ) (path : String) :
    List WorkspaceMap → Session κ → Prop where
  | start {disk : Fs.State κ} {s : Session κ} :
      Starts codec path disk s.undo → MoveRun codec state path [] s
  | moved {history : List WorkspaceMap} {s t : Session κ} (ws : WorkspaceRef) (silent : Bool)
      {result : Reply} :
      MoveRun codec state path history s →
      Prog.Exec (SessionAct codec) (handleRequest state (moveRequest ws silent)) s (.ok result) t →
      MoveRun codec state path (s.desktop.workspaceOf :: history) t
  | refused {history : List WorkspaceMap} {s t : Session κ} (ws : WorkspaceRef) (silent : Bool)
      {code message : String} :
      MoveRun codec state path history s →
      Prog.Exec (SessionAct codec) (handleRequest state (moveRequest ws silent)) s
        (.err code message) t →
      MoveRun codec state path history t
  | focused {history : List WorkspaceMap} {s t : Session κ} :
      MoveRun codec state path history s → t.desktop.workspaceOf = s.desktop.workspaceOf →
      t.undo = s.undo → MoveRun codec state path history t
  | restarted {history : List WorkspaceMap} {s t : Session κ} :
      MoveRun codec state path history s → t.desktop = s.desktop →
      Starts codec path s.undo.files t.undo → MoveRun codec state path history t

/-- So many undos answered `ok`, with changes of the focus and restarts anywhere around them. -/
inductive Undone (codec : UndoCodec κ) (state : Daemon.State κ) (path : String) (s : Session κ) :
    Nat → Session κ → Prop where
  | none : Undone codec state path s 0 s
  | undone {n : Nat} {t u : Session κ} {result : Reply} :
      Undone codec state path s n t →
      Prog.Exec (SessionAct codec) (handleRequest state .undo) t (.ok result) u →
      Undone codec state path s (n + 1) u
  | focused {n : Nat} {t u : Session κ} :
      Undone codec state path s n t → u.desktop.workspaceOf = t.desktop.workspaceOf →
      u.undo = t.undo → Undone codec state path s n u
  | restarted {n : Nat} {t u : Session κ} :
      Undone codec state path s n t → u.desktop = t.desktop →
      Starts codec path t.undo.files u.undo → Undone codec state path s n u

/-! ### What a request does -/

section Requests

variable {codec : UndoCodec κ} {s t : Session κ}

/-- A move request is refused without effect, or moves the window it records. -/
theorem exec_move {ws : WorkspaceRef} {silent : Bool} {response : Response}
    (run : Prog.Exec (SessionAct codec) (moveToWorkspaceRecorded ws silent) s response t) :
    (∃ code message, response = .err code message ∧ t = s) ∨
    ∃ address old new now description,
      response = .ok (.moved address) ∧ s.desktop.workspaceOf address = some old ∧
      t.desktop.workspaceOf = Function.update s.desktop.workspaceOf address (some new) ∧
      Prog.Exec Fs.Reliable (s.undo.stack.push codec now description
        (.moveToWorkspace (.address address) (.id old) silent)) s.undo.files
        t.undo.stack t.undo.files := by
  unfold moveToWorkspaceRecorded at run
  rw [Prog.call_bind, Prog.exec_ask] at run
  obtain ⟨reply, s', ⟨reports, rfl⟩, rest⟩ := run
  have refusal : ∀ e, Prog.Exec (SessionAct codec)
      (Prog.ret (Response.ofCoreError e)) s' response t →
      ∃ code message, response = .err code message ∧ t = s' := by
    intro e ending
    obtain ⟨rfl, rfl⟩ := Prog.exec_ret.mp ending
    exact ⟨_, _, rfl, rfl⟩
  cases reply with
  | error e => exact Or.inl (refusal e rest)
  | ok window =>
    cases window with
    | none =>
      obtain ⟨rfl, rfl⟩ := Prog.exec_ret.mp rest
      exact Or.inl ⟨_, _, rfl, rfl⟩
    | some active =>
      obtain ⟨focused, home⟩ := reports
      obtain ⟨result, u, ⟨undo, effect⟩, ending⟩ := Prog.exec_ask.mp rest
      cases result with
      | error e =>
        obtain rfl : u = s' := by
          obtain ⟨desktop, undo'⟩ := u
          cases effect
          cases undo
          rfl
        exact Or.inl (refusal e ending)
      | ok _ =>
        have moves : Desktop.MovesActive ws s'.desktop u.desktop := by
          cases silent <;> exact effect
        rw [Desktop.MovesActive, focused] at moves
        obtain ⟨new, -, moved⟩ := moves
        obtain ⟨_, v, ⟨desktop, now, push⟩, ending⟩ := Prog.exec_ask.mp ending
        obtain ⟨rfl, rfl⟩ := Prog.exec_ret.mp ending
        rw [undo] at push
        rw [← desktop] at moved
        exact Or.inr ⟨_, _, new, now, _, rfl, home, moved, push⟩

theorem exec_moveRequest {state : Daemon.State κ} {ws : WorkspaceRef} {silent : Bool}
    {response : Response}
    (run : Prog.Exec (SessionAct codec) (handleRequest state (moveRequest ws silent)) s response t) :
    Prog.Exec (SessionAct codec) (moveToWorkspaceRecorded ws silent) s response t := by
  cases silent <;> exact run

theorem exec_hypr_undo {α : Type} {p : Connection.Call α} {a : α}
    (run : Prog.Exec (SessionAct codec) (hypr p) s a t) : t.undo = s.undo := by
  induction p generalizing s with
  | ret b =>
    obtain ⟨-, rfl⟩ := Prog.exec_ret.mp run
    rfl
  | ask c k ih =>
    obtain ⟨x, u, act, rest⟩ := Prog.exec_ask.mp run
    have same : u.undo = s.undo := by
      cases c with
      | query q =>
        cases q with
        | activeWindow => rw [act.2]
        | _ => exact act.2
      | dispatch d => exact act.1
      | nowUnix => exact act.2
    exact (ih x rest).trans same

theorem exec_applyInverse {address : String} {old : Int} {silent : Bool}
    (run : Prog.Exec (SessionAct codec)
      (hypr (applyInverse (.moveToWorkspace (.address address) (.id old) silent))) s (.ok ()) t) :
    t.desktop.workspaceOf = Function.update s.desktop.workspaceOf address (some old) := by
  obtain ⟨focused, u, ⟨-, effect⟩, rest⟩ := Prog.exec_ask.mp run
  cases focused with
  | error e => cases (Prog.exec_ret.mp rest).1
  | ok _ =>
    obtain ⟨same, active⟩ := effect
    have moves : ∀ d, d = .moveActiveToWorkspace (.id old) ∨
        d = .moveActiveToWorkspaceSilent (.id old) →
        Prog.Exec (SessionAct codec) (hypr (Connection.dispatch d)) u (.ok ()) t →
        t.desktop.workspaceOf = Function.update s.desktop.workspaceOf address (some old) := by
      intro d kind sending
      obtain ⟨moved, v, ⟨-, effect⟩, rest⟩ := Prog.exec_ask.mp sending
      obtain ⟨rfl, rfl⟩ := Prog.exec_ret.mp rest
      have moving : Desktop.MovesActive (.id old) u.desktop t.desktop := by
        rcases kind with rfl | rfl <;> exact effect
      rw [Desktop.MovesActive, active] at moving
      obtain ⟨n, rfl, moved⟩ := moving
      rw [moved, same]
    cases silent with
    | true => exact moves _ (Or.inr rfl) rest
    | false => exact moves _ (Or.inl rfl) rest

/-- An undo answered `ok` takes the newest entry; that of a move puts its window back. -/
theorem exec_undo {state : Daemon.State κ} {result : Reply}
    (run : Prog.Exec (SessionAct codec) (handleRequest state .undo) s (.ok result) t) :
    ∃ entry rest, s.undo.stack.entries.reverse = entry :: rest ∧
      t.undo.stack = s.undo.stack.popped ∧
      Prog.Exec Fs.Reliable (t.undo.stack.persist codec) s.undo.files () t.undo.files ∧
      ∀ address old silent, entry.inverse = .moveToWorkspace (.address address) (.id old) silent →
        t.desktop.workspaceOf = Function.update s.desktop.workspaceOf address (some old) := by
  have undoing : Prog.Exec (SessionAct codec) undo s (.ok result) t := run
  unfold undo at undoing
  rw [Prog.call_bind, Prog.exec_ask] at undoing
  obtain ⟨popped, u, ⟨desktop, pop⟩, rest⟩ := undoing
  obtain ⟨taken, change⟩ := UndoStack.exec_pop pop
  cases popped with
  | none => cases (Prog.exec_ret.mp rest).1
  | some entry =>
    obtain ⟨shorter, written⟩ : u.undo.stack = s.undo.stack.popped ∧
        Prog.Exec Fs.Reliable (u.undo.stack.persist codec) s.undo.files () u.undo.files := by
      rcases change with ⟨none, -, -⟩ | popping
      · cases none
      · exact popping
    obtain ⟨applied, v, applying, rest⟩ := Prog.exec_bind.mp rest
    have kept := exec_hypr_undo applying
    cases applied with
    | error e => cases (Prog.exec_ret.mp rest).1
    | ok _ =>
      obtain ⟨-, rfl⟩ := Prog.exec_ret.mp rest
      have head : s.undo.stack.entries.reverse.head? = some entry := by
        rw [List.head?_reverse, taken]
      obtain ⟨tail, split⟩ := List.head?_eq_some_iff.mp head
      rw [kept]
      refine ⟨entry, tail, split, shorter, written, ?_⟩
      intro address old silent inverse
      rw [inverse] at applying
      rw [exec_applyInverse applying, desktop]

end Requests

/-! ### The stack and the history -/

/-- Entry by entry, newest first: each entry puts one window back where it was before its move. -/
def Undoable : List UndoEntry → List WorkspaceMap → WorkspaceMap → Prop
  | _, [], _ => True
  | [], _ :: _, _ => False
  | entry :: entries, before :: older, now =>
    (∃ address old new silent,
      entry.inverse = .moveToWorkspace (.address address) (.id old) silent ∧
        before address = some old ∧ now = Function.update before address (some new)) ∧
      Undoable entries older before

theorem undoable_nil (entries : List UndoEntry) (now : WorkspaceMap) : Undoable entries [] now := by
  cases entries <;> trivial

/-- Eviction drops the oldest entries together with the oldest moves. -/
theorem Undoable.take {entries : List UndoEntry} {history : List WorkspaceMap} {now : WorkspaceMap}
    (h : Undoable entries history now) (m : Nat) :
    Undoable (entries.take m) (history.take m) now := by
  induction history generalizing entries now m with
  | nil =>
    rw [List.take_nil]
    exact undoable_nil _ _
  | cons before older ih =>
    cases entries with
    | nil => exact h.elim
    | cons entry entries =>
      cases m with
      | zero => trivial
      | succ m => exact ⟨h.1, ih h.2 m⟩

structure Recorded (codec : UndoCodec κ) (path : String) (history : List WorkspaceMap)
    (s : Session κ) : Prop where
  capacity : s.undo.stack.capacity = undoCapacity
  persisted : s.undo.stack.persistPath = some path
  /-- A restart would load the entries that are in memory. -/
  onDisk : s.undo.stack.entries = UndoStack.reload codec undoCapacity (s.undo.files path)
  undoable : Undoable s.undo.stack.entries.reverse history s.desktop.workspaceOf

section Recorded

variable {codec : UndoCodec κ} {path : String} {history : List WorkspaceMap} {s t : Session κ}

theorem starts_loads {disk : Fs.State κ} {u : UndoState κ} (starts : Starts codec path disk u) :
    u.stack.entries = UndoStack.reload codec undoCapacity (disk path) ∧
      u.stack.capacity = undoCapacity ∧ u.stack.persistPath = some path ∧ u.files = disk := by
  obtain ⟨outcome, run⟩ := starts
  exact UndoStack.enablePersistence_reliable run rfl

theorem Recorded.length_le (recorded : Recorded codec path history s) :
    s.undo.stack.entries.length ≤ s.undo.stack.capacity := by
  rw [recorded.capacity, recorded.onDisk]
  exact UndoStack.length_reload_le _ _ _

/-- Written entries that fit are the ones that a restart loads. -/
theorem reload_persisted {disk : Fs.State κ}
    (written : Prog.Exec Fs.Reliable (t.undo.stack.persist codec) disk () t.undo.files)
    (persisted : t.undo.stack.persistPath = some path)
    (fits : t.undo.stack.entries.length ≤ undoCapacity) :
    t.undo.stack.entries = UndoStack.reload codec undoCapacity (t.undo.files path) := by
  rw [UndoStack.persist_reliable written persisted, UndoStack.reload, codec.decode_encode]
  exact (UndoStack.newest_of_length_le fits).symm

theorem Recorded.push (recorded : Recorded codec path history s) {address description : String}
    {old new now : Int} {silent : Bool}
    (home : s.desktop.workspaceOf address = some old)
    (moved : t.desktop.workspaceOf = Function.update s.desktop.workspaceOf address (some new))
    (push : Prog.Exec Fs.Reliable (s.undo.stack.push codec now description
      (.moveToWorkspace (.address address) (.id old) silent)) s.undo.files
      t.undo.stack t.undo.files) :
    Recorded codec path (s.desktop.workspaceOf :: history.take (undoCapacity - 1)) t := by
  obtain ⟨stack, written⟩ := UndoStack.exec_push push
  have capacity : t.undo.stack.capacity = undoCapacity := by rw [stack]; exact recorded.capacity
  have persisted : t.undo.stack.persistPath = some path := by rw [stack]; exact recorded.persisted
  have room : 0 < s.undo.stack.capacity := by rw [recorded.capacity]; decide
  have reversed := UndoStack.pushed_reverse
    ⟨now, description, .moveToWorkspace (.address address) (.id old) silent⟩ recorded.length_le room
  rw [← stack, recorded.capacity] at reversed
  have fits : t.undo.stack.entries.length ≤ undoCapacity := by
    have length := congrArg List.length reversed
    rw [List.length_reverse, List.length_cons, List.length_take] at length
    have positive : 0 < undoCapacity := by decide
    omega
  refine ⟨capacity, persisted, reload_persisted written persisted fits, ?_⟩
  rw [reversed]
  exact ⟨⟨address, old, new, silent, rfl, home, moved⟩, recorded.undoable.take _⟩

theorem Recorded.pop {result : Reply} {state : Daemon.State κ} {before : WorkspaceMap}
    {older : List WorkspaceMap} (recorded : Recorded codec path (before :: older) s)
    (run : Prog.Exec (SessionAct codec) (handleRequest state .undo) s (.ok result) t) :
    t.desktop.workspaceOf = before ∧ Recorded codec path older t := by
  obtain ⟨entry, rest, split, stack, written, effect⟩ := exec_undo run
  have capacity : t.undo.stack.capacity = undoCapacity := by rw [stack]; exact recorded.capacity
  have persisted : t.undo.stack.persistPath = some path := by rw [stack]; exact recorded.persisted
  have fits : t.undo.stack.entries.length ≤ undoCapacity := by
    have length := recorded.length_le
    rw [recorded.capacity] at length
    rw [stack, UndoStack.popped, List.length_dropLast]
    omega
  have undoable := recorded.undoable
  rw [split] at undoable
  obtain ⟨⟨address, old, new, silent, inverse, home, moved⟩, earlier⟩ := undoable
  have back : t.desktop.workspaceOf = before := by
    rw [effect address old silent inverse, moved, Function.update_idem, ← home,
      Function.update_eq_self]
  refine ⟨back, capacity, persisted, reload_persisted written persisted fits, ?_⟩
  rw [stack, UndoStack.popped_reverse, split, List.tail_cons, back]
  exact earlier

theorem Recorded.focus (recorded : Recorded codec path history s)
    (same : t.desktop.workspaceOf = s.desktop.workspaceOf) (undo : t.undo = s.undo) :
    Recorded codec path history t := by
  refine ⟨?_, ?_, ?_, ?_⟩
  · rw [undo]; exact recorded.capacity
  · rw [undo]; exact recorded.persisted
  · rw [undo]; exact recorded.onDisk
  · rw [undo, same]; exact recorded.undoable

theorem Recorded.restart (recorded : Recorded codec path history s)
    (desktop : t.desktop = s.desktop) (starts : Starts codec path s.undo.files t.undo) :
    Recorded codec path history t := by
  obtain ⟨loaded, capacity, persisted, files⟩ := starts_loads starts
  refine ⟨capacity, persisted, by rw [files]; exact loaded, ?_⟩
  rw [loaded, ← recorded.onDisk, desktop]
  exact recorded.undoable

theorem MoveRun.recorded {state : Daemon.State κ} (run : MoveRun codec state path history s) :
    Recorded codec path (history.take undoCapacity) s := by
  induction run with
  | start starts =>
    obtain ⟨loaded, capacity, persisted, files⟩ := starts_loads starts
    refine ⟨capacity, persisted, by rw [files]; exact loaded, ?_⟩
    rw [List.take_nil]
    exact undoable_nil _ _
  | moved ws silent _ request ih =>
    rcases exec_move (exec_moveRequest request) with ⟨code, message, refused, -⟩ | done
    · cases refused
    · obtain ⟨address, old, new, now, description, -, home, moved, push⟩ := done
      have pushed := ih.push home moved push
      rw [List.take_take] at pushed
      exact pushed
  | refused ws silent _ request ih =>
    rcases exec_move (exec_moveRequest request) with ⟨code, message, -, rfl⟩ | done
    · exact ih
    · obtain ⟨address, old, new, now, description, accepted, -⟩ := done
      cases accepted
  | focused _ same undo ih => exact ih.focus same undo
  | restarted _ desktop starts ih => exact ih.restart desktop starts

/-- The `n`th undo leaves the workspaces as they were before the `n`th newest move. -/
theorem Undone.steps_back {state : Daemon.State κ} {n : Nat}
    (undone : Undone codec state path s n t) (recorded : Recorded codec path history s)
    (enough : n ≤ history.length) :
    (s.desktop.workspaceOf :: history)[n]? = some t.desktop.workspaceOf ∧
      Recorded codec path (history.drop n) t := by
  induction undone with
  | none => exact ⟨rfl, recorded⟩
  | @undone n t u result _ request ih =>
    obtain ⟨-, before⟩ := ih (by omega)
    rw [List.drop_eq_getElem_cons enough] at before
    obtain ⟨back, older⟩ := before.pop request
    rw [List.getElem?_cons_succ, List.getElem?_eq_getElem enough, back]
    exact ⟨rfl, older⟩
  | focused _ same undo ih =>
    obtain ⟨now, before⟩ := ih enough
    rw [same]
    exact ⟨now, before.focus same undo⟩
  | restarted _ desktop starts ih =>
    obtain ⟨now, before⟩ := ih enough
    rw [desktop]
    exact ⟨now, before.restart desktop starts⟩

end Recorded

/-- After a run of moves, so many undos give every window the workspace that it had before the move
so many moves back. -/
theorem undo_reverses_moves {codec : UndoCodec κ} {state : Daemon.State κ} {path : String}
    {history : List WorkspaceMap} {s t : Session κ} {k : Nat} {before : WorkspaceMap}
    (run : MoveRun codec state path history s) (found : history[k]? = some before)
    (recorded : k < undoCapacity) (undone : Undone codec state path s (k + 1) t) :
    t.desktop.workspaceOf = before := by
  have kept : (history.take undoCapacity)[k]? = some before := by
    rw [List.getElem?_take_of_lt recorded, found]
  have enough : k + 1 ≤ (history.take undoCapacity).length := by
    obtain ⟨within, -⟩ := List.getElem?_eq_some_iff.mp kept
    omega
  obtain ⟨back, -⟩ := undone.steps_back run.recorded enough
  rw [List.getElem?_cons_succ, kept] at back
  exact (Option.some.inj back).symm

/-! ### Two moves and two undos -/

def kittyOn (ws : Int) : Desktop := ⟨Function.update (fun _ => none) "0xa" (some ws), some "0xa"⟩

theorem kittyOn_moved (old new : Int) :
    (kittyOn new).workspaceOf = Function.update (kittyOn old).workspaceOf "0xa" (some new) := by
  rw [kittyOn, kittyOn, Function.update_idem]

def kittyMove (old new : Int) : UndoEntry :=
  ⟨0, "move kitty from ws " ++ toString old ++ " to ws " ++ (WorkspaceRef.id new).encode,
    .moveToWorkspace (.address "0xa") (.id old) true⟩

theorem kitty_moves (old new : Int) (stack : UndoStack) (disk : Fs.State StateFile) :
    ∃ disk', Prog.Exec Fs.Reliable ((stack.pushed (kittyMove old new)).persist
        StateFile.undoEntries) disk () disk' ∧
      Prog.Exec (SessionAct StateFile.undoEntries)
        (handleRequest plainState (moveRequest (.id new) true)) ⟨kittyOn old, stack, disk⟩
        (.ok (.moved "0xa")) ⟨kittyOn new, stack.pushed (kittyMove old new), disk'⟩ := by
  obtain ⟨disk', saved⟩ := UndoStack.persist_runs StateFile.undoEntries
    (stack.pushed (kittyMove old new)) disk
  have push : Prog.Exec Fs.Reliable (stack.push StateFile.undoEntries 0
      (kittyMove old new).description (kittyMove old new).inverse) disk
      (stack.pushed (kittyMove old new)) disk' :=
    Prog.exec_bind.mpr ⟨(), disk', saved, .ret _ _⟩
  refine ⟨disk', saved, ?_⟩
  exact .ask (.ok (some { kitty with workspace := ⟨old, toString old⟩ })) ⟨⟨rfl, rfl⟩, rfl⟩ <|
    .ask (u := ⟨kittyOn new, stack, disk⟩) (.ok ()) ⟨rfl, new, rfl, kittyOn_moved old new⟩ <|
      .ask (u := ⟨kittyOn new, stack.pushed (kittyMove old new), disk'⟩) () ⟨rfl, 0, push⟩
        (.ret _ _)

theorem kitty_undoes {old new : Int} (stack : UndoStack)
    (last : stack.entries.getLast? = some (kittyMove old new)) (active : Option String)
    (disk : Fs.State StateFile) :
    ∃ disk', Prog.Exec Fs.Reliable (stack.popped.persist StateFile.undoEntries) disk () disk' ∧
      Prog.Exec (SessionAct StateFile.undoEntries) (handleRequest plainState .undo)
        ⟨⟨(kittyOn new).workspaceOf, active⟩, stack, disk⟩ (.ok (.undone (kittyMove old new).description))
        ⟨kittyOn old, stack.popped, disk'⟩ := by
  obtain ⟨disk', saved⟩ := UndoStack.persist_runs StateFile.undoEntries stack.popped disk
  have pop : Prog.Exec Fs.Reliable (stack.pop StateFile.undoEntries) disk
      (some (kittyMove old new), stack.popped) disk' := by
    unfold UndoStack.pop
    rw [last]
    exact Prog.exec_bind.mpr ⟨(), disk', saved, .ret _ _⟩
  let popped : Session StateFile := ⟨⟨(kittyOn new).workspaceOf, active⟩, stack.popped, disk'⟩
  let focused : Session StateFile := ⟨kittyOn new, stack.popped, disk'⟩
  let back : Session StateFile := ⟨kittyOn old, stack.popped, disk'⟩
  refine ⟨disk', saved, ?_⟩
  exact .ask (u := popped) (some (kittyMove old new)) ⟨rfl, pop⟩ <|
    .ask (u := focused) (.ok ()) ⟨rfl, rfl, rfl⟩ <|
      .ask (u := back) (.ok ()) ⟨rfl, old, rfl, kittyOn_moved new old⟩ (.ret _ _)

theorem starts_saved {codec : UndoCodec κ} {path : String} {disk : Fs.State κ}
    {entries : List UndoEntry} (saved : disk path = some (codec.encode entries)) :
    Starts codec path disk
      ⟨⟨UndoStack.newest undoCapacity entries, undoCapacity, some path⟩, disk⟩ := by
  have reading : Prog.Exec Fs.Reliable (UndoStack.readEntries codec path) disk (.ok entries)
      disk := by
    refine .ask (.ok (codec.encode entries)) ⟨⟨?_, rfl⟩, ?_⟩ ?_
    · intro content same
      rw [saved, Except.ok.inj same]
    · intro content same
      rw [saved] at same
      rw [Option.some.inj same]
    · rw [← codec.decode_encode entries]
      exact .ret _ _
  refine ⟨.loaded (UndoStack.newest undoCapacity entries).length, ?_⟩
  have found : true = (disk path).isSome := by rw [saved]; rfl
  unfold startUndo UndoStack.enablePersistence
  rw [Prog.call_bind, Prog.exec_ask]
  refine ⟨true, disk, ⟨⟨found, rfl⟩, trivial⟩, ?_⟩
  exact Prog.exec_bind.mpr ⟨Except.ok entries, disk, reading, .ret _ _⟩

/-- Between the two undos the daemon restarts and the window loses the focus. -/
theorem undo_reverses_moves_twice : ∃ s t : Session StateFile,
    MoveRun StateFile.undoEntries plainState "/s/undo.json"
        [(kittyOn 2).workspaceOf, (kittyOn 1).workspaceOf] s ∧
      Undone StateFile.undoEntries plainState "/s/undo.json" s 2 t ∧
      s.desktop.workspaceOf "0xa" = some 3 ∧ t.desktop.workspaceOf = (kittyOn 1).workspaceOf := by
  let stack : UndoStack := ⟨[], undoCapacity, some "/s/undo.json"⟩
  let once := stack.pushed (kittyMove 1 2)
  have starts : Starts StateFile.undoEntries "/s/undo.json" (fun _ => none) ⟨stack, fun _ => none⟩ :=
    ⟨.empty, .ask false ⟨⟨rfl, rfl⟩, trivial⟩ (.ret _ _)⟩
  obtain ⟨disk, -, first⟩ := kitty_moves 1 2 stack fun _ => none
  obtain ⟨disk', -, second⟩ := kitty_moves 2 3 once disk
  have run := MoveRun.moved (.id 3) true
    (MoveRun.moved (.id 2) true (MoveRun.start starts) first) second
  have twice : (once.pushed (kittyMove 2 3)).popped = once := rfl
  obtain ⟨disk'', written, back⟩ := kitty_undoes (once.pushed (kittyMove 2 3)) rfl
    (some "0xa") disk'
  rw [twice] at written back
  have again := starts_saved (UndoStack.persist_reliable written rfl)
  obtain ⟨last, -, further⟩ := kitty_undoes once rfl none disk''
  have restarted := Undone.restarted (.undone .none back) rfl again
  have unfocused := Undone.focused (u := ⟨⟨(kittyOn 2).workspaceOf, none⟩, once, disk''⟩) restarted
    rfl rfl
  have undone := Undone.undone unfocused further
  exact ⟨_, _, run, undone, rfl, undo_reverses_moves run rfl (by decide) undone⟩

end HyprPilot
