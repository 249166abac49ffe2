import HyprPilot.Daemon.UndoState
import Mathlib.Data.List.DropRight

/-!
# The undo stack across restarts

The reference is a list bounded by its capacity and the list that was last written. A run of the
stack, with writes that fail at any of their calls and with restarts of any capacity, keeps the
entries of the reference in memory and its written list in the file.
-/

namespace HyprPilot
open Interact Fs

inductive UndoOp where
  | push (now : Int) (description : String) (inverse : InverseAction)
  | pop
  | restart (capacity : Nat) (room : 0 < capacity)

/-- Entries oldest first; `saved` is what a reader of the file finds. -/
structure UndoReference where
  entries : List UndoEntry
  capacity : Nat
  saved : Option (List UndoEntry)

namespace UndoReference

def boot (capacity : Nat) (saved : Option (List UndoEntry)) : UndoReference :=
  ⟨(saved.getD []).rtake capacity, capacity, saved⟩

def keep (r : UndoReference) (entries : List UndoEntry) (wrote : Bool) : UndoReference :=
  { r with entries := entries, saved := if wrote then some entries else r.saved }

def next (r : UndoReference) (wrote : Bool) : UndoOp → UndoReference
  | .push now description inverse =>
    r.keep ((r.entries ++ [(⟨now, description, inverse⟩ : UndoEntry)]).rtake r.capacity) wrote
  | .pop => r.keep r.entries.dropLast wrote
  | .restart capacity _ => boot capacity r.saved

/-- Each operation comes with whether its write took effect. -/
def after (r : UndoReference) (ops : List (UndoOp × Bool)) : UndoReference :=
  ops.foldl (fun r op => r.next op.2 op.1) r

end UndoReference

variable {κ : Type} {codec : UndoCodec κ} {path : String}

def stored (codec : UndoCodec κ) (content : Option κ) : Option (List UndoEntry) :=
  content.bind fun raw => (codec.decode raw).toOption

def UndoOp.program (codec : UndoCodec κ) (path : String) (s : UndoStack) :
    UndoOp → Fs.Call κ (Option UndoEntry × UndoStack)
  | .push now description inverse => do
    let s ← s.push codec now description inverse
    return (none, s)
  | .pop => s.pop codec
  | .restart capacity _ => do
    let (_, s) ← (UndoStack.withCapacity capacity).enablePersistence codec path
    return (none, s)

/-- The operations of a run, each with whether its write took effect. -/
inductive UndoRun (codec : UndoCodec κ) (path : String) :
    UndoState κ → List (UndoOp × Bool) → UndoState κ → Prop where
  | done (s : UndoState κ) : UndoRun codec path s [] s
  | step {s t u : UndoState κ} {op : UndoOp} {ops : List (UndoOp × Bool)}
      {calls : List (Sigma Fs.Ans)} {popped : Option UndoEntry} :
      Prog.Run (op.program codec path s.stack) calls (popped, t.stack) →
      Prog.Follows Readable s.files calls t.files →
      UndoRun codec path t ops u → UndoRun codec path s ((op, renamed calls) :: ops) u

structure UndoState.Refines (codec : UndoCodec κ) (path : String) (s : UndoState κ)
    (r : UndoReference) : Prop where
  entries : s.stack.entries = r.entries
  capacity : s.stack.capacity = r.capacity
  persisted : s.stack.persistPath = some path
  room : 0 < r.capacity
  bounded : r.entries.length ≤ r.capacity
  saved : stored codec (s.files path) = r.saved

namespace UndoStack

theorem length_rtake_le (entries : List UndoEntry) (capacity : Nat) :
    (entries.rtake capacity).length ≤ capacity := length_newest_le capacity entries

/-- A push keeps the newest entries that fit. -/
theorem pushed_entries {s : UndoStack} (entry : UndoEntry) (fits : s.entries.length ≤ s.capacity)
    (room : 0 < s.capacity) :
    (s.pushed entry).entries = (s.entries ++ [entry]).rtake s.capacity := by
  obtain ⟨n, capacity⟩ : ∃ n, s.capacity = n + 1 := ⟨s.capacity - 1, by omega⟩
  rw [capacity, List.rtake_concat_succ]
  unfold pushed
  by_cases full : s.entries.length = s.capacity
  · have one : s.entries.length - n = 1 := by omega
    rw [if_pos full, List.rtake, one, List.drop_one]
  · have none : s.entries.length - n = 0 := by omega
    rw [if_neg full, List.rtake, none, List.drop_zero]

end UndoStack

/-! ### One operation -/

section Step

variable {s t : UndoStack} {d d' : Fs.State κ} {calls : List (Sigma Fs.Ans)}

theorem follows_exec {α : Type} {p : Fs.Call κ α} {a : α} (run : Prog.Run p calls a)
    (follows : Prog.Follows Readable d calls d') : Prog.Exec Act p d a d' :=
  (Prog.exec_iff_run.mpr ⟨calls, run, follows⟩).mono fun _ _ _ _ call => call.1

/-- The file holds the entries when the write took effect, and what it held before otherwise. -/
theorem persist_file (run : Prog.Run (s.persist codec) calls ())
    (follows : Prog.Follows Readable d calls d') (persisted : s.persistPath = some path) :
    stored codec (d' path) = if renamed calls then some s.entries else stored codec (d path) := by
  unfold UndoStack.persist at run
  rw [persisted] at run
  obtain ⟨writing, none, result, rfl, wrote, ending⟩ := Prog.run_bind.mp run
  obtain ⟨rfl, -⟩ := Prog.run_ret.mp ending
  rw [List.append_nil] at follows ⊢
  have exec := follows_exec wrote follows
  have effect := writeAtomically_renamed wrote
  cases result with
  | ok _ =>
    rw [effect.mpr rfl, writeAtomically_ok exec]
    simp [stored, codec.decode_encode, Except.toOption]
  | error e =>
    have failed : renamed writing = false := by
      rw [Bool.eq_false_iff]
      intro moved
      cases effect.mp moved
    have kept := writeAtomically_error exec path (withExtension_tmp_ne path).symm
    rw [failed, kept]
    rfl

theorem push_run {now : Int} {description : String} {inverse : InverseAction}
    (run : Prog.Run (s.push codec now description inverse) calls t) :
    t = s.pushed ⟨now, description, inverse⟩ ∧ Prog.Run (t.persist codec) calls () := by
  unfold UndoStack.push at run
  obtain ⟨writing, none, _, rfl, wrote, ending⟩ := Prog.run_bind.mp run
  obtain ⟨rfl, rfl⟩ := Prog.run_ret.mp ending
  rw [List.append_nil]
  exact ⟨rfl, wrote⟩

theorem pop_run {popped : Option UndoEntry} (run : Prog.Run (s.pop codec) calls (popped, t)) :
    popped = s.entries.getLast? ∧ t = s.popped ∧
      ((calls = [] ∧ s.entries = []) ∨ Prog.Run (t.persist codec) calls ()) := by
  unfold UndoStack.pop at run
  split at run
  · rename_i nothing
    obtain ⟨rfl, same⟩ := Prog.run_ret.mp run
    cases same
    have empty := List.getLast?_eq_none_iff.mp nothing
    refine ⟨nothing.symm, ?_, Or.inl ⟨rfl, empty⟩⟩
    unfold UndoStack.popped
    rw [empty, List.dropLast_nil, ← empty]
  · rename_i entry last
    obtain ⟨writing, none, _, rfl, wrote, ending⟩ := Prog.run_bind.mp run
    obtain ⟨rfl, same⟩ := Prog.run_ret.mp ending
    cases same
    rw [List.append_nil]
    exact ⟨last.symm, rfl, Or.inr wrote⟩

theorem restart_run {fresh : UndoStack} {outcome : LoadOutcome}
    (run : Prog.Run (fresh.enablePersistence codec path) calls (outcome, t))
    (follows : Prog.Follows Readable d calls d') (empty : fresh.entries = []) :
    t.entries = ((stored codec (d path)).getD []).rtake fresh.capacity ∧
      t.capacity = fresh.capacity ∧ t.persistPath = some path ∧ d' = d := by
  have exec := Prog.exec_iff_run.mpr ⟨calls, run, follows⟩
  unfold UndoStack.enablePersistence at exec
  rw [Prog.call_bind, Prog.exec_ask] at exec
  obtain ⟨found, u, ⟨⟨rfl, rfl⟩, -⟩, exec⟩ := exec
  cases content : u path with
  | none =>
    rw [content] at exec
    obtain ⟨same, rfl⟩ := Prog.exec_ret.mp exec
    cases same
    simp [stored, empty, List.rtake]
  | some raw =>
    rw [content] at exec
    obtain ⟨loaded, v, reading, rest⟩ := Prog.exec_bind.mp exec
    unfold UndoStack.readEntries at reading
    rw [Prog.call_bind, Prog.exec_ask] at reading
    obtain ⟨read, w, ⟨⟨-, rfl⟩, works⟩, reading⟩ := reading
    obtain rfl : read = .ok raw := works raw content
    obtain ⟨rfl, rfl⟩ := Prog.exec_ret.mp reading
    cases decoded : codec.decode raw with
    | ok entries =>
      rw [decoded] at rest
      obtain ⟨same, rfl⟩ := Prog.exec_ret.mp rest
      cases same
      simp [stored, decoded, Except.toOption, UndoStack.newest, List.rtake]
    | error e =>
      rw [decoded] at rest
      obtain ⟨same, rfl⟩ := Prog.exec_ret.mp rest
      cases same
      simp [stored, decoded, Except.toOption, empty, List.rtake]

end Step

section Run

variable {s t : UndoState κ} {r : UndoReference} {op : UndoOp} {calls : List (Sigma Fs.Ans)}
  {popped : Option UndoEntry}

/-- A start on any disk reaches the reference that has read the same file. -/
theorem restart_refines {capacity : Nat} {room : 0 < capacity}
    (run : Prog.Run (UndoOp.program codec path s.stack (.restart capacity room)) calls (popped, t.stack))
    (follows : Prog.Follows Readable s.files calls t.files) :
    t.Refines codec path (.boot capacity (stored codec (s.files path))) := by
  obtain ⟨first, none, ⟨outcome, fresh⟩, rfl, loading, ending⟩ := Prog.run_bind.mp run
  obtain ⟨rfl, same⟩ := Prog.run_ret.mp ending
  rw [List.append_nil] at follows
  obtain ⟨-, rfl⟩ := Prod.mk.inj same
  obtain ⟨entries, bound, persisted, unchanged⟩ := restart_run loading follows rfl
  refine ⟨entries, bound, persisted, room, ?_, by rw [unchanged]; rfl⟩
  exact UndoStack.length_rtake_le _ _

theorem persist_refines {entries : List UndoEntry} (refines : s.Refines codec path r)
    (same : t.stack = { s.stack with entries := entries })
    (run : Prog.Run (t.stack.persist codec) calls ())
    (follows : Prog.Follows Readable s.files calls t.files) (fits : entries.length ≤ r.capacity) :
    t.Refines codec path (r.keep entries (renamed calls)) := by
  have persisted : t.stack.persistPath = some path := by
    rw [same]
    exact refines.persisted
  have file := persist_file run follows persisted
  refine ⟨by rw [same]; rfl, by rw [same]; exact refines.capacity, persisted, refines.room, fits, ?_⟩
  rw [file, refines.saved, same]
  rfl

theorem step_refines (refines : s.Refines codec path r)
    (run : Prog.Run (op.program codec path s.stack) calls (popped, t.stack))
    (follows : Prog.Follows Readable s.files calls t.files) :
    t.Refines codec path (r.next (renamed calls) op) := by
  have fits : s.stack.entries.length ≤ s.stack.capacity := by
    rw [refines.entries, refines.capacity]
    exact refines.bounded
  cases op with
  | push now description inverse =>
    obtain ⟨writing, none, _, rfl, pushing, ending⟩ := Prog.run_bind.mp run
    obtain ⟨rfl, same⟩ := Prog.run_ret.mp ending
    rw [List.append_nil] at follows ⊢
    obtain ⟨-, rfl⟩ := Prod.mk.inj same
    obtain ⟨pushed, wrote⟩ := push_run pushing
    have room : 0 < s.stack.capacity := by
      rw [refines.capacity]
      exact refines.room
    have entries := UndoStack.pushed_entries ⟨now, description, inverse⟩ fits room
    rw [refines.entries, refines.capacity] at entries
    refine persist_refines refines ?_ wrote follows (UndoStack.length_rtake_le _ _)
    rw [pushed, ← entries]
    rfl
  | pop =>
    obtain ⟨-, shorter, wrote⟩ := pop_run run
    have entries : s.stack.popped.entries = r.entries.dropLast := by
      rw [← refines.entries]
      rfl
    rcases wrote with ⟨rfl, empty⟩ | wrote
    · have files : t.files = s.files := follows
      refine ⟨?_, ?_, ?_, refines.room, ?_, ?_⟩
      · rw [shorter, entries]
        rfl
      · rw [shorter]
        exact refines.capacity
      · rw [shorter]
        exact refines.persisted
      · have shrinks : r.entries.dropLast.length = r.entries.length - 1 := List.length_dropLast
        have bounded := refines.bounded
        show r.entries.dropLast.length ≤ r.capacity
        omega
      · rw [files, refines.saved]
        rfl
    · refine persist_refines refines ?_ wrote follows ?_
      · rw [shorter, ← entries]
        rfl
      · have shrinks : r.entries.dropLast.length = r.entries.length - 1 := List.length_dropLast
        have bounded := refines.bounded
        omega
  | restart capacity room =>
    have started := restart_refines run follows
    rw [refines.saved] at started
    exact started

theorem run_refines {ops : List (UndoOp × Bool)} (refines : s.Refines codec path r)
    (run : UndoRun codec path s ops t) : t.Refines codec path (r.after ops) := by
  induction run generalizing r with
  | done s => exact refines
  | step run follows _ ih => exact ih (step_refines refines run follows)

end Run

/-! ### The rows of the list -/

/-- Consecutive pops with what each returned. -/
def Pops (codec : UndoCodec κ) : UndoState κ → List (Option UndoEntry) → UndoState κ → Prop
  | s, [], t => t = s
  | s, popped :: rest, t => ∃ u : UndoState κ,
    Prog.Exec Readable (s.stack.pop codec) s.files (popped, u.stack) u.files ∧ Pops codec u rest t

theorem pops_newest_first {s t : UndoState κ} {popped : List (Option UndoEntry)}
    (pops : Pops codec s popped t) {i : Nat} (inside : i < popped.length) :
    popped[i] = s.stack.entries.reverse[i]? := by
  induction popped generalizing s i with
  | nil => cases inside
  | cons first rest ih =>
    obtain ⟨u, pop, later⟩ := pops
    obtain ⟨taken, change⟩ := UndoStack.exec_pop pop
    have tail : u.stack.entries.reverse = s.stack.entries.reverse.tail := by
      rcases change with ⟨rfl, same, -⟩ | ⟨shorter, -⟩
      · have empty := List.getLast?_eq_none_iff.mp taken.symm
        rw [same, empty]
        rfl
      · rw [shorter]
        exact UndoStack.popped_reverse _
    cases i with
    | zero =>
      rw [List.getElem_cons_zero, taken, ← List.head?_eq_getElem?, List.head?_reverse]
    | succ i =>
      have shifted := ih later (Nat.lt_of_succ_lt_succ inside)
      rw [tail, List.getElem?_tail] at shifted
      exact shifted

/-- The `i`-th row that `undo_list` shows in `s` is of the entry that the pop after `i` pops returns. -/
def RowsArePops (codec : UndoCodec κ) (s : UndoState κ) : Prop :=
  ∀ (state : Daemon.State κ) (response : Response) (t : UndoState κ),
    Prog.Exec (Daemon.UndoAct codec Readable) (Daemon.handleRequest state .undoList) s response t →
    ∃ rows, response = .ok (.undoList rows) ∧ t = s ∧
      ∀ popped u, Pops codec s popped u → ∀ (i : Nat) (inside : i < popped.length),
        rows[i]? = popped[i].map fun e => ⟨i, e.timestampUnix, e.description⟩

theorem rows_are_pops (s : UndoState κ) : RowsArePops codec s := by
  intro state response t run
  have listing : Prog.Exec (Daemon.UndoAct codec Readable) Daemon.undoList s response t := run
  unfold Daemon.undoList at listing
  rw [Prog.call_bind, Prog.exec_ask] at listing
  obtain ⟨entries, u, ⟨rfl, rfl⟩, ending⟩ := listing
  obtain ⟨rfl, rfl⟩ := Prog.exec_ret.mp ending
  refine ⟨_, rfl, rfl, ?_⟩
  intro popped u pops i inside
  rw [pops_newest_first pops inside, List.getElem?_mapIdx]

/-- The persisted stack refines the bounded reference from any start on any disk. -/
theorem undo_persistence_refines {capacity : Nat} {room : 0 < capacity} {wrote : Bool}
    {ops : List (UndoOp × Bool)} {s t : UndoState κ}
    (run : UndoRun codec path s ((.restart capacity room, wrote) :: ops) t) :
    let reference := (UndoReference.boot capacity (stored codec (s.files path))).after ops
    t.stack.entries = reference.entries ∧ t.stack.capacity = reference.capacity ∧
      t.stack.entries.length ≤ t.stack.capacity ∧ stored codec (t.files path) = reference.saved ∧
      RowsArePops codec t := by
  cases run with
  | step starting follows running =>
    have refines := run_refines (restart_refines starting follows) running
    refine ⟨refines.entries, refines.capacity, ?_, refines.saved, rows_are_pops t⟩
    rw [refines.entries, refines.capacity]
    exact refines.bounded

/-! ### A restart after a failed write -/

section Runs

variable {s : UndoStack} {d : Fs.State κ}

theorem Reliable.readable {c : Fs.Cmd κ} {d' : Fs.State κ} {x : Fs.Ans c}
    (call : Reliable c d x d') : Readable c d x d' := by
  obtain ⟨acts, works⟩ := call
  cases c with
  | read => exact ⟨acts, works⟩
  | _ => exact ⟨acts, trivial⟩

theorem persist_saves (codec : UndoCodec κ) (persisted : s.persistPath = some path)
    (d : Fs.State κ) : ∃ calls d', Prog.Run (s.persist codec) calls () ∧
      Prog.Follows Readable d calls d' ∧ renamed calls = true ∧
      d' path = some (codec.encode s.entries) := by
  unfold UndoStack.persist
  rw [persisted]
  have exec := writeAtomically_runs (withExtension path "json.tmp") path (codec.encode s.entries) d
  obtain ⟨calls, wrote, follows⟩ :=
    Prog.exec_iff_run.mp (exec.mono fun _ _ _ _ call => Reliable.readable call)
  refine ⟨calls, _, ?_, follows, (writeAtomically_renamed wrote).mpr rfl, Function.update_self ..⟩
  exact Prog.run_bind.mpr ⟨calls, [], _, (List.append_nil _).symm, wrote, .ret ()⟩

theorem persist_fails (codec : UndoCodec κ) (persisted : s.persistPath = some path)
    (d : Fs.State κ) : ∃ calls, Prog.Run (s.persist codec) calls () ∧
      Prog.Follows Readable d calls d ∧ renamed calls = false := by
  unfold UndoStack.persist
  rw [persisted]
  have failed : Prog.Run (UndoStack.write codec path s.entries)
      [⟨.createDirAll (parent path), Except.error "disk full"⟩] (.error "disk full") := by
    unfold UndoStack.write writeAtomically
    rw [Prog.call_bind, Prog.run_ask]
    exact ⟨_, _, rfl, .ret _⟩
  refine ⟨[⟨.createDirAll (parent path), Except.error "disk full"⟩], ?_, ⟨d, ⟨rfl, trivial⟩, rfl⟩, rfl⟩
  exact Prog.run_bind.mpr ⟨_, [], _, rfl, failed, .ret ()⟩

theorem push_step {now : Int} {description : String} {inverse : InverseAction}
    {u : UndoState κ} {d' : Fs.State κ} {calls : List (Sigma Fs.Ans)} {ops : List (UndoOp × Bool)}
    (run : Prog.Run ((s.pushed ⟨now, description, inverse⟩).persist codec) calls ())
    (follows : Prog.Follows Readable d calls d')
    (rest : UndoRun codec path ⟨s.pushed ⟨now, description, inverse⟩, d'⟩ ops u) :
    UndoRun codec path ⟨s, d⟩ ((.push now description inverse, renamed calls) :: ops) u := by
  refine .step (Prog.run_bind.mpr ⟨calls, [], _, (List.append_nil _).symm, ?_, .ret _⟩) follows rest
  exact Prog.run_bind.mpr ⟨calls, [], _, (List.append_nil _).symm, run, .ret _⟩

theorem restart_step {capacity : Nat} {room : 0 < capacity} {entries : List UndoEntry}
    {u : UndoState κ} {ops : List (UndoOp × Bool)} (saved : d path = some (codec.encode entries))
    (rest : UndoRun codec path ⟨⟨UndoStack.newest capacity entries, capacity, some path⟩, d⟩ ops u) :
    UndoRun codec path ⟨s, d⟩ ((.restart capacity room, false) :: ops) u := by
  have reading : Prog.Run (UndoStack.readEntries codec path)
      [⟨.read path, Except.ok (codec.encode entries)⟩] (.ok entries) := by
    unfold UndoStack.readEntries
    rw [Prog.call_bind, Prog.run_ask, ← codec.decode_encode entries]
    exact ⟨_, _, rfl, .ret _⟩
  have loading : Prog.Run ((UndoStack.withCapacity capacity).enablePersistence codec path)
      [⟨.pathExists path, true⟩, ⟨.read path, Except.ok (codec.encode entries)⟩]
      (.loaded (UndoStack.newest capacity entries).length,
        ⟨UndoStack.newest capacity entries, capacity, some path⟩) := by
    unfold UndoStack.enablePersistence
    rw [Prog.call_bind, Prog.run_ask]
    refine ⟨true, _, rfl, ?_⟩
    exact Prog.run_bind.mpr ⟨_, [], _, rfl, reading, .ret _⟩
  have restarting : Prog.Run (UndoOp.program codec path s (.restart capacity room))
      [⟨.pathExists path, true⟩, ⟨.read path, Except.ok (codec.encode entries)⟩]
      (none, ⟨UndoStack.newest capacity entries, capacity, some path⟩) := by
    unfold UndoOp.program
    exact Prog.run_bind.mpr ⟨_, [], _, rfl, loading, .ret _⟩
  refine UndoRun.step (s := ⟨s, d⟩) restarting ?_ rest
  have found : true = (d path).isSome := by rw [saved]; rfl
  refine ⟨d, ⟨⟨found, rfl⟩, trivial⟩, d, ⟨⟨?_, rfl⟩, ?_⟩, rfl⟩
  · intro content same
    show d path = some content
    rw [saved, Except.ok.inj same]
  · intro content same
    have same : d path = some content := same
    rw [saved] at same
    rw [Option.some.inj same]

theorem restart_missing {capacity : Nat} {room : 0 < capacity} {u : UndoState κ}
    {ops : List (UndoOp × Bool)} (missing : d path = none)
    (rest : UndoRun codec path ⟨⟨[], capacity, some path⟩, d⟩ ops u) :
    UndoRun codec path ⟨s, d⟩ ((.restart capacity room, false) :: ops) u := by
  have loading : Prog.Run ((UndoStack.withCapacity capacity).enablePersistence codec path)
      [⟨.pathExists path, false⟩] (.empty, ⟨[], capacity, some path⟩) := by
    unfold UndoStack.enablePersistence
    rw [Prog.call_bind, Prog.run_ask]
    exact ⟨false, [], rfl, .ret _⟩
  have restarting : Prog.Run (UndoOp.program codec path s (.restart capacity room))
      [⟨.pathExists path, false⟩] (none, ⟨[], capacity, some path⟩) := by
    unfold UndoOp.program
    exact Prog.run_bind.mpr ⟨_, [], _, rfl, loading, .ret _⟩
  have absent : false = (d path).isSome := by rw [missing]; rfl
  refine UndoRun.step (s := ⟨s, d⟩) restarting ?_ rest
  exact ⟨d, ⟨⟨absent, rfl⟩, trivial⟩, rfl⟩

end Runs

def spawned (now : Int) (command : String) : UndoEntry := ⟨now, "kill " ++ command, .spawn command⟩

def undoFile : String := "/s/undo.json"

def undoStateOf (entries : List UndoEntry) (files : Fs.State Daemon.StateFile) :
    UndoState Daemon.StateFile :=
  ⟨⟨entries, 1, some undoFile⟩, files⟩

def restartedOps : List (UndoOp × Bool) :=
  [(.restart 1 (by decide), false), (.push 0 "kill kitty" (.spawn "kitty"), true),
    (.push 1 "kill foot" (.spawn "foot"), false), (.restart 1 (by decide), false)]

/-- The second push evicts the first in memory and fails on disk, so a restart brings the first back. -/
theorem undo_persistence_refines_restarted :
    ∃ t, UndoRun Daemon.StateFile.undoEntries undoFile (undoStateOf [] fun _ => none) restartedOps t ∧
      t.stack.entries = [spawned 0 "kitty"] ∧ RowsArePops Daemon.StateFile.undoEntries t := by
  obtain ⟨calls, disk, saves, follows, moved, holds⟩ :=
    persist_saves Daemon.StateFile.undoEntries
      (s := (undoStateOf [spawned 0 "kitty"] fun _ => none).stack) rfl fun _ => none
  obtain ⟨calls', fails, follows', unmoved⟩ :=
    persist_fails Daemon.StateFile.undoEntries
      (s := (undoStateOf [spawned 1 "foot"] disk).stack) rfl disk
  have restarted : UndoRun Daemon.StateFile.undoEntries undoFile (undoStateOf [spawned 1 "foot"] disk)
      [(.restart 1 (by decide), false)] (undoStateOf [spawned 0 "kitty"] disk) :=
    restart_step holds (.done _)
  have second := push_step (s := (undoStateOf [spawned 0 "kitty"] disk).stack) fails follows' restarted
  have first := push_step (s := (undoStateOf [] disk).stack) saves follows second
  rw [moved, unmoved] at first
  have run : UndoRun Daemon.StateFile.undoEntries undoFile (undoStateOf [] fun _ => none) restartedOps
      (undoStateOf [spawned 0 "kitty"] disk) := restart_missing rfl first
  have refines := undo_persistence_refines run
  exact ⟨_, run, refines.1, refines.2.2.2.2⟩

end HyprPilot
