import HyprPilot.Daemon.UndoState

/-!
# A failed undo

The undo request pops its entry, and persists the shorter stack, before it applies the inverse. When
the inverse fails the entry is in neither the stack nor the file.
-/

namespace HyprPilot
open Interact Fs Daemon

variable {κ : Type}

def UndoState.persisted (codec : UndoCodec κ) (s : UndoState κ) : Option (List UndoEntry) :=
  s.stack.persistPath.bind fun path => (s.files path).bind fun raw => (codec.decode raw).toOption

/-- The undo entries in memory and on disk are those before. -/
def LosesNothing (codec : UndoCodec κ) (s t : UndoState κ) : Prop :=
  t.stack.entries = s.stack.entries ∧ t.persisted codec = s.persisted codec

section Hypr

variable {codec : UndoCodec κ} {act : (c : Fs.Cmd κ) → Fs.State κ → Fs.Ans c → Fs.State κ → Prop}

theorem exec_hypr_same {α : Type} {p : Connection.Call α} {s t : UndoState κ} {a : α}
    (run : Prog.Exec (UndoAct codec act) (hypr p) s a t) : t = s := by
  induction p generalizing s with
  | ret b => exact (Prog.exec_ret.mp run).2
  | ask c k ih =>
    obtain ⟨x, u, same, rest⟩ := Prog.exec_ask.mp run
    obtain rfl : u = s := same
    exact ih x rest

/-- Every request answered `undo_failed`, whichever dispatch of the inverse failed and whatever the
disk did, has lost the newest entry. -/
theorem undo_failed_loses {state : Daemon.State κ} {s t : UndoState κ} {message : String}
    (run : Prog.Exec (UndoAct codec act) (handleRequest state .undo) s
      (.err Codes.undoFailed message) t) :
    t.stack.entries = s.stack.entries.dropLast ∧ ¬ LosesNothing codec s t := by
  have popping : Prog.Exec (UndoAct codec act) undo s (.err Codes.undoFailed message) t := run
  unfold undo at popping
  rw [Prog.call_bind, Prog.exec_ask] at popping
  obtain ⟨popped, u, pop, rest⟩ := popping
  obtain ⟨taken, change⟩ := UndoStack.exec_pop pop
  cases popped with
  | none =>
    have answer := (Prog.exec_ret.mp rest).1
    injection answer with code _
    exact absurd code (by decide)
  | some entry =>
    have nonempty : s.stack.entries ≠ [] := by
      intro empty
      rw [empty] at taken
      cases taken
    have shorter : u.stack = s.stack.popped := by
      rcases change with ⟨none, -, -⟩ | ⟨stack, -⟩
      · cases none
      · exact stack
    obtain ⟨result, v, applying, rest⟩ := Prog.exec_bind.mp rest
    obtain rfl := exec_hypr_same applying
    have final : t = v := by
      cases result with
      | ok _ => exact (Prog.exec_ret.mp rest).2
      | error e => exact (Prog.exec_ret.mp rest).2
    subst final
    have entries : t.stack.entries = s.stack.entries.dropLast := by rw [shorter]; rfl
    refine ⟨entries, fun kept => ?_⟩
    have lengths := congrArg List.length (entries.symm.trans kept.1)
    rw [List.length_dropLast] at lengths
    have positive := List.length_pos_iff.mpr nonempty
    omega

end Hypr

/-! ### A rejected respawn -/

def killedKitty : UndoEntry := ⟨0, "kill kitty (~)", .spawn "kitty"⟩

def holding (entries : List UndoEntry) : UndoState StateFile := ⟨⟨entries, 64, none⟩, fun _ => none⟩

def respawnFailed : Response :=
  .err Codes.undoFailed
    "inverse `kill kitty (~)` failed: Hyprland rejected dispatcher `exec`: cannot exec"

theorem respawnFailed_run :
    Prog.Exec (UndoAct StateFile.undoEntries Fs.Act) (handleRequest plainState .undo)
      (holding [killedKitty]) respawnFailed (holding []) := by
  have popped : UndoAct StateFile.undoEntries Fs.Act .undoPop (holding [killedKitty])
      (some killedKitty) (holding []) :=
    Prog.Exec.ret (some killedKitty, (holding []).stack) (holding []).files
  exact .ask _ popped (.ask (.error (.rejected "exec" "cannot exec")) rfl (.ret _ _))

theorem undo_failed_loses_killed :
    ([] : List UndoEntry) = [killedKitty].dropLast ∧
      ¬ LosesNothing StateFile.undoEntries (holding [killedKitty]) (holding []) :=
  undo_failed_loses respawnFailed_run

theorem undo_failed_not_kept :
    ¬ ∀ (s t : UndoState StateFile) (message : String),
      Prog.Exec (UndoAct StateFile.undoEntries Fs.Act) (handleRequest plainState .undo) s
        (.err Codes.undoFailed message) t → LosesNothing StateFile.undoEntries s t := by
  intro always
  have kept := (always _ _ _ respawnFailed_run).1
  exact absurd kept (by decide)

end HyprPilot
