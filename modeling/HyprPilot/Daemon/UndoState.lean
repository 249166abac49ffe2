import HyprPilot.Daemon.Server

/-!
# The undo stack behind its lock

The undo commands of the handlers run the stack's own programs, one at a time, on the stack and the
disk. What a fresh daemon would load from the disk is `reload`.
-/

namespace HyprPilot
open Interact Fs

structure UndoState (κ : Type) where
  stack : UndoStack
  files : Fs.State κ

variable {κ : Type} {codec : UndoCodec κ}

namespace UndoStack

def reload (codec : UndoCodec κ) (capacity : Nat) : Option κ → List UndoEntry
  | none => []
  | some raw =>
    match codec.decode raw with
    | .ok entries => newest capacity entries
    | .error _ => []

theorem newest_of_length_le {capacity : Nat} {entries : List UndoEntry}
    (fits : entries.length ≤ capacity) : newest capacity entries = entries := by
  have none : entries.length - capacity = 0 := by omega
  rw [newest, none, List.drop_zero]

theorem length_newest_le (capacity : Nat) (entries : List UndoEntry) :
    (newest capacity entries).length ≤ capacity := by
  rw [newest, List.length_drop]
  omega

theorem length_reload_le (codec : UndoCodec κ) (capacity : Nat) (raw : Option κ) :
    (reload codec capacity raw).length ≤ capacity := by
  unfold reload
  split
  · exact Nat.zero_le _
  · split
    · exact length_newest_le _ _
    · exact Nat.zero_le _

section Exec

variable {act : (c : Fs.Cmd κ) → Fs.State κ → Fs.Ans c → Fs.State κ → Prop} {s s' : UndoStack}
  {d d' : Fs.State κ}

theorem exec_push {now : Int} {description : String} {inverse : InverseAction}
    (run : Prog.Exec act (s.push codec now description inverse) d s' d') :
    s' = s.pushed ⟨now, description, inverse⟩ ∧ Prog.Exec act (s'.persist codec) d () d' := by
  unfold push at run
  obtain ⟨_, u, written, run⟩ := Prog.exec_bind.mp run
  obtain ⟨rfl, rfl⟩ := Prog.exec_ret.mp run
  exact ⟨rfl, written⟩

theorem exec_pop {popped : Option UndoEntry}
    (run : Prog.Exec act (s.pop codec) d (popped, s') d') :
    popped = s.entries.getLast? ∧ ((popped = none ∧ s' = s ∧ d' = d) ∨
      (s' = s.popped ∧ Prog.Exec act (s'.persist codec) d () d')) := by
  unfold pop at run
  split at run
  · rename_i nothing
    obtain ⟨same, rfl⟩ := Prog.exec_ret.mp run
    cases same
    exact ⟨nothing.symm, Or.inl ⟨rfl, rfl, rfl⟩⟩
  · rename_i entry last
    obtain ⟨_, u, written, run⟩ := Prog.exec_bind.mp run
    obtain ⟨same, rfl⟩ := Prog.exec_ret.mp run
    cases same
    exact ⟨last.symm, Or.inr ⟨rfl, written⟩⟩

end Exec

section Reliable

variable {s s' : UndoStack} {d d' : Fs.State κ} {path : String}

theorem persist_reliable (run : Prog.Exec Reliable (s.persist codec) d () d')
    (persisted : s.persistPath = some path) : d' path = some (codec.encode s.entries) := by
  unfold persist at run
  rw [persisted] at run
  obtain ⟨result, u, written, run⟩ := Prog.exec_bind.mp run
  obtain ⟨-, rfl⟩ := Prog.exec_ret.mp run
  obtain ⟨-, rfl⟩ := writeAtomically_works written
  exact Function.update_self ..

theorem persist_runs (codec : UndoCodec κ) (s : UndoStack) (d : Fs.State κ) :
    ∃ d', Prog.Exec Reliable (s.persist codec) d () d' := by
  unfold persist
  cases s.persistPath with
  | none => exact ⟨d, .ret _ _⟩
  | some path =>
    exact ⟨_, Prog.exec_bind.mpr ⟨_, _, writeAtomically_runs _ _ _ _, .ret _ _⟩⟩

theorem enablePersistence_reliable {outcome : LoadOutcome}
    (run : Prog.Exec Reliable (s.enablePersistence codec path) d (outcome, s') d')
    (fresh : s.entries = []) :
    s'.entries = reload codec s.capacity (d path) ∧ s'.capacity = s.capacity ∧
      s'.persistPath = some path ∧ d' = d := by
  unfold enablePersistence at run
  rw [Prog.call_bind, Prog.exec_ask] at run
  obtain ⟨found, u, ⟨⟨rfl, rfl⟩, -⟩, run⟩ := run
  cases content : u path with
  | none =>
    rw [content] at run
    obtain ⟨same, rfl⟩ := Prog.exec_ret.mp run
    cases same
    exact ⟨fresh, rfl, rfl, rfl⟩
  | some raw =>
    rw [content] at run
    obtain ⟨loaded, v, reading, rest⟩ := Prog.exec_bind.mp run
    unfold readEntries at reading
    rw [Prog.call_bind, Prog.exec_ask] at reading
    obtain ⟨read, w, ⟨⟨-, rfl⟩, works⟩, reading⟩ := reading
    obtain rfl : read = .ok raw := works raw content
    obtain ⟨rfl, rfl⟩ := Prog.exec_ret.mp reading
    rw [reload]
    cases decoded : codec.decode raw with
    | ok entries =>
      rw [decoded] at rest
      obtain ⟨same, rfl⟩ := Prog.exec_ret.mp rest
      cases same
      exact ⟨rfl, rfl, rfl, rfl⟩
    | error e =>
      rw [decoded] at rest
      obtain ⟨same, rfl⟩ := Prog.exec_ret.mp rest
      cases same
      exact ⟨fresh, rfl, rfl, rfl⟩

end Reliable

theorem pushed_reverse {s : UndoStack} (entry : UndoEntry) (fits : s.entries.length ≤ s.capacity)
    (room : 0 < s.capacity) :
    (s.pushed entry).entries.reverse = entry :: s.entries.reverse.take (s.capacity - 1) := by
  unfold pushed
  by_cases full : s.entries.length = s.capacity
  · rw [if_pos full, List.reverse_append, List.reverse_singleton, List.singleton_append,
      ← List.drop_one, List.reverse_drop, full]
  · rw [if_neg full, List.reverse_append, List.reverse_singleton, List.singleton_append,
      List.take_of_length_le]
    rw [List.length_reverse]
    omega

theorem popped_reverse (s : UndoStack) : s.popped.entries.reverse = s.entries.reverse.tail := by
  rw [popped, List.tail_reverse]

end UndoStack

namespace Daemon

/-- The undo commands; Hyprland may answer anything, and file calls act by `act`. -/
def UndoAct (codec : UndoCodec κ)
    (act : (c : Fs.Cmd κ) → Fs.State κ → Fs.Ans c → Fs.State κ → Prop) :
    (c : Cmd κ) → UndoState κ → Ans c → UndoState κ → Prop
  | .undoPush description inverse, s, _, t =>
    ∃ now, Prog.Exec act (s.stack.push codec now description inverse) s.files t.stack t.files
  | .undoPop, s, x, t => Prog.Exec act (s.stack.pop codec) s.files (x, t.stack) t.files
  | .undoEntries, s, x, t => x = s.stack.entries ∧ t = s
  | _, s, _, t => t = s

end Daemon

end HyprPilot
