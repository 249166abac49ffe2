import HyprPilot.Core.SnapshotStore

/-!
# What the snapshot store does to the disk

On a file system whose calls succeed, a save replaces the file of the snapshot's own name, a delete
removes the file of the name it is given, and a load returns what the file holds. Every other name
keeps its file: two names never share one, and the temporary file of a save is no name's file.
-/

namespace HyprPilot
open Interact Fs

namespace SnapshotStore

variable {κ : Type} {store : SnapshotStore κ}

theorem file_injective {a b : String} (same : store.file a = store.file b) : a = b := by
  have chars := congrArg String.toList same
  simp only [file, join, String.toList_append, List.append_assoc] at chars
  have tails := List.append_cancel_left (List.append_cancel_left chars)
  exact String.toList_injective (List.append_cancel_right tails)

/-- A temporary file ends in `p`, a snapshot file in `n`. -/
theorem temporary_ne_file (path name : String) :
    withExtension path "json.tmp" ≠ store.file name := by
  intro same
  have chars := congrArg (fun s : String => s.toList.getLast?) same
  have last : (store.file name).toList.getLast? = some 'n' := by
    rw [file, join, String.toList_append, String.toList_append, String.toList_append]
    simp [List.getLast?_cons]
  have other : (withExtension path "json.tmp").toList.getLast? = some 'p' := by
    rw [withExtension, String.toList_append, String.toList_append]
    simp
  simp only [last, other] at chars
  exact absurd chars (by decide)

theorem snapshotPath_ok {name path : String} (valid : store.snapshotPath name = .ok path) :
    path = store.file name := by
  unfold snapshotPath at valid
  split at valid
  · exact (Except.ok.inj valid).symm
  · cases valid

section Reliable

variable {d d' : Fs.State κ}

/-- A save writes the file of the snapshot's own name, or nothing when the name is not valid. -/
theorem saveNamed_reliable {snap : Snapshot} {result : CoreResult String}
    (run : Prog.Exec Reliable (store.saveNamed snap) d result d') :
    (validateName snap.name = .ok () →
      d' (store.file snap.name) = some (store.codec.encode snap)) ∧
    ∀ name, name ≠ snap.name → d' (store.file name) = d (store.file name) := by
  unfold saveNamed at run
  cases path : store.snapshotPath snap.name with
  | error e =>
    rw [path] at run
    obtain ⟨-, rfl⟩ := Prog.exec_ret.mp run
    refine ⟨fun valid => ?_, fun _ _ => rfl⟩
    rw [snapshotPath, valid] at path
    cases path
  | ok target =>
    rw [path] at run
    obtain rfl := snapshotPath_ok path
    obtain ⟨saved, u, saving, ending⟩ := Prog.exec_bind.mp run
    have unchanged : d' = u := by
      cases saved with
      | ok _ => exact (Prog.exec_ret.mp ending).2
      | error e => exact (Prog.exec_ret.mp ending).2
    subst unchanged
    obtain ⟨wrote, v, writing, done⟩ := Prog.exec_bind.mp saving
    obtain ⟨-, rfl⟩ := Prog.exec_ret.mp done
    obtain ⟨-, rfl⟩ := writeAtomically_works writing
    refine ⟨fun _ => Function.update_self .., fun name different => ?_⟩
    have other : store.file name ≠ store.file snap.name := fun same => different (file_injective same)
    rw [Function.update_of_ne other, Function.update_of_ne (temporary_ne_file _ _).symm]

theorem deleteNamed_reliable {deleted : String} {result : CoreResult Unit}
    (run : Prog.Exec Reliable (store.deleteNamed deleted) d result d') {name : String}
    (different : name ≠ deleted) : d' (store.file name) = d (store.file name) := by
  unfold deleteNamed at run
  cases path : store.snapshotPath deleted with
  | error e =>
    rw [path] at run
    obtain ⟨-, rfl⟩ := Prog.exec_ret.mp run
    rfl
  | ok target =>
    rw [path] at run
    obtain rfl := snapshotPath_ok path
    obtain ⟨found, u, ⟨⟨-, rfl⟩, -⟩, rest⟩ := Prog.exec_ask.mp run
    cases found with
    | false =>
      obtain ⟨-, rfl⟩ := Prog.exec_ret.mp rest
      rfl
    | true =>
      obtain ⟨removed, v, ⟨removing, -⟩, ending⟩ := Prog.exec_ask.mp rest
      obtain ⟨-, rfl⟩ := Prog.exec_ret.mp ending
      cases removed with
      | error e => exact congrFun removing _
      | ok _ =>
        have removing : d' = Function.update u (store.file deleted) none := removing
        have other : store.file name ≠ store.file deleted := fun same => different (file_injective same)
        rw [removing, Function.update_of_ne other]

theorem loadNamed_reliable {name : String} {result : CoreResult Snapshot}
    (run : Prog.Exec Reliable (store.loadNamed name) d result d') :
    d' = d ∧ ∀ snap, validateName name = .ok () →
      d (store.file name) = some (store.codec.encode snap) → result = .ok snap := by
  unfold loadNamed at run
  cases path : store.snapshotPath name with
  | error e =>
    rw [path] at run
    obtain ⟨rfl, rfl⟩ := Prog.exec_ret.mp run
    refine ⟨rfl, fun snap valid _ => ?_⟩
    rw [snapshotPath, valid] at path
    cases path
  | ok target =>
    rw [path] at run
    obtain rfl := snapshotPath_ok path
    obtain ⟨found, u, ⟨⟨exists_, rfl⟩, -⟩, rest⟩ := Prog.exec_ask.mp run
    cases found with
    | false =>
      obtain ⟨rfl, rfl⟩ := Prog.exec_ret.mp rest
      refine ⟨rfl, fun snap _ holds => ?_⟩
      rw [holds] at exists_
      cases exists_
    | true =>
      obtain ⟨raw, v, ⟨⟨-, rfl⟩, works⟩, loading⟩ := Prog.exec_ask.mp rest
      cases raw with
      | error e =>
        obtain ⟨rfl, rfl⟩ := Prog.exec_ret.mp loading
        refine ⟨rfl, fun snap _ holds => ?_⟩
        cases works _ holds
      | ok content =>
        dsimp only [Prog.bind] at loading
        cases decoded : store.codec.decode content with
        | error e =>
          rw [decoded] at loading
          obtain ⟨rfl, rfl⟩ := Prog.exec_ret.mp loading
          refine ⟨rfl, fun snap _ holds => ?_⟩
          cases works _ holds
          rw [store.codec.decode_encode] at decoded
          cases decoded
        | ok read =>
          rw [decoded] at loading
          obtain ⟨rfl, rfl⟩ := Prog.exec_ret.mp loading
          refine ⟨rfl, fun snap _ holds => ?_⟩
          cases works _ holds
          rw [store.codec.decode_encode] at decoded
          rw [Except.ok.inj decoded]

theorem saveNamed_runs {snap : Snapshot} (valid : validateName snap.name = .ok ())
    (d : Fs.State κ) :
    ∃ after, Prog.Exec Reliable (store.saveNamed snap) d (.ok (store.file snap.name)) after := by
  have path : store.snapshotPath snap.name = .ok (store.file snap.name) := by
    rw [snapshotPath, valid]
  unfold saveNamed save
  rw [path]
  have wrote := writeAtomically_runs (withExtension (store.file snap.name) "json.tmp")
    (store.file snap.name) (store.codec.encode snap) d
  exact ⟨_, Prog.exec_bind.mpr ⟨Except.ok (), _,
    Prog.exec_bind.mpr ⟨Except.ok (), _, wrote, .ret (Except.ok ()) _⟩,
    .ret (Except.ok (store.file snap.name)) _⟩⟩

theorem loadNamed_runs {name : String} {snap : Snapshot} (valid : validateName name = .ok ())
    (holds : d (store.file name) = some (store.codec.encode snap)) :
    Prog.Exec Reliable (store.loadNamed name) d (.ok snap) d := by
  have path : store.snapshotPath name = .ok (store.file name) := by rw [snapshotPath, valid]
  unfold loadNamed
  rw [path]
  refine .ask true ⟨⟨by rw [holds]; rfl, rfl⟩, trivial⟩ ?_
  refine .ask (Except.ok (store.codec.encode snap)) ⟨⟨?_, rfl⟩, ?_⟩ ?_
  · intro content same
    rw [holds, Except.ok.inj same]
  · intro content same
    rw [holds] at same
    rw [Option.some.inj same]
  · dsimp only [Prog.bind]
    rw [store.codec.decode_encode]
    exact .ret _ _

end Reliable

end SnapshotStore

end HyprPilot
