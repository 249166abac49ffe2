import HyprPilot.Core.SnapshotFiles
import HyprPilot.Daemon.Server
import Mathlib.Logic.Relation

/-!
# Restores stay reversible on disk

A restore first saves what it is about to change, under a name made of the clock's second. The name
still loads that state as long as no later request saves or deletes it and no later restore takes
the same second.
-/

namespace HyprPilot
open Interact Fs Daemon

/-- What Hyprland would answer, the clock, and the files. -/
structure Desk (κ : Type) where
  answers : (q : Query) → q.Reply
  clock : Int
  files : Fs.State κ

variable {κ : Type}

namespace Desk

/-- The clock never goes back and stays in range of `i64`. -/
def Reads (s : Desk κ) (now : Int) (t : Desk κ) : Prop :=
  s.clock ≤ now ∧ 0 ≤ now ∧ now < 2 ^ 63 ∧ t = { s with clock := now }

/-- One effect of a request; a pre-restore name may use the seconds in `stamps` only. A query may
fail, a dispatch may change the windows in any way, and every file call succeeds. -/
def Acts (stamps : Int → Prop) : (c : Daemon.Cmd κ) → Desk κ → Daemon.Ans c → Desk κ → Prop
  | .cache (.hypr (.query q)), s, x, t => (∀ reply, x = .ok reply → reply = s.answers q) ∧ t = s
  | .cache (.hypr (.dispatch _)), s, _, t => t.clock = s.clock ∧ t.files = s.files
  | .cache (.hypr .nowUnix), s, x, t => s.Reads x t
  | .nowUnix, s, x, t => s.Reads x t ∧ stamps x
  | .fs c, s, x, t => ∃ files, Reliable c s.files x files ∧ t = { s with files := files }
  | _, s, _, t => t = s

def captured (s : Desk κ) (name : String) (now : Int) : Snapshot :=
  .ofReplies name now (s.answers .version) (s.answers .clients) (s.answers .workspaces)
    (s.answers .monitors) (s.answers .activeWindow) (s.answers .activeWorkspace)

/-- What may follow a restore that returned `pre`. -/
inductive Later (state : Daemon.State κ) (pre : String) (stamps : Int → Prop) :
    Desk κ → Desk κ → Prop where
  | save {s t : Desk κ} {response : Response} (name : String) :
      name ≠ pre → Prog.Exec (Acts stamps) (handleRequest state (.snapshotSave name)) s response t →
      Later state pre stamps s t
  | delete {s t : Desk κ} {response : Response} (name : String) :
      name ≠ pre → Prog.Exec (Acts stamps) (handleRequest state (.snapshotDelete name)) s response t →
      Later state pre stamps s t
  | restore {s t : Desk κ} {response : Response} (name : String) :
      Prog.Exec (Acts stamps) (handleRequest state (.snapshotRestore name)) s response t →
      Later state pre stamps s t
  | windows {s t : Desk κ} : s.clock ≤ t.clock → t.files = s.files → Later state pre stamps s t

end Desk

/-! ### Pre-restore names -/

theorem preRestoreName_toList {now : Int} (epoch : 0 ≤ now) :
    (preRestoreName now).toList = "_pre-restore-".toList ++ Nat.toDigits 10 now.toNat := by
  rw [preRestoreName, String.toList_append, Int.toString_eq_repr, Int.repr_eq_if, if_pos epoch,
    Nat.toList_repr]

theorem preRestoreName_injective {a b : Int} (epochA : 0 ≤ a) (epochB : 0 ≤ b)
    (same : preRestoreName a = preRestoreName b) : a = b := by
  have chars := congrArg String.toList same
  rw [preRestoreName_toList epochA, preRestoreName_toList epochB] at chars
  have digits := List.append_cancel_left chars
  have values := congrArg (fun ds => Nat.ofDigitChars 10 ds 0) digits
  simp only [Nat.ofDigitChars_ten_toDigits] at values
  omega

theorem validateName_preRestore {now : Int} (epoch : 0 ≤ now) (bound : now < 2 ^ 63) :
    validateName (preRestoreName now) = .ok () := by
  have chars := preRestoreName_toList epoch
  have short : (Nat.toDigits 10 now.toNat).length ≤ 19 := by
    rw [Nat.length_toDigits_le_iff (by decide) (by decide)]
    omega
  have digits : ∀ c ∈ Nat.toDigits 10 now.toNat, c.isDigit :=
    fun c member => Nat.isDigit_of_mem_toDigits (by decide) (by decide) member
  have size : (preRestoreName now).utf8ByteSize ≤ 128 := by
    rw [Text.utf8ByteSize_of_ascii, chars, List.length_append]
    · have fixed : "_pre-restore-".toList.length = 13 := by decide
      omega
    · rw [chars]
      intro c member
      rcases List.mem_append.mp member with first | second
      · have ascii : ("_pre-restore-".toList.all fun c => c.utf8Size == 1) = true := by decide
        exact eq_of_beq (List.all_eq_true.mp ascii c first)
      · exact Text.digit_ascii (digits c second)
  have allowed : (preRestoreName now).toList.all isNameChar := by
    rw [chars, List.all_append, Bool.and_eq_true]
    refine ⟨by decide, List.all_eq_true.mpr fun c member => ?_⟩
    simp [isNameChar, Char.isAlphanum, digits c member]
  have nonempty : (preRestoreName now).isEmpty = false := by
    rw [Bool.eq_false_iff]
    intro empty
    rw [String.isEmpty_iff] at empty
    rw [empty] at chars
    cases chars
  have undotted : Text.startsWith "." (preRestoreName now) = false := by
    rw [Text.startsWith, chars]
    rfl
  unfold validateName
  simp [nonempty, allowed, undotted, Nat.not_lt.mpr size]

/-! ### The effects of a request -/

section Effects

variable {stamps : Int → Prop} {α : Type} {s t : Desk κ}

theorem hypr_files {p : Connection.Call α} {a : α}
    (run : Prog.Exec (Desk.Acts stamps) (hypr p) s a t) : s.clock ≤ t.clock ∧ t.files = s.files := by
  refine Prog.Exec.keeps (R := fun s t : Desk κ => s.clock ≤ t.clock ∧ t.files = s.files)
    (fun _ => ⟨Int.le_refl _, rfl⟩) ?_ (Prog.exec_relabel.mp run) ?_
  · intro s u t first second
    exact ⟨Int.le_trans first.1 second.1, second.2.trans first.2⟩
  · rintro c s x t ⟨y, -, act⟩
    cases c with
    | query q =>
      obtain ⟨-, rfl⟩ := act
      exact ⟨Int.le_refl _, rfl⟩
    | dispatch d =>
      obtain ⟨clock, same⟩ := act
      exact ⟨Int.le_of_eq clock.symm, same⟩
    | nowUnix =>
      obtain ⟨later, -, -, rfl⟩ := act
      exact ⟨later, rfl⟩

theorem files_exec {p : Fs.Call κ α} {a : α}
    (run : Prog.Exec (Desk.Acts stamps) (files p) s a t) :
    ∃ after, Prog.Exec Reliable p s.files a after ∧ t = { s with files := after } := by
  induction p generalizing s with
  | ret b =>
    obtain ⟨rfl, rfl⟩ := Prog.exec_ret.mp run
    exact ⟨t.files, .ret _ _, rfl⟩
  | ask c k ih =>
    obtain ⟨x, u, ⟨after, act, rfl⟩, rest⟩ := Prog.exec_ask.mp run
    obtain ⟨last, ran, rfl⟩ := ih x rest
    exact ⟨last, .ask x act ran, rfl⟩

theorem captureAnswer {q : Query} {β : Type} {f : q.Reply → Connection.Call (CoreResult β)} {b : β}
    {sem : (c : Connection.Cmd) → Desk κ → Connection.Ans c → Desk κ → Prop}
    (acts : ∀ q s x t, sem (.query q) s x t → (∀ reply, x = .ok reply → reply = s.answers q) ∧ t = s)
    (run : Prog.Exec sem ((Connection.query q).andThen f) s (.ok b) t) :
    Prog.Exec sem (f (s.answers q)) s (.ok b) t := by
  obtain ⟨reply, u, asked, rest⟩ := Prog.exec_andThen_ok run
  obtain ⟨read, rfl⟩ := acts _ _ _ _ (Prog.exec_call.mp asked)
  obtain rfl := read reply rfl
  exact rest

theorem capture_ok {name : String} {snap : Snapshot}
    (run : Prog.Exec (Desk.Acts stamps) (hypr (Snapshot.capture name)) s (.ok snap) t) :
    ∃ now, s.Reads now t ∧ snap = s.captured name now := by
  have run := Prog.exec_relabel.mp run
  have acts : ∀ (q : Query) (s : Desk κ) x t,
      (∃ y, (fun (_ : Connection.Cmd) x => x) (Connection.Cmd.query q) y = x ∧
        Desk.Acts stamps (.cache (.hypr (.query q))) s y t) →
      (∀ reply, x = .ok reply → reply = s.answers q) ∧ t = s := by
    rintro q s x t ⟨y, rfl, act⟩
    exact act
  unfold Snapshot.capture at run
  have stamped := captureAnswer acts (captureAnswer acts (captureAnswer acts (captureAnswer acts
    (captureAnswer acts (captureAnswer acts run)))))
  obtain ⟨_, u, ⟨now, rfl, reads⟩, ending⟩ := Prog.exec_ask.mp stamped
  obtain ⟨same, rfl⟩ := Prog.exec_ret.mp ending
  exact ⟨now, reads, Except.ok.inj same⟩

end Effects

/-! ### The requests -/

section Requests

variable {stamps : Int → Prop} {state : Daemon.State κ} {s t : Desk κ} {response : Response}
  {name : String}

theorem snapshotSave_exec
    (run : Prog.Exec (Desk.Acts stamps) (snapshotSave state name) s response t) :
    t.files = s.files ∨ ∃ now result,
      Prog.Exec Reliable (state.store.saveNamed (s.captured name now)) s.files result t.files := by
  unfold snapshotSave at run
  split at run
  · obtain ⟨-, rfl⟩ := Prog.exec_ret.mp run
    exact Or.inl rfl
  · obtain ⟨captured, u, capturing, saving⟩ := Prog.exec_bind.mp run
    cases captured with
    | error e =>
      obtain ⟨-, rfl⟩ := Prog.exec_ret.mp saving
      exact Or.inl (hypr_files capturing).2
    | ok snap =>
      obtain ⟨now, ⟨-, -, -, rfl⟩, rfl⟩ := capture_ok capturing
      obtain ⟨result, v, wrote, ending⟩ := Prog.exec_bind.mp saving
      obtain ⟨after, ran, rfl⟩ := files_exec wrote
      cases result with
      | ok path =>
        obtain ⟨-, rfl⟩ := Prog.exec_ret.mp ending
        exact Or.inr ⟨now, _, ran⟩
      | error e =>
        obtain ⟨-, rfl⟩ := Prog.exec_ret.mp ending
        exact Or.inr ⟨now, _, ran⟩

theorem snapshotDelete_exec
    (run : Prog.Exec (Desk.Acts stamps) (snapshotDelete state name) s response t) :
    t.files = s.files ∨ ∃ result,
      Prog.Exec Reliable (state.store.deleteNamed name) s.files result t.files := by
  unfold snapshotDelete at run
  split at run
  · obtain ⟨-, rfl⟩ := Prog.exec_ret.mp run
    exact Or.inl rfl
  · obtain ⟨result, u, deleting, ending⟩ := Prog.exec_bind.mp run
    obtain ⟨after, ran, rfl⟩ := files_exec deleting
    cases result with
    | ok path =>
      obtain ⟨-, rfl⟩ := Prog.exec_ret.mp ending
      exact Or.inr ⟨_, ran⟩
    | error e =>
      obtain ⟨-, rfl⟩ := Prog.exec_ret.mp ending
      exact Or.inr ⟨_, ran⟩

theorem restoreTo_exec {pre : String} {target : Snapshot}
    (run : Prog.Exec (Desk.Acts stamps) (restoreTo name pre target) s response t) :
    t.files = s.files ∧ ∀ restored pre' mutations outcomes preview,
      response = .ok (.restored restored pre' mutations outcomes preview) → pre' = pre := by
  unfold restoreTo at run
  obtain ⟨captured, u, capturing, rest⟩ := Prog.exec_bind.mp run
  have before := (hypr_files capturing).2
  cases captured with
  | error e =>
    obtain ⟨rfl, rfl⟩ := Prog.exec_ret.mp rest
    exact ⟨before, fun _ _ _ _ _ same => by cases same⟩
  | ok live =>
    obtain ⟨outcomes, v, applying, ending⟩ := Prog.exec_bind.mp rest
    obtain ⟨rfl, rfl⟩ := Prog.exec_ret.mp ending
    refine ⟨(hypr_files applying).2.trans before, fun _ _ _ _ _ same => ?_⟩
    cases same
    rfl

/-- A restore writes nothing, or it saves the windows as they are under the name of its second. -/
theorem snapshotRestore_exec
    (run : Prog.Exec (Desk.Acts stamps) (snapshotRestore state name) s response t) :
    (t.files = s.files ∧ ∀ reply, response ≠ .ok reply) ∨
    ∃ now created result, stamps now ∧ s.clock ≤ now ∧ 0 ≤ now ∧ now < 2 ^ 63 ∧
      Prog.Exec Reliable (state.store.saveNamed (s.captured (preRestoreName now) created)) s.files
        result t.files ∧
      ∀ restored pre mutations outcomes preview,
        response = .ok (.restored restored pre mutations outcomes preview) →
        pre = preRestoreName now := by
  unfold snapshotRestore at run
  obtain ⟨loaded, u, loading, rest⟩ := Prog.exec_bind.mp run
  obtain ⟨after, ran, rfl⟩ := files_exec loading
  obtain rfl := (SnapshotStore.loadNamed_reliable ran).1
  cases loaded with
  | error e =>
    obtain ⟨rfl, rfl⟩ := Prog.exec_ret.mp rest
    refine Or.inl ⟨rfl, fun reply same => ?_⟩
    cases e <;> cases same
  | ok target =>
    obtain ⟨now, v, reading, taking⟩ := Prog.exec_bind.mp rest
    obtain ⟨⟨later, epoch, bound, rfl⟩, stamped⟩ := Prog.exec_call.mp reading
    obtain ⟨captured, w, capturing, saving⟩ := Prog.exec_bind.mp taking
    cases captured with
    | error e =>
      obtain ⟨rfl, rfl⟩ := Prog.exec_ret.mp saving
      exact Or.inl ⟨(hypr_files capturing).2, fun reply same => by cases same⟩
    | ok snap =>
      obtain ⟨created, ⟨-, -, -, rfl⟩, rfl⟩ := capture_ok capturing
      obtain ⟨result, x, wrote, restoring⟩ := Prog.exec_bind.mp saving
      obtain ⟨written, saved, rfl⟩ := files_exec wrote
      obtain ⟨same, named⟩ := restoreTo_exec restoring
      refine Or.inr ⟨now, created, result, stamped, later, epoch, bound, ?_, named⟩
      rw [same]
      exact saved

end Requests

/-! ### Every run -/

theorem later_keeps {state : Daemon.State κ} {pre : String} {stamps : Int → Prop} {s t : Desk κ}
    (fresh : ∀ now, stamps now → 0 ≤ now → pre ≠ preRestoreName now)
    (step : Desk.Later state pre stamps s t) :
    t.files (state.store.file pre) = s.files (state.store.file pre) := by
  cases step with
  | save name different run =>
    rcases snapshotSave_exec run with same | ⟨now, result, saved⟩
    · rw [same]
    · exact (SnapshotStore.saveNamed_reliable saved).2 pre different.symm
  | delete name different run =>
    rcases snapshotDelete_exec run with same | ⟨result, deleted⟩
    · rw [same]
    · exact SnapshotStore.deleteNamed_reliable deleted different.symm
  | restore name run =>
    rcases snapshotRestore_exec run with ⟨same, -⟩ | ⟨now, created, result, stamped, -, epoch, -, saved, -⟩
    · rw [same]
    · exact (SnapshotStore.saveNamed_reliable saved).2 pre (fresh now stamped epoch)
  | windows later same => rw [same]

theorem laters_keep {state : Daemon.State κ} {pre : String} {stamps : Int → Prop} {s t : Desk κ}
    (fresh : ∀ now, stamps now → 0 ≤ now → pre ≠ preRestoreName now)
    (run : Relation.ReflTransGen (Desk.Later state pre stamps) s t) :
    t.files (state.store.file pre) = s.files (state.store.file pre) := by
  induction run with
  | refl => rfl
  | tail _ step ih => exact (later_keeps fresh step).trans ih

/-- Loading `name` returns `snap` and nothing else. -/
def Loads (store : SnapshotStore κ) (files : Fs.State κ) (name : String) (snap : Snapshot) : Prop :=
  ∀ result after, Prog.Exec Reliable (store.loadNamed name) files result after ↔
    result = .ok snap ∧ after = files

theorem loads_of_file {store : SnapshotStore κ} {files : Fs.State κ} {name : String}
    {snap : Snapshot} (valid : validateName name = .ok ())
    (holds : files (store.file name) = some (store.codec.encode snap)) :
    Loads store files name snap := by
  intro result after
  constructor
  · intro run
    obtain ⟨same, loaded⟩ := SnapshotStore.loadNamed_reliable run
    exact ⟨loaded snap valid holds, same⟩
  · rintro ⟨rfl, rfl⟩
    exact SnapshotStore.loadNamed_runs valid holds

/-- A restore that succeeded in second `now` can be taken back in every later state before which no
request saved or deleted its pre-restore name and no restore took its name in the same second. -/
theorem restore_reversible {state : Daemon.State κ} {name restored pre : String} {mutations : Nat}
    {outcomes : List ApplyOutcome} {preview : SnapshotRestorePreview} {s t : Desk κ}
    (run : Prog.Exec (Desk.Acts fun _ => True) (handleRequest state (.snapshotRestore name)) s
      (.ok (.restored restored pre mutations outcomes preview)) t) :
    ∃ now, s.clock ≤ now ∧ pre = preRestoreName now ∧ ∃ created, ∀ u,
      Relation.ReflTransGen (Desk.Later state pre (· ≠ now)) t u →
      Loads state.store u.files pre (s.captured pre created) := by
  rcases snapshotRestore_exec run with ⟨-, failed⟩ | ⟨now, created, result, -, later, epoch, bound, saved, named⟩
  · exact absurd rfl (failed _)
  · obtain rfl := named _ _ _ _ _ rfl
    refine ⟨now, later, rfl, created, fun u laters => ?_⟩
    have valid := validateName_preRestore epoch bound
    have wrote : t.files (state.store.file (preRestoreName now)) = _ :=
      (SnapshotStore.saveNamed_reliable saved).1 valid
    have fresh : ∀ other, other ≠ now → 0 ≤ other → preRestoreName now ≠ preRestoreName other :=
      fun other different first same => different (preRestoreName_injective epoch first same).symm
    exact loads_of_file valid ((laters_keep fresh laters).trans wrote)

/-! ### Restores of one second -/

section Runs

variable {stamps : Int → Prop} {α : Type} {s : Desk κ}

theorem files_runs {p : Fs.Call κ α} {a : α} {before after : Fs.State κ}
    (run : Prog.Exec Reliable p before a after) (start : s.files = before) :
    Prog.Exec (Desk.Acts stamps) (files p) s a { s with files := after } := by
  induction run generalizing s with
  | ret a before =>
    subst start
    exact .ret _ _
  | ask x act _ ih =>
    subst start
    exact .ask x ⟨_, act, rfl⟩ (ih rfl)

theorem capture_runs (name : String) (epoch : 0 ≤ s.clock) (bound : s.clock < 2 ^ 63) :
    Prog.Exec (Desk.Acts stamps) (hypr (Snapshot.capture name)) s (.ok (s.captured name s.clock)) s := by
  have answers : ∀ q, Desk.Acts stamps (.cache (.hypr (.query q))) s (.ok (s.answers q)) s :=
    fun q => ⟨fun _ same => (Except.ok.inj same).symm, rfl⟩
  exact .ask _ (answers .version) (.ask _ (answers .clients) (.ask _ (answers .workspaces)
    (.ask _ (answers .monitors) (.ask _ (answers .activeWindow) (.ask _ (answers .activeWorkspace)
      (.ask s.clock ⟨Int.le_refl _, epoch, bound, rfl⟩ (.ret _ _)))))))

theorem applyAction_runs (action : RestoreAction) :
    ∃ outcome, Prog.Exec (Desk.Acts stamps) (hypr (applyAction action)) s outcome s := by
  have accepts : ∀ d, Desk.Acts stamps (.cache (.hypr (.dispatch d))) s (.ok ()) s :=
    fun d => ⟨rfl, rfl⟩
  cases action with
  | repositionFloating address at_ size _ _ =>
    exact ⟨_, .ask _ (accepts (.moveWindowPixel (.address address) at_.1 at_.2))
      (.ask _ (accepts (.resizeWindowPixel (.address address) size.1 size.2)) (.ret _ _))⟩
  | windowMissing | windowNotInSnapshot => exact ⟨_, .ret _ _⟩
  | moveToWorkspace address _ target =>
    exact ⟨_, .ask _ (accepts (.moveToWorkspaceSilent (.id target) (.address address))) (.ret _ _)⟩
  | toggleFloating address _ =>
    exact ⟨_, .ask _ (accepts (.toggleFloatingWindow (.address address))) (.ret _ _)⟩
  | setFullscreen address _ mode =>
    exact ⟨_, .ask _ (accepts (.setFullscreenState (.address address) mode (-1))) (.ret _ _)⟩
  | setPin address _ => exact ⟨_, .ask _ (accepts (.pinWindow (.address address))) (.ret _ _)⟩
  | restoreActiveFocus address _ =>
    exact ⟨_, .ask _ (accepts (.focusWindow (.address address))) (.ret _ _)⟩

theorem applyActions_runs (actions : List RestoreAction) :
    ∃ outcomes, Prog.Exec (Desk.Acts stamps) (hypr (applyActions actions)) s outcomes s := by
  induction actions with
  | nil => exact ⟨[], .ret _ _⟩
  | cons action rest ih =>
    obtain ⟨outcome, first⟩ :
        ∃ outcome, Prog.Exec (Desk.Acts stamps) (hypr (applyAction action)) s outcome s :=
      applyAction_runs action
    obtain ⟨outcomes, others⟩ := ih
    refine ⟨outcome :: outcomes, ?_⟩
    unfold applyActions hypr
    rw [Prog.relabel_bind]
    refine Prog.exec_bind.mpr ⟨outcome, s, first, ?_⟩
    rw [Prog.relabel_bind]
    exact Prog.exec_bind.mpr ⟨outcomes, s, others, .ret _ _⟩

/-- When nothing fails, the restore of a stored snapshot succeeds, whatever the windows are. -/
theorem restore_runs {state : Daemon.State κ} {name : String} {target : Snapshot}
    (valid : validateName name = .ok ())
    (holds : s.files (state.store.file name) = some (state.store.codec.encode target))
    (epoch : 0 ≤ s.clock) (bound : s.clock < 2 ^ 63) (stamped : stamps s.clock) :
    ∃ mutations outcomes preview files',
      Prog.Exec (Desk.Acts stamps) (handleRequest state (.snapshotRestore name)) s
        (.ok (.restored name (preRestoreName s.clock) mutations outcomes preview))
        { s with files := files' } ∧
      files' (state.store.file (preRestoreName s.clock)) =
        some (state.store.codec.encode (s.captured (preRestoreName s.clock) s.clock)) := by
  let pre := s.captured (preRestoreName s.clock) s.clock
  let diff := target.diffAgainst (s.captured "_live_" s.clock)
  have named : validateName pre.name = .ok () := validateName_preRestore epoch bound
  obtain ⟨after, saved⟩ : ∃ after, Prog.Exec Reliable (state.store.saveNamed pre) s.files
      (.ok (state.store.file pre.name)) after := SnapshotStore.saveNamed_runs named s.files
  obtain ⟨outcomes, applied⟩ : ∃ outcomes, Prog.Exec (Desk.Acts stamps) (hypr (applyDiff diff))
      { s with files := after } outcomes { s with files := after } := applyActions_runs _
  refine ⟨diff.mutationCount, outcomes, .fromSnapshotAndDiff target diff, after, ?_,
    (SnapshotStore.saveNamed_reliable saved).1 named⟩
  refine Prog.exec_bind.mpr ⟨_, s, files_runs (SnapshotStore.loadNamed_runs valid holds) rfl, ?_⟩
  refine Prog.exec_bind.mpr ⟨s.clock, s,
    Prog.exec_call.mpr ⟨⟨Int.le_refl _, epoch, bound, rfl⟩, stamped⟩, ?_⟩
  refine Prog.exec_bind.mpr ⟨Except.ok pre, s, capture_runs _ epoch bound, ?_⟩
  refine Prog.exec_bind.mpr ⟨_, { s with files := after }, files_runs saved rfl, ?_⟩
  refine Prog.exec_bind.mpr ⟨_, { s with files := after }, capture_runs "_live_" epoch bound, ?_⟩
  exact Prog.exec_bind.mpr ⟨outcomes, _, applied, .ret _ _⟩

end Runs

def bareSnapshot : Snapshot := ⟨"bare", 0, "0.40", [], [], [], none, 1⟩

def deskOf (windows : List Client) : Desk StateFile where
  answers
    | .version => ⟨"0.40", "c", "main"⟩
    | .clients => windows
    | .workspaces | .monitors | .binds => []
    | .activeWorkspace => ⟨1, "1", "eDP-1", 0, windows.length, false, "", ""⟩
    | .activeWindow => none
    | .cursorPos => ⟨0, 0⟩
  clock := 0
  files := Function.update (fun _ => none) (plainState.store.file "bare") (some (.snapshot bareSnapshot))

theorem deskOf_bare (windows : List Client) :
    (deskOf windows).files (plainState.store.file "bare") =
      some (plainState.store.codec.encode bareSnapshot) := by
  simp only [deskOf, Function.update_self]
  rfl

theorem bare_ne_preRestore {now : Int} (epoch : 0 ≤ now) : "bare" ≠ preRestoreName now := by
  intro same
  have chars := congrArg (fun s : String => s.toList.head?) same
  simp only [preRestoreName_toList epoch] at chars
  exact absurd chars (by simp)

theorem restore_reversible_once : ∃ pre created t,
    (∃ response, Prog.Exec (Desk.Acts fun _ => True)
      (handleRequest plainState (.snapshotRestore "bare")) (deskOf [kitty]) response t) ∧
    Loads plainState.store t.files pre ((deskOf [kitty]).captured pre created) := by
  obtain ⟨mutations, outcomes, preview, after, run, -⟩ :
      ∃ mutations outcomes preview after, Prog.Exec (Desk.Acts fun _ => True)
        (handleRequest plainState (.snapshotRestore "bare")) (deskOf [kitty])
        (.ok (.restored "bare" (preRestoreName 0) mutations outcomes preview))
        { deskOf [kitty] with files := after } ∧ _ :=
    restore_runs (by decide) (deskOf_bare _) (by decide) (by decide) trivial
  obtain ⟨now, -, -, created, loads⟩ := restore_reversible run
  exact ⟨_, created, _, ⟨_, run⟩, loads _ .refl⟩

/-- A window opens and a second restore follows within the second: the name now loads the windows of
the second restore. -/
theorem restores_of_one_second : ¬ ∀ (name restored pre : String) (mutations : Nat)
    (outcomes : List ApplyOutcome) (preview : SnapshotRestorePreview) (s t u : Desk StateFile),
    Prog.Exec (Desk.Acts fun _ => True) (handleRequest plainState (.snapshotRestore name)) s
      (.ok (.restored restored pre mutations outcomes preview)) t →
    Relation.ReflTransGen (Desk.Later plainState pre fun _ => True) t u →
    ∃ created, Loads plainState.store u.files pre (s.captured pre created) := by
  intro always
  let pre := preRestoreName 0
  have bound : (0 : Int) < 2 ^ 63 := by decide
  obtain ⟨m₁, o₁, p₁, after₁, first, -⟩ :
      ∃ mutations outcomes preview after, Prog.Exec (Desk.Acts fun _ => True)
        (handleRequest plainState (.snapshotRestore "bare")) (deskOf [])
        (.ok (.restored "bare" pre mutations outcomes preview))
        { deskOf [] with files := after } ∧ _ :=
    restore_runs (by decide) (deskOf_bare _) (Int.le_refl 0) bound trivial
  have kept : after₁ (plainState.store.file "bare") = some (.snapshot bareSnapshot) :=
    (later_keeps (fun _ _ epoch => bare_ne_preRestore epoch) (.restore "bare" first)).trans
      (deskOf_bare _)
  let opened : Desk StateFile := { deskOf [kitty] with files := after₁ }
  obtain ⟨m₂, o₂, p₂, after₂, second, holds⟩ :
      ∃ mutations outcomes preview after, Prog.Exec (Desk.Acts fun _ => True)
        (handleRequest plainState (.snapshotRestore "bare")) opened
        (.ok (.restored "bare" pre mutations outcomes preview))
        { opened with files := after } ∧ after (plainState.store.file pre) =
          some (plainState.store.codec.encode (opened.captured pre 0)) :=
    restore_runs (by decide) kept (Int.le_refl 0) bound trivial
  have opens : Desk.Later plainState pre (fun _ => True) { deskOf [] with files := after₁ } opened :=
    .windows (Int.le_refl _) rfl
  have laters : Relation.ReflTransGen (Desk.Later plainState pre fun _ => True)
      { deskOf [] with files := after₁ } { opened with files := after₂ } :=
    (Relation.ReflTransGen.refl.tail opens).tail (.restore "bare" second)
  obtain ⟨created, loads⟩ := always _ _ _ _ _ _ _ _ _ first laters
  have valid : validateName pre = .ok () := validateName_preRestore (by decide) (by decide)
  have last : Prog.Exec Reliable _ after₂ (Except.ok (opened.captured pre 0)) after₂ :=
    SnapshotStore.loadNamed_runs valid holds
  have same := Except.ok.inj ((loads _ _).mp last).1
  have windows := congrArg (fun s : Snapshot => s.windows.length) same
  exact absurd (show 1 = 0 from windows) (by decide)

end HyprPilot
