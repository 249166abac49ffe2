import HyprPilot.Base.Files

/-!
# Files in directories

A disk is a map from paths to contents together with the directories that exist. Reads tell what is
there; writes may fail, and a program may stop between two calls.
-/

namespace Fs
open Interact

variable {κ : Type}

structure Disk (κ : Type) where
  files : State κ
  dirs : String → Bool

theorem Disk.eq_of_same {d e : Disk κ} (files : e.files = d.files) (dirs : e.dirs = d.dirs) : e = d := by
  cases d
  cases e
  cases files
  cases dirs
  rfl

/-- The directories that creating `path` with its parents may create. -/
def Leads (dir path : String) : Prop := path = dir ∨ ∃ rest, path = join dir rest

def Disk.Act : (c : Cmd κ) → Disk κ → Ans c → Disk κ → Prop
  | .pathExists path, d, x, e => x = ((d.files path).isSome || d.dirs path) ∧ e = d
  | .createDirAll path, d, x, e =>
    e.files = d.files ∧ (∀ dir, d.dirs dir → e.dirs dir) ∧
      (∀ dir, e.dirs dir → d.dirs dir ∨ Leads dir path) ∧ (x = .ok () → e.dirs path)
  | .readDir dir, d, x, e =>
    (if d.dirs dir then ∃ names, x = .ok names ∧ names.Nodup ∧ ∀ name, name ∈ names ↔
        '/' ∉ name.toList ∧ ((d.files (join dir name)).isSome || d.dirs (join dir name))
      else ∃ error, x = .error error) ∧ e = d
  | c, d, x, e => Readable c d.files x e.files ∧ e.dirs = d.dirs

/-- A disk on which every call that can succeed does. -/
def Disk.Reliable (c : Cmd κ) (d : Disk κ) (x : Ans c) (e : Disk κ) : Prop :=
  Disk.Act c d x e ∧ Works c d.files x

/-- Of directories, at most those on the way to `path` are new. -/
def Disk.Grows (path : String) (d e : Disk κ) : Prop :=
  (∀ dir, d.dirs dir → e.dirs dir) ∧ ∀ dir, e.dirs dir → d.dirs dir ∨ Leads dir path

theorem Disk.Grows.of_same {path : String} {d e f : Disk κ} (grows : Grows path d e)
    (same : f.dirs = e.dirs) : Grows path d f := by
  unfold Grows
  rw [same]
  exact grows

/-- The disk with the directory made and the temporary file written. -/
def Disk.half (d : Disk κ) (dir tmp : String) (content : κ) : Disk κ :=
  ⟨Function.update d.files tmp (some content), Function.update d.dirs dir true⟩

theorem Disk.follows_half (d : Disk κ) (dir tmp : String) (content : κ) :
    Prog.Follows Disk.Act d [⟨.createDirAll dir, .ok ()⟩, ⟨.write tmp content, .ok ()⟩]
      (d.half dir tmp content) := by
  have made : Disk.Act (.createDirAll dir) d (.ok ()) ⟨d.files, Function.update d.dirs dir true⟩ := by
    refine ⟨rfl, ?_, ?_, fun _ => Function.update_self ..⟩
    · intro other here
      by_cases same : other = dir
      · rw [same]
        exact Function.update_self ..
      · show Function.update d.dirs dir true other = true
        rw [Function.update_of_ne same, here]
    · intro other here
      by_cases same : other = dir
      · exact Or.inr (Or.inl same.symm)
      · have here : Function.update d.dirs dir true other = true := here
        rw [Function.update_of_ne same] at here
        exact Or.inl here
  exact ⟨_, made, d.half dir tmp content, ⟨⟨rfl, trivial⟩, rfl⟩, rfl⟩

/-- Wherever an atomic write stopped, its target holds the new content when the rename took effect
and what it held before otherwise. -/
theorem writeAtomically_begun {tmp path : String} {content : κ} {d e : Disk κ}
    {calls : List (Sigma Ans)} (begun : Prog.Begun (writeAtomically tmp path content) calls)
    (follows : Prog.Follows Disk.Act d calls e) :
    (if renamed calls then
        e.files = Function.update (Function.update d.files tmp none) path (some content) ∧
          e.dirs (parent path)
      else ∀ other, other ≠ tmp → e.files other = d.files other) ∧ Disk.Grows (parent path) d e := by
  unfold writeAtomically at begun
  rw [Prog.call_bind, Prog.begun_ask] at begun
  rcases begun with rfl | ⟨made, calls, rfl, begun⟩
  · obtain rfl : e = d := follows
    exact ⟨fun _ _ => rfl, fun _ here => here, fun _ here => Or.inl here⟩
  obtain ⟨u, ⟨files, kept, fresh, exists_⟩, follows⟩ := follows
  have grows : Disk.Grows (parent path) d u := ⟨kept, fresh⟩
  cases made with
  | error e =>
    obtain rfl := Prog.begun_ret.mp begun
    have same : _ = u := follows
    subst same
    exact ⟨fun _ _ => by rw [files], grows⟩
  | ok _ =>
    rw [Prog.call_bind, Prog.begun_ask] at begun
    rcases begun with rfl | ⟨wrote, calls, rfl, begun⟩
    · obtain rfl : e = u := follows
      exact ⟨fun _ _ => by rw [files], grows⟩
    obtain ⟨v, ⟨⟨written, -⟩, dirs⟩, follows⟩ := follows
    cases wrote with
    | error e =>
      obtain rfl := Prog.begun_ret.mp begun
      have same : _ = v := follows
      subst same
      refine ⟨fun other different => ?_, grows.of_same dirs⟩
      rw [← files]
      exact written other different
    | ok _ =>
      have full : v.files = Function.update u.files tmp (some content) := written
      rcases Prog.begun_ask.mp begun with rfl | ⟨moved, calls, rfl, ending⟩
      · obtain rfl : e = v := follows
        refine ⟨fun other different => ?_, grows.of_same dirs⟩
        rw [full, Function.update_of_ne different, files]
      obtain ⟨w, ⟨⟨replaced, -⟩, dirs'⟩, follows⟩ := follows
      obtain rfl := Prog.begun_ret.mp ending
      have same : e = w := follows
      subst same
      have grows := grows.of_same (dirs'.trans dirs)
      cases moved with
      | error _ =>
        have kept : e.files = v.files := replaced
        refine ⟨fun other different => ?_, grows⟩
        rw [kept, full, Function.update_of_ne different, files]
      | ok _ =>
        obtain ⟨found, read, after⟩ := replaced
        rw [full, Function.update_self] at read
        obtain rfl := Option.some.inj read
        refine ⟨⟨?_, ?_⟩, grows⟩
        · rw [after, full, Function.update_idem, files]
        · rw [dirs', dirs]
          exact exists_ rfl

theorem writeAtomically_completes {tmp path : String} {content : κ} {d e : Disk κ}
    {result : IoResult Unit}
    (run : Prog.Exec Disk.Reliable (writeAtomically tmp path content) d result e) : result = .ok () := by
  unfold writeAtomically at run
  rw [Prog.call_bind, Prog.exec_ask] at run
  obtain ⟨made, u, ⟨-, works⟩, run⟩ := run
  obtain rfl : made = .ok () := works
  rw [Prog.call_bind, Prog.exec_ask] at run
  obtain ⟨wrote, v, ⟨⟨⟨written, -⟩, -⟩, works⟩, run⟩ := run
  obtain rfl : wrote = .ok () := works
  have full : v.files = Function.update u.files tmp (some content) := written
  obtain ⟨moved, w, ⟨-, works⟩, run⟩ := Prog.exec_ask.mp run
  obtain ⟨rfl, -⟩ := Prog.exec_ret.mp run
  exact works (by rw [full, Function.update_self]; rfl)

end Fs
