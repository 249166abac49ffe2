import HyprPilot.Base.Prog
import Mathlib.Logic.Function.Basic

/-!
# Files

A file system is a map from paths to contents. A call on it may fail; a failed write leaves
anything in the file it was writing, and a rename takes effect as a whole or not at all.

`writeAtomically` writes a temporary file and renames it over its target. The target then holds
either the old content or the new one, whichever call failed.
-/

namespace Fs
open Interact

variable {κ : Type}

abbrev IoResult := Except String

inductive Cmd (κ : Type) where
  | pathExists (path : String)
  | read (path : String)
  | write (path : String) (content : κ)
  | rename (source target : String)
  | removeFile (path : String)
  | createDirAll (path : String)
  | readDir (path : String)

@[reducible] def Ans : Cmd κ → Type
  | .pathExists _ => Bool
  | .read _ => IoResult κ
  | .write _ _ => IoResult Unit
  | .rename _ _ => IoResult Unit
  | .removeFile _ => IoResult Unit
  | .createDirAll _ => IoResult Unit
  | .readDir _ => IoResult (List String)

abbrev State (κ : Type) := String → Option κ

/-- A serialisation that reads back what it wrote. -/
structure Codec (κ α : Type) where
  encode : α → κ
  decode : κ → Except String α
  decode_encode : ∀ a, decode (encode a) = .ok a

/-! ### Paths -/

def join (dir name : String) : String := dir ++ "/" ++ name

/-- `Path::parent` of a path with at least one separator. -/
def parent (path : String) : String :=
  String.ofList ((path.toList.reverse.dropWhile (· ≠ '/')).drop 1).reverse

/-- A file name, reversed, without its extension: a name that starts with its only dot has none. -/
def stemReversed (name : List Char) : List Char :=
  match name.dropWhile (· ≠ '.') with
  | _ :: c :: rest => c :: rest
  | _ => name

def withExtension (path ext : String) : String :=
  let chars := path.toList.reverse
  let name := chars.takeWhile (· ≠ '/')
  let dir := chars.dropWhile (· ≠ '/')
  String.ofList (dir.reverse ++ (stemReversed name).reverse) ++ "." ++ ext

theorem stemReversed_of_extension {ext name : List Char} (plain : '.' ∉ ext) {c : Char} (rest : List Char)
    (split : name = ext ++ '.' :: c :: rest) : stemReversed name = c :: rest := by
  have skipped : name.dropWhile (· ≠ '.') = '.' :: c :: rest := by
    rw [split, List.dropWhile_append_of_pos]
    · rfl
    · intro x member
      have different : x ≠ '.' := fun same => plain (same ▸ member)
      simpa using different
  rw [stemReversed, skipped]

/-- The temporary file of a path is another file. -/
theorem withExtension_tmp_ne (path : String) : withExtension path "json.tmp" ≠ path := by
  intro same
  have chars := congrArg (fun s => s.toList.reverse) same
  simp only [withExtension, String.toList_append, String.toList_ofList, List.reverse_append,
    List.reverse_reverse] at chars
  have cut := List.takeWhile_append_dropWhile (p := (· ≠ '/')) (l := path.toList.reverse)
  generalize path.toList.reverse.takeWhile (· ≠ '/') = name at chars cut
  generalize path.toList.reverse.dropWhile (· ≠ '/') = dir at chars cut
  rw [← cut, ← List.append_assoc, ← List.append_assoc, List.append_left_inj] at chars
  have named : name = ['p', 'm', 't'] ++ '.' :: 'n' :: (['o', 's', 'j', '.'] ++ stemReversed name) :=
    chars.symm
  have stem := stemReversed_of_extension (by decide) _ named
  have lengths := congrArg List.length stem
  simp only [List.length_cons, List.length_append, List.length_nil] at lengths
  omega

/-! ### Calls -/

def Act : (c : Cmd κ) → State κ → Ans c → State κ → Prop
  | .pathExists path, s, x, t => x = (s path).isSome ∧ t = s
  | .read path, s, x, t => (∀ content, x = .ok content → s path = some content) ∧ t = s
  | .write path content, s, x, t =>
    match x with
    | .ok _ => t = Function.update s path (some content)
    | .error _ => ∀ other, other ≠ path → t other = s other
  | .rename source target, s, x, t =>
    match x with
    | .ok _ => ∃ content, s source = some content ∧
        t = Function.update (Function.update s source none) target (some content)
    | .error _ => t = s
  | .removeFile path, s, x, t =>
    match x with
    | .ok _ => t = Function.update s path none
    | .error _ => t = s
  | .createDirAll _, s, _, t => t = s
  | .readDir dir, s, x, t =>
    (∀ names, x = .ok names → names.Nodup ∧ ∀ name, name ∈ names ↔ (s (join dir name)).isSome) ∧
      t = s

/-- The call does not fail where it could succeed. -/
def Works : (c : Cmd κ) → State κ → Ans c → Prop
  | .read path, s, x => ∀ content, s path = some content → x = .ok content
  | .write _ _, _, x => x = .ok ()
  | .rename source _, s, x => (s source).isSome → x = .ok ()
  | .removeFile path, s, x => (s path).isSome → x = .ok ()
  | .createDirAll _, _, x => x = .ok ()
  | _, _, _ => True

/-- A file system on which every call that can succeed does. -/
def Reliable (c : Cmd κ) (s : State κ) (x : Ans c) (t : State κ) : Prop := Act c s x t ∧ Works c s x

/-- A file system that reads what it holds; its writes may fail. -/
def Readable (c : Cmd κ) (s : State κ) (x : Ans c) (t : State κ) : Prop :=
  Act c s x t ∧ match c with
    | .read path => ∀ content, s path = some content → x = .ok content
    | _ => True

abbrev Call (κ : Type) (α : Type) := Prog (Cmd κ) Ans α

abbrev pathExists (path : String) : Call κ Bool := .call (Cmd.pathExists path)

abbrev read (path : String) : Call κ (IoResult κ) := .call (Cmd.read path)

abbrev write (path : String) (content : κ) : Call κ (IoResult Unit) := .call (Cmd.write path content)

abbrev rename (source target : String) : Call κ (IoResult Unit) := .call (Cmd.rename source target)

abbrev removeFile (path : String) : Call κ (IoResult Unit) := .call (Cmd.removeFile path)

abbrev createDirAll (path : String) : Call κ (IoResult Unit) := .call (Cmd.createDirAll path)

abbrev readDir (path : String) : Call κ (IoResult (List String)) := .call (Cmd.readDir path)

def writeAtomically (tmp path : String) (content : κ) : Call κ (IoResult Unit) := do
  match ← createDirAll (parent path) with
  | .error e => return .error e
  | .ok () =>
    match ← write tmp content with
    | .error e => return .error e
    | .ok () => rename tmp path

section Atomic

variable {tmp path : String} {content : κ} {s t : State κ}

/-- A write that ends puts the content at the path, or fails and leaves all but the temporary file. -/
theorem writeAtomically_cases {result : IoResult Unit}
    (run : Prog.Exec Act (writeAtomically tmp path content) s result t) :
    (∃ e, result = .error e ∧ ∀ other, other ≠ tmp → t other = s other) ∨
      (result = .ok () ∧
        t = Function.update (Function.update s tmp none) path (some content)) := by
  unfold writeAtomically at run
  rw [Prog.call_bind, Prog.exec_ask] at run
  obtain ⟨made, u, created, run⟩ := run
  obtain rfl : u = s := created
  cases made with
  | error e =>
    obtain ⟨same, rfl⟩ := Prog.exec_ret.mp run
    exact .inl ⟨e, same, fun _ _ => rfl⟩
  | ok _ =>
    rw [Prog.call_bind, Prog.exec_ask] at run
    obtain ⟨wrote, v, written, run⟩ := run
    cases wrote with
    | error e =>
      obtain ⟨same, rfl⟩ := Prog.exec_ret.mp run
      exact .inl ⟨e, same, written⟩
    | ok _ =>
      have full : v = Function.update u tmp (some content) := written
      subst full
      obtain ⟨renamed, w, moved, run⟩ := Prog.exec_ask.mp run
      obtain ⟨rfl, rfl⟩ := Prog.exec_ret.mp run
      cases result with
      | error e =>
        have kept : t = Function.update u tmp (some content) := moved
        refine .inl ⟨e, rfl, fun other different => ?_⟩
        rw [kept, Function.update_of_ne different]
      | ok _ =>
        obtain ⟨found, read, rfl⟩ := moved
        rw [Function.update_self] at read
        cases read
        rw [Function.update_idem]
        exact .inr ⟨rfl, rfl⟩

theorem writeAtomically_ok (run : Prog.Exec Act (writeAtomically tmp path content) s (.ok ()) t) :
    t = Function.update (Function.update s tmp none) path (some content) := by
  rcases writeAtomically_cases run with ⟨e, failed, -⟩ | ⟨-, written⟩
  · cases failed
  · exact written

theorem writeAtomically_error {e : String}
    (run : Prog.Exec Act (writeAtomically tmp path content) s (.error e) t) :
    ∀ other, other ≠ tmp → t other = s other := by
  rcases writeAtomically_cases run with ⟨_, -, kept⟩ | ⟨written, -⟩
  · exact kept
  · cases written

/-- Whether the calls of a run include a rename that took effect. -/
def renamed (calls : List (Sigma (Ans (κ := κ)))) : Bool :=
  calls.any fun
    | ⟨.rename _ _, .ok _⟩ => true
    | _ => false

theorem writeAtomically_renamed {calls : List (Sigma Ans)} {result : IoResult Unit}
    (run : Prog.Run (writeAtomically tmp path content) calls result) :
    renamed calls = true ↔ result = .ok () := by
  unfold writeAtomically at run
  rw [Prog.call_bind, Prog.run_ask] at run
  obtain ⟨made, rest, rfl, run⟩ := run
  cases made with
  | error e =>
    obtain ⟨rfl, rfl⟩ := Prog.run_ret.mp run
    simp [renamed]
  | ok _ =>
    rw [Prog.call_bind, Prog.run_ask] at run
    obtain ⟨wrote, last, rfl, run⟩ := run
    cases wrote with
    | error e =>
      obtain ⟨rfl, rfl⟩ := Prog.run_ret.mp run
      simp [renamed]
    | ok _ =>
      obtain ⟨moved, none, rfl, ending⟩ := Prog.run_ask.mp run
      obtain ⟨rfl, rfl⟩ := Prog.run_ret.mp ending
      cases result <;> simp [renamed]

theorem writeAtomically_runs (tmp path : String) (content : κ) (s : State κ) :
    Prog.Exec Reliable (writeAtomically tmp path content) s (.ok ())
      (Function.update (Function.update s tmp none) path (some content)) := by
  have moved : Act (.rename tmp path) (Function.update s tmp (some content)) (.ok ())
      (Function.update (Function.update s tmp none) path (some content)) :=
    ⟨content, Function.update_self .., by rw [Function.update_idem]⟩
  exact .ask (.ok ()) ⟨rfl, rfl⟩ (.ask (.ok ()) ⟨rfl, rfl⟩ (.ask (.ok ()) ⟨moved, fun _ => rfl⟩ (.ret _ _)))

theorem writeAtomically_works {result : IoResult Unit}
    (run : Prog.Exec Reliable (writeAtomically tmp path content) s result t) :
    result = .ok () ∧ t = Function.update (Function.update s tmp none) path (some content) := by
  unfold writeAtomically at run
  rw [Prog.call_bind, Prog.exec_ask] at run
  obtain ⟨made, u, ⟨created, works⟩, run⟩ := run
  obtain rfl : u = s := created
  obtain rfl : made = .ok () := works
  rw [Prog.call_bind, Prog.exec_ask] at run
  obtain ⟨wrote, v, ⟨written, works⟩, run⟩ := run
  obtain rfl : wrote = .ok () := works
  have full : v = Function.update u tmp (some content) := written
  subst full
  obtain ⟨renamed, w, ⟨moved, works⟩, run⟩ := Prog.exec_ask.mp run
  obtain rfl : renamed = .ok () := works (by rw [Function.update_self]; rfl)
  obtain ⟨rfl, rfl⟩ := Prog.exec_ret.mp run
  obtain ⟨found, read, rfl⟩ := moved
  rw [Function.update_self] at read
  cases read
  exact ⟨rfl, by rw [Function.update_idem]⟩

end Atomic

end Fs
