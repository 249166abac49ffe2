import HyprPilot.Base.Disk
import HyprPilot.Core.SnapshotFiles
import Mathlib.Data.List.Nodup

/-!
# The snapshot store as a map

Seen through loads and lists, the store is a map from names to snapshots: a save that got as far as
its rename sets a name, a delete removes one, and everything else leaves the map alone, also a save
that stopped half way.
-/

namespace HyprPilot
open Interact Fs

/-! ### Names -/

def NameAllowed (name : String) : Prop :=
  1 ≤ name.length ∧ name.length ≤ 128 ∧ name.toList.head? ≠ some '.' ∧
    ∀ c ∈ name.toList, ('A' ≤ c ∧ c ≤ 'Z') ∨ ('a' ≤ c ∧ c ≤ 'z') ∨ ('0' ≤ c ∧ c ≤ '9') ∨
      c = '_' ∨ c = '-' ∨ c = '.'

theorem isNameChar_iff (c : Char) :
    isNameChar c = true ↔ ('A' ≤ c ∧ c ≤ 'Z') ∨ ('a' ≤ c ∧ c ≤ 'z') ∨ ('0' ≤ c ∧ c ≤ '9') ∨
      c = '_' ∨ c = '-' ∨ c = '.' := by
  have alpha : c.isAlpha = (c.isUpper || c.isLower) := rfl
  have upper : c.isUpper = decide (c.val ≥ 'A'.val ∧ c.val ≤ 'Z'.val) := rfl
  have lower : c.isLower = (decide (c.val ≥ 'a'.val) && decide (c.val ≤ 'z'.val)) := rfl
  simp [isNameChar, Char.isAlphanum, alpha, upper, lower, Char.isDigit, Char.le_def, or_assoc]

theorem ascii_of_nameChar {c : Char} (named : isNameChar c = true) : c.val ≤ 127 := by
  rw [isNameChar_iff] at named
  simp only [Char.le_def, UInt32.le_iff_toNat_le] at named ⊢
  have upper : 'Z'.val.toNat = 90 := rfl
  have lower : 'z'.val.toNat = 122 := rfl
  have digit : '9'.val.toNat = 57 := rfl
  have bound : (127 : UInt32).toNat = 127 := rfl
  rcases named with h | h | h | rfl | rfl | rfl
  · omega
  · omega
  · omega
  · decide
  · decide
  · decide

theorem startsWith_dot (name : String) :
    Text.startsWith "." name = true ↔ name.toList.head? = some '.' := by
  unfold Text.startsWith
  cases name.toList with
  | nil => simp
  | cons c cs =>
    show ('.' == c && List.isPrefixOf [] cs) = true ↔ _
    rw [List.isPrefixOf_nil_left, Bool.and_true, beq_iff_eq, List.head?_cons, Option.some.injEq]
    exact eq_comm

theorem validateName_ok_iff (name : String) : validateName name = .ok () ↔ NameAllowed name := by
  have chars : (∀ c ∈ name.toList, isNameChar c = true) ↔ name.toList.all isNameChar = true := by
    simp
  have size (named : ∀ c ∈ name.toList, isNameChar c = true) : name.utf8ByteSize = name.length := by
    have ascii (c : Char) (member : c ∈ name.toList) : c.utf8Size = 1 :=
      Char.utf8Size_eq_one_iff.mpr (ascii_of_nameChar (named c member))
    rw [Text.utf8ByteSize_of_ascii ascii, String.length_toList]
  have nonempty : name.isEmpty = false ↔ 1 ≤ name.length := by
    rw [Nat.one_le_iff_ne_zero, ← Bool.not_eq_true, String.isEmpty_iff, ne_eq, String.length_eq_zero_iff]
  have legal : ¬ (!name.toList.all isNameChar || Text.startsWith "." name) = true ↔
      (∀ c ∈ name.toList, isNameChar c = true) ∧ name.toList.head? ≠ some '.' := by
    rw [Bool.or_eq_true, Bool.not_eq_true', not_or, Bool.not_eq_false, startsWith_dot, chars]
  unfold NameAllowed validateName
  simp only [← isNameChar_iff]
  constructor
  · intro accepted
    split at accepted
    · cases accepted
    split at accepted
    · cases accepted
    split at accepted
    · cases accepted
    rename_i filled short plain
    obtain ⟨named, undotted⟩ := legal.mp plain
    rw [size named] at short
    exact ⟨nonempty.mp (Bool.eq_false_iff.mpr filled), Nat.le_of_not_lt short, undotted, named⟩
  · rintro ⟨filled, short, undotted, named⟩
    rw [if_neg (Bool.eq_false_iff.mp (nonempty.mpr filled)), if_neg, if_neg (legal.mpr ⟨named, undotted⟩)]
    rw [size named]
    exact Nat.not_lt.mpr short

theorem valid_flat {name : String} (valid : validateName name = .ok ()) : '/' ∉ name.toList := by
  intro member
  obtain ⟨-, -, -, named⟩ := (validateName_ok_iff name).mp valid
  exact absurd (named '/' member) (by decide)

theorem valid_nonempty {name : String} (valid : validateName name = .ok ()) : name.toList ≠ [] := by
  intro empty
  obtain ⟨filled, -⟩ := (validateName_ok_iff name).mp valid
  rw [← String.length_toList, empty] at filled
  cases filled

namespace SnapshotStore

variable {κ : Type} {store : SnapshotStore κ}

def temporary (store : SnapshotStore κ) (name : String) : String :=
  withExtension (store.file name) "json.tmp"

/-! ### Paths -/

theorem file_reversed (name : String) :
    (store.file name).toList.reverse =
      ".json".toList.reverse ++ name.toList.reverse ++ '/' :: store.snapshotsDir.toList.reverse := by
  simp [file, join]

theorem file_flat {name : String} (valid : validateName name = .ok ()) :
    ∀ c ∈ ".json".toList.reverse ++ name.toList.reverse, decide (c ≠ '/') = true := by
  intro c member
  rw [List.mem_append, List.mem_reverse, List.mem_reverse] at member
  rcases member with suffix | inside
  · have clear : ".json".toList.reverse.all (fun c => decide (c ≠ '/')) = true := by decide
    exact List.all_eq_true.mp clear c (List.mem_reverse.mpr suffix)
  · exact decide_eq_true fun same => valid_flat valid (same ▸ inside)

theorem entry_flat {name : String} (valid : validateName name = .ok ()) :
    '/' ∉ (name ++ ".json").toList := by
  intro member
  rw [String.toList_append, ← List.mem_reverse, List.reverse_append] at member
  exact of_decide_eq_true (file_flat valid '/' member) rfl

theorem parent_file {name : String} (valid : validateName name = .ok ()) :
    parent (store.file name) = store.snapshotsDir := by
  rw [parent, file_reversed, List.dropWhile_append_of_pos (file_flat valid),
    List.dropWhile_cons_of_neg (by simp)]
  simp

theorem temporary_eq {name : String} (valid : validateName name = .ok ()) :
    store.temporary name = join store.snapshotsDir (name ++ ".json.tmp") := by
  obtain ⟨c, rest, chars⟩ := List.exists_cons_of_ne_nil
    (fun empty => valid_nonempty valid (List.reverse_eq_nil_iff.mp empty))
  have stem : stemReversed (".json".toList.reverse ++ name.toList.reverse) = name.toList.reverse := by
    rw [chars]
    have split : ".json".toList.reverse ++ c :: rest = ['n', 'o', 's', 'j'] ++ '.' :: c :: rest := rfl
    exact stemReversed_of_extension (by decide) rest split
  apply String.toList_injective
  simp only [temporary, withExtension]
  rw [file_reversed, List.takeWhile_append_of_pos (file_flat valid),
    List.dropWhile_append_of_pos (file_flat valid), List.takeWhile_cons_of_neg (by simp),
    List.dropWhile_cons_of_neg (by simp), List.append_nil, stem]
  simp [join]

theorem join_injective {dir a b : String} (same : join dir a = join dir b) : a = b := by
  have chars := congrArg String.toList same
  simp only [join, String.toList_append, List.append_assoc] at chars
  exact String.toList_injective (List.append_cancel_left (List.append_cancel_left chars))

theorem append_cancel {a b ending : String} (same : a ++ ending = b ++ ending) : a = b := by
  have chars := congrArg String.toList same
  rw [String.toList_append, String.toList_append] at chars
  exact String.toList_injective (List.append_cancel_right chars)

theorem temporary_injective {a b : String} (validA : validateName a = .ok ())
    (validB : validateName b = .ok ()) (same : store.temporary a = store.temporary b) : a = b := by
  rw [temporary_eq validA, temporary_eq validB] at same
  exact append_cancel (join_injective same)

/-- Nothing in a directory is one of the directories that lead to it. -/
theorem not_leads (dir entry : String) : ¬ Leads (join dir entry) dir := by
  rintro (same | ⟨rest, same⟩)
  · have lengths := congrArg String.length same
    simp only [join, String.length_append] at lengths
    have one : "/".length = 1 := rfl
    omega
  · have lengths := congrArg String.length same
    simp only [join, String.length_append] at lengths
    have one : "/".length = 1 := rfl
    omega

theorem join_ne (dir entry : String) : join dir entry ≠ dir := fun same =>
  not_leads dir entry (Or.inl same.symm)

/-! ### Runs -/

/-- A save or a delete with the calls it made before it ended or stopped, a load or a list with
its result. -/
inductive Event (κ : Type) where
  | saving (snap : Snapshot) (calls : List (Sigma (Fs.Ans (κ := κ))))
  | deleting (name : String) (calls : List (Sigma (Fs.Ans (κ := κ))))
  | loading (name : String) (result : CoreResult Snapshot)
  | listing (result : IoResult (List String))

def Event.Happens (store : SnapshotStore κ) : Event κ → Disk κ → Disk κ → Prop
  | .saving snap calls, d, e =>
    Prog.Begun (store.saveNamed snap) calls ∧ Prog.Follows Disk.Act d calls e
  | .deleting name calls, d, e =>
    Prog.Begun (store.deleteNamed name) calls ∧ Prog.Follows Disk.Act d calls e
  | .loading name result, d, e => Prog.Exec Disk.Act (store.loadNamed name) d result e
  | .listing result, d, e => Prog.Exec Disk.Act store.listNames d result e

def Run (store : SnapshotStore κ) : Disk κ → List (Event κ) → Disk κ → Prop
  | d, [], e => e = d
  | d, event :: rest, e => ∃ u, event.Happens store d u ∧ Run store u rest e

/-- A delete took effect when it removed the file or found none. -/
def removes (calls : List (Sigma (Fs.Ans (κ := κ)))) : Bool :=
  calls.any fun
    | ⟨.removeFile _, .ok _⟩ => true
    | ⟨.pathExists _, found⟩ => !found
    | _ => false

abbrev Contents := String → Option Snapshot

def Event.next (m : Contents) : Event κ → Contents
  | .saving snap calls => if renamed calls then Function.update m snap.name (some snap) else m
  | .deleting name calls => if removes calls then Function.update m name none else m
  | .loading .. | .listing _ => m

/-- The last snapshot completely saved under each name and not since deleted. -/
def contents (events : List (Event κ)) : Contents := events.foldl Event.next fun _ => none

/-- The directory holds the files of the map's names, and temporary files at most beside them. -/
structure Holds (store : SnapshotStore κ) (d : Disk κ) (m : Contents) : Prop where
  files : ∀ name, validateName name = .ok () →
    d.files (store.file name) = (m name).map store.codec.encode
  valid : ∀ name, (m name).isSome → validateName name = .ok ()
  entries : ∀ entry, (d.files (join store.snapshotsDir entry)).isSome → ∃ name,
    validateName name = .ok () ∧ (entry = name ++ ".json" ∨ entry = name ++ ".json.tmp")
  flat : ∀ entry, d.dirs (join store.snapshotsDir entry) = false
  made : ∀ name, (m name).isSome → d.dirs store.snapshotsDir = true
  plain : d.files store.snapshotsDir = none

def Empty (store : SnapshotStore κ) (d : Disk κ) : Prop :=
  (∀ entry, d.files (join store.snapshotsDir entry) = none ∧
    d.dirs (join store.snapshotsDir entry) = false) ∧ d.files store.snapshotsDir = none

theorem Empty.holds {d : Disk κ} (empty : Empty store d) : Holds store d fun _ => none where
  files name _ := (empty.1 _).1
  valid _ present := nomatch present
  entries entry present := by
    rw [(empty.1 entry).1] at present
    cases present
  flat entry := (empty.1 entry).2
  made _ present := nomatch present
  plain := empty.2

section Step

variable {d e : Disk κ} {m : Contents} {calls : List (Sigma (Fs.Ans (κ := κ)))}

theorem flat_of_grows {dir : String} (flat : ∀ entry, d.dirs (join dir entry) = false)
    (grows : Disk.Grows dir d e) (entry : String) : e.dirs (join dir entry) = false := by
  rw [Bool.eq_false_iff]
  intro made
  rcases grows.2 _ made with before | leads
  · rw [flat entry] at before
    cases before
  · exact not_leads dir entry leads

theorem saveNamed_begun {snap : Snapshot} (begun : Prog.Begun (store.saveNamed snap) calls) :
    calls = [] ∨ (validateName snap.name = .ok () ∧
      Prog.Begun (writeAtomically (store.temporary snap.name) (store.file snap.name)
        (store.codec.encode snap)) calls) := by
  unfold saveNamed at begun
  cases valid : validateName snap.name with
  | error e =>
    rw [snapshotPath, valid] at begun
    exact Or.inl (Prog.begun_ret.mp begun)
  | ok _ =>
    rw [snapshotPath, valid] at begun
    have saving : Prog.Begun (store.save snap (store.file snap.name)) calls :=
      Prog.begun_bind_ret (fun saved => by cases saved <;> exact ⟨_, rfl⟩) begun
    exact Or.inr ⟨rfl, Prog.begun_bind_ret (fun _ => ⟨_, rfl⟩) saving⟩

theorem temporary_ne_dir {name : String} (valid : validateName name = .ok ()) :
    store.temporary name ≠ store.snapshotsDir := by
  rw [temporary_eq valid]
  exact join_ne _ _

theorem entry_temporary {name entry : String} (valid : validateName name = .ok ())
    (same : join store.snapshotsDir entry = store.temporary name) : entry = name ++ ".json.tmp" := by
  rw [temporary_eq valid] at same
  exact join_injective same

/-- Only the temporary file was touched. -/
theorem Holds.spared {name : String} (holds : Holds store d m) (valid : validateName name = .ok ())
    (kept : ∀ path, path ≠ store.temporary name → e.files path = d.files path)
    (grows : Disk.Grows store.snapshotsDir d e) : Holds store e m := by
  refine ⟨?_, holds.valid, ?_, flat_of_grows holds.flat grows,
    fun name present => grows.1 _ (holds.made name present), ?_⟩
  · intro other named
    rw [kept _ (temporary_ne_file _ other).symm]
    exact holds.files other named
  · intro entry present
    by_cases same : join store.snapshotsDir entry = store.temporary name
    · exact ⟨name, valid, Or.inr (entry_temporary valid same)⟩
    · rw [kept _ same] at present
      exact holds.entries entry present
  · rw [kept _ (temporary_ne_dir valid).symm]
    exact holds.plain

/-- The temporary file took the snapshot's place. -/
theorem Holds.saved {snap : Snapshot} (holds : Holds store d m) (valid : validateName snap.name = .ok ())
    (files : e.files = Function.update (Function.update d.files (store.temporary snap.name) none)
      (store.file snap.name) (some (store.codec.encode snap)))
    (made : e.dirs store.snapshotsDir) (grows : Disk.Grows store.snapshotsDir d e) :
    Holds store e (Function.update m snap.name (some snap)) := by
  have targetPlain : store.file snap.name ≠ store.snapshotsDir := join_ne _ _
  refine ⟨?_, ?_, ?_, flat_of_grows holds.flat grows, fun _ _ => made, ?_⟩
  · intro name named
    rw [files]
    by_cases same : name = snap.name
    · subst same
      rw [Function.update_self, Function.update_self]
      rfl
    · have other : store.file name ≠ store.file snap.name := fun twice => same (file_injective twice)
      have beside : store.file name ≠ store.temporary snap.name := (temporary_ne_file _ name).symm
      rw [Function.update_of_ne other, Function.update_of_ne beside, Function.update_of_ne same]
      exact holds.files name named
  · intro name present
    by_cases same : name = snap.name
    · rw [same]
      exact valid
    · rw [Function.update_of_ne same] at present
      exact holds.valid name present
  · intro entry present
    by_cases target : join store.snapshotsDir entry = store.file snap.name
    · exact ⟨snap.name, valid, Or.inl (join_injective target)⟩
    · rw [files, Function.update_of_ne target] at present
      by_cases same : join store.snapshotsDir entry = store.temporary snap.name
      · exact ⟨snap.name, valid, Or.inr (entry_temporary valid same)⟩
      · rw [Function.update_of_ne same] at present
        exact holds.entries entry present
  · rw [files, Function.update_of_ne targetPlain.symm, Function.update_of_ne (temporary_ne_dir valid).symm]
    exact holds.plain

theorem saving_holds {snap : Snapshot} (holds : Holds store d m)
    (begun : Prog.Begun (store.saveNamed snap) calls) (follows : Prog.Follows Disk.Act d calls e) :
    Holds store e (Event.next m (.saving snap calls)) := by
  rcases saveNamed_begun begun with rfl | ⟨valid, begun⟩
  · obtain rfl : e = d := follows
    exact holds
  obtain ⟨effect, grows⟩ := writeAtomically_begun begun follows
  rw [parent_file valid] at effect grows
  cases done : renamed calls with
  | false =>
    rw [done, if_neg Bool.false_ne_true] at effect
    rw [Event.next, done, if_neg Bool.false_ne_true]
    exact holds.spared valid effect grows
  | true =>
    rw [done, if_pos rfl] at effect
    rw [Event.next, done, if_pos rfl]
    exact holds.saved valid effect.1 effect.2 grows

theorem deleteNamed_begun {name : String} (begun : Prog.Begun (store.deleteNamed name) calls) :
    calls = [] ∨ (validateName name = .ok () ∧
      (calls = [⟨.pathExists (store.file name), false⟩] ∨
        calls = [⟨.pathExists (store.file name), true⟩] ∨
        ∃ removed, calls = [⟨.pathExists (store.file name), true⟩,
          ⟨.removeFile (store.file name), removed⟩])) := by
  unfold deleteNamed at begun
  cases valid : validateName name with
  | error e =>
    rw [snapshotPath, valid] at begun
    exact Or.inl (Prog.begun_ret.mp begun)
  | ok _ =>
    rw [snapshotPath, valid] at begun
    rcases Prog.begun_ask.mp begun with rfl | ⟨found, rest, rfl, later⟩
    · exact Or.inl rfl
    refine Or.inr ⟨rfl, ?_⟩
    cases found with
    | false =>
      obtain rfl := Prog.begun_ret.mp later
      exact Or.inl rfl
    | true =>
      rcases Prog.begun_ask.mp later with rfl | ⟨removed, last, rfl, ending⟩
      · exact Or.inr (Or.inl rfl)
      · obtain rfl := Prog.begun_ret.mp ending
        exact Or.inr (Or.inr ⟨removed, rfl⟩)

/-- The name's file is gone, and the map forgets the name. -/
theorem Holds.removed {name : String} (holds : Holds store d m)
    (gone : e.files = Function.update d.files (store.file name) none) (dirs : e.dirs = d.dirs) :
    Holds store e (Function.update m name none) := by
  have kept {other : String} (present : (Function.update m name none other).isSome) :
      (m other).isSome := by
    by_cases same : other = name
    · rw [same, Function.update_self] at present
      cases present
    · rwa [Function.update_of_ne same] at present
  refine ⟨?_, fun other present => holds.valid other (kept present), ?_, ?_, ?_, ?_⟩
  · intro other named
    rw [gone]
    by_cases same : other = name
    · rw [same, Function.update_self, Function.update_self]
      rfl
    · have different : store.file other ≠ store.file name := fun twice => same (file_injective twice)
      rw [Function.update_of_ne different, Function.update_of_ne same]
      exact holds.files other named
  · intro entry present
    rw [gone] at present
    by_cases same : join store.snapshotsDir entry = store.file name
    · rw [same, Function.update_self] at present
      cases present
    · rw [Function.update_of_ne same] at present
      exact holds.entries entry present
  · intro entry
    rw [dirs]
    exact holds.flat entry
  · intro other present
    rw [dirs]
    exact holds.made other (kept present)
  · have other : store.snapshotsDir ≠ store.file name := (join_ne _ _).symm
    rw [gone, Function.update_of_ne other]
    exact holds.plain

theorem deleting_holds {name : String} (holds : Holds store d m)
    (begun : Prog.Begun (store.deleteNamed name) calls) (follows : Prog.Follows Disk.Act d calls e) :
    Holds store e (Event.next m (.deleting name calls)) := by
  rcases deleteNamed_begun begun with rfl | ⟨valid, rfl | rfl | ⟨removed, rfl⟩⟩
  · obtain rfl : e = d := follows
    exact holds
  · obtain ⟨u, ⟨absent, rfl⟩, same⟩ := follows
    obtain rfl : e = u := same
    have missing : e.files (store.file name) = none := by
      have both := Bool.or_eq_false_iff.mp absent.symm
      simpa using both.1
    exact holds.removed (by rw [← missing, Function.update_eq_self]) rfl
  · obtain ⟨u, ⟨-, rfl⟩, same⟩ := follows
    obtain rfl : e = u := same
    exact holds
  · obtain ⟨u, ⟨-, rfl⟩, v, ⟨⟨removing, -⟩, dirs⟩, same⟩ := follows
    obtain rfl : e = v := same
    cases removed with
    | ok _ => exact holds.removed removing dirs
    | error _ =>
      rw [Disk.eq_of_same removing dirs]
      exact holds

theorem loading_result {name : String} {result : CoreResult Snapshot} (holds : Holds store d m)
    (run : Prog.Exec Disk.Act (store.loadNamed name) d result e) :
    e = d ∧ (validateName name = .ok () → result = match m name with
      | some snap => .ok snap
      | none => .error (.notFound ("snapshot `" ++ name ++ "`"))) := by
  unfold loadNamed at run
  cases valid : validateName name with
  | error e =>
    rw [snapshotPath, valid] at run
    refine ⟨(Prog.exec_ret.mp run).2, fun accepted => ?_⟩
    cases accepted
  | ok _ =>
    rw [snapshotPath, valid] at run
    obtain ⟨found, u, ⟨there, rfl⟩, rest⟩ := Prog.exec_ask.mp run
    have noDir : u.dirs (store.file name) = false := holds.flat _
    rw [noDir, Bool.or_false, holds.files name valid] at there
    cases saved : m name with
    | none =>
      rw [saved] at there
      subst there
      obtain ⟨rfl, rfl⟩ := Prog.exec_ret.mp rest
      exact ⟨rfl, fun _ => rfl⟩
    | some snap =>
      rw [saved] at there
      subst there
      have content : u.files (store.file name) = some (store.codec.encode snap) := by
        rw [holds.files name valid, saved]
        rfl
      obtain ⟨raw, v, ⟨⟨⟨-, files⟩, works⟩, dirs⟩, loading⟩ := Prog.exec_ask.mp rest
      obtain rfl : raw = .ok (store.codec.encode snap) := works _ content
      obtain rfl := Disk.eq_of_same files dirs
      dsimp only [Prog.bind] at loading
      rw [store.codec.decode_encode] at loading
      obtain ⟨rfl, rfl⟩ := Prog.exec_ret.mp loading
      exact ⟨rfl, fun _ => rfl⟩

theorem jsonStem_eq_some {entry name : String} :
    jsonStem entry = some name ↔ name ≠ "" ∧ entry = name ++ ".json" := by
  unfold jsonStem Text.stripSuffix
  rw [Option.filter_eq_some_iff, Option.map_eq_some_iff]
  simp only [List.isPrefixOf?_eq_some_iff_append_eq, decide_eq_true_eq]
  constructor
  · rintro ⟨⟨rest, split, rfl⟩, filled⟩
    refine ⟨filled, String.toList_injective ?_⟩
    have chars := congrArg List.reverse split
    rw [List.reverse_append, List.reverse_reverse, List.reverse_reverse] at chars
    rw [String.toList_append, String.toList_ofList, chars]
  · rintro ⟨filled, rfl⟩
    refine ⟨⟨name.toList.reverse, ?_, ?_⟩, filled⟩
    · rw [String.toList_append, List.reverse_append]
    · rw [List.reverse_reverse, String.ofList_toList]

theorem jsonStem_injective {a b name : String} (left : jsonStem a = some name)
    (right : jsonStem b = some name) : a = b :=
  (jsonStem_eq_some.mp left).2.trans (jsonStem_eq_some.mp right).2.symm

/-- A temporary file is not listed. -/
theorem tmp_ne_json (a b : String) : a ++ ".json.tmp" ≠ b ++ ".json" := by
  intro same
  have chars := congrArg (fun s : String => s.toList.getLast?) same
  simp [String.toList_append] at chars

theorem sorted_names {names : List String} (distinct : names.Nodup) :
    ((names.mergeSort fun a b => decide (a ≤ b)).Pairwise (· < ·)) ∧
      ∀ name, name ∈ names.mergeSort (fun a b => decide (a ≤ b)) ↔ name ∈ names := by
  have sorted : (names.mergeSort fun a b => decide (a ≤ b)).Pairwise fun a b => decide (a ≤ b) :=
    List.pairwise_mergeSort
      (fun a b c ab bc => by simpa using le_trans (of_decide_eq_true ab) (of_decide_eq_true bc))
      (fun a b => by simpa using le_total a b) names
  have apart := (List.mergeSort_perm names fun a b => decide (a ≤ b)).nodup_iff.mpr distinct
  refine ⟨?_, fun name => List.mem_mergeSort⟩
  refine (sorted.and apart).imp ?_
  rintro a b ⟨le, ne⟩
  exact lt_of_le_of_ne (of_decide_eq_true le) ne

theorem listing_result {result : IoResult (List String)} (holds : Holds store d m)
    (run : Prog.Exec Disk.Act store.listNames d result e) :
    e = d ∧ ∃ names, result = .ok names ∧ names.Pairwise (· < ·) ∧
      ∀ name, name ∈ names ↔ (m name).isSome := by
  unfold listNames at run
  obtain ⟨found, u, ⟨there, rfl⟩, rest⟩ := Prog.exec_ask.mp run
  rw [holds.plain, Option.isSome_none, Bool.false_or] at there
  subst there
  cases made : u.dirs store.snapshotsDir with
  | false =>
    rw [made] at rest
    obtain ⟨rfl, rfl⟩ := Prog.exec_ret.mp rest
    refine ⟨rfl, [], rfl, List.Pairwise.nil, fun name => ?_⟩
    constructor
    · intro member
      cases member
    · intro kept
      rw [holds.made name kept] at made
      cases made
  | true =>
    rw [made] at rest
    obtain ⟨listed, v, ⟨reading, rfl⟩, ending⟩ := Prog.exec_ask.mp rest
    rw [if_pos made] at reading
    obtain ⟨entries, rfl, distinct, exact_⟩ := reading
    obtain ⟨rfl, rfl⟩ := Prog.exec_ret.mp ending
    have apart : (entries.filterMap jsonStem).Nodup :=
      List.Nodup.filterMap (fun _ _ _ left right => jsonStem_injective left right) distinct
    obtain ⟨sorted, same⟩ := sorted_names apart
    refine ⟨rfl, _, rfl, sorted, fun name => ?_⟩
    rw [same, List.mem_filterMap]
    constructor
    · rintro ⟨entry, member, stem⟩
      obtain ⟨-, present⟩ := (exact_ entry).mp member
      rw [holds.flat, Bool.or_false] at present
      obtain ⟨other, valid, rfl | rfl⟩ := holds.entries entry present
      · obtain rfl : other = name := append_cancel (jsonStem_eq_some.mp stem).2
        have content := holds.files other valid
        rw [file] at content
        rw [content, Option.isSome_map] at present
        exact present
      · exact absurd (jsonStem_eq_some.mp stem).2 (tmp_ne_json other name)
    · intro kept
      have valid := holds.valid name kept
      refine ⟨name ++ ".json", (exact_ _).mpr ⟨?_, ?_⟩, jsonStem_eq_some.mpr ⟨?_, rfl⟩⟩
      · exact entry_flat valid
      · have content := holds.files name valid
        rw [file] at content
        rw [content, Option.isSome_map, kept]
        rfl
      · rintro rfl
        exact valid_nonempty valid rfl

theorem event_holds {event : Event κ} (holds : Holds store d m) (happens : event.Happens store d e) :
    Holds store e (event.next m) := by
  cases event with
  | saving snap calls => exact saving_holds holds happens.1 happens.2
  | deleting name calls => exact deleting_holds holds happens.1 happens.2
  | loading name result =>
    rw [(loading_result holds happens).1]
    exact holds
  | listing result =>
    rw [(listing_result holds happens).1]
    exact holds

theorem run_holds {events : List (Event κ)} (holds : Holds store d m) (run : Run store d events e) :
    Holds store e (events.foldl Event.next m) := by
  induction events generalizing d m with
  | nil =>
    obtain rfl : e = d := run
    exact holds
  | cons event rest ih =>
    obtain ⟨u, happens, later⟩ := run
    exact ih (event_holds holds happens) later

end Step

/-- A name that is not accepted is refused before any call. -/
def Untouched (store : SnapshotStore κ) (name : String) (refusal : CoreError) : Prop :=
  (∀ snap : Snapshot, snap.name = name → store.saveNamed snap = .ret (.error refusal)) ∧
    store.loadNamed name = .ret (.error refusal) ∧ store.deleteNamed name = .ret (.error refusal)

theorem untouched_of_refused {name : String} {refusal : CoreError}
    (refused : validateName name = .error refusal) : Untouched store name refusal := by
  have path : store.snapshotPath name = .error refusal := by rw [snapshotPath, refused]
  refine ⟨?_, ?_, ?_⟩
  · rintro snap rfl
    rw [saveNamed, path]
    rfl
  · rw [loadNamed, path]
    rfl
  · rw [deleteNamed, path]
    rfl

/-- A save that ended has renamed its file if and only if it reports success. -/
theorem saveNamed_complete {snap : Snapshot} {calls : List (Sigma (Fs.Ans (κ := κ)))}
    {result : CoreResult String} (run : Prog.Run (store.saveNamed snap) calls result) :
    renamed calls = true ↔ result = .ok (store.file snap.name) := by
  unfold saveNamed at run
  cases valid : validateName snap.name with
  | error e =>
    rw [snapshotPath, valid] at run
    obtain ⟨rfl, rfl⟩ := Prog.run_ret.mp run
    exact iff_of_false Bool.false_ne_true (by simp)
  | ok _ =>
    rw [snapshotPath, valid] at run
    obtain ⟨first, last, saved, rfl, saving, ending⟩ := Prog.run_bind.mp run
    obtain ⟨calls, none, wrote, rfl, writing, returning⟩ := Prog.run_bind.mp saving
    obtain ⟨rfl, rfl⟩ := Prog.run_ret.mp returning
    have effect := writeAtomically_renamed writing
    cases wrote with
    | ok _ =>
      obtain ⟨rfl, rfl⟩ := Prog.run_ret.mp ending
      rw [List.append_nil, List.append_nil]
      exact iff_of_true (effect.mpr rfl) rfl
    | error e =>
      obtain ⟨rfl, rfl⟩ := Prog.run_ret.mp ending
      rw [List.append_nil, List.append_nil, effect]
      simp

theorem deleteNamed_complete {name : String} {calls : List (Sigma (Fs.Ans (κ := κ)))}
    {result : CoreResult Unit} (run : Prog.Run (store.deleteNamed name) calls result) :
    removes calls = true ↔ result = .ok () := by
  unfold deleteNamed at run
  cases valid : validateName name with
  | error e =>
    rw [snapshotPath, valid] at run
    obtain ⟨rfl, rfl⟩ := Prog.run_ret.mp run
    exact iff_of_false Bool.false_ne_true (by simp)
  | ok _ =>
    rw [snapshotPath, valid] at run
    obtain ⟨found, rest, rfl, later⟩ := Prog.run_ask.mp run
    cases found with
    | false =>
      obtain ⟨rfl, rfl⟩ := Prog.run_ret.mp later
      exact iff_of_true rfl rfl
    | true =>
      obtain ⟨removed, last, rfl, ending⟩ := Prog.run_ask.mp later
      obtain ⟨rfl, rfl⟩ := Prog.run_ret.mp ending
      cases removed <;> simp [removes, ofIo]

/-- The calls of a save: all that it writes goes to the temporary file, which then takes the place of
the snapshot's file. -/
def SaveCall (store : SnapshotStore κ) (snap : Snapshot) (c : Cmd κ) : Prop :=
  c = .createDirAll (parent (store.file snap.name)) ∨
    c = .write (store.temporary snap.name) (store.codec.encode snap) ∨
    c = .rename (store.temporary snap.name) (store.file snap.name)

theorem writeAtomically_asks (snap : Snapshot) :
    (writeAtomically (store.temporary snap.name) (store.file snap.name) (store.codec.encode snap)).Asks
      (SaveCall store snap) := by
  refine ⟨.inl rfl, fun made => ?_⟩
  cases made with
  | error e => trivial
  | ok _ =>
    refine ⟨.inr (.inl rfl), fun wrote => ?_⟩
    cases wrote with
    | error e => trivial
    | ok _ => exact ⟨.inr (.inr rfl), fun _ => trivial⟩

theorem saveNamed_asks (snap : Snapshot) : (store.saveNamed snap).Asks (SaveCall store snap) := by
  unfold saveNamed
  cases path : store.snapshotPath snap.name with
  | error e => trivial
  | ok target =>
    obtain rfl := snapshotPath_ok path
    have saving : (store.save snap (store.file snap.name)).Asks (SaveCall store snap) :=
      Prog.Asks.bind (writeAtomically_asks snap) fun _ => trivial
    exact Prog.Asks.bind saving fun saved => by cases saved <;> trivial

section Completes

variable {d e : Disk κ}

theorem saveNamed_completes {snap : Snapshot} {result : CoreResult String}
    (valid : validateName snap.name = .ok ())
    (run : Prog.Exec Disk.Reliable (store.saveNamed snap) d result e) :
    result = .ok (store.file snap.name) := by
  unfold saveNamed at run
  rw [snapshotPath, valid] at run
  obtain ⟨saved, u, saving, ending⟩ := Prog.exec_bind.mp run
  obtain ⟨wrote, v, writing, done⟩ := Prog.exec_bind.mp saving
  obtain rfl := writeAtomically_completes writing
  obtain ⟨rfl, -⟩ := Prog.exec_ret.mp done
  exact (Prog.exec_ret.mp ending).1

theorem deleteNamed_completes {name : String} {result : CoreResult Unit} {m : Contents}
    (holds : Holds store d m) (valid : validateName name = .ok ())
    (run : Prog.Exec Disk.Reliable (store.deleteNamed name) d result e) : result = .ok () := by
  unfold deleteNamed at run
  rw [snapshotPath, valid] at run
  obtain ⟨found, u, ⟨⟨there, rfl⟩, -⟩, rest⟩ := Prog.exec_ask.mp run
  have noDir : u.dirs (store.file name) = false := holds.flat _
  rw [noDir, Bool.or_false] at there
  cases found with
  | false => exact (Prog.exec_ret.mp rest).1
  | true =>
    obtain ⟨removed, v, ⟨-, works⟩, ending⟩ := Prog.exec_ask.mp rest
    obtain rfl : removed = .ok () := works there.symm
    exact (Prog.exec_ret.mp ending).1

end Completes

/-- The store refines a map from accepted names to snapshots, over runs from an empty directory in
which saves and deletes may stop between any two calls. -/
theorem store_is_map (store : SnapshotStore κ) :
    (∀ name, validateName name = .ok () ↔ NameAllowed name) ∧
    (∀ name, validateName name = .ok () → store.snapshotPath name = .ok (store.file name) ∧
      ∃ entry, '/' ∉ entry.toList ∧ store.file name = join store.snapshotsDir entry) ∧
    (∀ a b, validateName a = .ok () → validateName b = .ok () →
      store.file a ≠ store.temporary b ∧
        (a ≠ b → store.file a ≠ store.file b ∧ store.temporary a ≠ store.temporary b)) ∧
    (∀ name refusal, validateName name = .error refusal → Untouched store name refusal) ∧
    (∀ snap calls result, Prog.Run (store.saveNamed snap) calls result →
      (renamed calls = true ↔ result = .ok (store.file snap.name))) ∧
    (∀ name calls result, Prog.Run (store.deleteNamed name) calls result →
      (removes calls = true ↔ result = .ok ())) ∧
    (∀ snap, (store.saveNamed snap).Asks (SaveCall store snap)) ∧
    ∀ empty events d, Empty store empty → Run store empty events d →
      (∀ snap result e, validateName snap.name = .ok () →
        Prog.Exec Disk.Reliable (store.saveNamed snap) d result e → result = .ok (store.file snap.name)) ∧
      (∀ name result e, validateName name = .ok () →
        Prog.Exec Disk.Reliable (store.deleteNamed name) d result e → result = .ok ()) ∧
      (∀ name result e, validateName name = .ok () →
        Prog.Exec Disk.Act (store.loadNamed name) d result e →
        result = match contents events name with
          | some snap => .ok snap
          | none => .error (.notFound ("snapshot `" ++ name ++ "`"))) ∧
      ∀ result e, Prog.Exec Disk.Act store.listNames d result e →
        ∃ names, result = .ok names ∧ names.Pairwise (· < ·) ∧
          ∀ name, name ∈ names ↔ (contents events name).isSome := by
  refine ⟨validateName_ok_iff, ?_, ?_, fun _ _ => untouched_of_refused,
    fun _ _ _ => saveNamed_complete, fun _ _ _ => deleteNamed_complete, saveNamed_asks, ?_⟩
  · intro name valid
    refine ⟨by rw [snapshotPath, valid], name ++ ".json", ?_, rfl⟩
    exact entry_flat valid
  · intro a b validA validB
    refine ⟨(temporary_ne_file _ _).symm, fun different => ⟨?_, ?_⟩⟩
    · exact fun same => different (file_injective same)
    · exact fun same => different (temporary_injective validA validB same)
  · intro start events d empty run
    have holds := run_holds empty.holds run
    exact ⟨fun snap result e valid saving => saveNamed_completes valid saving,
      fun name result e valid deleting => deleteNamed_completes holds valid deleting,
      fun name result e valid loading => (loading_result holds loading).2 valid,
      fun result e listing => (listing_result holds listing).2⟩

/-! ### A save that stops before its rename -/

def plainStore : SnapshotStore Snapshot where
  snapshotsDir := "/s"
  codec := { encode := id, decode := .ok, decode_encode := fun _ => rfl }

def blankDisk : Disk Snapshot := ⟨fun _ => none, fun _ => false⟩

def writtenCalls (snap : Snapshot) : List (Sigma (Fs.Ans (κ := Snapshot))) :=
  [⟨.createDirAll (parent (plainStore.file snap.name)), .ok ()⟩,
    ⟨.write (plainStore.temporary snap.name) snap, .ok ()⟩]

theorem saving_stopped {snap : Snapshot} (valid : validateName snap.name = .ok ()) :
    Prog.Begun (plainStore.saveNamed snap) (writtenCalls snap) := by
  have writing : Prog.Begun (writeAtomically (plainStore.temporary snap.name)
      (plainStore.file snap.name) snap) (writtenCalls snap) := by
    unfold writeAtomically
    rw [Prog.call_bind]
    refine Prog.begun_ask.mpr (Or.inr ⟨.ok (), _, rfl, ?_⟩)
    exact Prog.begun_ask.mpr (Or.inr ⟨.ok (), _, rfl, .stopped _⟩)
  unfold saveNamed
  rw [snapshotPath, valid]
  exact Prog.Begun.bind (Prog.Begun.bind writing)

def notes : Snapshot :=
  { name := "notes", createdAtUnix := 0, hyprlandVersion := "0.55.2", monitors := []
    workspaces := [], windows := [], activeWindowAddress := none, activeWorkspaceId := 1 }

def half : Disk Snapshot :=
  blankDisk.half (parent (plainStore.file notes.name)) (plainStore.temporary notes.name) notes

theorem store_is_map_interrupted :
    Run plainStore blankDisk [.saving notes (writtenCalls notes)] half ∧
      ∀ result e, Prog.Exec Disk.Act (plainStore.loadNamed "notes") half result e →
        result = .error (.notFound "snapshot `notes`") := by
  have run : Run plainStore blankDisk [.saving notes (writtenCalls notes)] half :=
    ⟨half, ⟨saving_stopped (by decide), Disk.follows_half _ _ _ _⟩, rfl⟩
  have empty : Empty plainStore blankDisk := ⟨fun _ => ⟨rfl, rfl⟩, rfl⟩
  have loads := ((store_is_map plainStore).2.2.2.2.2.2.2 blankDisk _ half empty run).2.2.1 "notes"
  exact ⟨run, fun result e loading => loads result e (by decide) loading⟩

end SnapshotStore

end HyprPilot
