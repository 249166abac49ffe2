import HyprPilot.Base.Shell
import HyprPilot.Base.Utf8
import HyprPilot.Daemon.Undo

/-!
# The command line of a killed process

The undo of a kill runs the process's argument vector again through a shell: each argument is quoted
and a shell reads it back. The arguments come from a file that ends each of them with a zero byte.
-/

namespace HyprPilot

/-! ### Quoting -/

/-- The safe characters need no quotes. -/
theorem isPlain_of_safe {c : Char} (safe : isSafeInShell c = true) : Shell.isPlain c = true := by
  by_contra special
  have cases : c = ' ' ∨ c = '\t' ∨ c = '\'' ∨ c = '\\' := by
    simpa [Shell.isPlain, Shell.isBlank, or_assoc, imp_iff_not_or] using special
  rcases cases with rfl | rfl | rfl | rfl <;> cases safe

theorem shellQuote_cases (s : String) :
    (shellQuote s = s ∧ s ≠ "" ∧ s.toList.all isSafeInShell = true) ∨
      (shellQuote s).toList = Shell.quote s.toList := by
  by_cases safe : s ≠ "" ∧ s.toList.all isSafeInShell
  · exact Or.inl ⟨if_pos safe, safe⟩
  · apply Or.inr
    rw [shellQuote, if_neg safe, String.toList_ofList]
    rfl

theorem shellQuote_renders (s : String) : Shell.Renders (shellQuote s).toList s.toList := by
  rcases shellQuote_cases s with ⟨same, some, safe⟩ | quoted
  · refine Or.inr ⟨by rw [same], by simpa using some, ?_⟩
    rw [List.all_eq_true] at safe ⊢
    exact fun c member => isPlain_of_safe (safe c member)
  · exact Or.inl quoted

theorem shellQuote_guarded (s : String) :
    Shell.Guarded isSafeInShell .unquoted (shellQuote s).toList := by
  rcases shellQuote_cases s with ⟨same, -, safe⟩ | quoted
  · rw [same]
    apply Shell.guarded_plain _ safe
    rw [List.all_eq_true] at safe ⊢
    exact fun c member => isPlain_of_safe (safe c member)
  · rw [quoted]
    exact Shell.guarded_quote isSafeInShell s.toList

def commandLine (argv : List String) : String := Text.joinWith " " (argv.map shellQuote)

theorem commandLine_renders (argv : List String) :
    List.Forall₂ Shell.Renders (argv.map fun arg => (shellQuote arg).toList)
      (argv.map String.toList) := by
  induction argv with
  | nil => exact .nil
  | cons arg rest ih => exact .cons (shellQuote_renders arg) ih

theorem commandLine_toList (argv : List String) :
    (commandLine argv).toList = [' '].intercalate (argv.map fun arg => (shellQuote arg).toList) := by
  rw [commandLine, Text.toList_joinWith, List.map_map]
  rfl

theorem commandLine_words (argv : List String) : Shell.words (commandLine argv) = some argv :=
  Shell.words_of_renders (commandLine_toList argv) (commandLine_renders argv)

/-- A shell reads a joined list of quoted strings as that list, and outside quotes it meets only
blanks, escaped quotes and safe characters. -/
theorem shellQuote_contained (argv : List String) :
    Shell.words (Text.joinWith " " (argv.map shellQuote)) = some argv ∧
      ∀ reading ∈ Shell.readings .unquoted (Text.joinWith " " (argv.map shellQuote)).toList,
        Shell.Contained isSafeInShell reading := by
  refine ⟨commandLine_words argv, ?_⟩
  rw [show Text.joinWith " " (argv.map shellQuote) = commandLine argv from rfl, commandLine_toList]
  apply Shell.guarded_intercalate (commandLine_renders argv)
  intro text member
  obtain ⟨arg, -, rfl⟩ := List.mem_map.mp member
  exact shellQuote_guarded arg

/-! ### Reading the argument vector -/

/-- The content of `/proc/<pid>/cmdline`. -/
def procCmdline (argv : List String) : List UInt8 := argv.flatMap fun arg => Text.utf8Bytes arg ++ [0]

def NulFree (argv : List String) : Prop := ∀ arg ∈ argv, Char.ofNat 0 ∉ arg.toList

theorem procCmdline_splitOn {argv : List String} (free : NulFree argv) :
    (procCmdline argv).splitOn 0 = argv.map Text.utf8Bytes ++ [[]] := by
  induction argv with
  | nil => rfl
  | cons arg rest ih =>
    obtain ⟨here, later⟩ := List.forall_mem_cons.mp free
    have clear : ∀ b ∈ Text.utf8Bytes arg, (b == (0 : UInt8)) = false := by
      intro b member
      rw [beq_eq_false_iff_ne]
      rintro rfl
      exact Text.zero_notMem here member
    rw [procCmdline, List.flatMap_cons, List.append_assoc, List.singleton_append,
      List.splitOn_eq_splitOnP, List.splitOnP_append_cons_of_forall_mem clear 0 (by simp),
      ← List.splitOn_eq_splitOnP, show List.flatMap _ rest = procCmdline rest from rfl, ih later]
    rfl

/-- The empty arguments are dropped with the empty piece after the last zero byte. -/
theorem procCmdline_pieces {argv : List String} (free : NulFree argv) :
    ((procCmdline argv).splitOn 0).filter (!·.isEmpty) =
      (argv.filter (· ≠ "")).map Text.utf8Bytes := by
  have kept (arg : String) : (!(Text.utf8Bytes arg).isEmpty) = decide (arg ≠ "") := by
    rw [Bool.eq_iff_iff, decide_eq_true_iff, ne_eq, ← Text.utf8Bytes_eq_nil]
    simp
  rw [procCmdline_splitOn free, List.filter_append, List.filter_map]
  simp only [Function.comp_def, kept, List.filter_cons, List.isEmpty_nil, Bool.not_true,
    Bool.false_eq_true, if_false, List.filter_nil, List.append_nil]

theorem readProcCmdline_eq {argv : List String} (free : NulFree argv) {first : String}
    {rest : List String} (kept : argv.filter (· ≠ "") = first :: rest) :
    readProcCmdline (some (procCmdline argv)) = some (commandLine (first :: rest)) := by
  have decoded (args : List String) :
      (args.map Text.utf8Bytes).map (fun part => shellQuote (Text.utf8Lossy part)) =
        args.map shellQuote := by
    rw [List.map_map]
    apply List.map_congr_left
    intro arg _
    rw [Function.comp_apply, Text.utf8Lossy_utf8Bytes]
  rw [readProcCmdline, procCmdline_pieces free, kept, List.map_cons]
  dsimp only
  rw [← List.map_cons, decoded]
  rfl

/-- A process is run again with its own arguments exactly when no argument after the first is
empty. -/
theorem respawn_same_iff {first : String} {rest : List String} (named : first ≠ "")
    (free : NulFree (first :: rest)) :
    (readProcCmdline (some (procCmdline (first :: rest)))).bind Shell.words = some (first :: rest) ↔
      "" ∉ rest := by
  have kept : (first :: rest).filter (· ≠ "") = first :: rest.filter (· ≠ "") := by
    rw [List.filter_cons, if_pos (by simpa using named)]
  rw [readProcCmdline_eq free kept, Option.bind_some, commandLine_words, Option.some_inj,
    List.cons_inj_right, List.filter_eq_self]
  constructor
  · intro all empty
    simpa using all "" empty
  · intro absent arg member
    rw [decide_eq_true_iff]
    rintro rfl
    exact absent member

theorem respawn_same_kitty :
    (readProcCmdline (some (procCmdline ["kitty", "--title", "a b"]))).bind Shell.words =
      some ["kitty", "--title", "a b"] :=
  (respawn_same_iff (by decide) (by unfold NulFree; decide)).mpr (by decide)

/-- `kitty --title ''` is run again as `kitty --title`. -/
theorem respawn_drops_empty :
    ¬∀ argv : List String, argv.head? ≠ some "" → argv ≠ [] → NulFree argv →
      (readProcCmdline (some (procCmdline argv))).bind Shell.words = some argv := by
  intro all
  have same := all ["kitty", "--title", ""] (by decide) (by decide) (by unfold NulFree; decide)
  have kept : ["kitty", "--title", ""].filter (· ≠ "") = "kitty" :: ["--title"] := by decide
  rw [readProcCmdline_eq (by unfold NulFree; decide) kept, Option.bind_some, commandLine_words] at same
  exact absurd same (by decide)

end HyprPilot
