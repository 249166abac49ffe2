import HyprPilot.Base.Files
import HyprPilot.Core.Connection

/-!
# Undo

A bounded stack of recorded inverses, oldest first, that is written to disk after each push and
pop. Persistence is best effort: a failed write is logged and the stack goes on in memory.
-/

namespace HyprPilot
open Interact Fs

inductive InverseAction where
  | spawn (command : String)
  | moveToWorkspace (selector : WindowSelector) (workspace : WorkspaceRef) (silent : Bool)
  deriving DecidableEq

structure UndoEntry where
  timestampUnix : Int
  description : String
  inverse : InverseAction
  deriving DecidableEq

abbrev UndoCodec (κ : Type) := Codec κ (List UndoEntry)

structure UndoStack where
  entries : List UndoEntry
  capacity : Nat
  persistPath : Option String
  deriving DecidableEq

inductive LoadOutcome where
  | loaded (entries : Nat)
  | empty
  | corrupt (text : String)
  deriving DecidableEq

namespace UndoStack

variable {κ : Type} (codec : UndoCodec κ)

def withCapacity (capacity : Nat) : UndoStack := ⟨[], capacity, none⟩

def write (path : String) (entries : List UndoEntry) : Fs.Call κ (IoResult Unit) :=
  writeAtomically (withExtension path "json.tmp") path (codec.encode entries)

def readEntries (path : String) : Fs.Call κ (IoResult (List UndoEntry)) := do
  match ← read path with
  | .error e => return .error e
  | .ok raw => return codec.decode raw

/-- Best effort: the result of the write is only logged. -/
def persist (s : UndoStack) : Fs.Call κ Unit :=
  match s.persistPath with
  | none => return ()
  | some path => do
    let _ ← write codec path s.entries
    return ()

/-- The newest entries that fit: what is left when entries beyond the capacity are dropped. -/
def newest (capacity : Nat) (entries : List UndoEntry) : List UndoEntry :=
  entries.drop (entries.length - capacity)

def enablePersistence (s : UndoStack) (path : String) : Fs.Call κ (LoadOutcome × UndoStack) := do
  if ← pathExists path then
    match ← readEntries codec path with
    | .ok entries =>
      let kept := newest s.capacity entries
      return (.loaded kept.length, { s with entries := kept, persistPath := some path })
    | .error e => return (.corrupt e, { s with persistPath := some path })
  else return (.empty, { s with persistPath := some path })

/-- The entries after a push: a full stack evicts its oldest one. -/
def pushed (s : UndoStack) (entry : UndoEntry) : UndoStack :=
  { s with entries := (if s.entries.length = s.capacity then s.entries.tail else s.entries) ++ [entry] }

def push (s : UndoStack) (now : Int) (description : String) (inverse : InverseAction) :
    Fs.Call κ UndoStack := do
  let s := s.pushed ⟨now, description, inverse⟩
  persist codec s
  return s

def popped (s : UndoStack) : UndoStack := { s with entries := s.entries.dropLast }

def pop (s : UndoStack) : Fs.Call κ (Option UndoEntry × UndoStack) :=
  match s.entries.getLast? with
  | none => return (none, s)
  | some entry => do
    persist codec s.popped
    return (some entry, s.popped)

end UndoStack

def applyInverse : InverseAction → Connection.Call (CoreResult Unit)
  | .spawn command => Connection.dispatch (.exec command)
  | .moveToWorkspace selector workspace silent =>
    (Connection.dispatch (.focusWindow selector)).andThen fun () =>
      if silent then Connection.dispatch (.moveActiveToWorkspaceSilent workspace)
      else Connection.dispatch (.moveActiveToWorkspace workspace)

/-! ### Command lines of processes -/

def isSafeInShell (c : Char) : Bool :=
  c.isAlphanum || c ∈ ['_', '-', '.', '/', '=', '+', ':', ',']

def shellQuote (s : String) : String :=
  if s ≠ "" ∧ s.toList.all isSafeInShell then s
  else
    -- An embedded quote closes the quotation, is escaped, and opens it again.
    let quoted := s.toList.flatMap fun c => if c = '\'' then ['\'', '\\', '\'', '\''] else [c]
    String.ofList (['\''] ++ quoted ++ ['\''])

/-- `read_proc_cmdline` on the content of `/proc/<pid>/cmdline`, if it could be read. -/
def readProcCmdline : Option (List UInt8) → Option String
  | none => none
  | some bytes =>
    match (bytes.splitOn 0).filter (!·.isEmpty) with
    | [] => none
    | parts => some (Text.joinWith " " (parts.map fun part => shellQuote (Text.utf8Lossy part)))

example : shellQuote "can't" = "'can'\\''t'" := by decide

end HyprPilot
