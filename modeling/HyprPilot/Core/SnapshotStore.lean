import HyprPilot.Base.Files
import HyprPilot.Core.Snapshot

/-!
# Snapshots on disk

One file for each name under the snapshot directory. A name is restricted to a safe character set,
a save writes a temporary file and renames it, and a load tells a missing file from a broken one.
-/

namespace HyprPilot
open Interact Fs

def isNameChar (c : Char) : Bool := c.isAlphanum || c == '_' || c == '-' || c == '.'

def validateName (name : String) : CoreResult Unit :=
  if name.isEmpty then .error (.validation "snapshot name must not be empty")
  else if 128 < name.utf8ByteSize then
    .error (.validation "snapshot name too long (max 128 chars)")
  else if !name.toList.all isNameChar || Text.startsWith "." name then
    .error (.validation ("snapshot name `" ++ name ++ "` contains illegal characters; allowed: " ++
      "[A-Za-z0-9_.-], must not start with `.`"))
  else .ok ()

example : validateName "../etc" = .error (.validation ("snapshot name `../etc` contains illegal " ++
    "characters; allowed: [A-Za-z0-9_.-], must not start with `.`")) := by decide

structure SnapshotStore (κ : Type) where
  snapshotsDir : String
  codec : Codec κ Snapshot

namespace SnapshotStore

variable {κ : Type} (store : SnapshotStore κ)

def file (name : String) : String := join store.snapshotsDir (name ++ ".json")

def snapshotPath (name : String) : CoreResult String :=
  match validateName name with
  | .ok () => .ok (store.file name)
  | .error e => .error e

def ofIo {α : Type} : IoResult α → CoreResult α
  | .ok a => .ok a
  | .error e => .error (.io e)

def save (snap : Snapshot) (path : String) : Fs.Call κ (CoreResult Unit) := do
  return ofIo (← writeAtomically (withExtension path "json.tmp") path (store.codec.encode snap))

def load (path : String) : Fs.Call κ (CoreResult Snapshot) := do
  match ← read path with
  | .error e => return .error (.io e)
  | .ok raw =>
    match store.codec.decode raw with
    | .ok snap => return .ok snap
    | .error e => return .error (.json e)

def saveNamed (snap : Snapshot) : Fs.Call κ (CoreResult String) :=
  match store.snapshotPath snap.name with
  | .error e => return .error e
  | .ok path => (store.save snap path).andThen fun () => return .ok path

def loadNamed (name : String) : Fs.Call κ (CoreResult Snapshot) :=
  match store.snapshotPath name with
  | .error e => return .error e
  | .ok path => do
    if ← pathExists path then store.load path
    else return .error (.notFound ("snapshot `" ++ name ++ "`"))

def deleteNamed (name : String) : Fs.Call κ (CoreResult Unit) :=
  match store.snapshotPath name with
  | .error e => return .error e
  | .ok path => do
    if ← pathExists path then return ofIo (← removeFile path)
    else return .ok ()

/-- The stem of a file name whose extension is `json`; `.json` itself has no extension. -/
def jsonStem (fileName : String) : Option String :=
  (Text.stripSuffix ".json" fileName).filter (· ≠ "")

def listNames : Fs.Call κ (IoResult (List String)) := do
  if ← pathExists store.snapshotsDir then
    match ← readDir store.snapshotsDir with
    | .error e => return .error e
    | .ok entries =>
      return .ok ((entries.filterMap jsonStem).mergeSort fun a b => decide (a ≤ b))
  else return .ok []

end SnapshotStore

end HyprPilot
