import Mathlib.Data.Finset.Erase
import Mathlib.Data.Finset.SDiff
import Mathlib.Data.Finset.Lattice.Lemmas
import Mathlib.Data.Finset.Dedup
import Mathlib.Logic.Function.Basic
import Mathlib.Logic.Relation
import Mathlib.Tactic.Common

/-!
# Presses and releases

Streams of key presses and releases, and what they leave held. A stream settles when each of its
presses is followed by a release of the same key.

`Board` is one keyboard that several players play at once, each the stream it still has before it, and
a player may be cut off. As long as all streams settle, a held key is one that some player will release
or was to release when it was cut off.
-/

namespace Presses

inductive KeyEvent (K : Type) where
  | down (k : K)
  | up (k : K)
  deriving DecidableEq

namespace KeyEvent

variable {K L : Type}

def map (f : K → L) : KeyEvent K → KeyEvent L
  | .down k => .down (f k)
  | .up k => .up (f k)

def act [DecidableEq K] (held : Finset K) : KeyEvent K → Finset K
  | .down k => insert k held
  | .up k => held.erase k

end KeyEvent

section Streams

variable {K L : Type}

def Settles : List (KeyEvent K) → Prop
  | [] => True
  | .down k :: rest => .up k ∈ rest ∧ Settles rest
  | .up _ :: rest => Settles rest

@[simp] theorem settles_nil : Settles ([] : List (KeyEvent K)) := trivial

@[simp] theorem settles_down {k : K} {rest : List (KeyEvent K)} :
    Settles (.down k :: rest) ↔ .up k ∈ rest ∧ Settles rest := Iff.rfl

@[simp] theorem settles_up {k : K} {rest : List (KeyEvent K)} : Settles (.up k :: rest) ↔ Settles rest := Iff.rfl

theorem Settles.tail {e : KeyEvent K} {rest : List (KeyEvent K)} (settles : Settles (e :: rest)) :
    Settles rest := by
  cases e with
  | down k => exact settles.2
  | up k => exact settles

theorem Settles.append {first second : List (KeyEvent K)} (left : Settles first) (right : Settles second) :
    Settles (first ++ second) := by
  induction first with
  | nil => exact right
  | cons e rest ih =>
    have later := ih left.tail
    cases e with
    | down k => exact ⟨List.mem_append_left _ left.1, later⟩
    | up k => exact later

/-- A stream that settles may be put into another one. -/
theorem Settles.insert {first mid last : List (KeyEvent K)} (whole : Settles (first ++ last))
    (inner : Settles mid) : Settles (first ++ mid ++ last) := by
  induction first with
  | nil => exact inner.append whole
  | cons e rest ih =>
    have later := ih whole.tail
    cases e with
    | down k =>
      refine ⟨?_, later⟩
      rcases List.mem_append.mp whole.1 with early | late
      · exact List.mem_append_left _ (List.mem_append_left _ early)
      · exact List.mem_append_right _ late
    | up k => exact later

theorem Settles.map (f : K → L) {events : List (KeyEvent K)} (settles : Settles events) :
    Settles (events.map (KeyEvent.map f)) := by
  induction events with
  | nil => trivial
  | cons e rest ih =>
    have later := ih settles.tail
    cases e with
    | down k => exact ⟨List.mem_map_of_mem (f := KeyEvent.map f) settles.1, later⟩
    | up k => exact later

/-- A key struck while the modifiers are down, which are then released in the opposite order. -/
def chord (modifiers : List K) (key : K) : List (KeyEvent K) :=
  modifiers.map .down ++ [.down key, .up key] ++ modifiers.reverse.map .up

theorem chord_cons (m : K) (modifiers : List K) (key : K) :
    chord (m :: modifiers) key = .down m :: (chord modifiers key ++ [.up m]) := by
  simp [chord]

theorem settles_chord (modifiers : List K) (key : K) : Settles (chord modifiers key) := by
  induction modifiers with
  | nil => simp [chord]
  | cons m rest ih =>
    rw [chord_cons]
    exact ⟨List.mem_append_right _ (by simp), ih.append trivial⟩

variable [DecidableEq K]

def after (held : Finset K) (events : List (KeyEvent K)) : Finset K := events.foldl KeyEvent.act held

@[simp] theorem after_nil (held : Finset K) : after held [] = held := rfl

@[simp] theorem after_cons (held : Finset K) (e : KeyEvent K) (rest : List (KeyEvent K)) :
    after held (e :: rest) = after (e.act held) rest := rfl

theorem after_append (held : Finset K) (first second : List (KeyEvent K)) :
    after held (first ++ second) = after (after held first) second := List.foldl_append

/-- Each press of a stream with the keys that were held just before it. -/
def strokes (held : Finset K) : List (KeyEvent K) → List (Finset K × K)
  | [] => []
  | .down k :: rest => (held, k) :: strokes (insert k held) rest
  | .up k :: rest => strokes (held.erase k) rest

theorem strokes_append (held : Finset K) (first second : List (KeyEvent K)) :
    strokes held (first ++ second) = strokes held first ++ strokes (after held first) second := by
  induction first generalizing held with
  | nil => rfl
  | cons e rest ih => cases e <;> simp [strokes, ih, KeyEvent.act]

theorem after_presses (held : Finset K) (keys : List K) :
    after held (keys.map .down) = held ∪ keys.toFinset := by
  induction keys generalizing held with
  | nil => simp
  | cons k rest ih => simp [ih, KeyEvent.act]

theorem after_releases (held : Finset K) (keys : List K) :
    after held (keys.map .up) = held \ keys.toFinset := by
  induction keys generalizing held with
  | nil => simp
  | cons k rest ih =>
    rw [List.map_cons, after_cons, ih, List.toFinset_cons]
    ext x
    simp [KeyEvent.act]
    tauto

theorem strokes_releases (held : Finset K) (keys : List K) : strokes held (keys.map .up) = [] := by
  induction keys generalizing held with
  | nil => rfl
  | cons k rest ih => exact ih _

/-- The last press of a chord is its key, with the modifiers down. -/
theorem strokes_chord (held : Finset K) (modifiers : List K) (key : K) :
    strokes held (chord modifiers key) =
      strokes held (modifiers.map .down) ++ [(held ∪ modifiers.toFinset, key)] := by
  rw [chord, strokes_append, strokes_append, strokes_releases, after_presses, List.append_nil]
  rfl

theorem after_chord (held : Finset K) (modifiers : List K) (key : K) :
    after held (chord modifiers key) = held \ insert key modifiers.toFinset := by
  rw [chord, after_append, after_append, after_presses, after_releases, List.toFinset_reverse]
  ext x
  simp [KeyEvent.act]
  tauto

end Streams

/-! ### Several players on one keyboard -/

structure Board (K ι : Type) where
  held : Finset K
  /-- What each player still plays. -/
  queue : ι → List (KeyEvent K)
  /-- What each player would have played if it had not been cut off. -/
  lost : ι → List (KeyEvent K)

namespace Board

variable {K ι : Type}

section Moves

variable [DecidableEq ι]

def enter (b : Board K ι) (i : ι) (events : List (KeyEvent K)) : Board K ι :=
  { b with queue := Function.update b.queue i (b.queue i ++ events) }

/-- The player plays only so many events more. -/
def cut (b : Board K ι) (i : ι) (n : Nat) : Board K ι where
  held := b.held
  queue := Function.update b.queue i ((b.queue i).take n)
  lost := Function.update b.lost i ((b.queue i).drop n ++ b.lost i)

inductive Plays [DecidableEq K] : Board K ι → Board K ι → Prop where
  | play {b : Board K ι} (i : ι) {e : KeyEvent K} {rest : List (KeyEvent K)} :
      b.queue i = e :: rest → Plays b ⟨e.act b.held, Function.update b.queue i rest, b.lost⟩

end Moves

def Idle (b : Board K ι) : Prop := ∀ i, b.queue i = []

/-- What a player has before it, played or not. -/
def ahead (b : Board K ι) (i : ι) : List (KeyEvent K) := b.queue i ++ b.lost i

structure Released (b : Board K ι) : Prop where
  settles : ∀ i, Settles (b.ahead i)
  pending : ∀ k ∈ b.held, ∃ i, .up k ∈ b.ahead i

section Moves

variable [DecidableEq ι] {b : Board K ι}

@[simp] theorem ahead_enter (i j : ι) (events : List (KeyEvent K)) :
    (b.enter i events).ahead j = if j = i then b.queue i ++ events ++ b.lost i else b.ahead j := by
  by_cases same : j = i
  · subst same
    simp [ahead, enter]
  · simp [ahead, enter, same]

@[simp] theorem ahead_cut (i : ι) (n : Nat) (j : ι) : (b.cut i n).ahead j = b.ahead j := by
  by_cases same : j = i
  · subst same
    simp [ahead, cut, ← List.append_assoc]
  · simp [ahead, cut, same]

theorem Released.enter (released : b.Released) (i : ι) {events : List (KeyEvent K)}
    (settles : Settles events) : (b.enter i events).Released := by
  constructor
  · intro j
    rw [ahead_enter]
    split
    · exact (released.settles i).insert settles
    · exact released.settles j
  · intro k held
    obtain ⟨j, waiting⟩ := released.pending k held
    refine ⟨j, ?_⟩
    rw [ahead_enter]
    split
    · next same =>
      subst same
      rcases List.mem_append.mp waiting with early | late
      · exact List.mem_append_left _ (List.mem_append_left _ early)
      · exact List.mem_append_right _ late
    · exact waiting

theorem Released.cut (released : b.Released) (i : ι) (n : Nat) : (b.cut i n).Released := by
  constructor
  · intro j
    rw [ahead_cut]
    exact released.settles j
  · intro k held
    obtain ⟨j, waiting⟩ := released.pending k held
    exact ⟨j, by rwa [ahead_cut]⟩

/-- Who has nothing before it plays nothing. -/
theorem Plays.ahead_nil [DecidableEq K] {c : Board K ι} (step : Plays b c) {j : ι} (done : b.ahead j = []) :
    c.ahead j = [] := by
  cases step with
  | @play i e rest first =>
    by_cases same : j = i
    · subst same
      simp [ahead, first] at done
    · simpa [ahead, same] using done

theorem Plays.lost [DecidableEq K] {c : Board K ι} (step : Plays b c) : c.lost = b.lost := by
  cases step
  rfl

theorem Released.plays [DecidableEq K] {c : Board K ι} (released : b.Released) (step : Plays b c) :
    c.Released := by
  cases step with
  | @play i e rest first =>
    have before : b.ahead i = e :: (rest ++ b.lost i) := by rw [ahead, first, List.cons_append]
    have here : Settles (e :: (rest ++ b.lost i)) := before ▸ released.settles i
    constructor
    · intro j
      by_cases same : j = i
      · subst same
        simpa [ahead] using here.tail
      · simpa [ahead, same] using released.settles j
    · intro k held
      cases e with
      | down d =>
        -- The key that goes down is released by the rest of the same stream.
        rcases Finset.mem_insert.mp held with rfl | earlier
        · exact ⟨i, by simpa [ahead] using here.1⟩
        · obtain ⟨j, waiting⟩ := released.pending k earlier
          refine ⟨j, ?_⟩
          by_cases same : j = i
          · subst same
            simpa [ahead, first] using waiting
          · simpa [ahead, same] using waiting
      | up u =>
        obtain ⟨other, earlier⟩ := Finset.mem_erase.mp held
        obtain ⟨j, waiting⟩ := released.pending k earlier
        refine ⟨j, ?_⟩
        by_cases same : j = i
        · subst same
          simpa [ahead, first, other] using waiting
        · simpa [ahead, same] using waiting

end Moves

/-- When all have played to their end and nobody was cut off, nothing is held. -/
theorem Released.idle {b : Board K ι} (released : b.Released) (idle : b.Idle)
    (whole : ∀ i, b.lost i = []) : b.held = ∅ := by
  apply Finset.eq_empty_of_forall_notMem
  intro k held
  obtain ⟨i, waiting⟩ := released.pending k held
  simp [ahead, idle i, whole i] at waiting

end Board

end Presses
