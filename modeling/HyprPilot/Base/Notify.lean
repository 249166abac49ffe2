import Mathlib.Logic.Function.Basic
import Mathlib.Logic.Relation
import Mathlib.Data.List.Nodup

/-!
# One notification for several waiters

A notification that is sent once wakes the waiter that registered first, or is stored for the next
one that looks. A waiter that is dropped after it was woken passes the notification on.

`Loops` is what a set of loops does with such a notification: each is away, waiting or over. When all
loops but one are over, a notification once sent stays with that one until it is over too.
-/

structure Notify (ι : Type) where
  permit : Bool
  /-- Registered and not woken, the first to register first. -/
  waiters : List ι
  /-- Woken, and not yet looked at it. -/
  notified : List ι

namespace Notify

section Send

variable {ι : Type}

def new : Notify ι := ⟨false, [], []⟩

def notifyOne (n : Notify ι) : Notify ι :=
  match n.waiters with
  | [] => { n with permit := true }
  | first :: rest => { n with waiters := rest, notified := first :: n.notified }

/-- The first look of a new waiter: it takes a stored notification or registers. -/
def poll (n : Notify ι) (i : ι) : Bool × Notify ι :=
  if n.permit then (true, { n with permit := false })
  else (false, { n with waiters := n.waiters ++ [i] })

/-- All who wait for a notification, woken or not. -/
def registered (n : Notify ι) : List ι := n.waiters ++ n.notified

theorem poll_stored {n : Notify ι} (i : ι) (stored : n.permit = true) :
    n.poll i = (true, { n with permit := false }) := by
  rw [poll, if_pos stored]

theorem poll_empty {n : Notify ι} (i : ι) (empty : n.permit = false) :
    n.poll i = (false, { n with waiters := n.waiters ++ [i] }) := by
  rw [poll, if_neg (Bool.eq_false_iff.mp empty)]

theorem notifyOne_registered (n : Notify ι) : n.notifyOne.registered.Perm n.registered := by
  unfold notifyOne registered
  split
  · exact .refl _
  · rename_i first rest waiters
    rw [waiters]
    exact List.perm_middle

theorem poll_registered {n : Notify ι} (i : ι) (empty : n.permit = false) :
    (n.poll i).2.registered.Perm (i :: n.registered) := by
  rw [poll_empty i empty]
  show (n.waiters ++ [i] ++ n.notified).Perm _
  rw [List.append_assoc]
  exact List.perm_middle

theorem notifyOne_signals {n : Notify ι} {p : ι} (alone : ∀ i ∈ n.waiters, i = p) :
    n.notifyOne.permit = true ∨ p ∈ n.notifyOne.notified := by
  unfold notifyOne
  split
  · exact Or.inl rfl
  · rename_i first rest waiters
    have same : first = p := alone first (by rw [waiters]; exact List.mem_cons_self)
    exact Or.inr (by rw [same]; exact List.mem_cons_self)

/-- A signal that is there is not taken back by another. -/
theorem notifyOne_keeps {n : Notify ι} {p : ι} (signal : n.permit = true ∨ p ∈ n.notified) :
    n.notifyOne.permit = true ∨ p ∈ n.notifyOne.notified := by
  unfold notifyOne
  split
  · exact Or.inl rfl
  · exact signal.imp id fun woken => List.mem_cons_of_mem _ woken

/-- Nothing is stored or on its way. -/
structure Quiet (n : Notify ι) : Prop where
  permit : n.permit = false
  notified : n.notified = []

theorem Quiet.poll {n : Notify ι} (quiet : n.Quiet) (i : ι) :
    (n.poll i).1 = false ∧ (n.poll i).2.Quiet := by
  rw [poll_empty i quiet.permit]
  exact ⟨rfl, quiet.permit, quiet.notified⟩

end Send

section Wait

variable {ι : Type} [DecidableEq ι] {n : Notify ι} {i : ι}

def take (n : Notify ι) (i : ι) : Notify ι := { n with notified := n.notified.erase i }

def drop (n : Notify ι) (i : ι) : Notify ι :=
  if i ∈ n.notified then (n.take i).notifyOne else { n with waiters := n.waiters.erase i }

theorem Quiet.drop (quiet : n.Quiet) (i : ι) : (n.drop i).Quiet := by
  have asleep : i ∉ n.notified := by
    rw [quiet.notified]
    exact List.not_mem_nil
  rw [Notify.drop, if_neg asleep]
  exact ⟨quiet.permit, quiet.notified⟩

theorem take_registered (once : n.registered.Nodup) (woken : i ∈ n.notified) :
    (n.take i).registered = n.registered.erase i := by
  have apart : i ∉ n.waiters := fun waits => (List.nodup_append.mp once).2.2 i waits i woken rfl
  exact (List.erase_append_right _ apart).symm

theorem drop_registered (once : n.registered.Nodup) (waits : i ∈ n.registered) :
    (n.drop i).registered.Perm (n.registered.erase i) := by
  unfold drop
  by_cases woken : i ∈ n.notified
  · rw [if_pos woken, ← take_registered once woken]
    exact notifyOne_registered _
  · rw [if_neg woken]
    have waiting : i ∈ n.waiters := (List.mem_append.mp waits).resolve_right woken
    exact .of_eq (List.erase_append_left _ waiting).symm

end Wait

end Notify

namespace Loops

inductive Status where
  | away
  | waiting
  | finished
  deriving DecidableEq

structure World (ι : Type) where
  notify : Notify ι
  status : ι → Status

variable {ι : Type} [DecidableEq ι]

inductive Step : World ι → World ι → Prop where
  | send (s : World ι) : Step s { s with notify := s.notify.notifyOne }
  | quits {s : World ι} (i : ι) : s.status i = .away →
      Step s { s with status := Function.update s.status i .finished }
  | polls {s : World ι} (i : ι) : s.status i = .away →
      Step s ⟨(s.notify.poll i).2,
        Function.update s.status i (if (s.notify.poll i).1 then .finished else .waiting)⟩
  | woken {s : World ι} (i : ι) : s.status i = .waiting → i ∈ s.notify.notified →
      Step s ⟨s.notify.take i, Function.update s.status i .finished⟩
  | leaves {s : World ι} (i : ι) (next : Status) : s.status i = .waiting → next ≠ .waiting →
      Step s ⟨s.notify.drop i, Function.update s.status i next⟩

/-- The loops that are registered are those that wait, each once. -/
structure Sound (s : World ι) : Prop where
  waits : ∀ i, i ∈ s.notify.registered ↔ s.status i = .waiting
  once : s.notify.registered.Nodup

/-- A loop waits, and nothing will wake it. -/
def Stuck (s : World ι) : Prop :=
  s.notify.permit = false ∧ s.notify.notified = [] ∧ ∃ i, s.status i = .waiting

/-- Every loop but `p` is over, and `p` is over or has the notification. -/
structure Signalled (p : ι) (s : World ι) : Prop where
  alone : ∀ i, i ≠ p → s.status i = .finished
  signal : s.status p = .finished ∨ s.notify.permit = true ∨ p ∈ s.notify.notified

variable {s t : World ι} {p : ι}

/-- One loop is no longer registered. -/
theorem Sound.leave {n : Notify ι} {i : ι} {next : Status} (sound : Sound s)
    (left : n.registered.Perm (s.notify.registered.erase i)) (elsewhere : next ≠ .waiting) :
    Sound ⟨n, Function.update s.status i next⟩ := by
  refine ⟨fun j => ?_, left.nodup_iff.mpr (sound.once.erase i)⟩
  rw [left.mem_iff, sound.once.mem_erase_iff, sound.waits]
  by_cases same : j = i
  · subst same
    simp [elsewhere]
  · simp [same]

theorem Sound.stay {n : Notify ι} {i : ι} (sound : Sound s) (away : s.status i = .away)
    (same : n.registered = s.notify.registered) : Sound ⟨n, Function.update s.status i .finished⟩ := by
  refine ⟨fun j => ?_, same ▸ sound.once⟩
  show j ∈ n.registered ↔ _
  rw [same, sound.waits]
  by_cases same : j = i
  · subst same
    simp [away]
  · simp [same]

theorem Step.sound (step : Step s t) (sound : Sound s) : Sound t := by
  cases step with
  | send =>
    have same := s.notify.notifyOne_registered
    exact ⟨fun i => same.mem_iff.trans (sound.waits i), same.nodup_iff.mpr sound.once⟩
  | quits i away => exact sound.stay away rfl
  | polls i away =>
    cases stored : s.notify.permit with
    | true =>
      rw [Notify.poll_stored i stored]
      exact sound.stay away rfl
    | false =>
      have more := Notify.poll_registered i stored
      have fresh : i ∉ s.notify.registered := by
        rw [sound.waits, away]
        decide
      have registers : (s.notify.poll i).1 = false := by rw [Notify.poll_empty i stored]
      rw [registers]
      refine ⟨fun j => ?_, more.nodup_iff.mpr (List.nodup_cons.mpr ⟨fresh, sound.once⟩)⟩
      rw [more.mem_iff, List.mem_cons, sound.waits]
      by_cases same : j = i
      · subst same
        simp
      · simp [same]
  | woken i waiting woken =>
    exact sound.leave (.of_eq (Notify.take_registered sound.once woken)) (by decide)
  | leaves i next waiting elsewhere =>
    exact sound.leave (Notify.drop_registered sound.once ((sound.waits i).mpr waiting)) elsewhere

theorem Signalled.only (signalled : Signalled p s) (sound : Sound s) {i : ι}
    (registered : i ∈ s.notify.registered) : i = p := by
  by_contra different
  have waiting := (sound.waits i).mp registered
  rw [signalled.alone i different] at waiting
  cases waiting

theorem Signalled.not_stuck (signalled : Signalled p s) : ¬ Stuck s := by
  rintro ⟨permit, notified, i, waiting⟩
  rcases signalled.signal with ended | stored | woken
  · by_cases same : i = p
    · rw [same, ended] at waiting
      cases waiting
    · rw [signalled.alone i same] at waiting
      cases waiting
  · rw [permit] at stored
    cases stored
  · rw [notified] at woken
    cases woken

theorem Signalled.self (signalled : Signalled p s) {i : ι} (alive : s.status i ≠ .finished) : i = p := by
  by_contra different
  exact alive (signalled.alone i different)

theorem Signalled.moved (signalled : Signalled p s) {n : Notify ι} {next : Status}
    (signal : next = .finished ∨ n.permit = true ∨ p ∈ n.notified) :
    Signalled p ⟨n, Function.update s.status p next⟩ := by
  refine ⟨fun i different => ?_, ?_⟩
  · exact (Function.update_of_ne different ..).trans (signalled.alone i different)
  · exact signal.imp_left fun ended => (Function.update_self ..).trans ended

theorem Step.signalled (step : Step s t) (sound : Sound s) (signalled : Signalled p s) :
    Signalled p t := by
  cases step with
  | send => exact ⟨signalled.alone, signalled.signal.imp_right Notify.notifyOne_keeps⟩
  | quits i away =>
    obtain rfl := signalled.self (i := i) (by rw [away]; decide)
    exact signalled.moved (Or.inl rfl)
  | polls i away =>
    obtain rfl := signalled.self (i := i) (by rw [away]; decide)
    rcases signalled.signal with ended | stored | woken
    · rw [away] at ended
      cases ended
    · rw [Notify.poll_stored i stored]
      exact signalled.moved (Or.inl rfl)
    · have waiting := (sound.waits i).mp (List.mem_append_right _ woken)
      rw [away] at waiting
      cases waiting
  | woken i waiting woken =>
    obtain rfl := signalled.self (i := i) (by rw [waiting]; decide)
    exact signalled.moved (Or.inl rfl)
  | leaves i next waiting elsewhere =>
    obtain rfl := signalled.self (i := i) (by rw [waiting]; decide)
    refine signalled.moved (Or.inr ?_)
    unfold Notify.drop
    by_cases woken : i ∈ s.notify.notified
    · rw [if_pos woken]
      exact Notify.notifyOne_signals fun j waits =>
        signalled.only sound (List.mem_append_left _ waits)
    · rw [if_neg woken]
      rcases signalled.signal with ended | stored | lost
      · rw [waiting] at ended
        cases ended
      · exact Or.inl stored
      · exact absurd lost woken

/-- Once the notification is sent to the only loop left, no loop gets stuck. -/
theorem never_stuck (sound : Sound s) (signalled : Signalled p s)
    (run : Relation.ReflTransGen Step s t) : Sound t ∧ Signalled p t ∧ ¬ Stuck t := by
  induction run with
  | refl => exact ⟨sound, signalled, signalled.not_stuck⟩
  | tail _ last ih =>
    have after := last.signalled ih.1 ih.2.1
    exact ⟨last.sound ih.1, after, after.not_stuck⟩

theorem run_sound (sound : Sound s) (run : Relation.ReflTransGen Step s t) : Sound t := by
  induction run with
  | refl => exact sound
  | tail _ last ih => exact last.sound ih

end Loops
