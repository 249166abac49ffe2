import HyprPilot.Daemon.Engine

/-!
# The decay window

The guard is at rest, or one execution holds it, or one task will lower it at the end of the decay.
Each of the three says until when the executions before are over, and so when the next one may begin.
-/

namespace HyprPilot
open Interact Relation

namespace Engine

/-! ### Two turns -/

/-- An execution is over, its decay ends at `free` at the latest. -/
def Turn.OverBy (decay now free : Nat) (turn : Turn) : Prop :=
  ∀ rule acted dropped, turn.outcome = .fired rule acted dropped →
    ∃ last, dropped = some last ∧ (∀ time ∈ acted, time ≤ last) ∧ last ≤ now ∧ last + decay ≤ free

/-- After an execution: the next events are read when it is over, those that are read within the
decay are not matched, and no execution begins before the end of the decay. -/
def Apart (decay : Nat) (earlier later : Turn) : Prop :=
  ∀ rule acted dropped, earlier.outcome = .fired rule acted dropped →
    ∃ last, dropped = some last ∧ (∀ time ∈ acted, time ≤ last) ∧ last ≤ later.read ∧
      (later.read < last + decay → later.outcome = .inhibited) ∧
      ∀ rule' acted' dropped', later.outcome = .fired rule' acted' dropped' →
        last + decay ≤ later.read

/-- A rule is executed when it is the first to match, one action after the other. -/
def Turn.Played (rules : List CompiledRule) (turn : Turn) : Prop :=
  (turn.outcome = .unmatched → firstMatch rules turn.event = none) ∧
    ∀ rule acted dropped, turn.outcome = .fired rule acted dropped →
      firstMatch rules turn.event = some rule ∧ (∀ time ∈ acted, turn.read ≤ time) ∧
        (dropped ≠ none → acted.length = rule.actions.length)

variable {rules : List CompiledRule} {decay now free : Nat}

theorem Turn.OverBy.mono {now' free' : Nat} {turn : Turn} (settled : turn.OverBy decay now free)
    (later : now ≤ now') (wider : free ≤ free') : turn.OverBy decay now' free' := by
  intro rule acted dropped fired
  obtain ⟨last, ended, before, past, decayed⟩ := settled rule acted dropped fired
  exact ⟨last, ended, before, past.trans later, decayed.trans wider⟩

theorem overBy_of_other {turn : Turn}
    (other : ∀ rule acted dropped, turn.outcome ≠ .fired rule acted dropped) :
    turn.OverBy decay now free :=
  fun rule acted dropped fired => (other rule acted dropped fired).elim

/-- Every turn is possible once the decay is over. -/
theorem apart_of_overBy {earlier later : Turn}
    (settled : earlier.OverBy decay later.read later.read) : Apart decay earlier later := by
  intro rule acted dropped fired
  obtain ⟨last, ended, before, past, decayed⟩ := settled rule acted dropped fired
  refine ⟨last, ended, before, past, fun within => ?_, fun _ _ _ _ => decayed⟩
  omega

theorem apart_inhibited {earlier later : Turn} (settled : earlier.OverBy decay later.read free)
    (inhibited : later.outcome = .inhibited) : Apart decay earlier later := by
  intro rule acted dropped fired
  obtain ⟨last, ended, before, past, -⟩ := settled rule acted dropped fired
  refine ⟨last, ended, before, past, fun _ => inhibited, fun rule' acted' dropped' again => ?_⟩
  rw [inhibited] at again
  cases again

/-! ### The guard and the phases -/

/-- No bump is live, no task is pending and every decay is over. -/
def Quiet (decay : Nat) (s : State) : Prop :=
  s.guard = ⟨0, []⟩ ∧ ∀ turn ∈ s.turns, turn.OverBy decay s.now s.now

/-- One task is pending. -/
def Decaying (decay : Nat) (s : State) : Prop :=
  ∃ due, s.guard = ⟨1, [due]⟩ ∧ s.now ≤ due ∧ ∀ turn ∈ s.turns, turn.OverBy decay s.now due

/-- One bump is live, and every decay was over when its event was read. -/
def Firing (decay : Nat) (s : State) (x : Execution) : Prop :=
  s.guard = ⟨1, []⟩ ∧ x.read ≤ s.now ∧ (∀ time ∈ x.acted, time ≤ s.now) ∧
    ∀ turn ∈ s.turns, turn.OverBy decay x.read x.read

def Balanced (decay : Nat) (s : State) : Prop :=
  match s.phase with
  | .executing x => Firing decay s x
  | .matching _ read => read = s.now ∧ Quiet decay s
  | .checking _ read => read = s.now ∧ (Quiet decay s ∨ Decaying decay s)
  | _ => Quiet decay s ∨ Decaying decay s

variable {s t : State}

theorem quiet_tick (quiet : Quiet decay s) : Quiet decay { s with now := s.now + 1 } := by
  obtain ⟨guard, settled⟩ := quiet
  exact ⟨guard, fun turn member => (settled turn member).mono (by simp) (by simp)⟩

theorem decaying_tick (decaying : Decaying decay s) (due : ∀ due ∈ s.guard.pending, s.now < due) :
    Decaying decay { s with now := s.now + 1 } := by
  obtain ⟨time, guard, -, settled⟩ := decaying
  have later := due time (by simp [guard])
  exact ⟨time, guard, later, fun turn member => (settled turn member).mono (by simp) le_rfl⟩

theorem rest_tick (rest : Quiet decay s ∨ Decaying decay s)
    (due : ∀ due ∈ s.guard.pending, s.now < due) :
    Quiet decay { s with now := s.now + 1 } ∨ Decaying decay { s with now := s.now + 1 } :=
  rest.imp quiet_tick fun decaying => decaying_tick decaying due

theorem bump_new : ReentranceGuard.bump ⟨0, []⟩ = ⟨1, []⟩ := rfl

theorem decrement_last {due : Nat} : ReentranceGuard.decrement due ⟨1, [due]⟩ = ⟨0, []⟩ := by
  have wrapped : 1 + (2 ^ 64 - 1) = 2 ^ 64 := Nat.add_sub_cancel' Nat.one_le_two_pow
  simp only [ReentranceGuard.decrement, wrapped, Nat.mod_self, List.erase_cons_head]

/-- The task that is due lowers the counter to zero. -/
theorem rest_decrement (rest : Quiet decay s ∨ Decaying decay s) (due : s.now ∈ s.guard.pending) :
    Quiet decay { s with guard := s.guard.decrement s.now } := by
  rcases rest with ⟨guard, -⟩ | ⟨time, guard, -, settled⟩
  · rw [guard] at due
    cases due
  · rw [guard, List.mem_singleton] at due
    subst due
    refine ⟨?_, settled⟩
    rw [guard]
    exact decrement_last

theorem rest_close {turn : Turn}
    (other : ∀ rule acted dropped, turn.outcome ≠ .fired rule acted dropped)
    (rest : Quiet decay s ∨ Decaying decay s) :
    Quiet decay (s.close turn) ∨ Decaying decay (s.close turn) := by
  rcases rest with ⟨guard, settled⟩ | ⟨due, guard, early, settled⟩
  · exact .inl ⟨guard, List.forall_mem_cons.mpr ⟨overBy_of_other other, settled⟩⟩
  · exact .inr ⟨due, guard, early, List.forall_mem_cons.mpr ⟨overBy_of_other other, settled⟩⟩

theorem quiet_of_free (rest : Quiet decay s ∨ Decaying decay s)
    (free : s.guard.isInhibited = false) : Quiet decay s := by
  rcases rest with quiet | ⟨due, guard, -⟩
  · exact quiet
  · rw [guard] at free
    cases free

theorem firing_bump {event : Event} {rule : CompiledRule} (quiet : Quiet decay s) :
    Firing decay
      { s with
        guard := s.guard.bump
        phase := .executing ⟨event, s.now, rule, [], rule.actions⟩ }
      ⟨event, s.now, rule, [], rule.actions⟩ := by
  obtain ⟨guard, settled⟩ := quiet
  refine ⟨?_, le_rfl, fun time member => (List.not_mem_nil member).elim, settled⟩
  rw [guard]
  exact bump_new

theorem firing_drop {x : Execution} (firing : Firing decay s x) :
    Decaying decay
      { s.close (x.turn (some s.now)) with guard := s.guard.dropBump s.now decay } := by
  obtain ⟨guard, read, acted, settled⟩ := firing
  refine ⟨s.now + decay, ?_, Nat.le_add_right .., List.forall_mem_cons.mpr ⟨?_, ?_⟩⟩
  · rw [guard]
    rfl
  · intro rule times dropped fired
    cases fired
    exact ⟨s.now, rfl, acted, le_rfl, le_rfl⟩
  · intro turn member
    exact (settled turn member).mono read (Nat.le_add_right_of_le read)

theorem balanced_step (balanced : Balanced decay s) (step : Step rules decay s t) :
    Balanced decay t := by
  cases step with
  | tick awaits due =>
    obtain ⟨now, guard, socket, phase, turns⟩ := s
    cases phase with
    | checking | matching => cases awaits
    | executing x =>
      obtain ⟨guard, read, acted, settled⟩ := balanced
      exact ⟨guard, Nat.le_succ_of_le read, fun time member => Nat.le_succ_of_le (acted time member),
        settled⟩
    | _ => exact rest_tick balanced due
  | arrives raw => exact balanced
  | decrements due =>
    obtain ⟨now, guard, socket, phase, turns⟩ := s
    cases phase with
    | executing x =>
      obtain ⟨free, -⟩ := balanced
      dsimp only at free due
      rw [free] at due
      cases due
    | matching event read => exact ⟨balanced.1, rest_decrement (.inl balanced.2) due⟩
    | checking event read => exact ⟨balanced.1, .inl (rest_decrement balanced.2 due)⟩
    | _ => exact .inl (rest_decrement balanced due)
  | idles at_ _ | connects at_ _ =>
    rw [Balanced, at_] at balanced
    exact balanced
  | reads at_ _ =>
    rw [Balanced, at_] at balanced
    exact ⟨rfl, balanced⟩
  | inhibits at_ _ =>
    rw [Balanced, at_] at balanced
    exact rest_close nofun balanced.2
  | passes at_ _ =>
    rw [Balanced, at_] at balanced
    exact rest_close nofun (.inl balanced.2)
  | admits at_ free =>
    rw [Balanced, at_] at balanced
    exact ⟨balanced.1, quiet_of_free balanced.2 free⟩
  | bumps at_ _ =>
    rw [Balanced, at_] at balanced
    obtain ⟨rfl, quiet⟩ := balanced
    exact firing_bump quiet
  | acts at_ _ _ =>
    rw [Balanced, at_] at balanced
    obtain ⟨guard, read, acted, settled⟩ := balanced
    refine ⟨guard, read, ?_, settled⟩
    intro time member
    rcases List.mem_append.mp member with before | new
    · exact acted time before
    · exact (List.mem_singleton.mp new).le
  | drops at_ _ =>
    rw [Balanced, at_] at balanced
    exact .inr (firing_drop balanced)
  | stops at_ =>
    rcases at_ with at_ | at_ | at_ <;> rw [Balanced, at_] at balanced <;> exact balanced

/-! ### The turns -/

abbrev Spaced (decay : Nat) (turns : List Turn) : Prop :=
  turns.Pairwise fun later earlier => Apart decay earlier later

theorem spaced_cons {turn : Turn} {turns : List Turn} (spaced : Spaced decay turns)
    (settled : ∀ earlier ∈ turns, earlier.OverBy decay turn.read turn.read) :
    Spaced decay (turn :: turns) :=
  List.pairwise_cons.mpr ⟨fun earlier member => apart_of_overBy (settled earlier member), spaced⟩

theorem spaced_step (balanced : Balanced decay s) (spaced : Spaced decay s.turns)
    (step : Step rules decay s t) : Spaced decay t.turns := by
  cases step with
  | inhibits at_ _ =>
    rw [Balanced, at_] at balanced
    obtain ⟨rfl, rest⟩ := balanced
    refine List.pairwise_cons.mpr ⟨fun earlier member => ?_, spaced⟩
    rcases rest with ⟨-, settled⟩ | ⟨due, -, -, settled⟩ <;>
      exact apart_inhibited (settled earlier member) rfl
  | passes at_ _ =>
    rw [Balanced, at_] at balanced
    obtain ⟨rfl, -, settled⟩ := balanced
    exact spaced_cons spaced settled
  | drops at_ _ =>
    rw [Balanced, at_] at balanced
    obtain ⟨-, -, -, settled⟩ := balanced
    exact spaced_cons spaced settled
  | _ => exact spaced

theorem spaced_history (balanced : Balanced decay s) (spaced : Spaced decay s.turns) :
    Spaced decay s.history := by
  obtain ⟨now, guard, socket, phase, turns⟩ := s
  cases phase with
  | executing x =>
    obtain ⟨-, -, -, settled⟩ := balanced
    exact spaced_cons spaced settled
  | _ => exact spaced

/-- What an execution has done and has still to do are the actions of the first rule to match. -/
structure Execution.Runs (rules : List CompiledRule) (x : Execution) : Prop where
  matched : firstMatch rules x.event = some x.rule
  counted : x.acted.length + x.left.length = x.rule.actions.length
  begun : ∀ time ∈ x.acted, x.read ≤ time

theorem Execution.Runs.played {x : Execution} {dropped : Option Nat} (runs : x.Runs rules)
    (ended : dropped ≠ none → x.left = []) : (x.turn dropped).Played rules := by
  refine ⟨nofun, fun rule acted last fired => ?_⟩
  cases fired
  refine ⟨runs.matched, runs.begun, fun done => ?_⟩
  have counted := runs.counted
  rw [ended done] at counted
  exact counted

structure Played (rules : List CompiledRule) (s : State) : Prop where
  turns : ∀ turn ∈ s.turns, turn.Played rules
  current : ∀ x, s.phase = .executing x → x.Runs rules

theorem played_step (balanced : Balanced decay s) (played : Played rules s)
    (step : Step rules decay s t) : Played rules t := by
  cases step with
  | tick | arrives | decrements => exact ⟨played.turns, played.current⟩
  | idles | connects | reads | admits | stops => exact ⟨played.turns, nofun⟩
  | inhibits => exact ⟨List.forall_mem_cons.mpr ⟨⟨nofun, nofun⟩, played.turns⟩, nofun⟩
  | passes at_ unmatched =>
    exact ⟨List.forall_mem_cons.mpr ⟨⟨fun _ => unmatched, nofun⟩, played.turns⟩, nofun⟩
  | bumps at_ matched =>
    refine ⟨played.turns, fun x equal => ?_⟩
    cases equal
    exact ⟨matched, Nat.zero_add _, nofun⟩
  | acts at_ left _ =>
    have runs := played.current _ at_
    rw [Balanced, at_] at balanced
    refine ⟨played.turns, fun x equal => ?_⟩
    cases equal
    refine ⟨runs.matched, ?_, fun time member => ?_⟩
    · have counted := runs.counted
      simp only [left, List.length_cons] at counted
      simp only [List.length_append, List.length_singleton]
      omega
    · rcases List.mem_append.mp member with before | new
      · exact runs.begun time before
      · rw [List.mem_singleton.mp new]
        exact balanced.2.1
  | drops at_ left =>
    have runs := played.current _ at_
    exact ⟨List.forall_mem_cons.mpr ⟨runs.played fun _ => left, played.turns⟩, nofun⟩

theorem played_history (played : Played rules s) : ∀ turn ∈ s.history, turn.Played rules := by
  obtain ⟨now, guard, socket, phase, turns⟩ := s
  cases phase with
  | executing x =>
    have runs := played.current x rfl
    exact List.forall_mem_cons.mpr ⟨runs.played fun done => (done rfl).elim, played.turns⟩
  | _ => exact played.turns

/-! ### Runs -/

theorem run_invariant (run : Reach rules decay s) :
    Balanced decay s ∧ Spaced decay s.turns ∧ Played rules s := by
  induction run with
  | refl => exact ⟨.inl ⟨rfl, nofun⟩, .nil, nofun, nofun⟩
  | tail _ step ih =>
    obtain ⟨balanced, spaced, played⟩ := ih
    exact ⟨balanced_step balanced step, spaced_step balanced spaced step,
      played_step balanced played step⟩

/-- The counter of a state: a bump and a task are never there at once, nor twice. -/
structure Counted (s : State) : Prop where
  bounded : s.guard.depth ≤ 1
  balanced : s.guard.depth = s.live + s.guard.pending.length
  noUnderflow : s.guard.pending ≠ [] → 0 < s.guard.depth

theorem counted_of_rest (rest : Quiet decay s ∨ Decaying decay s) (still : s.live = 0) :
    Counted s := by
  rcases rest with ⟨guard, -⟩ | ⟨due, guard, -⟩
  · refine ⟨?_, ?_, ?_⟩ <;> simp [guard, still]
  · refine ⟨?_, ?_, ?_⟩ <;> simp [guard, still]

theorem counted_of_balanced (balanced : Balanced decay s) : Counted s := by
  obtain ⟨now, guard, socket, phase, turns⟩ := s
  cases phase with
  | executing x =>
    obtain ⟨held, -⟩ := balanced
    have held : guard = ⟨1, []⟩ := held
    subst held
    exact ⟨le_rfl, rfl, fun _ => Nat.one_pos⟩
  | matching event read => exact counted_of_rest (.inl balanced.2) rfl
  | checking event read => exact counted_of_rest balanced.2 rfl
  | _ => exact counted_of_rest balanced rfl

/-- In every state that the engine reaches, the counter is 0 or 1 and counts the live bump or the
pending task, executions do not overlap, and the decay after one lets no event be matched. -/
theorem reentrance_guarded (run : Reach rules decay s) :
    Counted s ∧ Spaced decay s.history ∧ ∀ turn ∈ s.history, turn.Played rules := by
  obtain ⟨balanced, spaced, played⟩ := run_invariant run
  exact ⟨counted_of_balanced balanced, spaced_history balanced spaced, played_history played⟩

/-! ### A rule that fires twice -/

def pinRule : CompiledRule := ⟨"pin new windows", "openwindow", [], [.pinActive]⟩

def opened : RawEvent := ⟨"openwindow", "a1,1,kitty,term"⟩

/-- Of three events, the first fires the rule at time 0, the second comes within the decay of 2 that
starts at time 1, and the third fires the rule again. -/
def firedTwice : State where
  now := 3
  guard := ⟨1, []⟩
  socket := []
  phase := .executing ⟨Event.fromRaw opened, 3, pinRule, [], [.pinActive]⟩
  turns := [⟨Event.fromRaw opened, 1, .inhibited⟩,
    ⟨Event.fromRaw opened, 0, .fired pinRule [1] (some 1)⟩]

theorem reach_firedTwice : Reach [pinRule] 2 firedTwice := by
  have connected : Reach [pinRule] 2 ⟨0, .new, [], .selecting, []⟩ := .single (.connects rfl nofun)
  have arrived := ((connected.tail (.arrives opened)).tail (.arrives opened)).tail (.arrives opened)
  have firing := ((arrived.tail (.reads rfl rfl)).tail (.admits rfl rfl)).tail (.bumps rfl rfl)
  have acted := (firing.tail (.tick rfl nofun)).tail
    (.acts rfl rfl (Prog.run_call (Connection.Cmd.dispatch .pinActive) (Except.ok ())))
  have dropped := acted.tail (.drops rfl rfl)
  have inhibited := (dropped.tail (.reads rfl rfl)).tail (.inhibits rfl rfl)
  have later := (inhibited.tail (.tick rfl (by decide))).tail (.tick rfl (by decide))
  have decayed := later.tail (.decrements (by decide))
  exact ((decayed.tail (.reads rfl rfl)).tail (.admits rfl rfl)).tail (.bumps rfl rfl)

theorem reentrance_guarded_twice :
    Counted firedTwice ∧ Spaced 2 firedTwice.history ∧
      ∀ turn ∈ firedTwice.history, turn.Played [pinRule] :=
  reentrance_guarded reach_firedTwice

end Engine

end HyprPilot
