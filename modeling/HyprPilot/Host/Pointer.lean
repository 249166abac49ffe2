import HyprPilot.Host.Seat

/-!
# What the pointer's worker sends

Over every run at the seat the virtual pointer's worker sends whole movements and clicks, at times that
follow each other, and nothing without a request for it. What the tools do plays no part in this.
-/

namespace HyprPilot
open Interact Presses

namespace Host

/-- A time follows another; only the largest follows itself. -/
def Follow (t next : Nat) : Prop := t < next ∨ t = next ∧ t = 4294967295

/-- What the pointer's worker sent up to a time: whole movements and clicks, each with its frames, at
times that follow each other, and absolute points within their extents. -/
inductive Bursts : List VirtualPointer.Request → Nat → Prop where
  | none : Bursts [] 0
  | absolute {sent : List VirtualPointer.Request} {t next x y xExtent yExtent : Nat} :
      Bursts sent t → Follow t next → x ≤ xExtent → y ≤ yExtent → 0 < xExtent → 0 < yExtent →
      Bursts (sent ++ [.motionAbsolute next x y xExtent yExtent, .frame]) next
  | relative {sent : List VirtualPointer.Request} {t next : Nat} {dx dy : Int} :
      Bursts sent t → Follow t next → Bursts (sent ++ [.motion next dx dy, .frame]) next
  | click {sent : List VirtualPointer.Request} {t pressed released button : Nat} :
      Bursts sent t → Follow t pressed → Follow pressed released →
      Bursts (sent ++ [.button pressed button true, .frame, .button released button false, .frame]) released

theorem bursts_serve {sent : List VirtualPointer.Request} {s : VirtualPointer.State}
    (bursts : Bursts sent s.timeCounter) (small : s.timeCounter ≤ 4294967295)
    (command : VirtualPointer.Cmd) :
    Bursts (sent ++ (s.serve command).2) (s.serve command).1.timeCounter ∧
      (s.serve command).1.timeCounter ≤ 4294967295 := by
  have next : Follow s.timeCounter s.nextTime := by
    unfold Follow VirtualPointer.State.nextTime
    omega
  have bounded : s.nextTime ≤ 4294967295 := by
    unfold VirtualPointer.State.nextTime
    omega
  cases command with
  | moveAbs x y =>
    refine ⟨.absolute bursts next (Nat.min_le_right _ _) (Nat.min_le_right _ _) ?_ ?_, bounded⟩
    all_goals
      dsimp only [VirtualPointer.unionExtents]
      omega
  | moveRel dx dy => exact ⟨.relative bursts next, bounded⟩
  | click button =>
    have later : Follow s.nextTime (min (s.nextTime + 1) 4294967295) := by
      unfold Follow
      omega
    exact ⟨.click bursts next later, Nat.min_le_right _ _⟩

section Runs

variable {ι κ K : Type}

namespace Seat

structure Kept (runner : InputRunner) (enabled : Bool) (clients : ι → List Request) (s : Seat ι K) :
    Prop where
  asked : ∀ i, ∀ e ∈ s.told i, ∃ request ∈ clients i, ∃ before, Asked runner enabled request before e.1
  bursts : Bursts s.sent s.pointer.timeCounter
  bounded : s.pointer.timeCounter ≤ 4294967295
  attached : s.sent ≠ [] → runner.virtualPointer = true ∧ enabled = true

section Kept

variable {runner : InputRunner} {enabled : Bool} {clients : ι → List Request} {tools : Tools K}
  {s t : Seat ι K}

theorem Kept.same (kept : s.Kept runner enabled clients) (told : t.told = s.told)
    (time : t.pointer.timeCounter = s.pointer.timeCounter) (sent : t.sent = s.sent) :
    t.Kept runner enabled clients where
  asked := by rw [told]; exact kept.asked
  bursts := by rw [sent, time]; exact kept.bursts
  bounded := by rw [time]; exact kept.bounded
  attached := by rw [sent]; exact kept.attached

theorem Kept.order (kept : s.Kept runner enabled clients) {request : Request}
    {before : List (Sigma InputRunner.Ans)} {command : VirtualPointer.Cmd}
    (asked : Asked runner enabled request before (.pointer command)) :
    (s.order tools command).Kept runner enabled clients := by
  obtain ⟨opened, cmd, -, -, attached, -⟩ := asked
  obtain ⟨bursts, bounded⟩ := bursts_serve kept.bursts kept.bounded command
  exact ⟨kept.asked, bursts, bounded, fun _ => ⟨attached, opened⟩⟩

theorem Kept.does (kept : s.Kept runner enabled clients) {c : InputRunner.Cmd} {x : InputRunner.Ans c}
    {request : Request} {before : List (Sigma InputRunner.Ans)}
    (asked : Asked runner enabled request before c) (does : Does tools c s x t) :
    t.Kept runner enabled clients := by
  cases c with
  | socketExists path =>
    obtain rfl : t = s := does
    exact kept
  | spawn command =>
    cases x with
    | error e =>
      obtain rfl : t = s := does
      exact kept
    | ok child =>
      obtain ⟨-, rfl⟩ := does
      unfold Seat.start
      dsimp only
      split <;> exact kept.same rfl rfl rfl
  | writeAll child text =>
    rcases does with ⟨-, rfl⟩ | ⟨-, command, -, -, input, -, -, rfl⟩
    · exact kept
    · exact kept.same rfl rfl rfl
  | waitWithOutput child =>
    cases x with
    | error e =>
      obtain rfl : t = s := does
      exact kept
    | ok output =>
      obtain ⟨command, -, -, -, rfl⟩ := does
      exact kept.same rfl rfl rfl
  | pointer command =>
    have ordered : (s.order tools command).Kept runner enabled clients := kept.order asked
    rcases x with _ | _ | (_ | _)
    · obtain rfl : t = s := does
      exact kept
    · rcases does with rfl | ⟨n, rfl⟩
      · exact kept
      · exact ordered.same rfl rfl rfl
    · obtain ⟨n, rfl⟩ := does
      exact ordered.same rfl rfl rfl
    · obtain rfl : t = s.order tools command := does
      exact ordered

theorem Kept.env [DecidableEq K] (kept : s.Kept runner enabled clients) (env : Env s t) :
    t.Kept runner enabled clients := by
  cases env with
  | plays | stops => exact kept.same rfl rfl rfl
  | announce proxy event =>
    have time : (s.pointer.outputEvent proxy event).timeCounter = s.pointer.timeCounter := by
      unfold VirtualPointer.State.outputEvent
      split <;> rfl
    exact kept.same rfl time rfl

theorem Fresh.kept (fresh : s.Fresh) : s.Kept runner enabled clients := by
  obtain ⟨-, -, -, time, sent, told⟩ := fresh
  refine ⟨?_, ?_, by omega, fun some => absurd sent some⟩
  · intro i e member
    simp [told] at member
  · rw [sent, time]
    exact .none

end Kept

end Seat

variable [DecidableEq ι] [DecidableEq K] {runner : InputRunner} {state : Daemon.State κ}
  {clients : ι → List Request} {tools : Tools K} {seat : Seat ι K}
  {Q : Pool (Cmd κ) Ans (List Response) (Seat ι K) ι}

omit [DecidableEq K] in
theorem Seat.Kept.tell {enabled : Bool} {s : Seat ι K} (kept : s.Kept runner enabled clients) {i : ι}
    {e : Sigma InputRunner.Ans} {request : Request} {before : List (Sigma InputRunner.Ans)}
    (member : request ∈ clients i) (asked : Asked runner enabled request before e.1) :
    (s.tell i e).Kept runner enabled clients := by
  refine ⟨fun j e' inside => ?_, kept.bursts, kept.bounded, kept.attached⟩
  by_cases same : j = i
  · subst same
    have either : e' ∈ s.told j ∨ e' = e := by simpa [Seat.tell] using inside
    rcases either with old | rfl
    · exact kept.asked j e' old
    · exact ⟨request, member, before, asked⟩
  · exact kept.asked j e' (by simpa [Seat.tell, same] using inside)

/-- What the compositor is sent over the whole of such a run: whole bursts, whose times rise until they
reach the largest, and nothing at all unless the virtual pointer is attached and the gate open. -/
theorem pointer_bursts (fresh : seat.Fresh)
    (run : Pool.Reach (Seat.rules tools) (pool runner state clients seat) Q) :
    Bursts Q.shared.sent Q.shared.pointer.timeCounter ∧
      (Q.shared.sent ≠ [] → runner.virtualPointer = true ∧ state.inputEnabled = true) := by
  obtain ⟨kept, -⟩ := seat_reach (I := fun s => s.Kept runner state.inputEnabled clients)
    (fun i c s x t request before kept member asked does => (kept.does asked does).tell member asked)
    (fun s t kept env => kept.env env) fresh.kept fresh.2.2.2.2.2 run
  exact ⟨kept.bursts, kept.attached⟩

end Runs

def nativeRunner : InputRunner := { plainRunner with virtualPointer := true }

/-- A click through the attached pointer. -/
theorem pointer_bursts_click :
    ∃ Q, Pool.Reach (Seat.rules plainTools)
        (pool nativeRunner openState (fun _ => [.inputMouseClick .left]) emptySeat) Q ∧
      Q.shared.sent = [.button 1 0x110 true, .frame, .button 2 0x110 false, .frame] ∧
      Bursts Q.shared.sent Q.shared.pointer.timeCounter ∧
      (Q.shared.sent ≠ [] → nativeRunner.virtualPointer = true ∧ openState.inputEnabled = true) := by
  have run : Pool.Reach (Seat.rules plainTools)
      (pool nativeRunner openState (fun _ => [.inputMouseClick .left]) emptySeat) _ :=
    .single (step_does (c := .pointer (.click 0x110)) (.replied (.ok ())) rfl rfl)
  exact ⟨_, run, rfl, pointer_bursts emptySeat_fresh run⟩

end Host

end HyprPilot
