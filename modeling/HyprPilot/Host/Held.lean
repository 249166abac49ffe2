import HyprPilot.Host.Pointer

/-!
# What is held at the seat

Every key that is held at some moment is one that a tool still running will release, or one whose release
was lost when the tool stopped or the pointer's worker was cut off. Where something was lost, the request
that it was for is answered with an error, so nothing stays held behind a good answer.
-/

namespace HyprPilot
open Interact Presses

namespace Host

/-! ### Every stream settles -/

theorem settles_served (s : VirtualPointer.State) (command : VirtualPointer.Cmd) :
    Settles ((s.serve command).2.filterMap ofRequest) := by
  cases command with
  | moveAbs | moveRel => trivial
  | click button => exact settles_chord [] (Key.button button)

theorem settles_started {K : Type} {tools : Tools K} (documented : tools.Documented)
    {runner : InputRunner} {before : List (Sigma InputRunner.Ans)} {command : InputRunner.Command}
    {cmd : Daemon.InputCmd} (starts : runner.Starts before command cmd) (child : Nat) :
    (command.piped = false → Settles (tools.stream command [] child)) ∧
      (command.piped = true → ∀ input, Settles (tools.stream command input child)) := by
  cases cmd with
  | typeText text =>
    obtain ⟨⟨-, -, piped⟩, -, args⟩ := starts
    exact ⟨fun closed => by simp [closed] at piped, fun _ input => documented.types input child args⟩
  | pressKeys combo =>
    rcases starts with ⟨⟨-, -, closed⟩, -, argv, code, events, args, -, read, strikes⟩ |
      ⟨⟨-, -, closed⟩, -, events, read, strikes⟩
    · refine ⟨fun _ => ?_, fun piped => by simp [closed] at piped⟩
      rw [documented.keys child args read]
      exact strikes.settles.map _
    · refine ⟨fun _ => ?_, fun piped => by simp [closed] at piped⟩
      rw [documented.options child read]
      exact strikes.settles.map _
  | mouseMove x y absolute =>
    obtain ⟨⟨-, -, closed⟩, -, -, args⟩ := starts
    exact ⟨fun _ => documented.moves child args, fun piped => by simp [closed] at piped⟩
  | mouseClick button =>
    obtain ⟨⟨-, -, closed⟩, -, -, args⟩ := starts
    exact ⟨fun _ => documented.clicks child args, fun piped => by simp [closed] at piped⟩

namespace Seat

variable {ι K : Type}

/-! ### What is held -/

/-- Everything that is held is accounted for: by a process that is known and charged to a client, and that
has nothing before it once it was waited for with success. -/
structure Accounted (tools : Tools K) (s : Seat ι K) : Prop where
  released : s.board.Released
  fits : ∀ child command, s.commands child = some command → command.piped = true →
    ∀ input, Settles (tools.stream command input child)
  known : ∀ child command, s.commands child = some command →
    ∃ i, InputRunner.Started (s.told i) child command
  owned : ∀ child, s.board.ahead (some child) ≠ [] →
    ∃ i command, InputRunner.Started (s.told i) child command
  good : ∀ i child output, ⟨.waitWithOutput child, .ok output⟩ ∈ s.told i → output.code = some 0 →
    child ∈ s.ended ∧ s.board.ahead (some child) = []
  ordered : s.board.lost none ≠ [] →
    ∃ i order x, ⟨.pointer order, x⟩ ∈ s.told i ∧ x ≠ .replied (.ok ())

namespace Accounted

variable {tools : Tools K} {s t : Seat ι K}

theorem same (acc : s.Accounted tools) (board : t.board = s.board) (commands : t.commands = s.commands)
    (ended : t.ended = s.ended) (told : t.told = s.told) : t.Accounted tools where
  released := by rw [board]; exact acc.released
  fits := by rw [commands]; exact acc.fits
  known := by rw [commands, told]; exact acc.known
  owned := by rw [board, told]; exact acc.owned
  good := by rw [board, ended, told]; exact acc.good
  ordered := by rw [board, told]; exact acc.ordered

theorem enter (acc : s.Accounted tools) (player : Option Nat) {events : List (KeyEvent K)}
    (settles : Settles events)
    (running : ∀ child, player = some child →
      child ∉ s.ended ∧ ∃ i command, InputRunner.Started (s.told i) child command) :
    (s.enter player events).Accounted tools where
  released := acc.released.enter player settles
  fits := acc.fits
  known := acc.known
  owned child something := by
    by_cases same : some child = player
    · exact (running child same.symm).2
    · refine acc.owned child ?_
      simpa [Seat.enter, same] using something
  good i child output waited code := by
    obtain ⟨ended, nothing⟩ := acc.good i child output waited code
    refine ⟨ended, ?_⟩
    have other : some child ≠ player := fun same => (running child same.symm).1 ended
    simpa [Seat.enter, other] using nothing
  ordered := acc.ordered

theorem cut (acc : s.Accounted tools) (player : Option Nat) (n : Nat)
    (charged : player = none →
      ∃ i order x, ⟨.pointer order, x⟩ ∈ s.told i ∧ x ≠ .replied (.ok ())) :
    (s.cut player n).Accounted tools where
  released := acc.released.cut player n
  fits := acc.fits
  known := acc.known
  owned child something := acc.owned child (by simpa [Seat.cut] using something)
  good i child output waited code := by simpa [Seat.cut] using acc.good i child output waited code
  ordered something := by
    cases player with
    | none => exact charged rfl
    | some child => exact acc.ordered (by simpa [Seat.cut, Board.cut] using something)

theorem start (acc : s.Accounted tools) {child : Nat} {command : InputRunner.Command}
    (unused : s.Unused child)
    (settles : (command.piped = false → Settles (tools.stream command [] child)) ∧
      (command.piped = true → ∀ input, Settles (tools.stream command input child)))
    (started : ∃ i, InputRunner.Started (s.told i) child command) :
    (s.start tools child command).Accounted tools := by
  have begun : Accounted tools
      { s with commands := Function.update s.commands child (some command) } := by
    refine ⟨acc.released, ?_, ?_, acc.owned, acc.good, acc.ordered⟩
    · intro other command' found piped
      by_cases same : other = child
      · subst same
        obtain rfl : command = command' := by simpa using found
        exact settles.2 piped
      · exact acc.fits other command' (by simpa [same] using found) piped
    · intro other command' found
      by_cases same : other = child
      · subst same
        obtain rfl : command = command' := by simpa using found
        exact started
      · exact acc.known other command' (by simpa [same] using found)
  unfold Seat.start
  dsimp only
  split
  · exact begun
  · next closed =>
    refine begun.enter (some child) (settles.1 (by simpa using closed)) ?_
    rintro _ ⟨⟩
    obtain ⟨i, started⟩ := started
    exact ⟨unused.2.1, i, command, started⟩

theorem order (acc : s.Accounted tools) (command : VirtualPointer.Cmd) :
    (s.order tools command).Accounted tools :=
  (acc.enter none ((settles_served s.pointer command).map (tools.key none)) nofun).same rfl rfl rfl rfl

theorem waited (acc : s.Accounted tools) (child : Nat) :
    Accounted tools { s with ended := child :: s.ended } :=
  { acc with
    good := fun i other output seen code =>
      (acc.good i other output seen code).imp_left (List.mem_cons_of_mem _) }

variable [DecidableEq ι]

theorem tell (acc : s.Accounted tools) (i : ι) {e : Sigma InputRunner.Ans}
    (new : ∀ child output, e = ⟨.waitWithOutput child, .ok output⟩ → output.code = some 0 →
      child ∈ s.ended ∧ s.board.ahead (some child) = []) : (s.tell i e).Accounted tools := by
  have more (j : ι) (e' : Sigma InputRunner.Ans) (old : e' ∈ s.told j) : e' ∈ (s.tell i e).told j := by
    by_cases same : j = i
    · subst same
      simp [Seat.tell, old]
    · simpa [Seat.tell, same] using old
  refine ⟨acc.released, acc.fits, ?_, ?_, ?_, ?_⟩
  · intro child command found
    obtain ⟨j, started⟩ := acc.known child command found
    exact ⟨j, more j _ started⟩
  · intro child something
    obtain ⟨j, command, started⟩ := acc.owned child something
    exact ⟨j, command, more j _ started⟩
  · intro j child output member code
    have cases' : ⟨.waitWithOutput child, .ok output⟩ ∈ s.told j ∨
        (⟨.waitWithOutput child, .ok output⟩ : Sigma InputRunner.Ans) = e := by
      by_cases same : j = i
      · subst same
        simpa [Seat.tell] using member
      · exact .inl (by simpa [Seat.tell, same] using member)
    rcases cases' with old | same
    · exact acc.good j child output old code
    · exact new child output same.symm code
  · intro something
    obtain ⟨j, order, x, asked, bad⟩ := acc.ordered something
    exact ⟨j, order, x, more j _ asked, bad⟩

/-- Only waiting for a process says something about it. -/
theorem tell_other (acc : s.Accounted tools) (i : ι) {c : InputRunner.Cmd} (x : InputRunner.Ans c)
    (other : ∀ child, c ≠ .waitWithOutput child) : (s.tell i ⟨c, x⟩).Accounted tools :=
  acc.tell i fun child _ same => absurd (congrArg Sigma.fst same) (other child)

theorem does (documented : tools.Documented) (acc : s.Accounted tools) {i : ι} {c : InputRunner.Cmd}
    {x : InputRunner.Ans c} {runner : InputRunner} {enabled : Bool} {request : Request}
    {before : List (Sigma InputRunner.Ans)} (asked : Asked runner enabled request before c)
    (does : Does tools c s x t) : (t.tell i ⟨c, x⟩).Accounted tools := by
  have here : (⟨c, x⟩ : Sigma InputRunner.Ans) ∈ (s.tell i ⟨c, x⟩).told i := by simp [Seat.tell]
  cases c with
  | socketExists path =>
    obtain rfl : t = s := does
    exact acc.tell_other i x (by simp)
  | spawn command =>
    have told := acc.tell_other i (c := .spawn command) x (by simp)
    cases x with
    | error e =>
      obtain rfl : t = s := does
      exact told
    | ok child =>
      obtain ⟨unused, rfl⟩ := does
      obtain ⟨-, cmd, -, -, starts⟩ := asked
      have started := told.start unused (settles_started documented starts child) ⟨i, here⟩
      refine started.same ?_ ?_ ?_ ?_
      all_goals
        unfold Seat.start Seat.tell
        dsimp only
        split <;> rfl
  | writeAll child text =>
    have told := acc.tell_other i (c := .writeAll child text) x (by simp)
    rcases does with ⟨-, rfl⟩ | ⟨running, command, found, piped, input, -, -, rfl⟩
    · exact told
    · refine (told.enter (some child) (acc.fits child command found piped input) ?_).same rfl rfl rfl rfl
      rintro _ ⟨⟩
      obtain ⟨j, started⟩ := told.known child command found
      exact ⟨running, j, command, started⟩
  | waitWithOutput child =>
    cases x with
    | error e =>
      obtain rfl : t = s := does
      exact acc.tell i (by rintro _ _ ⟨⟩)
    | ok output =>
      obtain ⟨command, -, played, ended, rfl⟩ := does
      refine (acc.waited child).tell i ?_
      intro child' output' same code
      cases same
      refine ⟨List.mem_cons_self, ?_⟩
      rw [code] at ended
      cases lost : s.board.lost (some child) with
      | nil => exact List.append_eq_nil_iff.mpr ⟨played, lost⟩
      | cons e rest =>
        rw [lost] at ended
        exact absurd ended (documented.succeeds command)
  | pointer command =>
    have told := acc.tell_other i (c := .pointer command) x (by simp)
    -- Without a good answer the worker's requests may have been cut off anywhere.
    have broken (bad : x ≠ .replied (.ok ())) (n : Nat) :=
      (told.order command).cut none n fun _ => ⟨i, command, x, here, bad⟩
    cases x with
    | gone =>
      obtain rfl : t = s := does
      exact told
    | dropped =>
      rcases does with rfl | ⟨n, rfl⟩
      · exact told
      · exact (broken (by simp) n).same rfl rfl rfl rfl
    | replied result =>
      cases result with
      | error e =>
        obtain ⟨n, rfl⟩ := does
        exact (broken (by simp) n).same rfl rfl rfl rfl
      | ok _ =>
        obtain rfl : t = s.order tools command := does
        exact (told.order command).same rfl rfl rfl rfl

omit [DecidableEq ι] in
theorem env [DecidableEq K] (acc : s.Accounted tools) (env : Env s t) : t.Accounted tools := by
  cases env with
  | plays step =>
    refine ⟨acc.released.plays step, acc.fits, acc.known, ?_, ?_, ?_⟩
    · exact fun child something => acc.owned child fun nothing => something (step.ahead_nil nothing)
    · exact fun i child output waited code => (acc.good i child output waited code).imp_right step.ahead_nil
    · intro something
      exact acc.ordered (by rwa [← step.lost])
  | stops child => exact acc.cut (some child) 0 nofun
  | announce proxy event => exact acc.same rfl rfl rfl rfl

omit [DecidableEq ι] in
theorem of_fresh (fresh : s.Fresh) : s.Accounted tools := by
  obtain ⟨board, commands, -, -, -, told⟩ := fresh
  refine ⟨?_, ?_, ?_, ?_, ?_, ?_⟩
  · rw [board]
    exact ⟨fun _ => trivial, nofun⟩
  all_goals simp [board, commands, told, Board.ahead]

end Accounted

end Seat

/-! ### What is lost is reported -/

section Reported

variable {ι κ K : Type} [DecidableEq ι] [DecidableEq K] {runner : InputRunner} {state : Daemon.State κ}
  {clients : ι → List Request} {tools : Tools K} {seat : Seat ι K}
  {Q : Pool (Cmd κ) Ans (List Response) (Seat ι K) ι}

/-- The step of the runner behind what a player plays; it is no good one where the pointer's worker was
cut off. -/
def Deed : Option Nat → Sigma InputRunner.Ans → Prop
  | some child, e => ∃ command, e = ⟨.spawn command, .ok child⟩
  | none, e => ∃ order x, e = ⟨.pointer order, x⟩ ∧ x ≠ .replied (.ok ())

/-- The request for which a process was started, or the pointer's worker was given an order. -/
def PlayedFor (runner : InputRunner) (done : List (Sigma InputRunner.Ans)) (request : Request) :
    Option Nat → Prop
  | some child => ∃ command cmd before, InputRunner.Started done child command ∧ Forwards request cmd ∧
    runner.Starts before command cmd
  | none => ∃ order x cmd, ⟨.pointer order, x⟩ ∈ done ∧ Forwards request cmd ∧
    InputRunner.pointerOrder cmd = some order

theorem playedFor_deed {player : Option Nat} {e : Sigma InputRunner.Ans}
    {done before : List (Sigma InputRunner.Ans)} {request : Request} {cmd : Daemon.InputCmd}
    (deed : Deed player e) (member : e ∈ done) (forwards : Forwards request cmd)
    (warranted : runner.Warranted cmd before e.1) : PlayedFor runner done request player := by
  cases player with
  | some child =>
    obtain ⟨command, rfl⟩ := deed
    exact ⟨command, cmd, before, member, forwards, warranted.2⟩
  | none =>
    obtain ⟨order, x, rfl, -⟩ := deed
    exact ⟨order, x, cmd, member, forwards, warranted.2.2⟩

namespace Seat.Accounted

variable {s : Seat ι K} (acc : s.Accounted tools) {player : Option Nat} (lost : s.board.lost player ≠ [])
include acc lost

omit [DecidableEq ι] [DecidableEq K] in
theorem deed : ∃ i, ∃ e ∈ s.told i, Deed player e := by
  cases player with
  | some child =>
    obtain ⟨i, command, started⟩ := acc.owned child fun nothing => lost (List.append_eq_nil_iff.mp nothing).2
    exact ⟨i, _, started, command, rfl⟩
  | none =>
    obtain ⟨i, order, x, asked, bad⟩ := acc.ordered lost
    exact ⟨i, _, asked, order, x, rfl, bad⟩

omit [DecidableEq ι] [DecidableEq K] in
/-- The request behind it was not answered with success. -/
theorem refused {i : ι} {e : Sigma InputRunner.Ans} {part : List (Sigma InputRunner.Ans)}
    {cmd : Daemon.InputCmd} {response : Response} (deed : Deed player e) (member : e ∈ part)
    (sub : part ⊆ s.told i) (reports : Reports cmd response part) : ∀ reply, response ≠ .ok reply := by
  intro reply answered
  obtain ⟨succeeded, completed, -⟩ := reports reply answered
  cases player with
  | some child =>
    obtain ⟨command, rfl⟩ := deed
    obtain ⟨output, waited, code⟩ := completed child command member
    obtain ⟨-, nothing⟩ := acc.good i child output (sub waited) code
    exact lost (List.append_eq_nil_iff.mp nothing).2
  | none =>
    obtain ⟨order, x, rfl, bad⟩ := deed
    exact bad (succeeded _ member)

end Seat.Accounted

/-- However the clients, the tools and the pointer's worker take turns, and wherever tools stop: a held
key or button is one that a running tool or the worker will still release, or one whose release was lost;
what was lost was for a request of some client, which is answered with an error; so once all are done
and every answer was good, nothing is held. Every process was started, with the daemon's gate open, for a
request of the client it is charged to. -/
theorem seat_accounted (documented : tools.Documented) (fresh : seat.Fresh)
    (run : Pool.Reach (Seat.rules tools) (pool runner state clients seat) Q) :
    (∀ key ∈ Q.shared.board.held, ∃ player,
      .up key ∈ Q.shared.board.queue player ∨ .up key ∈ Q.shared.board.lost player) ∧
    (∀ player, Q.shared.board.lost player ≠ [] → ∃ i,
      (∃ request ∈ clients i, PlayedFor runner (Q.shared.told i) request player) ∧
      ∀ responses, Q.progs i = .ret responses →
        ∃ request response, (request, response) ∈ (clients i).zip responses ∧
          PlayedFor runner (Q.shared.told i) request player ∧ ∀ reply, response ≠ .ok reply) ∧
    (Q.shared.board.Idle → (∀ i, ∃ responses, Q.progs i = .ret responses ∧
      ∀ response ∈ responses, ∃ reply, response = .ok reply) → Q.shared.board.held = ∅) ∧
    ∀ i child command, InputRunner.Started (Q.shared.told i) child command →
      state.inputEnabled = true ∧ ∃ request ∈ clients i, ∃ cmd before,
        Forwards request cmd ∧ runner.Starts before command cmd := by
  obtain ⟨⟨kept, acc⟩, served⟩ := seat_reach
    (I := fun s => s.Kept runner state.inputEnabled clients ∧ s.Accounted tools)
    (fun i c s x t request before kept member asked does =>
      ⟨(kept.1.does asked does).tell member asked, kept.2.does documented asked does⟩)
    (fun s t kept env => ⟨kept.1.env env, kept.2.env env⟩) ⟨fresh.kept, .of_fresh fresh⟩
    fresh.2.2.2.2.2 run
  have reported (player : Option Nat) (lost : Q.shared.board.lost player ≠ []) : ∃ i,
      (∃ request ∈ clients i, PlayedFor runner (Q.shared.told i) request player) ∧
      ∀ responses, Q.progs i = .ret responses →
        ∃ request response, (request, response) ∈ (clients i).zip responses ∧
          PlayedFor runner (Q.shared.told i) request player ∧ ∀ reply, response ≠ .ok reply := by
    obtain ⟨i, e, member, deed⟩ := acc.deed lost
    refine ⟨i, ?_, fun responses through => ?_⟩
    · obtain ⟨request, asked, before, -, cmd, forwards, warranted⟩ := kept.asked i e member
      exact ⟨request, asked, playedFor_deed deed member forwards warranted⟩
    · obtain ⟨request, response, part, pair, inside, sub, handled⟩ := (served i responses through).part member
      rcases handled with ⟨rfl, -⟩ | ⟨-, cmd, forwards, along, reports⟩
      · cases inside
      · obtain ⟨before, warranted⟩ := along.asked inside
        exact ⟨request, response, pair, playedFor_deed deed member forwards warranted,
          acc.refused lost deed inside sub reports⟩
  refine ⟨fun key held => ?_, reported, fun idle good => ?_, fun i child command started => ?_⟩
  · obtain ⟨player, waiting⟩ := acc.released.pending key held
    exact ⟨player, List.mem_append.mp waiting⟩
  · refine acc.released.idle idle fun player => ?_
    by_contra lost
    obtain ⟨i, -, through⟩ := reported player lost
    obtain ⟨responses, done, all⟩ := good i
    obtain ⟨request, response, pair, -, bad⟩ := through responses done
    obtain ⟨reply, answered⟩ := all response (List.of_mem_zip pair).2
    exact bad reply answered
  · obtain ⟨request, member, before, enabled, cmd, forwards, -, starts⟩ := kept.asked i _ started
    exact ⟨enabled, request, member, cmd, before, forwards, starts⟩

end Reported

def ctrlT : KeyCombo := ⟨{.ctrl}, "t"⟩

def ctrlTCommand : InputRunner.Command :=
  ⟨"/usr/bin/ydotool", ["key", "29:1", "20:1", "20:0", "29:0"],
    [("YDOTOOL_SOCKET", "/run/user/1000/.ydotool_socket")], false⟩

def killedAnswer : Response :=
  Daemon.inputErrorResponse (.backendFailed "ydotool" "<signal>" (Text.trim (Text.utf8Lossy [])))

/-- `ydotool` is killed when it has pressed the modifier. -/
theorem killed_reach : ∃ Q,
    Pool.Reach (Seat.rules plainTools) (pool plainRunner openState (fun _ => [.inputKeys ctrlT]) emptySeat) Q ∧
      Q.shared.board.held = {(none, .code 29)} ∧ Q.progs () = .ret [killedAnswer] := by
  have run : Pool.Reach (Seat.rules plainTools)
      (pool plainRunner openState (fun _ => [.inputKeys ctrlT]) emptySeat) _ :=
    ((((Relation.ReflTransGen.refl.tail
      (step_does (c := .socketExists "/run/user/1000/.ydotool_socket") true rfl rfl)).tail
      (step_does (c := .spawn ctrlTCommand) (.ok 7) ⟨⟨rfl, by simp [Seat.tell, pool, emptySeat], rfl⟩, rfl⟩
        rfl)).tail (.env (.plays (.play (some 7) (e := .down (none, .code 29)) rfl)))).tail
      (.env (.stops 7))).tail
      (step_does (c := .waitWithOutput 7) (.ok ⟨none, []⟩) ⟨ctrlTCommand, rfl, rfl, nofun, rfl⟩ rfl)
  exact ⟨_, run, rfl, rfl⟩

/-- The modifier stays held, its release is lost, and the request was answered with an error. -/
theorem seat_accounted_killed : ∃ Q,
    Pool.Reach (Seat.rules plainTools) (pool plainRunner openState (fun _ => [.inputKeys ctrlT]) emptySeat) Q ∧
      Q.shared.board.held = {(none, .code 29)} ∧ Q.progs () = .ret [killedAnswer] ∧
      (∀ key ∈ Q.shared.board.held, ∃ player,
        .up key ∈ Q.shared.board.queue player ∨ .up key ∈ Q.shared.board.lost player) ∧
      ∀ player, Q.shared.board.lost player ≠ [] → ∃ request response,
        (request, response) ∈ [(Request.inputKeys ctrlT, killedAnswer)] ∧
          PlayedFor plainRunner (Q.shared.told ()) request player ∧ ∀ reply, response ≠ .ok reply := by
  obtain ⟨Q, run, held, through⟩ := killed_reach
  obtain ⟨accounted, reported, -⟩ := seat_accounted plainTools_documented emptySeat_fresh run
  refine ⟨Q, run, held, through, accounted, fun player lost => ?_⟩
  obtain ⟨i, -, answered⟩ := reported player lost
  exact answered [killedAnswer] through

end Host

end HyprPilot
