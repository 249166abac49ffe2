import HyprPilot.Base.Utf8
import HyprPilot.Host.Effects

/-!
# Keys and buttons at the seat

Any number of clients at one daemon, the tools that it started for them, and the compositor. The tools
run side by side, press and release on their own, in any order, and may stop midway. What each step of
the runner keeps holds over every run, and each client that is through has been served request by request.
-/

namespace HyprPilot
open Interact Presses

namespace Host

/-! ### The tools -/

/-- `wtype` and `ydotool`, which are no part of the program. `K` are the keys of all keyboards. -/
structure Tools (K : Type) where
  /-- What a process presses and releases for its arguments and its input when nothing stops it. -/
  stream : InputRunner.Command → List UInt8 → Nat → List (KeyEvent K)
  /-- A key on the keyboard of a process, or a button of the virtual pointer. -/
  key : Option Nat → Key → K
  /-- The codes with which a process ends after the whole of its stream, or before. -/
  ends : InputRunner.Command → Bool → Option Int → Prop

/-- The tools as they are documented: `key` and `-M`, `-k` press and release what they list, what is typed
or clicked is released again, and a process succeeds only when it is done. -/
structure Tools.Documented {K : Type} (tools : Tools K) : Prop where
  keys {command : InputRunner.Command} {argv : List String} {events : List (KeyEvent Key)} (child : Nat) :
    command.args = "key" :: argv → readYdotoolKey argv = some events →
      tools.stream command [] child = events.map (KeyEvent.map (tools.key (some child)))
  options {command : InputRunner.Command} {events : List (KeyEvent Key)} (child : Nat) :
    readWtype command.args = some events →
      tools.stream command [] child = events.map (KeyEvent.map (tools.key (some child)))
  types {command : InputRunner.Command} (input : List UInt8) (child : Nat) :
    command.args = ["-"] → Settles (tools.stream command input child)
  clicks {command : InputRunner.Command} {button : MouseButton} (child : Nat) :
    command.args = ["click", button.ydotoolClickCode] → Settles (tools.stream command [] child)
  moves {command : InputRunner.Command} {x y : Int} {absolute : Bool} (child : Nat) :
    command.args = InputRunner.ydotoolMousemoveArgv x y absolute →
      Settles (tools.stream command [] child)
  succeeds (command : InputRunner.Command) : ¬tools.ends command false (some 0)

/-- The presses and releases among the pointer's requests. -/
def ofRequest : VirtualPointer.Request → Option (KeyEvent Key)
  | .button _ button true => some (.down (.button button))
  | .button _ button false => some (.up (.button button))
  | _ => none

/-! ### The seat -/

/-- The players are the started processes, by their numbers, and the pointer's worker. -/
structure Seat (ι K : Type) where
  board : Board K (Option Nat)
  commands : Nat → Option InputRunner.Command
  /-- The processes that were waited for. -/
  ended : List Nat
  pointer : VirtualPointer.State
  /-- What the pointer's worker sent to the compositor. -/
  sent : List VirtualPointer.Request
  /-- What the runner did for each client, and what came of it. -/
  told : ι → List (Sigma InputRunner.Ans)

namespace Seat

variable {ι κ K : Type} (tools : Tools K)

/-- The number of no process so far. -/
def Unused (s : Seat ι K) (child : Nat) : Prop :=
  s.commands child = none ∧ child ∉ s.ended ∧ s.board.ahead (some child) = []

def enter (s : Seat ι K) (player : Option Nat) (events : List (KeyEvent K)) : Seat ι K :=
  { s with board := s.board.enter player events }

def cut (s : Seat ι K) (player : Option Nat) (n : Nat) : Seat ι K :=
  { s with board := s.board.cut player n }

/-- A process without input begins at once. -/
def start (s : Seat ι K) (child : Nat) (command : InputRunner.Command) : Seat ι K :=
  let started := { s with commands := Function.update s.commands child (some command) }
  if command.piped then started else started.enter (some child) (tools.stream command [] child)

def order (s : Seat ι K) (command : VirtualPointer.Cmd) : Seat ι K :=
  let served := s.pointer.serve command
  { s.enter none ((served.2.filterMap ofRequest).map (KeyEvent.map (tools.key none))) with
    pointer := served.1
    sent := s.sent ++ served.2 }

/-- A write that fails may have passed on a part of the text, and nobody reads it from a process that has
ended. A process is waited for until it is done or has stopped; where the pointer's worker has no good
answer, its requests may have been cut off. -/
def Does : (c : InputRunner.Cmd) → Seat ι K → InputRunner.Ans c → Seat ι K → Prop
  | .socketExists _, s, _, t => t = s
  | .spawn command, s, x, t =>
    match x with
    | .error _ => t = s
    | .ok child => s.Unused child ∧ t = s.start tools child command
  | .writeAll child text, s, x, t =>
    (child ∈ s.ended ∧ t = s) ∨ child ∉ s.ended ∧ ∃ command ∈ s.commands child,
      command.piped = true ∧ ∃ input, input <+: Text.utf8Bytes text ∧
        (x = .ok () → input = Text.utf8Bytes text) ∧
          t = s.enter (some child) (tools.stream command input child)
  | .waitWithOutput child, s, x, t =>
    match x with
    | .error _ => t = s
    | .ok output => ∃ command ∈ s.commands child, s.board.queue (some child) = [] ∧
      tools.ends command (s.board.lost (some child)).isEmpty output.code ∧
        t = { s with ended := child :: s.ended }
  | .pointer command, s, x, t =>
    match x with
    | .gone => t = s
    | .dropped => t = s ∨ ∃ n, t = (s.order tools command).cut none n
    | .replied (.error _) => ∃ n, t = (s.order tools command).cut none n
    | .replied (.ok ()) => t = s.order tools command

/-- A process presses or releases its next key, or stops before it is done, or an output announces
something. -/
inductive Env [DecidableEq K] : Seat ι K → Seat ι K → Prop where
  | plays {s : Seat ι K} {board : Board K (Option Nat)} :
      Board.Plays s.board board → Env s { s with board := board }
  | stops {s : Seat ι K} (child : Nat) : Env s (s.cut (some child) 0)
  | announce {s : Seat ι K} (proxy : Nat) (event : VirtualPointer.OutputEvent) :
      Env s { s with pointer := s.pointer.outputEvent proxy event }

def Fresh (s : Seat ι K) : Prop :=
  s.board = ⟨∅, fun _ => [], fun _ => []⟩ ∧ s.commands = (fun _ => none) ∧ s.ended = [] ∧
    s.pointer.timeCounter = 0 ∧ s.sent = [] ∧ s.told = fun _ => []

variable [DecidableEq ι]

def tell (s : Seat ι K) (i : ι) (e : Sigma InputRunner.Ans) : Seat ι K :=
  { s with told := Function.update s.told i (s.told i ++ [e]) }

def Act (i : ι) : (c : Cmd κ) → Seat ι K → Ans c → Seat ι K → Prop
  | .daemon _, s, _, t => t = s
  | .os c, s, x, t => ∃ u, Does tools c s x u ∧ t = u.tell i ⟨c, x⟩

def rules [DecidableEq K] : Pool.Rules (Cmd κ) Ans (Seat ι K) ι := ⟨Act tools, Env⟩

end Seat

/-! ### What the clients ask for -/

section Clients

variable {κ : Type} {runner : InputRunner} {state : Daemon.State κ}

/-- A client's requests, one after the other, by the daemon with its runner. -/
def handleClient (runner : InputRunner) (state : Daemon.State κ) (requests : List Request) :
    Prog (Cmd κ) Ans (List Response) :=
  (Daemon.handleClient state requests).through (serve runner)

/-- A step of the runner for one of the requests, after what was `told` of it and the earlier ones. -/
def AskedOne (runner : InputRunner) (enabled : Bool) (requests : List Request)
    (told : List (Sigma InputRunner.Ans)) (c : InputRunner.Cmd) : Prop :=
  ∃ request ∈ requests, ∃ earlier before, told = earlier ++ before ∧ Asked runner enabled request before c

/-- Each request with its answer and its part of what the runner did. -/
inductive Served (runner : InputRunner) (enabled : Bool) :
    List Request → List Response → List (Sigma InputRunner.Ans) → Prop where
  | nil : Served runner enabled [] [] []
  | cons {request : Request} {response : Response} {part log : List (Sigma InputRunner.Ans)}
      {requests : List Request} {responses : List Response} :
      Handled runner enabled request response part → Served runner enabled requests responses log →
      Served runner enabled (request :: requests) (response :: responses) (part ++ log)

theorem Served.part {enabled : Bool} {requests : List Request} {responses : List Response}
    {log : List (Sigma InputRunner.Ans)} (served : Served runner enabled requests responses log)
    {e : Sigma InputRunner.Ans} (member : e ∈ log) :
    ∃ request response part, (request, response) ∈ requests.zip responses ∧ e ∈ part ∧ part ⊆ log ∧
      Handled runner enabled request response part := by
  induction served with
  | nil => cases member
  | @cons request response part log requests responses handled _ ih =>
    rcases List.mem_append.mp member with here | later
    · exact ⟨request, response, part, List.mem_cons_self, here, List.subset_append_left _ _, handled⟩
    · obtain ⟨other, answer, piece, pair, inside, sub, kept⟩ := ih later
      exact ⟨other, answer, piece, List.mem_cons_of_mem _ pair, inside,
        List.subset_append_of_subset_right _ sub, kept⟩

/-- What was done earlier stays in front. -/
theorem Follows.after {α : Type} {req : List (Sigma InputRunner.Ans) → InputRunner.Cmd → Prop}
    {post : α → List (Sigma InputRunner.Ans) → Prop} {p : Prog (Cmd κ) Ans α}
    {before : List (Sigma InputRunner.Ans)} (follows : Follows req post p before)
    (earlier : List (Sigma InputRunner.Ans)) :
    Follows (fun told c => ∃ part, told = earlier ++ part ∧ req part c)
      (fun a told => ∃ part, told = earlier ++ part ∧ post a part) p (earlier ++ before) := by
  induction p generalizing before with
  | ret a => exact ⟨before, rfl, follows⟩
  | ask c k ih =>
    obtain ⟨here, later⟩ := follows
    cases c with
    | daemon c =>
      refine ⟨trivial, ?_⟩
      rintro x _ rfl
      exact ih x (later x before rfl)
    | os c =>
      refine ⟨⟨before, rfl, here⟩, ?_⟩
      rintro x _ rfl
      rw [List.append_assoc]
      exact ih x (later x _ rfl)

theorem follows_handleClient (requests : List Request) (earlier : List (Sigma InputRunner.Ans)) :
    Follows (AskedOne runner state.inputEnabled requests)
      (fun responses told => ∃ log, told = earlier ++ log ∧
        Served runner state.inputEnabled requests responses log)
      (handleClient runner state requests) earlier := by
  induction requests generalizing earlier with
  | nil => exact ⟨[], by simp, .nil⟩
  | cons request rest ih =>
    have first := Follows.after (@keeping_handleRequest κ runner state request) earlier
    rw [List.append_nil] at first
    have unfolded : handleClient runner state (request :: rest) =
        (Daemon.handleRequest state request).through (serve runner) >>= fun response =>
          handleClient runner state rest >>= fun responses => .ret (response :: responses) := by
      simp only [handleClient, Daemon.handleClient, Prog.through_bind]
      rfl
    rw [unfolded]
    refine Prog.wp_bind.mpr (Prog.wp_conseq (fun _ _ _ _ moved => moved) ?_ (Prog.wp_mono ?_ first))
    · intro c told asked
      cases c with
      | daemon c => trivial
      | os c =>
        obtain ⟨part, same, asked⟩ := asked
        exact ⟨request, List.mem_cons_self, earlier, part, same, asked⟩
    · rintro response _ ⟨part, rfl, handled⟩
      refine Prog.wp_bind.mpr (Prog.wp_conseq (fun _ _ _ _ moved => moved) ?_
        (Prog.wp_mono ?_ (ih (earlier ++ part))))
      · intro c told asked
        cases c with
        | daemon c => trivial
        | os c =>
          obtain ⟨later, member, asked⟩ := asked
          exact ⟨later, List.mem_cons_of_mem _ member, asked⟩
      · rintro responses _ ⟨log, rfl, served⟩
        exact ⟨part ++ log, by rw [List.append_assoc], .cons handled served⟩

end Clients

/-! ### Whole runs -/

section Reach

variable {ι κ K : Type} [DecidableEq ι] [DecidableEq K]

/-- Every client's handler at the seat. -/
def pool (runner : InputRunner) (state : Daemon.State κ) (clients : ι → List Request) (seat : Seat ι K) :
    Pool (Cmd κ) Ans (List Response) (Seat ι K) ι :=
  ⟨seat, fun i => handleClient runner state (clients i)⟩

variable {runner : InputRunner} {state : Daemon.State κ} {clients : ι → List Request} {tools : Tools K}
  {seat : Seat ι K} {Q : Pool (Cmd κ) Ans (List Response) (Seat ι K) ι}

omit [DecidableEq ι] [DecidableEq K] in
theorem does_told {c : InputRunner.Cmd} {s t : Seat ι K} {x : InputRunner.Ans c}
    (does : Seat.Does tools c s x t) : t.told = s.told := by
  cases c with
  | socketExists path =>
    obtain rfl : t = s := does
    rfl
  | spawn command =>
    cases x with
    | error e =>
      obtain rfl : t = s := does
      rfl
    | ok child =>
      obtain ⟨-, rfl⟩ := does
      unfold Seat.start
      dsimp only
      split <;> rfl
  | writeAll child text =>
    rcases does with ⟨-, rfl⟩ | ⟨-, command, -, -, input, -, -, rfl⟩ <;> rfl
  | waitWithOutput child =>
    cases x with
    | error e =>
      obtain rfl : t = s := does
      rfl
    | ok output =>
      obtain ⟨command, -, -, -, rfl⟩ := does
      rfl
  | pointer command =>
    rcases x with _ | _ | (_ | _)
    · obtain rfl : t = s := does
      rfl
    · rcases does with rfl | ⟨n, rfl⟩ <;> rfl
    · obtain ⟨n, rfl⟩ := does
      rfl
    · obtain rfl : t = s.order tools command := does
      rfl

/-- What each step for a request keeps holds throughout, and each client that is through was served. -/
theorem seat_reach {I : Seat ι K → Prop}
    (act : ∀ i c s x t request before, I s → request ∈ clients i →
      Asked runner state.inputEnabled request before c → Seat.Does tools c s x t → I (t.tell i ⟨c, x⟩))
    (env : ∀ s t, I s → Seat.Env s t → I t) (start : I seat) (told : seat.told = fun _ => [])
    (run : Pool.Reach (Seat.rules tools) (pool runner state clients seat) Q) :
    I Q.shared ∧ ∀ i responses, Q.progs i = .ret responses →
      Served runner state.inputEnabled (clients i) responses (Q.shared.told i) := by
  have begun (i : ι) : ((pool runner state clients seat).progs i).wp moves
      (needs (AskedOne runner state.inputEnabled (clients i)))
      (fun responses done => ∃ log, done = [] ++ log ∧
        Served runner state.inputEnabled (clients i) responses log) (seat.told i) := by
    rw [told]
    exact follows_handleClient (clients i) []
  refine And.imp_right ?through (Pool.reach_outlined (fun i (s : Seat ι K) => s.told i) moves
    (fun i => needs (AskedOne runner state.inputEnabled (clients i)))
    (fun i responses done => ∃ log, done = [] ++ log ∧
      Served runner state.inputEnabled (clients i) responses log) I
    ?own ?other ?quiet ?act env start begun run)
  case through =>
    intro outlined i responses through
    have here := outlined i
    rw [through] at here
    obtain ⟨log, same, served⟩ := here
    rwa [same]
  case own =>
    intro i c s x t _ acted
    cases c with
    | daemon c =>
      obtain rfl : t = s := acted
      rfl
    | os c =>
      obtain ⟨u, does, rfl⟩ := acted
      simp [Seat.tell, moves, does_told does]
  case other =>
    intro i j c s x t different acted
    cases c with
    | daemon c =>
      obtain rfl : t = s := acted
      rfl
    | os c =>
      obtain ⟨u, does, rfl⟩ := acted
      simp [Seat.tell, different, does_told does]
  case quiet =>
    intro i s t moved
    cases moved <;> rfl
  case act =>
    intro i c s x t before asked acted
    cases c with
    | daemon c =>
      obtain rfl : t = s := acted
      exact before
    | os c =>
      obtain ⟨request, member, earlier, since, -, asked⟩ := asked
      obtain ⟨u, does, rfl⟩ := acted
      exact act i c s x u request since before member asked does

end Reach

/-! ### One pair of such tools -/

/-- A click of `ydotool`: the button goes down and up. -/
def readClick (code : String) : List (KeyEvent Key) :=
  match [MouseButton.left, .right, .middle, .x1, .x2].find? (·.ydotoolClickCode = code) with
  | some button => chord [] (.button (VirtualPointer.evdevButton button))
  | none => []

def typed (cs : List Char) : List (KeyEvent Key) := cs.flatMap fun c => chord [] (.keysym (String.singleton c))

def plainStream (command : InputRunner.Command) (input : List UInt8) : List (KeyEvent Key) :=
  match readWtype command.args with
  | some events => events
  | none =>
    match command.args with
    | "key" :: argv => (readYdotoolKey argv).getD []
    | ["click", code] => readClick code
    | ["-"] => typed (Text.utf8Lossy input).toList
    | _ => []

/-- Each `wtype` has its own keyboard, all `ydotool` have one. -/
def plainTools : Tools (Option Nat × Key) where
  stream command input child := (plainStream command input).map
    (KeyEvent.map fun key => match key with
      | .code _ | .button _ => (none, key)
      | _ => (some child, key))
  key player key := match key with
    | .code _ | .button _ => (none, key)
    | _ => (player, key)
  ends _ whole code := code = some 0 → whole = true

theorem settles_typed (cs : List Char) : Settles (typed cs) := by
  induction cs with
  | nil => trivial
  | cons c rest ih =>
    rw [typed, List.flatMap_cons]
    exact (settles_chord [] _).append ih

theorem settles_click (code : String) : Settles (readClick code) := by
  unfold readClick
  split
  · exact settles_chord [] _
  · trivial

theorem plainTools_documented : plainTools.Documented where
  keys child args read := by simp [plainTools, plainStream, args, readWtype, read]
  options child read := by simp [plainTools, plainStream, read]
  types input child args := by
    refine Settles.map _ ?_
    simp [plainStream, args, readWtype, settles_typed]
  clicks child args := by
    refine Settles.map _ ?_
    simp [plainStream, args, readWtype, settles_click]
  moves child args := by
    refine Settles.map _ ?_
    simp [plainStream, args, readWtype, InputRunner.ydotoolMousemoveArgv]
  succeeds command ended := by simpa using ended rfl

def emptySeat : Seat Unit (Option Nat × Key) :=
  ⟨⟨∅, fun _ => [], fun _ => []⟩, fun _ => none, [], ⟨[], 0⟩, [], fun _ => []⟩

theorem emptySeat_fresh : emptySeat.Fresh := ⟨rfl, rfl, rfl, rfl, rfl, rfl⟩

theorem step_does {P : Pool (Cmd Daemon.StateFile) Ans (List Response) (Seat Unit (Option Nat × Key)) Unit}
    {c : InputRunner.Cmd} {k : InputRunner.Ans c → Prog (Cmd Daemon.StateFile) Ans (List Response)}
    {s : Seat Unit (Option Nat × Key)} (x : InputRunner.Ans c) (does : Seat.Does plainTools c P.shared x s)
    (next : P.progs () = .ask (.os c) k) :
    Pool.Step (Seat.rules plainTools) P ⟨s.tell () ⟨c, x⟩, Function.update P.progs () (k x)⟩ :=
  Pool.Step.act (R := Seat.rules plainTools) () x next ⟨s, does, rfl⟩

end Host

end HyprPilot
