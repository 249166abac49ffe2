import HyprPilot.Base.Through
import HyprPilot.Input.Runner
import HyprPilot.Mcp.Grants

/-!
# What an input request does to the machine

A request's handler with the input runner in the place of its input commands: a program over the
daemon's other effects, the processes that the runner starts and the virtual pointer. Every step of the
runner is warranted by the request and by what was answered before, and a request is reported done only
where it was.
-/

namespace HyprPilot
open Interact Presses

namespace InputRunner

variable (runner : InputRunner)

def perform : Daemon.InputCmd → Call Outcome
  | .typeText text => runner.typeText text
  | .pressKeys combo => runner.pressKeys combo
  | .mouseMove x y absolute => runner.mouseMove x y absolute
  | .mouseClick button => runner.mouseClick button

/-- Starting a process, or an order to the pointer's worker. -/
def isDeed : Cmd → Bool
  | .spawn _ | .pointer _ => true
  | _ => false

def Succeeded : Sigma Ans → Prop
  | ⟨.socketExists _, _⟩ => True
  | ⟨.spawn _, x⟩ => ∃ child, x = .ok child
  | ⟨.writeAll _ _, x⟩ => x = .ok ()
  | ⟨.waitWithOutput _, x⟩ => ∃ output, x = .ok output ∧ output.code = some 0
  | ⟨.pointer _, x⟩ => x = .replied (.ok ())

def ByWtype (command : Command) (piped : Bool) : Prop :=
  some command.program = runner.backends.wtype ∧ command.env = [] ∧ command.piped = piped

def ByYdotool (command : Command) : Prop :=
  some command.program = runner.backends.ydotool ∧
    command.env = [("YDOTOOL_SOCKET", runner.backends.ydotooldSocket)] ∧ command.piped = false

abbrev Reachable (before : List (Sigma Ans)) (reached : Bool) : Prop :=
  ⟨.socketExists runner.backends.ydotooldSocket, reached⟩ ∈ before

/-- The processes that a command may start, after what was answered `before`. -/
def Starts (before : List (Sigma Ans)) (command : Command) : Daemon.InputCmd → Prop
  | .typeText text => runner.ByWtype command true ∧ text ≠ "" ∧ command.args = ["-"]
  | .pressKeys combo =>
    (runner.ByYdotool command ∧ runner.Reachable before true ∧
      ∃ argv code events, command.args = "key" :: argv ∧ keysymToEvdev combo.key = some code ∧
        readYdotoolKey argv = some events ∧ Strikes events combo.codes.toFinset (.code code)) ∨
    (runner.ByWtype command false ∧ (runner.backends.ydotool = none ∨ runner.Reachable before false ∨
        keysymToEvdev combo.key = none) ∧
      ∃ events, readWtype command.args = some events ∧
        Strikes events combo.names.toFinset (.keysym combo.key))
  | .mouseMove x y absolute => runner.ByYdotool command ∧ runner.Reachable before true ∧
    runner.virtualPointer = false ∧ command.args = ydotoolMousemoveArgv x y absolute
  | .mouseClick button => runner.ByYdotool command ∧ runner.Reachable before true ∧
    runner.virtualPointer = false ∧ command.args = ["click", button.ydotoolClickCode]

/-- The order to the pointer that a command stands for. -/
def pointerOrder : Daemon.InputCmd → Option VirtualPointer.Cmd
  | .mouseMove x y absolute => some (if absolute then .moveAbs x y else .moveRel x y)
  | .mouseClick button => some (.click (VirtualPointer.evdevButton button))
  | _ => none

abbrev Started (tr : List (Sigma Ans)) (child : Nat) (command : Command) : Prop :=
  ⟨.spawn command, .ok child⟩ ∈ tr

/-- What the runner may do for a command after what was answered `before`: one deed at most. A text goes
at once to the `wtype -` that was started for it, and only a started process is waited for, one that
reads once its text is written. -/
def Warranted (cmd : Daemon.InputCmd) (before : List (Sigma Ans)) : Cmd → Prop
  | .socketExists path => path = runner.backends.ydotooldSocket
  | .spawn command => (∀ e ∈ before, isDeed e.1 = false) ∧ runner.Starts before command cmd
  | .writeAll child text => cmd = .typeText text ∧ ∃ command,
    before = [⟨.spawn command, .ok child⟩] ∧ runner.ByWtype command true ∧ command.args = ["-"]
  | .waitWithOutput child => (∃ command, Started before child command) ∧
    ∀ text, cmd = .typeText text → ⟨.writeAll child text, .ok ()⟩ ∈ before
  | .pointer order => (∀ e ∈ before, isDeed e.1 = false) ∧ runner.virtualPointer = true ∧
    pointerOrder cmd = some order

/-- Each process that was started came to a good end. -/
def Completed (tr : List (Sigma Ans)) : Prop :=
  ∀ child command, Started tr child command →
    ∃ output, ⟨.waitWithOutput child, .ok output⟩ ∈ tr ∧ output.code = some 0

/-- Success is reported only where every step succeeded and something was done. -/
def Sound (cmd : Daemon.InputCmd) (result : Outcome) (tr : List (Sigma Ans)) : Prop :=
  result = .ok () → (∀ e ∈ tr, Succeeded e) ∧ Completed tr ∧
    ((∃ e ∈ tr, isDeed e.1 = true) ∨ cmd = .typeText "")

theorem finish_ok {backend : String} {output : Output} (done : finish backend output = .ok ()) :
    output.code = some 0 := by
  unfold finish at done
  split at done
  · assumption
  · cases done

/-- Nothing was done before, and nothing failed. -/
def Fresh (before : List (Sigma Ans)) : Prop := ∀ e ∈ before, isDeed e.1 = false ∧ Succeeded e

theorem fresh_nil : Fresh [] := nofun

theorem fresh_looked (path : String) (x : Bool) : Fresh [⟨.socketExists path, x⟩] := by
  intro e member
  rw [List.mem_singleton.mp member]
  exact ⟨rfl, trivial⟩

section Tells

abbrev Tells (cmd : Daemon.InputCmd) (p : Call Outcome) (before : List (Sigma Ans)) : Prop :=
  p.Tells (runner.Warranted cmd) (Sound cmd) before

variable {runner} {cmd : Daemon.InputCmd} {before : List (Sigma Ans)}

theorem tells_waited {backend : String} {child : Nat} {command : Command}
    (warranted : runner.Warranted cmd before (.waitWithOutput child))
    (succeeded : ∀ e ∈ before, Succeeded e) (started : Started before child command)
    (only : ∀ child' command', Started before child' command' → child' = child) :
    runner.Tells cmd (waited backend child) before := by
  refine Prog.tells_ask.mpr ⟨warranted, fun x => ?_⟩
  cases x with
  | error e => exact nofun
  | ok output =>
    intro done
    have code := finish_ok done
    refine ⟨fun e member => ?_, fun child' command' spawned => ?_,
      .inl ⟨_, List.mem_append_left _ started, rfl⟩⟩
    · rcases List.mem_append.mp member with early | late
      · exact succeeded e early
      · rw [List.mem_singleton.mp late]
        exact ⟨output, rfl, code⟩
    · rcases List.mem_append.mp spawned with early | late
      · rw [only child' command' early]
        exact ⟨output, List.mem_append_right _ List.mem_cons_self, code⟩
      · cases List.mem_singleton.mp late

theorem succeeded_concat (fresh : Fresh before) {e : Sigma Ans} (last : Succeeded e) :
    ∀ e' ∈ before ++ [e], Succeeded e' := by
  intro e' member
  rcases List.mem_append.mp member with early | late
  · exact (fresh e' early).2
  · rw [List.mem_singleton.mp late]
    exact last

theorem started_concat (fresh : Fresh before) {child child' : Nat} {command command' : Command}
    (started : Started (before ++ [⟨.spawn command, .ok child⟩]) child' command') : child' = child := by
  rcases List.mem_append.mp started with early | late
  · exact nomatch (fresh _ early).1
  · cases List.mem_singleton.mp late
    rfl

theorem tells_run {backend : String} {command : Command} (fresh : Fresh before)
    (typesNothing : ∀ text, cmd ≠ .typeText text) (starts : runner.Starts before command cmd) :
    runner.Tells cmd (run backend command) before := by
  refine Prog.tells_ask.mpr ⟨⟨fun e member => (fresh e member).1, starts⟩, fun x => ?_⟩
  cases x with
  | error e => exact nofun
  | ok child =>
    have started : Started (before ++ [⟨.spawn command, .ok child⟩]) child command :=
      List.mem_append_right _ List.mem_cons_self
    exact tells_waited ⟨⟨command, started⟩, fun text typed => absurd typed (typesNothing text)⟩
      (succeeded_concat fresh ⟨child, rfl⟩) started fun _ _ => started_concat fresh

theorem tells_feed {backend text : String} {command : Command} (typed : cmd = .typeText text)
    (starts : runner.Starts [] command cmd) : runner.Tells cmd (feed backend command text) [] := by
  subst typed
  refine Prog.tells_ask.mpr ⟨⟨nofun, starts⟩, fun x => ?_⟩
  cases x with
  | error e => exact nofun
  | ok child =>
    refine Prog.tells_ask.mpr ⟨⟨rfl, command, rfl, starts.1, starts.2.2⟩, fun y => ?_⟩
    cases y with
    | error e => exact nofun
    | ok _ =>
      have started : Started [⟨.spawn command, .ok child⟩, ⟨.writeAll child text, .ok ()⟩] child
          command := List.mem_cons_self
      refine tells_waited ⟨⟨command, started⟩, ?_⟩ ?_ started ?_
      · intro text' same
        cases same
        exact List.mem_append_right _ List.mem_cons_self
      · intro e member
        rcases List.mem_append.mp member with early | late
        · rw [List.mem_singleton.mp early]
          exact ⟨child, rfl⟩
        · rw [List.mem_singleton.mp late]
          rfl
      · intro child' command' spawned
        rcases List.mem_append.mp spawned with early | late
        · cases List.mem_singleton.mp early
          rfl
        · cases List.mem_singleton.mp late

theorem tells_pointerCall {order : VirtualPointer.Cmd} (fresh : Fresh before)
    (attached : runner.virtualPointer = true) (ordered : pointerOrder cmd = some order) :
    runner.Tells cmd (pointerCall order) before := by
  refine Prog.tells_ask.mpr ⟨⟨fun e member => (fresh e member).1, attached, ordered⟩, fun x => ?_⟩
  cases x with
  | gone | dropped => exact nofun
  | replied result =>
    intro done
    have replied : result = .ok () := done
    subst replied
    refine ⟨succeeded_concat fresh rfl, fun child command started => ?_,
      .inl ⟨_, List.mem_append_right _ List.mem_cons_self, rfl⟩⟩
    rcases List.mem_append.mp started with early | late
    · exact nomatch (fresh _ early).1
    · cases List.mem_singleton.mp late

theorem tells_viaYdotool {args : List String} (typesNothing : ∀ text, cmd ≠ .typeText text)
    (starts : ∀ program, some program = runner.backends.ydotool → ∀ before, runner.Reachable before true →
      runner.Starts before (ydotoolCommand runner.backends program args) cmd) :
    runner.Tells cmd (viaYdotool runner.backends args) [] := by
  unfold viaYdotool
  cases found : runner.backends.ydotool with
  | none => exact nofun
  | some program =>
    refine Prog.tells_ask.mpr ⟨rfl, fun x => ?_⟩
    cases x with
    | false => exact nofun
    | true =>
      exact tells_run (fresh_looked _ _) typesNothing
        (starts program found.symm _ (List.mem_singleton.mpr rfl))

theorem tells_typeText (text : String) : runner.Tells (.typeText text) (runner.typeText text) [] := by
  unfold typeText typeTextWtype
  cases found : runner.backends.wtype with
  | none => exact nofun
  | some program =>
    dsimp only
    split
    · next blank =>
      obtain rfl : text = "" := by simpa using blank
      exact fun _ => ⟨nofun, nofun, .inr rfl⟩
    · next inhabited =>
      exact tells_feed rfl ⟨⟨found.symm, rfl, rfl⟩, by simpa using inhabited, rfl⟩

theorem tells_pressKeysWtype (combo : KeyCombo) (fresh : Fresh before)
    (fallback : runner.backends.ydotool = none ∨ runner.Reachable before false ∨
      keysymToEvdev combo.key = none) :
    runner.Tells (.pressKeys combo) (pressKeysWtype runner.backends combo) before := by
  unfold pressKeysWtype
  cases found : runner.backends.wtype with
  | none => exact nofun
  | some program =>
    refine tells_run fresh nofun (.inr ⟨⟨found.symm, rfl, rfl⟩, fallback, _, combo.read_encodeWtype, ?_⟩)
    exact strikes_chord (by simp [KeyCombo.names])

theorem tells_pressKeys (combo : KeyCombo) :
    runner.Tells (.pressKeys combo) (runner.pressKeys combo) [] := by
  unfold pressKeys pressKeysBackend
  cases found : runner.backends.ydotool with
  | none => exact tells_pressKeysWtype combo fresh_nil (.inl found)
  | some program =>
    refine Prog.tells_ask.mpr ⟨rfl, fun x => ?_⟩
    have looked := fresh_looked runner.backends.ydotooldSocket x
    cases x with
    | false => exact tells_pressKeysWtype combo looked (.inr (.inl (List.mem_singleton.mpr rfl)))
    | true =>
      cases mapped : keysymToEvdev combo.key with
      | none =>
        rw [combo.encodeYdotoolKey_none mapped]
        exact tells_pressKeysWtype combo looked (.inr (.inr mapped))
      | some code =>
        obtain ⟨argv, encoded, read⟩ := combo.read_encodeYdotoolKey mapped
        rw [encoded]
        refine tells_run looked nofun (.inl ⟨⟨found.symm, rfl, rfl⟩, List.mem_singleton.mpr rfl, argv, code, _, rfl,
          mapped, read, ?_⟩)
        exact strikes_chord (combo.code_notMem mapped)

theorem tells_perform (cmd : Daemon.InputCmd) : runner.Tells cmd (runner.perform cmd) [] := by
  cases cmd with
  | typeText text => exact tells_typeText text
  | pressKeys combo => exact tells_pressKeys combo
  | mouseMove x y absolute =>
    show runner.Tells _ (runner.mouseMove x y absolute) []
    unfold mouseMove
    cases attached : runner.virtualPointer with
    | true => exact tells_pointerCall fresh_nil attached rfl
    | false => exact tells_viaYdotool nofun fun program found before seen => ⟨⟨found, rfl, rfl⟩, seen, attached, rfl⟩
  | mouseClick button =>
    show runner.Tells _ (runner.mouseClick button) []
    unfold mouseClick
    cases attached : runner.virtualPointer with
    | true => exact tells_pointerCall fresh_nil attached rfl
    | false => exact tells_viaYdotool nofun fun program found before seen => ⟨⟨found, rfl, rfl⟩, seen, attached, rfl⟩

end Tells

end InputRunner

/-! ### The daemon with its runner -/

namespace Host

/-- The daemon's own effects, and those of the runner that it has for its input commands. -/
inductive Cmd (κ : Type) where
  | daemon (c : Daemon.Cmd κ)
  | os (c : InputRunner.Cmd)

@[reducible] def Ans {κ : Type} : Cmd κ → Type
  | .daemon c => Daemon.Ans c
  | .os c => InputRunner.Ans c

variable {κ : Type}

def serve (runner : InputRunner) : (c : Daemon.Cmd κ) → Prog (Cmd κ) Ans (Daemon.Ans c)
  | .input c => (runner.perform c).relabel .os fun _ x => x
  | c => .call (Cmd.daemon c)

def handleRequest (runner : InputRunner) (state : Daemon.State κ) (request : Request) :
    Prog (Cmd κ) Ans Response :=
  (Daemon.handleRequest state request).through (serve runner)

/-- The runner's part of a run. -/
def osPart : List (Sigma (Ans (κ := κ))) → List (Sigma InputRunner.Ans)
  | [] => []
  | ⟨.os c, x⟩ :: rest => ⟨c, x⟩ :: osPart rest
  | ⟨.daemon _, _⟩ :: rest => osPart rest

section Follows

variable {α : Type} {req : List (Sigma InputRunner.Ans) → InputRunner.Cmd → Prop}
  {post : α → List (Sigma InputRunner.Ans) → Prop}

/-- The state is the runner's part so far. -/
def moves : (c : Cmd κ) → Ans c → List (Sigma InputRunner.Ans) → List (Sigma InputRunner.Ans) → Prop
  | .os c, x, s, t => t = s ++ [⟨c, x⟩]
  | .daemon _, _, s, t => t = s

def needs (req : List (Sigma InputRunner.Ans) → InputRunner.Cmd → Prop) :
    Cmd κ → List (Sigma InputRunner.Ans) → Prop
  | .os c, s => req s c
  | .daemon _, _ => True

abbrev Follows (req : List (Sigma InputRunner.Ans) → InputRunner.Cmd → Prop)
    (post : α → List (Sigma InputRunner.Ans) → Prop) (p : Prog (Cmd κ) Ans α)
    (before : List (Sigma InputRunner.Ans)) : Prop :=
  p.wp moves (needs req) post before

theorem follows_of_run {p : Prog (Cmd κ) Ans α} {before : List (Sigma InputRunner.Ans)}
    {tr : List (Sigma (Ans (κ := κ)))} {a : α} (follows : Follows req post p before)
    (run : Prog.Run p tr a) : Prog.Along req before (osPart tr) ∧ post a (before ++ osPart tr) := by
  induction run generalizing before with
  | ret a => exact ⟨trivial, by simpa [osPart] using follows⟩
  | @ask c k tr a x _ ih =>
    cases c with
    | daemon c => exact ih (follows.2 x before rfl)
    | os c =>
      obtain ⟨rest, ending⟩ := ih (follows.2 x _ rfl)
      exact ⟨⟨follows.1, rest⟩, by simpa [osPart] using ending⟩

/-- A handler without input commands leaves the runner alone. -/
theorem follows_quiet {p : Daemon.Handler κ α} {runner : InputRunner}
    (asks : p.Asks fun c => ∀ cmd, c ≠ .input cmd) (before : List (Sigma InputRunner.Ans)) :
    Follows (fun _ _ => False) (fun _ t => t = before) (p.through (serve runner)) before := by
  induction p with
  | ret a => rfl
  | ask c k ih =>
    refine Prog.wp_bind.mpr ?_
    obtain ⟨other, later⟩ := asks
    cases c with
    | input cmd => exact absurd rfl (other cmd)
    | _ =>
      refine ⟨trivial, ?_⟩
      rintro x _ rfl
      exact ih x (later x)

theorem follows_input {runner : InputRunner} {cmd : Daemon.InputCmd}
    {k : InputRunner.Outcome → Daemon.Handler κ α} {before : List (Sigma InputRunner.Ans)}
    (tells : (runner.perform cmd).Tells req
      (fun result t => Follows req post ((k result).through (serve runner)) t) before) :
    Follows req post ((.ask (.input cmd) k : Daemon.Handler κ α).through (serve runner)) before := by
  refine Prog.wp_bind.mpr (Prog.wp_relabel.mpr (Prog.wp_conseq ?_ (fun _ _ allowed => allowed) tells))
  rintro c x s t ⟨y, rfl, moved⟩
  exact moved

end Follows

/-! ### Requests -/

/-- The input command that the daemon makes of a request; an absolute point is scaled on the way. -/
def Forwards : Request → Daemon.InputCmd → Prop
  | .inputType text, .typeText typed => typed = text
  | .inputKeys combo, .pressKeys pressed => pressed = combo
  | .inputMouseMove x y absolute, .mouseMove mx my onScreen =>
    onScreen = absolute ∧ (absolute = false → mx = x ∧ my = y)
  | .inputMouseClick button, .mouseClick clicked => clicked = button
  | _, _ => False

/-- A request is answered with success only where the runner did its part. -/
def Reports (cmd : Daemon.InputCmd) (response : Response) (tr : List (Sigma InputRunner.Ans)) : Prop :=
  ∀ reply, response = .ok reply → (∀ e ∈ tr, InputRunner.Succeeded e) ∧ InputRunner.Completed tr ∧
    ((∃ e ∈ tr, InputRunner.isDeed e.1 = true) ∨ cmd = .typeText "")

/-- One input command of the runner, warranted step by step and reported truly. -/
def Told (runner : InputRunner) (request : Request) (response : Response)
    (tr : List (Sigma InputRunner.Ans)) : Prop :=
  ∃ cmd, Forwards request cmd ∧ Prog.Along (runner.Warranted cmd) [] tr ∧ Reports cmd response tr

/-- What the runner did for a request, and how that was answered: nothing at all, or with the gate open
what its command warrants. -/
def Handled (runner : InputRunner) (enabled : Bool) (request : Request) (response : Response)
    (tr : List (Sigma InputRunner.Ans)) : Prop :=
  (tr = [] ∧ ∀ cmd, Forwards request cmd → ∀ reply, response ≠ .ok reply) ∨
    enabled = true ∧ Told runner request response tr

/-- A step of the runner for a request, after what was answered `before`. -/
def Asked (runner : InputRunner) (enabled : Bool) (request : Request)
    (before : List (Sigma InputRunner.Ans)) (c : InputRunner.Cmd) : Prop :=
  enabled = true ∧ ∃ cmd, Forwards request cmd ∧ runner.Warranted cmd before c

section Requests

variable {runner : InputRunner} {state : Daemon.State κ}

theorem asks_pointerTarget (x y : Int) (absolute : Bool) :
    (Daemon.pointerTarget x y absolute : Daemon.Handler κ _).Asks fun c => ∀ cmd, c ≠ .input cmd := by
  unfold Daemon.pointerTarget Daemon.logicalToDevice
  cases absolute with
  | false => trivial
  | true =>
    refine Prog.Asks.bind (Daemon.asks_read (fun _ => nofun) (fun _ => nofun) (fun _ _ => nofun) .monitors) ?_
    exact fun monitors => by cases monitors <;> trivial

theorem asks_quiet {request : Request} (other : ∀ cmd, ¬ Forwards request cmd) :
    (Daemon.handleRequest state request).Asks fun c => ∀ cmd, c ≠ .input cmd := by
  have grouped {g : ToolGroup} (group : request.group = some g) (apart : g ≠ .input) :
      (Daemon.handleRequest state request).Asks fun c => ∀ cmd, c ≠ .input cmd := by
    have keeps : Daemon.Keeps state.inputEnabled True g (Daemon.handleRequest state request) :=
      Daemon.keeps_handleRequest state group
    refine Prog.Asks.mono ?_ (keeps.asks ?_)
    · rintro _ granted cmd rfl
      exact apart granted.1
    · intro c x
      cases c <;> first | trivial | exact fun _ _ _ _ => trivial
  cases request with
  | ping => trivial
  | shutdown => exact ⟨nofun, fun _ => trivial⟩
  | inputType text => exact absurd rfl (other (.typeText text))
  | inputKeys combo => exact absurd rfl (other (.pressKeys combo))
  | inputMouseMove x y absolute =>
    exact absurd ⟨rfl, fun _ => ⟨rfl, rfl⟩⟩ (other (.mouseMove x y absolute))
  | inputMouseClick button => exact absurd rfl (other (.mouseClick button))
  | inputShortcut combo selector =>
    show Prog.Asks _ (Daemon.gated state _)
    unfold Daemon.gated
    split
    · exact ⟨nofun, fun result => by cases result <;> trivial⟩
    · trivial
  | _ => exact grouped rfl (by decide)

variable (runner) (state) in
/-- The program keeps to the request, and so does its answer. -/
abbrev Keeping (request : Request) (p : Daemon.Handler κ Response) : Prop :=
  Follows (Asked runner state.inputEnabled request) (Handled runner state.inputEnabled request)
    (p.through (serve runner)) []

theorem keeping_input {request : Request} {cmd : Daemon.InputCmd}
    {k : InputRunner.Outcome → Daemon.Handler κ Response} (enabled : state.inputEnabled = true)
    (forwards : Forwards request cmd) (done : ∃ reply, k (.ok ()) = .ret (.ok reply))
    (failed : ∀ e, k (.error e) = .ret (Daemon.inputErrorResponse e)) :
    Keeping runner state request (.ask (.input cmd) k) := by
  have asked (before : List (Sigma InputRunner.Ans)) (c : InputRunner.Cmd)
      (warranted : runner.Warranted cmd before c) : Asked runner state.inputEnabled request before c :=
    ⟨enabled, cmd, forwards, warranted⟩
  have tells := (@InputRunner.tells_perform runner cmd).along trivial
  refine follows_input (Prog.wp_conseq (fun _ _ _ _ moved => moved) (fun c before => asked before c)
    (Prog.wp_mono ?_ tells))
  rintro result tr ⟨sound, along⟩
  have handled (response : Response) (truly : ∀ reply, response = .ok reply → result = .ok ()) :
      Handled runner state.inputEnabled request response tr :=
    .inr ⟨enabled, cmd, forwards, along, fun reply ok => sound (truly reply ok)⟩
  cases result with
  | ok _ =>
    obtain ⟨reply, same⟩ := done
    rw [same]
    exact handled _ fun _ _ => rfl
  | error e =>
    rw [failed e]
    exact handled _ fun _ ok => nomatch ok

theorem keeping_gated {request : Request} {p : Daemon.Handler κ Response}
    (inner : state.inputEnabled = true → Keeping runner state request p) :
    Keeping runner state request (Daemon.gated state p) := by
  unfold Daemon.gated
  split
  · next enabled => exact inner enabled
  · exact .inl ⟨rfl, fun _ _ _ => nofun⟩

theorem keeping_quiet {request : Request} (other : ∀ cmd, ¬ Forwards request cmd) :
    Keeping runner state request (Daemon.handleRequest state request) := by
  refine Prog.wp_conseq (fun _ _ _ _ moved => moved) ?_
    (Prog.wp_mono ?_ (follows_quiet (asks_quiet other) []))
  · intro c before asked
    cases c with
    | os c => exact asked.elim
    | daemon c => trivial
  · rintro response tr rfl
    exact .inl ⟨rfl, fun cmd forwards => absurd forwards (other cmd)⟩

theorem keeping_mouseMove (x y : Int) (absolute : Bool) :
    Keeping runner state (.inputMouseMove x y absolute)
      (Daemon.handleRequest state (.inputMouseMove x y absolute)) := by
  refine keeping_gated fun enabled => ?_
  cases absolute with
  | false =>
    have forwards : Forwards (.inputMouseMove x y false) (.mouseMove x y false) :=
      ⟨rfl, fun _ => ⟨rfl, rfl⟩⟩
    exact keeping_input enabled forwards ⟨_, rfl⟩ fun _ => rfl
  | true =>
    rw [Keeping, Prog.through_bind]
    refine Prog.wp_bind.mpr (Prog.wp_conseq (fun _ _ _ _ moved => moved) ?_
      (Prog.wp_mono ?_ (follows_quiet (asks_pointerTarget x y true) [])))
    · intro c before asked
      cases c with
      | os c => exact asked.elim
      | daemon c => trivial
    · rintro point tr rfl
      have forwards : Forwards (.inputMouseMove x y true) (.mouseMove point.1 point.2 true) := ⟨rfl, nofun⟩
      exact keeping_input enabled forwards ⟨_, rfl⟩ fun _ => rfl

theorem keeping_handleRequest (request : Request) :
    Keeping runner state request (Daemon.handleRequest state request) := by
  by_cases forwarded : ∃ cmd, Forwards request cmd
  · cases request with
    | inputType text =>
      exact keeping_gated fun enabled => keeping_input enabled
        (show Forwards (.inputType text) (.typeText text) from rfl) ⟨_, rfl⟩ fun _ => rfl
    | inputKeys combo =>
      exact keeping_gated fun enabled => keeping_input enabled
        (show Forwards (.inputKeys combo) (.pressKeys combo) from rfl) ⟨_, rfl⟩ fun _ => rfl
    | inputMouseClick button =>
      exact keeping_gated fun enabled => keeping_input enabled
        (show Forwards (.inputMouseClick button) (.mouseClick button) from rfl) ⟨_, rfl⟩ fun _ => rfl
    | inputMouseMove x y absolute => exact keeping_mouseMove x y absolute
    | _ => exact forwarded.elim fun cmd forwards => forwards.elim
  · exact keeping_quiet (not_exists.mp forwarded)

/-- In every run of a request's handler, the runner does nothing unless the daemon's gate is open and the
request is one that types, strikes keys or uses the pointer. It then takes warranted steps for this one
request, of which at most one is a deed, and the request succeeds only where all of them did. -/
theorem handled_warranted {request : Request} {response : Response} {tr : List (Sigma (Ans (κ := κ)))}
    (run : Prog.Run (handleRequest runner state request) tr response) :
    (osPart tr = [] ∧ ∀ cmd, Forwards request cmd → ∀ reply, response ≠ .ok reply) ∨
      state.inputEnabled = true ∧ Told runner request response (osPart tr) :=
  (follows_of_run (keeping_handleRequest request) run).2

end Requests

def plainRunner : InputRunner :=
  ⟨⟨some "/usr/bin/wtype", some "/usr/bin/ydotool", "/run/user/1000/.ydotool_socket"⟩, false⟩

def openState : Daemon.State Daemon.StateFile := { Daemon.plainState with inputEnabled := true }

/-- `wtype -` is started, fed and waited for. -/
def typedRun : List (Sigma (Ans (κ := Daemon.StateFile))) :=
  [⟨.os (.spawn ⟨"/usr/bin/wtype", ["-"], [], true⟩), .ok 7⟩, ⟨.os (.writeAll 7 "hi"), .ok ()⟩,
    ⟨.os (.waitWithOutput 7), .ok ⟨some 0, []⟩⟩]

theorem handled_warranted_typed :
    (osPart typedRun = [] ∧ ∀ cmd, Forwards (.inputType "hi") cmd →
      ∀ reply, Response.ok (.typed 2) ≠ .ok reply) ∨
    openState.inputEnabled = true ∧
      Told plainRunner (.inputType "hi") (.ok (.typed 2)) (osPart typedRun) := by
  have run : Prog.Run (handleRequest plainRunner openState (.inputType "hi")) typedRun
      (.ok (.typed 2)) := by
    refine .ask (A := Ans) (c := .os (.spawn ⟨"/usr/bin/wtype", ["-"], [], true⟩)) (.ok 7) ?_
    refine .ask (A := Ans) (c := .os (.writeAll 7 "hi")) (.ok ()) ?_
    refine .ask (A := Ans) (c := .os (.waitWithOutput 7)) (.ok ⟨some 0, []⟩) ?_
    exact .ret _
  exact handled_warranted run

end Host

end HyprPilot
