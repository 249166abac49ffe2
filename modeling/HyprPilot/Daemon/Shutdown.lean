import HyprPilot.Base.Notify

/-!
# Shutdown

A shutdown request sends one notification, and two loops wait for it: the signal loop of the server
and the rules engine, which drops its waiter on every event and registers a new one. The one of them
that registered first takes the notification, so the other is left waiting unless it was over when
the request was served.
-/

namespace HyprPilot.Shutdown
open Loops Relation

inductive Party where
  | server
  | engine
  deriving DecidableEq

/-- The signal loop of `run`; a server that stopped waits for the engine for a while and is gone. -/
inductive ServerPhase where
  | starting
  | waiting
  | stopped
  | gone
  deriving DecidableEq

/-- `engine::run`: idle when there are no rules, else between the notification and the events. -/
inductive EnginePhase where
  | spawned
  | idle
  | idleWaiting
  | selecting
  | waiting
  | handling
  | ended
  deriving DecidableEq

structure State where
  notify : Notify Party
  server : ServerPhase
  engine : EnginePhase

def start : State := ⟨.new, .starting, .spawned⟩

def EnginePhase.registered : EnginePhase → Bool
  | .idleWaiting | .waiting => true
  | _ => false

/-- What happens between requests. A `select!` looks at its branches in any order, so an event or a
signal may be seen before or after the notification is. -/
inductive Move (noRules : Bool) : State → State → Prop where
  | serverPolls {s : State} : s.server = .starting →
      Move noRules s ⟨(s.notify.poll .server).2,
        if (s.notify.poll .server).1 then .stopped else .waiting, s.engine⟩
  | serverWoken {s : State} : s.server = .waiting → .server ∈ s.notify.notified →
      Move noRules s ⟨s.notify.take .server, .stopped, s.engine⟩
  | signalFirst {s : State} : s.server = .starting → Move noRules s ⟨s.notify, .stopped, s.engine⟩
  | signal {s : State} : s.server = .waiting →
      Move noRules s ⟨s.notify.drop .server, .stopped, s.engine⟩
  | exit {s : State} : s.server = .stopped →
      Move noRules s ⟨if s.engine.registered then s.notify.drop .engine else s.notify, .gone, .ended⟩
  | fails {s : State} : noRules = false → s.engine = .spawned →
      Move noRules s ⟨s.notify, s.server, .ended⟩
  | idles {s : State} : noRules = true → s.engine = .spawned →
      Move noRules s ⟨s.notify, s.server, .idle⟩
  | idlePolls {s : State} : s.engine = .idle →
      Move noRules s ⟨(s.notify.poll .engine).2, s.server,
        if (s.notify.poll .engine).1 then .ended else .idleWaiting⟩
  | idleWoken {s : State} : s.engine = .idleWaiting → .engine ∈ s.notify.notified →
      Move noRules s ⟨s.notify.take .engine, s.server, .ended⟩
  | connects {s : State} : noRules = false → s.engine = .spawned →
      Move noRules s ⟨s.notify, s.server, .selecting⟩
  | enginePolls {s : State} : s.engine = .selecting →
      Move noRules s ⟨(s.notify.poll .engine).2, s.server,
        if (s.notify.poll .engine).1 then .ended else .waiting⟩
  | engineWoken {s : State} : s.engine = .waiting → .engine ∈ s.notify.notified →
      Move noRules s ⟨s.notify.take .engine, s.server, .ended⟩
  | eventFirst {s : State} : s.engine = .selecting →
      Move noRules s ⟨s.notify, s.server, .handling⟩
  | event {s : State} : s.engine = .waiting →
      Move noRules s ⟨s.notify.drop .engine, s.server, .handling⟩
  | closedFirst {s : State} : s.engine = .selecting →
      Move noRules s ⟨s.notify, s.server, .ended⟩
  | closed {s : State} : s.engine = .waiting →
      Move noRules s ⟨s.notify.drop .engine, s.server, .ended⟩
  | handled {s : State} : s.engine = .handling →
      Move noRules s ⟨s.notify, s.server, .selecting⟩

/-- The handler of `Request::Shutdown`. -/
def State.shutdown (s : State) : State := { s with notify := s.notify.notifyOne }

inductive Step (noRules : Bool) : State → State → Prop where
  | move {s t : State} : Move noRules s t → Step noRules s t
  | request {s : State} : s.server ≠ .gone → Step noRules s s.shutdown

/-- No permit and no notification on its way, and a loop that waits. -/
def Stuck (s : State) : Prop :=
  s.notify.permit = false ∧ s.notify.notified = [] ∧
    (s.server = .waiting ∨ s.engine = .waiting ∨ s.engine = .idleWaiting)

/-! ### The two loops -/

def ServerPhase.status : ServerPhase → Status
  | .starting => .away
  | .waiting => .waiting
  | .stopped | .gone => .finished

def EnginePhase.status : EnginePhase → Status
  | .spawned | .idle | .selecting | .handling => .away
  | .idleWaiting | .waiting => .waiting
  | .ended => .finished

def State.status (s : State) : Party → Status
  | .server => s.server.status
  | .engine => s.engine.status

def State.world (s : State) : World Party := ⟨s.notify, s.status⟩

theorem world_server (s : State) (n : Notify Party) (phase : ServerPhase) :
    State.world ⟨n, phase, s.engine⟩ = ⟨n, Function.update s.status .server phase.status⟩ := by
  unfold State.world
  congr
  funext p
  cases p <;> rfl

theorem world_engine {s : State} (n : Notify Party) {server : ServerPhase} (phase : EnginePhase)
    (same : server.status = s.server.status) :
    State.world ⟨n, server, phase⟩ = ⟨n, Function.update s.status .engine phase.status⟩ := by
  unfold State.world
  congr
  funext p
  cases p with
  | server => exact same
  | engine => rfl

theorem ServerPhase.waits {phase : ServerPhase} (waits : phase.status = .waiting) : phase = .waiting := by
  cases phase <;> first | rfl | cases waits

theorem EnginePhase.waits {phase : EnginePhase} (waits : phase.status = .waiting) :
    phase = .waiting ∨ phase = .idleWaiting := by
  cases phase <;> first | exact Or.inl rfl | exact Or.inr rfl | cases waits

theorem waiting_iff (s : State) :
    (∃ p, s.status p = .waiting) ↔
      s.server = .waiting ∨ s.engine = .waiting ∨ s.engine = .idleWaiting := by
  constructor
  · rintro ⟨_ | _, waits⟩
    · exact Or.inl (ServerPhase.waits waits)
    · exact Or.inr (EnginePhase.waits waits)
  · rintro (waits | waits | waits)
    · exact ⟨.server, congrArg ServerPhase.status waits⟩
    · exact ⟨.engine, congrArg EnginePhase.status waits⟩
    · exact ⟨.engine, congrArg EnginePhase.status waits⟩

theorem stuck_iff (s : State) : Stuck s ↔ Loops.Stuck s.world := by
  unfold Stuck
  rw [← waiting_iff]
  rfl

section World

variable {s : State} {server : ServerPhase} {engine : EnginePhase}

theorem server_at (at_ : s.server = server) : s.world.status .server = server.status :=
  congrArg ServerPhase.status at_

theorem engine_at (at_ : s.engine = engine) : s.world.status .engine = engine.status :=
  congrArg EnginePhase.status at_

/-- A phase of the engine that only follows another is no step of its loop. -/
theorem world_same {phase : EnginePhase} (at_ : s.engine = engine)
    (same : phase.status = engine.status) : State.world ⟨s.notify, s.server, phase⟩ = s.world := by
  rw [world_engine s.notify phase rfl, same, ← engine_at at_]
  exact congrArg (World.mk s.notify) (Function.update_eq_self ..)

end World

/-- Each move is a step of the two loops, or leaves both where they are. -/
theorem move_world {noRules : Bool} {s t : State} (move : Move noRules s t) :
    t.world = s.world ∨ Loops.Step s.world t.world := by
  cases move with
  | serverPolls at_ =>
    rw [world_server, apply_ite ServerPhase.status]
    exact Or.inr (.polls Party.server (server_at at_))
  | serverWoken at_ woken =>
    rw [world_server]
    exact Or.inr (.woken Party.server (server_at at_) woken)
  | signalFirst at_ =>
    rw [world_server]
    exact Or.inr (.quits Party.server (server_at at_))
  | signal at_ =>
    rw [world_server]
    exact Or.inr (.leaves Party.server .finished (server_at at_) (by decide))
  | exit at_ =>
    have gone : ServerPhase.gone.status = s.server.status := by
      rw [at_]
      rfl
    rw [world_engine _ _ gone]
    cases phase : s.engine with
    | ended =>
      have same : EnginePhase.ended.status = s.status .engine := (engine_at phase).symm
      rw [same, Function.update_eq_self]
      exact Or.inl rfl
    | idleWaiting | waiting => exact Or.inr (.leaves Party.engine .finished (engine_at phase) (by decide))
    | spawned | idle | selecting | handling => exact Or.inr (.quits Party.engine (engine_at phase))
  | fails _ at_ =>
    rw [world_engine _ _ rfl]
    exact Or.inr (.quits Party.engine (engine_at at_))
  | idles _ at_ => exact Or.inl (world_same at_ rfl)
  | idlePolls at_ =>
    rw [world_engine _ _ rfl, apply_ite EnginePhase.status]
    exact Or.inr (.polls Party.engine (engine_at at_))
  | idleWoken at_ woken =>
    rw [world_engine _ _ rfl]
    exact Or.inr (.woken Party.engine (engine_at at_) woken)
  | connects _ at_ => exact Or.inl (world_same at_ rfl)
  | enginePolls at_ =>
    rw [world_engine _ _ rfl, apply_ite EnginePhase.status]
    exact Or.inr (.polls Party.engine (engine_at at_))
  | engineWoken at_ woken =>
    rw [world_engine _ _ rfl]
    exact Or.inr (.woken Party.engine (engine_at at_) woken)
  | eventFirst at_ => exact Or.inl (world_same at_ rfl)
  | event at_ =>
    rw [world_engine _ _ rfl]
    exact Or.inr (.leaves Party.engine .away (engine_at at_) (by decide))
  | closedFirst at_ =>
    rw [world_engine _ _ rfl]
    exact Or.inr (.quits Party.engine (engine_at at_))
  | closed at_ =>
    rw [world_engine _ _ rfl]
    exact Or.inr (.leaves Party.engine .finished (engine_at at_) (by decide))
  | handled at_ => exact Or.inl (world_same at_ rfl)

theorem run_world {noRules : Bool} {s t : State} (run : ReflTransGen (Step noRules) s t) :
    ReflTransGen Loops.Step s.world t.world := by
  induction run with
  | refl => exact .refl
  | tail _ last ih =>
    cases last with
    | move moved =>
      rcases move_world moved with same | step
      · rwa [same]
      · exact ih.tail step
    | request _ => exact ih.tail (.send _)

theorem start_sound : Sound start.world := by
  refine ⟨fun p => ⟨fun registered => ?_, fun waits => ?_⟩, List.nodup_nil⟩
  · cases registered
  · cases p <;> cases waits

/-- A request served when only one loop is left signals that one. -/
theorem shutdown_signals {s : State} {p : Party} (sound : Sound s.world)
    (alone : ∀ q, q ≠ p → s.status q = .finished) : Signalled p s.shutdown.world := by
  refine ⟨alone, Or.inr (Notify.notifyOne_signals fun q waits => ?_)⟩
  by_contra different
  have waiting := (sound.waits q).mp (List.mem_append_left _ waits)
  have ended : s.world.status q = .finished := alone q different
  rw [ended] at waiting
  cases waiting

/-! ### Two loops and one notification -/

section Stuck

variable {noRules : Bool} {s t : State}

theorem move_quiet (quiet : s.notify.Quiet) (move : Move noRules s t) : t.notify.Quiet := by
  have asleep (p : Party) : p ∉ s.notify.notified := by
    rw [quiet.notified]
    exact List.not_mem_nil
  cases move with
  | serverPolls => exact (quiet.poll _).2
  | idlePolls => exact (quiet.poll _).2
  | enginePolls => exact (quiet.poll _).2
  | serverWoken _ woken => exact absurd woken (asleep _)
  | idleWoken _ woken => exact absurd woken (asleep _)
  | engineWoken _ woken => exact absurd woken (asleep _)
  | signal => exact quiet.drop _
  | event => exact quiet.drop _
  | closed => exact quiet.drop _
  | exit =>
    show Notify.Quiet (if s.engine.registered then s.notify.drop .engine else s.notify)
    split
    · exact quiet.drop _
    · exact quiet
  | signalFirst | fails | idles | connects | eventFirst | closedFirst | handled => exact quiet

theorem run_quiet (run : ReflTransGen (Move noRules) start t) : t.notify.Quiet := by
  induction run with
  | refl => exact ⟨rfl, rfl⟩
  | tail _ last ih => exact move_quiet ih last

/-- With nothing stored or on its way, a server that has not stopped comes to wait for ever. -/
theorem server_sticks (quiet : s.notify.Quiet) (alive : s.server = .starting ∨ s.server = .waiting) :
    ∃ t, ReflTransGen (Move noRules) s t ∧ Stuck t := by
  rcases alive with starting | waiting
  · obtain ⟨registers, after⟩ := quiet.poll Party.server
    refine ⟨_, .single (.serverPolls starting), after.permit, after.notified, Or.inl ?_⟩
    rw [registers]
    rfl
  · exact ⟨s, .refl, quiet.permit, quiet.notified, Or.inl waiting⟩

theorem engine_sticks (quiet : s.notify.Quiet) (alive : s.engine ≠ .ended) :
    ∃ t, ReflTransGen (Move noRules) s t ∧ Stuck t := by
  obtain ⟨notify, server, engine⟩ := s
  obtain ⟨registers, after⟩ := quiet.poll Party.engine
  have selected : ∃ t, ReflTransGen (Move noRules) ⟨notify, server, .selecting⟩ t ∧ Stuck t := by
    refine ⟨_, .single (.enginePolls rfl), after.permit, after.notified, Or.inr (Or.inl ?_)⟩
    rw [registers]
    rfl
  have idled : ∃ t, ReflTransGen (Move noRules) ⟨notify, server, .idle⟩ t ∧ Stuck t := by
    refine ⟨_, .single (.idlePolls rfl), after.permit, after.notified, Or.inr (Or.inr ?_)⟩
    rw [registers]
    rfl
  cases engine with
  | spawned =>
    cases noRules with
    | false =>
      obtain ⟨t, run, stuck⟩ := selected
      exact ⟨t, .head (.connects rfl rfl) run, stuck⟩
    | true =>
      obtain ⟨t, run, stuck⟩ := idled
      exact ⟨t, .head (.idles rfl rfl) run, stuck⟩
  | idle => exact idled
  | idleWaiting => exact ⟨_, .refl, quiet.permit, quiet.notified, Or.inr (Or.inr rfl)⟩
  | selecting => exact selected
  | waiting => exact ⟨_, .refl, quiet.permit, quiet.notified, Or.inr (Or.inl rfl)⟩
  | handling =>
    obtain ⟨t, run, stuck⟩ := selected
    exact ⟨t, .head (.handled rfl) run, stuck⟩
  | ended => exact absurd rfl alive

/-- The loop that is signalled takes the notification, and the other one is stuck. -/
theorem request_sticks (sound : Sound s.world) (quiet : s.notify.Quiet)
    (server : s.server = .starting ∨ s.server = .waiting) (engine : s.engine ≠ .ended) :
    ∃ t, ReflTransGen (Move noRules) s.shutdown t ∧ Stuck t := by
  have registered (p : Party) : p ∈ s.notify.waiters ↔ s.status p = .waiting := by
    have waits := sound.waits p
    rwa [Notify.registered, State.world, quiet.notified, List.append_nil] at waits
  have sent : s.shutdown.notify = s.notify.notifyOne := rfl
  unfold Notify.notifyOne at sent
  cases waiters : s.notify.waiters with
  | nil =>
    rw [waiters] at sent
    have starting : s.server = .starting := by
      refine server.resolve_right fun waiting => ?_
      have waits := (registered .server).mpr (congrArg ServerPhase.status waiting)
      rw [waiters] at waits
      cases waits
    have stored : s.shutdown.notify.permit = true := by rw [sent]
    have taken : (s.shutdown.notify.poll Party.server).2.Quiet := by
      rw [Notify.poll_stored _ stored]
      refine ⟨rfl, ?_⟩
      show s.shutdown.notify.notified = []
      rw [sent]
      exact quiet.notified
    obtain ⟨t, run, stuck⟩ := engine_sticks (s := ⟨(s.shutdown.notify.poll Party.server).2,
      if (s.shutdown.notify.poll Party.server).1 then .stopped else .waiting, s.engine⟩) taken engine
    exact ⟨t, .head (.serverPolls starting) run, stuck⟩
  | cons first rest =>
    rw [waiters] at sent
    have woken : first ∈ s.shutdown.notify.notified := by
      rw [sent]
      exact List.mem_cons_self
    have taken : (s.shutdown.notify.take first).Quiet := by
      rw [sent]
      refine ⟨quiet.permit, ?_⟩
      show (first :: s.notify.notified).erase first = []
      rw [List.erase_cons_head, quiet.notified]
    have waiting := (registered first).mp (by rw [waiters]; exact List.mem_cons_self)
    cases first with
    | server =>
      have phase : s.server = .waiting := ServerPhase.waits waiting
      obtain ⟨t, run, stuck⟩ := engine_sticks
        (s := ⟨s.shutdown.notify.take .server, .stopped, s.engine⟩) taken engine
      exact ⟨t, .head (.serverWoken phase woken) run, stuck⟩
    | engine =>
      obtain ⟨t, run, stuck⟩ := server_sticks
        (s := ⟨s.shutdown.notify.take .engine, s.server, .ended⟩) taken server
      rcases EnginePhase.waits waiting with waits | idles
      · exact ⟨t, .head (.engineWoken waits woken) run, stuck⟩
      · exact ⟨t, .head (.idleWoken idles woken) run, stuck⟩

end Stuck

/-- The first shutdown request reaches every loop that waits if and only if one of the two loops is
over when it is served. -/
theorem shutdown_reaches_all_iff {noRules : Bool} {s : State}
    (before : ReflTransGen (Move noRules) start s) (running : s.server ≠ .gone) :
    (∀ t, ReflTransGen (Step noRules) s.shutdown t → ¬ Stuck t) ↔
      s.server = .stopped ∨ s.engine = .ended := by
  have moves {a b : State} (run : ReflTransGen (Move noRules) a b) : ReflTransGen (Step noRules) a b :=
    run.lift id fun _ _ => Step.move
  have sound : Sound s.world := Loops.run_sound start_sound (run_world (moves before))
  constructor
  · intro reaches
    by_contra alive
    rw [not_or] at alive
    have server : s.server = .starting ∨ s.server = .waiting := by
      cases phase : s.server with
      | starting => exact Or.inl rfl
      | waiting => exact Or.inr rfl
      | stopped => exact absurd phase alive.1
      | gone => exact absurd phase running
    obtain ⟨t, run, stuck⟩ := request_sticks sound (run_quiet before) server alive.2
    exact reaches t (moves run) stuck
  · intro reached t run
    have signalled : ∃ p, Signalled p s.shutdown.world := by
      rcases reached with stopped | ended
      · refine ⟨.engine, shutdown_signals sound fun q other => ?_⟩
        cases q with
        | server => exact congrArg ServerPhase.status stopped
        | engine => exact absurd rfl other
      · refine ⟨.server, shutdown_signals sound fun q other => ?_⟩
        cases q with
        | server => exact absurd rfl other
        | engine => exact congrArg EnginePhase.status ended
    obtain ⟨p, signalled⟩ := signalled
    have sent : Sound s.shutdown.world := (Loops.Step.send s.world).sound sound
    rw [stuck_iff]
    exact (Loops.never_stuck sent signalled (run_world run)).2.2

/-- The engine that could not compile its rules is over, so the request reaches the server. -/
theorem shutdown_reaches_all_failed : ReflTransGen (Move false) start ⟨.new, .starting, .ended⟩ ∧
    ∀ t, ReflTransGen (Step false) (State.shutdown ⟨.new, .starting, .ended⟩) t → ¬ Stuck t := by
  have failed : ReflTransGen (Move false) start ⟨.new, .starting, .ended⟩ := .single (.fails rfl rfl)
  exact ⟨failed, (shutdown_reaches_all_iff failed (by decide)).mpr (Or.inr rfl)⟩

/-- The engine registers first and takes the notification; the server waits for ever. -/
theorem shutdown_misses_server :
    ¬ ∀ (noRules : Bool) (s t : State), ReflTransGen (Move noRules) start s → s.server ≠ .gone →
      ReflTransGen (Step noRules) s.shutdown t → ¬ Stuck t := by
  intro reaches
  have before : ReflTransGen (Move false) start ⟨⟨false, [.engine, .server], []⟩, .waiting, .waiting⟩ :=
    .tail (.tail (.tail .refl (.connects rfl rfl)) (.enginePolls rfl)) (.serverPolls rfl)
  have after : ReflTransGen (Step false)
      (State.shutdown ⟨⟨false, [.engine, .server], []⟩, .waiting, .waiting⟩)
      ⟨⟨false, [.server], []⟩, .waiting, .ended⟩ :=
    .single (.move (.engineWoken rfl List.mem_cons_self))
  exact reaches false _ _ before (by decide) after ⟨rfl, rfl, Or.inl rfl⟩

end HyprPilot.Shutdown
