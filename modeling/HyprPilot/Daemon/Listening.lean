import HyprPilot.Core.EventStream
import HyprPilot.Daemon.Cache
import HyprPilot.Daemon.Rules

/-!
# Two listeners on the event socket

The cache task and the rules engine each read the event socket in a loop and hand every event on.
Both loops end with the first failed read, and a line that is not UTF-8 is one.
-/

namespace HyprPilot
open Interact

/-! ### The loop of the rules engine -/

namespace Engine

inductive LoopCmd where
  | shutdown
  | connectEvents
  /-- The shutdown signal or the next event. -/
  | select
  | handle (rules : List CompiledRule) (ev : Event)

@[reducible] def LoopCmd.Ans : LoopCmd → Type
  | .shutdown => Unit
  | .connectEvents => CoreResult Unit
  | .select => Option (CoreResult (Option RawEvent))
  | .handle _ _ => Unit

abbrev Loop (α : Type) := Prog LoopCmd LoopCmd.Ans α

/-- The loop of `run`, for at most `turns` events. -/
def eventLoop (rules : List CompiledRule) : Nat → Loop (Except String Unit)
  | 0 => return .ok ()
  | turns + 1 => do
    match ← (.call LoopCmd.select : Loop (Option (CoreResult (Option RawEvent)))) with
    | none => return .ok ()
    | some (.ok (some raw)) =>
      let () ← (.call (LoopCmd.handle rules (.fromRaw raw)) : Loop Unit)
      eventLoop rules turns
    | some (.ok none) => return .ok ()
    | some (.error e) => return .error ("event socket: " ++ e.text)

def run (config : RuleConfig) (turns : Nat) : Loop (Except String Unit) :=
  match compile config with
  | .error e => return .error ("rule compile failure: " ++ e)
  | .ok [] => do
    let () ← (.call LoopCmd.shutdown : Loop Unit)
    return .ok ()
  | .ok compiled => do
    match ← (.call LoopCmd.connectEvents : Loop (CoreResult Unit)) with
    | .error e => return .error ("connect to event socket: " ++ e.text)
    | .ok () => eventLoop compiled turns

end Engine

/-! ### Listening to a stream -/

/-- What is left of the stream, where the last read began, and what was handed on so far. -/
structure Listening where
  left : List UInt8
  mark : List UInt8
  handed : List (List UInt8 × Event)

namespace Listening

def start (s : Stream) : Listening := ⟨s.bytes, [], []⟩

def read (s : Listening) : Listening :=
  { s with left := (EventStream.next s.left).2, mark := s.left }

def hand (s : Listening) (ev : Event) : Listening := { s with handed := s.handed ++ [(s.mark, ev)] }

/-- Everything that so many turns receive was handed on. -/
def Follows (turns : Nat) (s t : Listening) : Prop :=
  t.handed = s.handed ++ EventStream.received turns s.left

theorem follows_nothing {turns : Nat} {s t : Listening} (same : t.handed = s.handed)
    (nothing : EventStream.received turns s.left = []) : Follows turns s t := by
  rw [Follows, nothing, List.append_nil, same]

theorem received_nothing {turns : Nat} {s : List UInt8} {answer : CoreResult (Option RawEvent)}
    {rest : List UInt8} (next : EventStream.next s = (answer, rest))
    (other : ∀ raw, answer ≠ .ok (some raw)) : EventStream.received (turns + 1) s = [] := by
  rw [EventStream.received, next]
  split
  · rename_i raw _ equal
    exact absurd (congrArg Prod.fst equal) (other raw)
  · rfl

theorem follows_next {turns : Nat} {s t : Listening} {raw : RawEvent} {rest : List UInt8}
    (next : EventStream.next s.left = (.ok (some raw), rest))
    (later : Follows turns (s.read.hand (.fromRaw raw)) t) : Follows (turns + 1) s t := by
  have left : (s.read.hand (.fromRaw raw)).left = rest := congrArg Prod.snd next
  have handed : (s.read.hand (.fromRaw raw)).handed = s.handed ++ [(s.left, .fromRaw raw)] := rfl
  rw [Follows, left, handed] at later
  rw [Follows, later, EventStream.received, next, List.append_assoc]
  rfl

theorem heard_of_follows {s : Stream} {turns : Nat} {t : Listening} (long : s.lines.length ≤ turns)
    (follows : Follows turns (.start s) t) : s.Heard t.handed ↔ s.Clear := by
  have received : t.handed = EventStream.received turns s.bytes := follows
  rw [received]
  exact EventStream.heard_iff s long

end Listening

open Listening

namespace StateCache

/-- The socket is connected and its reads follow the stream. -/
def hears : (c : Cmd) → Listening → Ans c → Listening → Prop
  | .connectEvents, s, x, t => x = .ok () ∧ t = s
  | .nextEvent, s, x, t => x = (EventStream.next s.left).1 ∧ t = s.read
  | .apply ev, s, _, t => t = s.hand ev
  | _, s, _, t => t = s

theorem hears_some (c : Cmd) (s : Listening) : ∃ x t, hears c s x t := by
  cases c with
  | hypr c =>
    cases c with
    | query q => exact ⟨.error (.io ""), s, rfl⟩
    | dispatch d => exact ⟨.ok (), s, rfl⟩
    | nowUnix => exact ⟨(0 : Int), s, rfl⟩
  | get f => exact ⟨none, s, rfl⟩
  | set f v => exact ⟨(), s, rfl⟩
  | connectEvents => exact ⟨.ok (), s, rfl, rfl⟩
  | nextEvent => exact ⟨_, _, rfl, rfl⟩
  | apply ev => exact ⟨(), _, rfl⟩

/-- Every run of the task with enough turns hands on the well-formed lines of the stream. -/
def Attends (s : Stream) : Prop :=
  ∀ turns t, s.lines.length ≤ turns → Prog.Exec hears (run turns) (.start s) () t → s.Heard t.handed

theorem follows_eventLoop (turns : Nat) (s : Listening) :
    (eventLoop turns).wp (fun c x s t => hears c s x t) (fun _ _ => True)
      (fun _ t => Follows turns s t) s := by
  induction turns generalizing s with
  | zero => exact follows_nothing rfl rfl
  | succ turns ih =>
    refine ⟨trivial, ?_⟩
    rintro x t ⟨rfl, rfl⟩
    cases next : EventStream.next s.left with
    | mk answer rest =>
      cases answer with
      | error e => exact follows_nothing rfl (received_nothing next nofun)
      | ok answer =>
        cases answer with
        | none => exact follows_nothing rfl (received_nothing next nofun)
        | some raw =>
          refine ⟨trivial, ?_⟩
          rintro _ t rfl
          refine Prog.wp_mono ?_ (ih _)
          exact fun _ t later => follows_next next later

def Still (c : Cmd) : Prop := ∀ x s t, hears c s x t → t = s

theorem still_read (f : Field) : (read f).Asks Still := by
  have fetches : (hypr f.fetch).Asks Still :=
    Prog.asks_relabel (Prog.Asks.of_all (fun c => (fun _ _ _ same => same : Still (.hypr c))) f.fetch)
  refine ⟨fun _ _ _ same => same, fun x => ?_⟩
  cases x with
  | some v => trivial
  | none =>
    show Prog.Asks Still (hypr f.fetch >>= _)
    refine Prog.Asks.bind fetches fun answer => ?_
    cases answer with
    | ok v => exact ⟨fun _ _ _ same => same, fun _ => trivial⟩
    | error e => trivial

theorem still_seed : seed.Asks Still :=
  (still_read .clients).bind fun _ => (still_read .workspaces).bind fun _ =>
    (still_read .monitors).bind fun _ => trivial

theorem follows_run (turns : Nat) (s : Listening) :
    (run turns).wp (fun c x s t => hears c s x t) (fun _ _ => True)
      (fun _ t => Follows turns s t) s := by
  refine Prog.wp_bind.mpr (Prog.wp_mono ?_ (still_seed.wp_still (fun c x s t still => still x s t) s))
  rintro _ t rfl
  refine ⟨trivial, ?_⟩
  rintro x u ⟨rfl, rfl⟩
  exact follows_eventLoop turns u

theorem attends_iff (s : Stream) : Attends s ↔ s.Clear := by
  have hearing {turns : Nat} {t : Listening} (run : Prog.Exec hears (run turns) (.start s) () t) :
      Follows turns (.start s) t := by
    have finished := Prog.exec_wp (follows_run turns (.start s)) run
    exact finished
  constructor
  · intro attends
    obtain ⟨_, t, run⟩ := Prog.exec_exists hears_some (run s.lines.length) (.start s)
    exact (heard_of_follows le_rfl (hearing run)).mp (attends _ t le_rfl run)
  · intro clear turns t long run
    exact (heard_of_follows long (hearing run)).mpr clear

end StateCache

namespace Engine

/-- No shutdown is signalled while the engine listens. -/
def hears : (c : LoopCmd) → Listening → c.Ans → Listening → Prop
  | .shutdown, s, _, t => t = s
  | .connectEvents, s, x, t => x = .ok () ∧ t = s
  | .select, s, x, t => x = some (EventStream.next s.left).1 ∧ t = s.read
  | .handle _ ev, s, _, t => t = s.hand ev

theorem hears_some (c : LoopCmd) (s : Listening) : ∃ x t, hears c s x t := by
  cases c with
  | shutdown => exact ⟨(), s, rfl⟩
  | connectEvents => exact ⟨.ok (), s, rfl, rfl⟩
  | select => exact ⟨_, _, rfl, rfl⟩
  | handle rules ev => exact ⟨(), _, rfl⟩

def Attends (config : RuleConfig) (s : Stream) : Prop :=
  ∀ turns result t, s.lines.length ≤ turns → Prog.Exec hears (run config turns) (.start s) result t →
    s.Heard t.handed

theorem follows_eventLoop (rules : List CompiledRule) (turns : Nat) (s : Listening) :
    (eventLoop rules turns).wp (fun c x s t => hears c s x t) (fun _ _ => True)
      (fun _ t => Follows turns s t) s := by
  induction turns generalizing s with
  | zero => exact follows_nothing rfl rfl
  | succ turns ih =>
    refine ⟨trivial, ?_⟩
    rintro x t ⟨rfl, rfl⟩
    cases next : EventStream.next s.left with
    | mk answer rest =>
      cases answer with
      | error e => exact follows_nothing rfl (received_nothing next nofun)
      | ok answer =>
        cases answer with
        | none => exact follows_nothing rfl (received_nothing next nofun)
        | some raw =>
          refine ⟨trivial, ?_⟩
          rintro _ t rfl
          refine Prog.wp_mono ?_ (ih _)
          exact fun _ t later => follows_next next later

/-- The run of a configuration with rules is the loop on the connected socket. -/
theorem run_eq {config : RuleConfig} {compiled : List CompiledRule}
    (loaded : compile config = .ok compiled) (ruled : compiled ≠ []) (turns : Nat) :
    run config turns = .ask .connectEvents fun connected =>
      match connected with
      | .error e => .ret (.error ("connect to event socket: " ++ e.text))
      | .ok () => eventLoop compiled turns := by
  unfold run
  rw [loaded]
  cases compiled with
  | nil => exact absurd rfl ruled
  | cons rule rules => rfl

theorem attends_iff {config : RuleConfig} {compiled : List CompiledRule}
    (loaded : compile config = .ok compiled) (ruled : compiled ≠ []) (s : Stream) :
    Attends config s ↔ s.Clear := by
  have hearing {turns : Nat} {result : Except String Unit} {t : Listening}
      (run : Prog.Exec hears (run config turns) (.start s) result t) : Follows turns (.start s) t := by
    rw [run_eq loaded ruled] at run
    obtain ⟨x, u, ⟨rfl, rfl⟩, run⟩ := Prog.exec_ask.mp run
    have finished := Prog.exec_wp (follows_eventLoop compiled turns (.start s)) run
    exact finished
  constructor
  · intro attends
    obtain ⟨result, t, run⟩ := Prog.exec_exists hears_some (run config s.lines.length) (.start s)
    exact (heard_of_follows le_rfl (hearing run)).mp (attends _ result t le_rfl run)
  · intro clear turns result t long run
    exact (heard_of_follows long (hearing run)).mpr clear

end Engine

/-- The cache task and a rules engine with rules hear all well-formed lines of a stream exactly when
no line that is not UTF-8 comes before a well-formed one. -/
theorem listeners_attend_iff (s : Stream) :
    (StateCache.Attends s ↔ s.Clear) ∧
      ∀ config compiled, Engine.compile config = .ok compiled → compiled ≠ [] →
        (Engine.Attends config s ↔ s.Clear) :=
  ⟨StateCache.attends_iff s, fun _ _ loaded ruled => Engine.attends_iff loaded ruled s⟩

/-! ### A title that is not UTF-8 -/

/-- `windowtitlev2>>a1,` and a title in Latin-1. -/
def latin : List UInt8 :=
  [119, 105, 110, 100, 111, 119, 116, 105, 116, 108, 101, 118, 50, 62, 62, 97, 49, 44, 0xE9, 10]

/-- `workspace>>2` -/
def switched : List UInt8 := [119, 111, 114, 107, 115, 112, 97, 99, 101, 62, 62, 50, 10]

def latinStream : Stream where
  lines := [latin, switched]
  tail := []
  whole := by
    have first : Lines.IsLine EventStream.isEnd latin :=
      ⟨latin.dropLast, 10, rfl, rfl, by simp [latin, EventStream.isEnd]⟩
    have second : Lines.IsLine EventStream.isEnd switched :=
      ⟨switched.dropLast, 10, rfl, rfl, by simp [switched, EventStream.isEnd]⟩
    simp [first, second]
  unended := by simp

theorem latin_not_clear : ¬latinStream.Clear := by
  have invalid : Text.fromUtf8 latin = none := by decide
  have formed : EventStream.wellFormed switched = some ⟨"workspace", "2"⟩ := by decide
  intro clear
  have valid := clear 0 1 latin switched Nat.zero_lt_one rfl rfl (by rw [formed]; rfl)
  rw [invalid] at valid
  cases valid

def pinConfig : RuleConfig := ⟨[⟨none, "workspace", [], ["pin"]⟩]⟩

/-- After the title the workspace event is heard by neither of the two. -/
theorem latin_silences :
    ¬StateCache.Attends latinStream ∧ ¬Engine.Attends pinConfig latinStream := by
  have loaded : Engine.compile pinConfig =
      .ok [⟨"rule[0] on=workspace", "workspace", [], [.pinActive]⟩] := by rfl
  constructor
  · rw [StateCache.attends_iff]
    exact latin_not_clear
  · rw [Engine.attends_iff loaded (List.cons_ne_nil _ _)]
    exact latin_not_clear

end HyprPilot
