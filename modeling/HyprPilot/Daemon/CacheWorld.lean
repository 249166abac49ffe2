import HyprPilot.Daemon.Cache
import Mathlib.Logic.Function.Basic

/-!
# The cache among its readers

The cache with Hyprland behind it. Hyprland's states are numbered by the changes so far; each change
emits events, which a subscriber receives later. The world keeps for every field at which change its
value was read and which events were applied since.
-/

namespace HyprPilot
open Interact

namespace StateCache

def Field.query : Field → Query
  | .clients => .clients
  | .workspaces => .workspaces
  | .monitors => .monitors
  | .activeWorkspace => .activeWorkspace
  | .binds => .binds
  | .version => .version

def Field.ofReply : (f : Field) → f.query.Reply → f.Value
  | .clients, v => v
  | .workspaces, v => v
  | .monitors, v => v
  | .activeWorkspace, v => v
  | .binds, v => v.map fun b => { b with mods := Bind.decodeMods b.modmask }
  | .version, v => v

/-- Hyprland's answers after each number of changes. -/
abbrev History := Nat → (q : Query) → q.Reply

structure World (ι : Type) where
  now : Instant
  inner : Inner
  changes : Nat
  /-- The latest change with an event that marks the field. -/
  lastChange : Field → Nat
  /-- The change after which the cached value was read. -/
  stamp : Field → Nat
  /-- The events applied since the value was stored. -/
  since : Field → List Event
  answered : ι → (q : Query) → Option (Nat × q.Reply)
  /-- The change made by the latest accepted dispatch of each name. -/
  acted : ι → Nat
  subscribed : Bool
  /-- Delivered to the subscriber and not yet read. -/
  pending : List RawEvent
  /-- Read and not yet applied. -/
  applying : ι → List RawEvent

variable {ι : Type} [DecidableEq ι]

def marksAny (raws : List RawEvent) (f : Field) : Bool := raws.any fun raw => f ∈ marks (.fromRaw raw)

namespace World

def change (raws : List RawEvent) (s : World ι) : World ι :=
  { s with
    changes := s.changes + 1
    lastChange := fun f => if marksAny raws f then s.changes + 1 else s.lastChange f
    pending := if s.subscribed then s.pending ++ raws else s.pending }

/-- The change after which `i` last read the field. -/
def readAt (s : World ι) (i : ι) (f : Field) : Nat := ((s.answered i f.query).map (·.1)).getD 0

/-- One command of `i`. Changes may emit what `heard` admits. -/
def Act (hyprland : History) (heard : List RawEvent → World ι → Prop) (i : ι) :
    (c : Cmd) → World ι → Ans c → World ι → Prop
  | .hypr (.query q), s, x, t =>
    match x with
    | .ok reply => reply = hyprland s.changes q ∧
        t = { s with
          answered := Function.update s.answered i
            (Function.update (s.answered i) q (some (s.changes, reply))) }
    | .error _ => t = s
  | .hypr (.dispatch _), s, x, t =>
    match x with
    | .ok () => ∃ raws, heard raws s ∧
        t = { s.change raws with acted := Function.update s.acted i (s.changes + 1) }
    | .error _ => t = s ∨ ∃ raws, heard raws s ∧ t = s.change raws
  | .hypr .nowUnix, s, _, t => t = s
  | .get f, s, x, t => x = s.inner.read s.now f ∧ t = s
  | .set f v, s, _, t =>
    t = { s with
      inner := Function.update s.inner f (.set s.now v)
      stamp := Function.update s.stamp f (s.readAt i f)
      since := Function.update s.since f [] }
  | .connectEvents, s, x, t =>
    match x with
    | .ok () => t = { s with subscribed := true }
    | .error _ => t = s
  | .nextEvent, s, x, t =>
    match x with
    | .ok (some raw) => ∃ rest, s.pending = raw :: rest ∧
        t = { s with pending := rest, applying := Function.update s.applying i [raw] }
    | .ok none => s.pending = [] ∧ t = { s with subscribed := false }
    | .error _ => t = { s with subscribed := false }
  | .apply ev, s, _, t =>
    t = { s with
      inner := applyEvent s.inner ev
      since := fun f => s.since f ++ [ev]
      applying := Function.update s.applying i [] }

def Env (heard : List RawEvent → World ι → Prop) (s t : World ι) : Prop :=
  (∃ raws, heard raws s ∧ t = s.change raws) ∨ ∃ later, s.now ≤ later ∧ t = { s with now := later }

end World

/-! ### What one name knows -/

structure View where
  answered : (q : Query) → Option (Nat × q.Reply)
  applying : List RawEvent

def World.view (i : ι) (s : World ι) : View := ⟨s.answered i, s.applying i⟩

def View.Learns : (c : Cmd) → Ans c → View → View → Prop
  | .hypr (.query q), x, v, w =>
    (∀ reply, x = .ok reply → ∃ n, w.answered q = some (n, reply)) ∧ w.applying = v.applying
  | .nextEvent, x, _, w => ∀ raw, x = .ok (some raw) → w.applying = [raw]
  | .apply _, _, _, w => w.applying = []
  | _, _, v, w => w = v

/-- A reader stores what it was answered; the task applies each event that it read. -/
def View.Allows : Cmd → View → Prop
  | .set f v, w => ∃ n reply, w.answered f.query = some (n, reply) ∧ v = f.ofReply reply
  | .nextEvent, w => w.applying = []
  | .apply ev, w => ∃ raw, w.applying = [raw] ∧ ev = .fromRaw raw
  | _, _ => True

section Steps

variable {hyprland : History} {heard : List RawEvent → World ι → Prop} {i : ι} {c : Cmd}
  {s t : World ι} {x : Ans c}

/-- What a command can do. Each one that teaches `i` nothing leaves all but the subscription. -/
inductive World.Moves (hyprland : History) (heard : List RawEvent → World ι → Prop) (i : ι)
    (s : World ι) : (c : Cmd) → Ans c → World ι → Prop where
  | answered (q : Query) :
      Moves hyprland heard i s (.hypr (.query q)) (.ok (hyprland s.changes q))
        { s with
          answered := Function.update s.answered i
            (Function.update (s.answered i) q (some (s.changes, hyprland s.changes q))) }
  | dispatched (d : Dispatcher) {raws : List RawEvent} : heard raws s →
      Moves hyprland heard i s (.hypr (.dispatch d)) (.ok ())
        { s.change raws with acted := Function.update s.acted i (s.changes + 1) }
  | slipped (d : Dispatcher) (e : CoreError) {raws : List RawEvent} : heard raws s →
      Moves hyprland heard i s (.hypr (.dispatch d)) (.error e) (s.change raws)
  | stored (f : Field) (v : f.Value) :
      Moves hyprland heard i s (.set f v) ()
        { s with
          inner := Function.update s.inner f (.set s.now v)
          stamp := Function.update s.stamp f (s.readAt i f)
          since := Function.update s.since f [] }
  | taken {raw : RawEvent} {rest : List RawEvent} : s.pending = raw :: rest →
      Moves hyprland heard i s .nextEvent (.ok (some raw))
        { s with pending := rest, applying := Function.update s.applying i [raw] }
  | applied (ev : Event) :
      Moves hyprland heard i s (.apply ev) ()
        { s with
          inner := applyEvent s.inner ev
          since := fun f => s.since f ++ [ev]
          applying := Function.update s.applying i [] }
  | linked {c : Cmd} {x : Ans c} (subscribed : Bool) : (∀ v, View.Learns c x v v) →
      Moves hyprland heard i s c x { s with subscribed := subscribed }

theorem act_moves (act : World.Act hyprland heard i c s x t) :
    World.Moves hyprland heard i s c x t := by
  cases c with
  | hypr c =>
    cases c with
    | query q =>
      cases x with
      | ok reply =>
        obtain ⟨rfl, rfl⟩ := act
        exact .answered q
      | error e =>
        obtain rfl : t = s := act
        exact .linked t.subscribed fun _ => ⟨fun _ read => (nomatch read), rfl⟩
    | dispatch d =>
      cases x with
      | ok _ =>
        obtain ⟨raws, admitted, rfl⟩ := act
        exact .dispatched d admitted
      | error e =>
        rcases act with rfl | ⟨raws, admitted, rfl⟩
        · exact .linked t.subscribed fun _ => rfl
        · exact .slipped d e admitted
    | nowUnix =>
      obtain rfl : t = s := act
      exact .linked t.subscribed fun _ => rfl
  | get f =>
    obtain ⟨-, rfl⟩ := act
    exact .linked t.subscribed fun _ => rfl
  | set f v =>
    obtain rfl : t = _ := act
    exact .stored f v
  | connectEvents =>
    cases x with
    | ok _ =>
      obtain rfl : t = _ := act
      exact .linked true fun _ => rfl
    | error e =>
      obtain rfl : t = s := act
      exact .linked t.subscribed fun _ => rfl
  | nextEvent =>
    cases x with
    | ok raw =>
      cases raw with
      | some raw =>
        obtain ⟨rest, next, rfl⟩ := act
        exact .taken next
      | none =>
        obtain ⟨-, rfl⟩ := act
        exact .linked false fun _ _ read => (nomatch read)
    | error e =>
      obtain rfl : t = _ := act
      exact .linked false fun _ _ read => (nomatch read)
  | apply ev =>
    obtain rfl : t = _ := act
    exact .applied ev

theorem act_view (act : World.Act hyprland heard i c s x t) :
    View.Learns c x (s.view i) (t.view i) ∧ ∀ j, j ≠ i → t.view j = s.view j := by
  cases act_moves act with
  | answered q =>
    refine ⟨⟨fun reply read => ⟨s.changes, ?_⟩, rfl⟩, fun j different => ?_⟩
    · cases read
      simp [World.view]
    · simp [World.view, different]
  | dispatched | slipped | stored => exact ⟨rfl, fun _ _ => rfl⟩
  | taken next =>
    refine ⟨fun same read => ?_, fun j different => by simp [World.view, different]⟩
    cases read
    simp [World.view]
  | applied ev =>
    exact ⟨by simp [View.Learns, World.view], fun j different => by simp [World.view, different]⟩
  | linked subscribed quiet => exact ⟨quiet _, fun _ _ => rfl⟩

omit [DecidableEq ι] in
theorem env_view (i : ι) (moved : World.Env heard s t) : t.view i = s.view i := by
  rcases moved with ⟨raws, -, rfl⟩ | ⟨later, -, rfl⟩ <;> rfl

end Steps

/-! ### Values and where they were read -/

/-- The value that a field had in Hyprland after `n` changes, patched by the applied events. -/
def traced (hyprland : History) (f : Field) (n : Nat) (applied : List Event) : Option f.Value :=
  applied.foldl (fun v ev => patchValue ev f v) (some (f.ofReply (hyprland n f.query)))

/-- Every cached value was read from Hyprland at its stamp, and a clean one has seen no event that
marks it since. -/
structure World.Recorded (hyprland : History) (s : World ι) : Prop where
  answered : ∀ i q n reply, s.answered i q = some (n, reply) → reply = hyprland n q ∧ n ≤ s.changes
  value : ∀ f v, (s.inner f).value = some v →
    some v = traced hyprland f (s.stamp f) (s.since f) ∧ s.stamp f ≤ s.changes
  clean : ∀ f, (s.inner f).dirty = false → ∀ ev ∈ s.since f, f ∉ marks ev

def World.initial : World ι :=
  ⟨0, .initial, 0, fun _ => 0, fun _ => 0, fun _ => [], fun _ _ => none, fun _ => 0, false, [],
    fun _ => []⟩

structure World.Starts (s : World ι) : Prop where
  inner : s.inner = .initial
  answered : s.answered = fun _ _ => none
  subscribed : s.subscribed = false
  pending : s.pending = []
  applying : s.applying = fun _ => []
  since : s.since = fun _ => []
  acted : s.acted = fun _ => 0

omit [DecidableEq ι] in
theorem World.initial_starts : (World.initial : World ι).Starts :=
  ⟨rfl, rfl, rfl, rfl, rfl, rfl, rfl⟩

omit [DecidableEq ι] in
theorem World.Starts.recorded {s : World ι} (start : s.Starts) (hyprland : History) : s.Recorded hyprland := by
  refine ⟨fun i q n reply read => ?_, fun f v holds => ?_, fun f clean => ?_⟩
  · rw [start.answered] at read
    cases read
  · rw [start.inner] at holds
    cases holds
  · rw [start.inner] at clean
    cases clean

namespace World.Recorded

variable {hyprland : History} {heard : List RawEvent → World ι → Prop} {s t : World ι}

omit [DecidableEq ι] in
theorem changed (before : s.Recorded hyprland) (raws : List RawEvent) :
    (s.change raws).Recorded hyprland := by
  refine ⟨fun i q n reply read => ?_, fun f v holds => ?_, before.clean⟩
  · obtain ⟨same, early⟩ := before.answered i q n reply read
    exact ⟨same, Nat.le_succ_of_le early⟩
  · obtain ⟨same, early⟩ := before.value f v holds
    exact ⟨same, Nat.le_succ_of_le early⟩

omit [DecidableEq ι] in
theorem stored (before : s.Recorded hyprland) {i : ι} {f : Field} {v : f.Value}
    (allowed : View.Allows (.set f v) (s.view i)) :
    World.Recorded hyprland { s with
      inner := Function.update s.inner f (.set s.now v)
      stamp := Function.update s.stamp f (s.readAt i f)
      since := Function.update s.since f [] } := by
  obtain ⟨n, reply, read, rfl⟩ := allowed
  have read : s.answered i f.query = some (n, reply) := read
  obtain ⟨rfl, early⟩ := before.answered i f.query n reply read
  have stamp : s.readAt i f = n := by rw [World.readAt, read]; rfl
  refine ⟨before.answered, fun g v holds => ?_, fun g clean => ?_⟩
  · by_cases same : g = f
    · subst same
      simp only [Function.update_self, Cached.set, Option.some.injEq] at holds ⊢
      subst holds
      rw [stamp]
      exact ⟨rfl, early⟩
    · simp only [Function.update_of_ne same] at holds ⊢
      exact before.value g v holds
  · by_cases same : g = f
    · subst same
      simp
    · simp only [Function.update_of_ne same] at clean ⊢
      exact before.clean g clean

omit [DecidableEq ι] in
theorem applied (before : s.Recorded hyprland) (ev : Event) (applying : ι → List RawEvent) :
    World.Recorded hyprland { s with
      inner := applyEvent s.inner ev
      since := fun f => s.since f ++ [ev]
      applying := applying } := by
  refine ⟨before.answered, fun f v holds => ?_, fun f clean e member => ?_⟩
  · obtain ⟨old, value, patched⟩ : ∃ old, (s.inner f).value = some old ∧
        patchValue ev f (some old) = some v := by
      have holds : patchValue ev f (s.inner f).value = some v := holds
      cases value : (s.inner f).value with
      | some old => exact ⟨old, rfl, by rw [← value]; exact holds⟩
      | none =>
        rw [value] at holds
        cases f <;> cases holds
    obtain ⟨same, early⟩ := before.value f old value
    refine ⟨?_, early⟩
    show some v = traced hyprland f (s.stamp f) (s.since f ++ [ev])
    rw [traced, List.foldl_append]
    show some v = patchValue ev f (traced hyprland f (s.stamp f) (s.since f))
    rw [← same, patched]
  · have clean : ((s.inner f).dirty || f ∈ marks ev) = false := clean
    rw [Bool.or_eq_false_iff, decide_eq_false_iff_not] at clean
    rcases List.mem_append.mp member with old | last
    · exact before.clean f clean.1 e old
    · rw [List.mem_singleton.mp last]
      exact clean.2

theorem act {i : ι} {c : Cmd} {x : Ans c} (before : s.Recorded hyprland)
    (allowed : View.Allows c (s.view i)) (act : World.Act hyprland heard i c s x t) :
    t.Recorded hyprland := by
  cases act_moves act with
  | answered q =>
    refine ⟨fun j p n r read => ?_, before.value, before.clean⟩
    by_cases own : j = i
    · subst own
      by_cases asked : p = q
      · subst asked
        simp only [Function.update_self, Option.some.injEq, Prod.mk.injEq] at read
        obtain ⟨rfl, rfl⟩ := read
        exact ⟨rfl, Nat.le_refl _⟩
      · simp only [Function.update_self, Function.update_of_ne asked] at read
        exact before.answered j p n r read
    · simp only [Function.update_of_ne own] at read
      exact before.answered j p n r read
  | @dispatched _ raws _ =>
    have changed := before.changed raws
    exact ⟨changed.answered, changed.value, changed.clean⟩
  | @slipped _ _ raws _ => exact before.changed raws
  | stored f v => exact before.stored allowed
  | taken | linked => exact ⟨before.answered, before.value, before.clean⟩
  | applied ev => exact before.applied ev _

omit [DecidableEq ι] in
theorem env (before : s.Recorded hyprland) (moved : World.Env heard s t) : t.Recorded hyprland := by
  rcases moved with ⟨raws, -, rfl⟩ | ⟨later, -, rfl⟩
  · exact before.changed raws
  · exact ⟨before.answered, before.value, before.clean⟩

end World.Recorded

/-! ### The programs of the cache -/

abbrev Outlined {α : Type} (p : Call α) (post : α → View → Prop) (v : View) : Prop :=
  p.wp View.Learns View.Allows post v

theorem outlined_fetch (f : Field) (v : View) :
    Outlined (hypr f.fetch) (fun result w => w.applying = v.applying ∧ ∀ value, result = .ok value →
      ∃ n reply, w.answered f.query = some (n, reply) ∧ value = f.ofReply reply) v := by
  cases f with
  | binds =>
    refine ⟨trivial, fun x w learned => ?_⟩
    cases x with
    | ok reply =>
      obtain ⟨n, read⟩ := learned.1 reply rfl
      refine ⟨learned.2, fun value same => ⟨n, reply, read, ?_⟩⟩
      cases same
      rfl
    | error e => exact ⟨learned.2, fun value same => (nomatch same)⟩
  | _ =>
    refine ⟨trivial, fun x w learned => ⟨learned.2, fun value same => ?_⟩⟩
    obtain ⟨n, read⟩ := learned.1 value same
    exact ⟨n, value, read, rfl⟩

theorem outlined_read (f : Field) (v : View) :
    Outlined (read f) (fun _ w => w.applying = v.applying) v := by
  refine Prog.wp_bind.mpr ⟨trivial, fun cached w same => ?_⟩
  obtain rfl : w = v := same
  cases cached with
  | some value => rfl
  | none =>
    refine Prog.wp_bind.mpr (Prog.wp_mono ?_ (outlined_fetch f w))
    rintro result u ⟨quiet, stores⟩
    cases result with
    | ok value =>
      refine ⟨stores value rfl, fun _ t same => ?_⟩
      obtain rfl : t = u := same
      exact quiet
    | error e => exact quiet

theorem outlined_seed (v : View) : Outlined seed (fun _ w => w.applying = v.applying) v := by
  refine Prog.wp_bind.mpr (Prog.wp_mono ?_ (outlined_read .clients v))
  intro _ w first
  refine Prog.wp_bind.mpr (Prog.wp_mono ?_ (outlined_read .workspaces w))
  intro _ u second
  refine Prog.wp_bind.mpr (Prog.wp_mono ?_ (outlined_read .monitors u))
  intro _ t third
  exact (third.trans second).trans first

theorem outlined_eventLoop (turns : Nat) {v : View} (idle : v.applying = []) :
    Outlined (eventLoop turns) (fun _ _ => True) v := by
  induction turns generalizing v with
  | zero => trivial
  | succ turns ih =>
    refine ⟨idle, fun x w learned => ?_⟩
    cases x with
    | ok next =>
      cases next with
      | none => trivial
      | some raw => exact ⟨⟨raw, learned raw rfl, rfl⟩, fun _ u applied => ih applied⟩
    | error e => trivial

theorem outlined_run (turns : Nat) {v : View} (idle : v.applying = []) :
    Outlined (run turns) (fun _ _ => True) v := by
  refine Prog.wp_bind.mpr (Prog.wp_mono ?_ (outlined_seed v))
  intro _ w quiet
  refine ⟨trivial, fun x u same => ?_⟩
  obtain rfl : u = w := same
  cases x with
  | ok _ => exact outlined_eventLoop turns (quiet.trans idle)
  | error e => trivial

end StateCache

end HyprPilot
