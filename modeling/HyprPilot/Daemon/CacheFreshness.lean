import HyprPilot.Base.Pool
import HyprPilot.Daemon.CacheWorld

/-!
# Clean cache entries are fresh

Any number of readers and the cache task run over one cache. Once all delivered events are applied, a
clean field was read after the last change that an event would have marked it for, as long as no
reader stores an answer that such a change has overtaken with its event applied already, and no
change marks a clean field while nobody is subscribed.
-/

namespace HyprPilot
open Interact

namespace StateCache

variable {ι : Type} [DecidableEq ι]

def readAll : List Field → Call Unit
  | [] => return ()
  | f :: rest => do
    let _ ← read f
    readAll rest

def tasks (turns : Nat) (readers : ι → List Field) : Option ι → Call Unit
  | none => run turns
  | some i => readAll (readers i)

namespace World

def Awaits (s : World ι) (f : Field) : Prop :=
  ∃ raw, (raw ∈ s.pending ∨ ∃ i, raw ∈ s.applying i) ∧ f ∈ marks (.fromRaw raw)

/-- An answer is stored before a later change can have marked the field for the last time. -/
def Timely (i : ι) : Cmd → World ι → Prop
  | .set f _, s => s.lastChange f ≤ s.readAt i f ∨ s.Awaits f
  | _, _ => True

/-- Somebody is subscribed, or the events mark only dirty fields. -/
def Heard (raws : List RawEvent) (s : World ι) : Prop :=
  s.subscribed = true ∨ ∀ f, marksAny raws f → (s.inner f).dirty = true

/-- A clean field was read after its last change, or an event that marks it is on its way. -/
def Fresh (s : World ι) : Prop :=
  ∀ f, (s.inner f).dirty = false → s.lastChange f ≤ s.stamp f ∨ s.Awaits f

def rules (hyprland : History) (heard : List RawEvent → World ι → Prop)
    (timely : ι → Cmd → World ι → Prop) : Pool.Rules Cmd Ans (World ι) ι :=
  ⟨fun i c s x t => Act hyprland heard i c s x t ∧ timely i c s, Env heard⟩

namespace Starts

variable {s : World ι}

omit [DecidableEq ι] in
theorem fresh (start : s.Starts) : s.Fresh := by
  intro f clean
  rw [start.inner] at clean
  cases clean

end Starts

/-! ### One step -/

section Steps

variable {hyprland : History} {s t : World ι}

omit [DecidableEq ι] in
theorem Fresh.changed (before : s.Fresh) {raws : List RawEvent} (heard : s.Heard raws) :
    (s.change raws).Fresh := by
  intro f clean
  by_cases marked : marksAny raws f
  · rcases heard with subscribed | dirty
    · obtain ⟨raw, member, marks⟩ := List.any_eq_true.mp marked
      refine Or.inr ⟨raw, Or.inl ?_, of_decide_eq_true marks⟩
      show raw ∈ if s.subscribed then s.pending ++ raws else s.pending
      rw [if_pos subscribed]
      exact List.mem_append_right _ member
    · have clean : (s.inner f).dirty = false := clean
      rw [dirty f marked] at clean
      cases clean
  · rcases before f clean with early | ⟨raw, here, marks⟩
    · left
      show (if marksAny raws f then s.changes + 1 else s.lastChange f) ≤ s.stamp f
      rw [if_neg marked]
      exact early
    · refine Or.inr ⟨raw, here.imp_left fun member => ?_, marks⟩
      show raw ∈ if s.subscribed then s.pending ++ raws else s.pending
      split
      · exact List.mem_append_left _ member
      · exact member

omit [DecidableEq ι] in
theorem Fresh.stored (before : s.Fresh) {i : ι} {f : Field} {v : f.Value}
    (timely : Timely i (.set f v) s) :
    Fresh { s with
      inner := Function.update s.inner f (.set s.now v)
      stamp := Function.update s.stamp f (s.readAt i f)
      since := Function.update s.since f [] } := by
  intro g clean
  by_cases same : g = f
  · subst same
    simp only [Function.update_self]
    exact timely
  · simp only [Function.update_of_ne same] at clean ⊢
    exact before g clean

theorem Fresh.taken (before : s.Fresh) {i : ι} {raw : RawEvent} {rest : List RawEvent}
    (next : s.pending = raw :: rest) (idle : s.applying i = []) :
    Fresh { s with pending := rest, applying := Function.update s.applying i [raw] } := by
  intro f clean
  rcases before f clean with early | ⟨other, here, marks⟩
  · exact Or.inl early
  · refine Or.inr ⟨other, ?_, marks⟩
    rcases here with waiting | ⟨j, taken⟩
    · rw [next] at waiting
      rcases List.mem_cons.mp waiting with rfl | later
      · exact Or.inr ⟨i, by simp⟩
      · exact Or.inl later
    · have different : j ≠ i := by
        rintro rfl
        rw [idle] at taken
        cases taken
      exact Or.inr ⟨j, by simpa [different] using taken⟩

theorem Fresh.applied (before : s.Fresh) {i : ι} {raw : RawEvent} (taken : s.applying i = [raw]) :
    Fresh { s with
      inner := applyEvent s.inner (.fromRaw raw)
      since := fun f => s.since f ++ [.fromRaw raw]
      applying := Function.update s.applying i [] } := by
  intro f clean
  have unmarked : ((s.inner f).dirty || f ∈ marks (.fromRaw raw)) = false := clean
  rw [Bool.or_eq_false_iff, decide_eq_false_iff_not] at unmarked
  rcases before f unmarked.1 with early | ⟨other, here, marks⟩
  · exact Or.inl early
  · refine Or.inr ⟨other, here.imp_right ?_, marks⟩
    rintro ⟨j, member⟩
    have different : j ≠ i := by
      rintro rfl
      rw [taken] at member
      rw [List.mem_singleton.mp member] at marks
      exact unmarked.2 marks
    exact ⟨j, by simpa [different] using member⟩

theorem Fresh.act {i : ι} {c : Cmd} {x : Ans c} (before : s.Fresh)
    (allowed : View.Allows c (s.view i)) (timely : Timely i c s)
    (act : Act hyprland Heard i c s x t) : t.Fresh := by
  cases act_moves act with
  | answered | linked => exact before
  | dispatched _ heard | slipped _ _ heard => exact before.changed heard
  | stored f v => exact before.stored timely
  | taken next => exact before.taken next allowed
  | applied ev =>
    obtain ⟨raw, taken, rfl⟩ := allowed
    exact before.applied taken

omit [DecidableEq ι] in
theorem Fresh.env (before : s.Fresh) (moved : Env Heard s t) : t.Fresh := by
  rcases moved with ⟨raws, heard, rfl⟩ | ⟨later, -, rfl⟩
  · exact before.changed heard
  · exact before

end Steps

end World

/-! ### Every run -/

theorem outlined_readAll (fields : List Field) (v : View) :
    Outlined (readAll fields) (fun _ _ => True) v := by
  induction fields generalizing v with
  | nil => trivial
  | cons f rest ih =>
    exact Prog.wp_bind.mpr (Prog.wp_mono (fun _ w _ => ih w) (outlined_read f v))

omit [DecidableEq ι] in
theorem outlined_tasks (turns : Nat) (readers : ι → List Field) {s : World (Option ι)}
    (start : s.Starts) (i : Option ι) :
    Outlined (tasks turns readers i) (fun _ _ => True) (s.view i) := by
  cases i with
  | none => exact outlined_run turns (by rw [World.view, start.applying])
  | some i => exact outlined_readAll (readers i) _

/-- In every run of any number of readers and the cache task whose stores are timely and whose changes
are heard: once all delivered events are applied, a clean field holds what Hyprland answered after the
last change that an event marks the field for. -/
theorem clean_is_fresh {hyprland : History} {turns : Nat} {readers : ι → List Field}
    {s : World (Option ι)} {Q : Pool Cmd Ans Unit (World (Option ι)) (Option ι)} {f : Field}
    (start : s.Starts)
    (reach : Pool.Reach (World.rules hyprland World.Heard World.Timely) ⟨s, tasks turns readers⟩ Q)
    (delivered : Q.shared.pending = []) (applied : ∀ i, Q.shared.applying i = [])
    (clean : (Q.shared.inner f).dirty = false) :
    Q.shared.lastChange f ≤ Q.shared.stamp f ∧ ∀ v, (Q.shared.inner f).value = some v →
      some v = traced hyprland f (Q.shared.stamp f) (Q.shared.since f) := by
  have both : Q.shared.Recorded hyprland ∧ Q.shared.Fresh := by
    refine (Pool.reach_outlined World.view View.Learns (fun _ => View.Allows)
      (fun _ _ _ => True) (fun s : World (Option ι) => s.Recorded hyprland ∧ s.Fresh)
      ?own ?other ?quiet ?act ?env ⟨start.recorded hyprland, start.fresh⟩
      (outlined_tasks turns readers start) reach).1
    case own => exact fun i c s x t _ step => (act_view step.1).1
    case other => exact fun i j c s x t different step => (act_view step.1).2 j different
    case quiet => exact fun i s t moved => env_view i moved
    case act =>
      intro i c s x t before allowed step
      exact ⟨before.1.act allowed step.1, before.2.act allowed step.2 step.1⟩
    case env => exact fun s t before moved => ⟨before.1.env moved, before.2.env moved⟩
  refine ⟨?_, fun v holds => (both.1.value f v holds).1⟩
  rcases both.2 f clean with early | ⟨raw, waiting | ⟨i, taken⟩, -⟩
  · exact early
  · rw [delivered] at waiting
    cases waiting
  · rw [applied i] at taken
    cases taken

/-! ### Two runs -/

section Runs

variable {hyprland : History} {heard : List RawEvent → World ι → Prop}
  {timely : ι → Cmd → World ι → Prop} {P : Pool Cmd Ans Unit (World ι) ι}

theorem step_get (i : ι) {f : Field} {k : Option f.Value → Call Unit}
    (next : P.progs i = .ask (.get f) k) (quiet : timely i (.get f) P.shared) :
    Pool.Step (World.rules hyprland heard timely) P
      ⟨P.shared, Function.update P.progs i (k (P.shared.inner.read P.shared.now f))⟩ :=
  .act (R := World.rules hyprland heard timely) i _ next ⟨⟨rfl, rfl⟩, quiet⟩

theorem step_query (i : ι) {q : Query} {k : CoreResult q.Reply → Call Unit}
    (next : P.progs i = .ask (.hypr (.query q)) k)
    (quiet : timely i (.hypr (.query q)) P.shared) :
    Pool.Step (World.rules hyprland heard timely) P
      ⟨{ P.shared with answered := Function.update P.shared.answered i (Function.update
          (P.shared.answered i) q (some (P.shared.changes, hyprland P.shared.changes q))) },
        Function.update P.progs i (k (.ok (hyprland P.shared.changes q)))⟩ := by
  refine .act (R := World.rules hyprland heard timely) i
    (Except.ok (hyprland P.shared.changes q)) next ⟨?_, quiet⟩
  exact ⟨rfl, rfl⟩

theorem step_refused (i : ι) {q : Query} {k : CoreResult q.Reply → Call Unit} (e : CoreError)
    (next : P.progs i = .ask (.hypr (.query q)) k)
    (quiet : timely i (.hypr (.query q)) P.shared) :
    Pool.Step (World.rules hyprland heard timely) P
      ⟨P.shared, Function.update P.progs i (k (.error e))⟩ := by
  refine .act (R := World.rules hyprland heard timely) i (Except.error e) next ⟨?_, quiet⟩
  exact rfl

theorem step_connect (i : ι) {k : CoreResult Unit → Call Unit}
    (next : P.progs i = .ask .connectEvents k) (quiet : timely i .connectEvents P.shared) :
    Pool.Step (World.rules hyprland heard timely) P
      ⟨{ P.shared with subscribed := true }, Function.update P.progs i (k (.ok ()))⟩ := by
  refine .act (R := World.rules hyprland heard timely) i (Except.ok ()) next ⟨?_, quiet⟩
  exact rfl

theorem step_next (i : ι) {k : CoreResult (Option RawEvent) → Call Unit} (raw : RawEvent)
    (rest : List RawEvent) (next : P.progs i = .ask .nextEvent k)
    (waiting : P.shared.pending = raw :: rest) (quiet : timely i .nextEvent P.shared) :
    Pool.Step (World.rules hyprland heard timely) P
      ⟨{ P.shared with
          pending := rest
          applying := Function.update P.shared.applying i [raw] },
        Function.update P.progs i (k (.ok (some raw)))⟩ := by
  refine .act (R := World.rules hyprland heard timely) i (Except.ok (some raw)) next ⟨?_, quiet⟩
  exact ⟨rest, waiting, rfl⟩

theorem step_apply (i : ι) {ev : Event} {k : Unit → Call Unit}
    (next : P.progs i = .ask (.apply ev) k) (quiet : timely i (.apply ev) P.shared) :
    Pool.Step (World.rules hyprland heard timely) P
      ⟨{ P.shared with
          inner := applyEvent P.shared.inner ev
          since := fun f => P.shared.since f ++ [ev]
          applying := Function.update P.shared.applying i [] }, Function.update P.progs i (k ())⟩ :=
  .act (R := World.rules hyprland heard timely) i () next ⟨rfl, quiet⟩

theorem step_set (i : ι) {f : Field} {v : f.Value} {k : Unit → Call Unit}
    (next : P.progs i = .ask (.set f v) k) (quiet : timely i (.set f v) P.shared) :
    Pool.Step (World.rules hyprland heard timely) P
      ⟨{ P.shared with
          inner := Function.update P.shared.inner f (.set P.shared.now v)
          stamp := Function.update P.shared.stamp f (P.shared.readAt i f)
          since := Function.update P.shared.since f [] }, Function.update P.progs i (k ())⟩ :=
  .act (R := World.rules hyprland heard timely) i () next ⟨rfl, quiet⟩

theorem step_change (raws : List RawEvent) (loud : heard raws P.shared) :
    Pool.Step (World.rules hyprland heard timely) P ⟨P.shared.change raws, P.progs⟩ :=
  .env (R := World.rules hyprland heard timely) (Or.inl ⟨raws, loud, rfl⟩)

end Runs

def opening : History := fun n q =>
  match q with
  | .version => ⟨"0.40", "c", "main"⟩
  | .clients => if n = 0 then [] else [⟨"0xa", (0, 0), (1, 1), ⟨1, "1"⟩, false, 0, "kitty", "~",
      "kitty", "kitty", 7, false, 0, [], 0⟩]
  | .workspaces | .monitors | .binds => []
  | .activeWorkspace => ⟨1, "1", "eDP-1", 0, n, false, "", ""⟩
  | .activeWindow => none
  | .cursorPos => ⟨0, 0⟩

def opened : RawEvent := ⟨"openwindow", "a,1,kitty,~"⟩

def readerOf (fields : List Field) : Pool Cmd Ans Unit (World (Option Unit)) (Option Unit) :=
  ⟨.initial, tasks 1 fun _ => fields⟩

/-- The task finds no instance to seed the cache from, then subscribes. -/
theorem reach_subscribed (heard : List RawEvent → World (Option Unit) → Prop)
    (timely : Option Unit → Cmd → World (Option Unit) → Prop) (fields : List Field)
    (quiet : ∀ c, timely none c .initial) :
    Pool.Reach (World.rules opening heard timely) (readerOf fields)
      ⟨{ World.initial with subscribed := true },
        Function.update (tasks 1 fun _ => fields) none (eventLoop 1)⟩ := by
  have run : Pool.Reach (World.rules opening heard timely) (readerOf fields) _ :=
    ((((((Relation.ReflTransGen.refl.tail (step_get none rfl (quiet _))).tail
      (step_refused none (.noInstance "") rfl (quiet _))).tail (step_get none rfl (quiet _))).tail
      (step_refused none (.noInstance "") rfl (quiet _))).tail (step_get none rfl (quiet _))).tail
      (step_refused none (.noInstance "") rfl (quiet _))).tail (step_connect none rfl (quiet _))
  simp only [Function.update_idem] at run
  exact run

/-- The reader fills the cache, a window opens, the task applies its event, and the reader asks
Hyprland again. -/
theorem clean_is_fresh_again : ∃ Q,
    Pool.Reach (World.rules opening World.Heard World.Timely) (readerOf [.clients, .clients]) Q ∧
      (Q.shared.inner .clients).dirty = false ∧ Q.shared.lastChange .clients = 1 ∧
      Q.shared.lastChange .clients ≤ Q.shared.stamp .clients := by
  have unread : ∀ c, World.Timely (none : Option Unit) c .initial := by
    intro c
    cases c with
    | set f v => exact Or.inl (Nat.le_refl 0)
    | _ => trivial
  have filled := (((reach_subscribed World.Heard World.Timely [.clients, .clients] unread).tail
    (step_get (some ()) rfl trivial)).tail (step_query (some ()) rfl trivial)).tail
    (step_set (some ()) rfl (by exact Or.inl (Nat.le_refl 0)))
  have applied := ((filled.tail (step_change [opened] (by exact Or.inl rfl))).tail
    (step_next none opened [] rfl rfl trivial)).tail (step_apply none rfl trivial)
  have run := ((applied.tail (step_get (some ()) rfl trivial)).tail
    (step_query (some ()) rfl trivial)).tail
    (step_set (some ()) rfl (by exact Or.inl (Nat.le_refl 1)))
  exact ⟨_, run, rfl, rfl, (clean_is_fresh World.initial_starts run rfl
    (by intro i; cases i <;> rfl) rfl).1⟩

/-- A window opens between a reader's query and its store, and the event is applied in between: the
store clears the dirty flag over a list without the window. -/
theorem clean_not_fresh :
    ¬ ∀ (hyprland : History) (turns : Nat) (readers : Unit → List Field) (s : World (Option Unit))
        (Q : Pool Cmd Ans Unit (World (Option Unit)) (Option Unit)) (f : Field),
      s.Starts →
      Pool.Reach (World.rules hyprland (fun _ _ => True) fun _ _ _ => True)
        ⟨s, tasks turns readers⟩ Q →
      Q.shared.pending = [] → (∀ i, Q.shared.applying i = []) →
      f ≠ .version → (Q.shared.inner f).dirty = false →
      Q.shared.lastChange f ≤ Q.shared.stamp f := by
  intro always
  have subscribed := reach_subscribed (fun _ _ => True) (fun _ _ _ => True) [.clients]
    fun _ => trivial
  have asked := (subscribed.tail (step_get (some ()) rfl trivial)).tail
    (step_query (some ()) rfl trivial)
  have applied := ((asked.tail (step_change [opened] trivial)).tail
    (step_next none opened [] rfl rfl trivial)).tail (step_apply none rfl trivial)
  have stored := applied.tail (step_set (some ()) rfl trivial)
  have early := always _ _ _ _ _ .clients World.initial_starts stored rfl (by intro i; cases i <;> rfl)
    (by decide) rfl
  exact absurd (show 1 ≤ 0 from early) (by decide)

/-- A window opens after a reader filled the cache and before the task has subscribed. -/
theorem clean_not_fresh_unheard :
    ¬ ∀ (s : World (Option Unit)) (Q : Pool Cmd Ans Unit (World (Option Unit)) (Option Unit)),
      s.Starts →
      Pool.Reach (World.rules opening (fun _ _ => True) World.Timely)
        ⟨s, tasks 1 fun _ => [.clients]⟩ Q →
      Q.shared.pending = [] → (∀ i, Q.shared.applying i = []) →
      (Q.shared.inner .clients).dirty = false →
      Q.shared.lastChange .clients ≤ Q.shared.stamp .clients := by
  intro always
  have run : Pool.Reach (World.rules opening (fun _ _ => True) World.Timely) (readerOf [.clients]) _ :=
    (((Relation.ReflTransGen.refl.tail (step_get (some ()) rfl trivial)).tail
      (step_query (some ()) rfl trivial)).tail
      (step_set (some ()) rfl (by exact Or.inl (Nat.le_refl 0)))).tail (step_change [opened] trivial)
  have early := always _ _ World.initial_starts run rfl (fun _ => rfl) rfl
  exact absurd (show 1 ≤ 0 from early) (by decide)

end StateCache

end HyprPilot
