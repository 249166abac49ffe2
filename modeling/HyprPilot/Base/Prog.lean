import Mathlib.Logic.Basic
import Mathlib.Tactic.Common

/-!
# Interactive programs

A program is a tree of questions put to an environment: `ret` ends it, `ask` sends a command and
continues on the answer. Every loop of a program is bounded by its data, so the tree is finite and
each property below is proved by induction on it.

`Run` lists the questions and answers of one complete run, `Exec` threads a state through it, and
`wp` is the weakest precondition of a postcondition and of a requirement on every question.
-/

namespace Interact

inductive Prog (C : Type) (A : C → Type) (α : Type) : Type where
  | ret (a : α)
  | ask (c : C) (k : A c → Prog C A α)

variable {C : Type} {A : C → Type} {α β γ σ : Type}

namespace Prog

def bind : Prog C A α → (α → Prog C A β) → Prog C A β
  | .ret a, f => f a
  | .ask c k, f => .ask c fun x => (k x).bind f

def call (c : C) : Prog C A (A c) := .ask c .ret

instance : Monad (Prog C A) where
  pure := .ret
  bind := .bind

@[simp] theorem pure_eq (a : α) : (pure a : Prog C A α) = .ret a := rfl

@[simp] theorem ret_bind (a : α) (f : α → Prog C A β) : (.ret a : Prog C A α) >>= f = f a := rfl

@[simp] theorem ask_bind (c : C) (k : A c → Prog C A α) (f : α → Prog C A β) :
    (.ask c k : Prog C A α) >>= f = .ask c fun x => k x >>= f := rfl

@[simp] theorem call_bind (c : C) (f : A c → Prog C A β) :
    (call c : Prog C A (A c)) >>= f = .ask c f := rfl

theorem bind_assoc (p : Prog C A α) (f : α → Prog C A β) (g : β → Prog C A γ) :
    (p >>= f) >>= g = p >>= fun a => f a >>= g := by
  induction p with
  | ret a => rfl
  | ask c k ih => simp only [ask_bind, ih]

/-- Rust's `?`: go on with a value, stop with an error. -/
def andThen {ε : Type} (p : Prog C A (Except ε α)) (f : α → Prog C A (Except ε β)) :
    Prog C A (Except ε β) :=
  p >>= fun
    | .ok a => f a
    | .error e => .ret (.error e)

/-- A program put to a larger environment: each of its commands is one of that environment's. -/
def relabel {C' : Type} {A' : C' → Type} (e : C → C') (back : ∀ c, A' (e c) → A c) :
    Prog C A α → Prog C' A' α
  | .ret a => .ret a
  | .ask c k => .ask (e c) fun x => (k (back c x)).relabel e back

section Relabel

variable {C' : Type} {A' : C' → Type} {e : C → C'} {back : ∀ c, A' (e c) → A c}

@[simp] theorem relabel_ret (a : α) :
    (.ret a : Prog C A α).relabel e back = .ret a := rfl

@[simp] theorem relabel_ask (c : C) (k : A c → Prog C A α) :
    (.ask c k : Prog C A α).relabel e back =
      .ask (e c) fun x => (k (back c x)).relabel e back := rfl

theorem relabel_bind (p : Prog C A α) (f : α → Prog C A β) :
    (p >>= f).relabel e back = p.relabel e back >>= fun a => (f a).relabel e back := by
  induction p with
  | ret a => rfl
  | ask c k ih => simp only [ask_bind, relabel_ask, ih]

end Relabel

/-- One run to completion: the answered questions in order, and the result. -/
inductive Run : Prog C A α → List (Sigma A) → α → Prop where
  | ret (a : α) : Run (.ret a) [] a
  | ask {c : C} {k : A c → Prog C A α} {tr : List (Sigma A)} {a : α} (x : A c) :
      Run (k x) tr a → Run (.ask c k) (⟨c, x⟩ :: tr) a

@[simp] theorem run_ret {a b : α} {tr : List (Sigma A)} :
    Run (.ret a : Prog C A α) tr b ↔ tr = [] ∧ b = a := by
  constructor
  · rintro ⟨⟩
    exact ⟨rfl, rfl⟩
  · rintro ⟨rfl, rfl⟩
    exact .ret _

@[simp] theorem run_ask {c : C} {k : A c → Prog C A α} {tr : List (Sigma A)} {b : α} :
    Run (.ask c k) tr b ↔ ∃ x rest, tr = ⟨c, x⟩ :: rest ∧ Run (k x) rest b := by
  constructor
  · rintro ⟨⟩
    exact ⟨_, _, rfl, ‹_›⟩
  · rintro ⟨x, rest, rfl, h⟩
    exact .ask x h

/-- The answers decide the result. -/
theorem Run.unique {p : Prog C A α} {tr : List (Sigma A)} {a b : α} (first : Run p tr a)
    (second : Run p tr b) : a = b := by
  induction first with
  | ret a => exact (run_ret.mp second).2.symm
  | ask x _ ih =>
    obtain ⟨y, rest, same, later⟩ := run_ask.mp second
    cases same
    exact ih later

theorem run_call (c : C) (x : A c) : Run (call c : Prog C A (A c)) [⟨c, x⟩] x := .ask x (.ret x)

theorem run_bind {p : Prog C A α} {f : α → Prog C A β} {tr : List (Sigma A)} {b : β} :
    Run (p >>= f) tr b ↔
      ∃ first last a, tr = first ++ last ∧ Run p first a ∧ Run (f a) last b := by
  induction p generalizing tr with
  | ret a =>
    constructor
    · exact fun run => ⟨[], tr, a, rfl, .ret a, run⟩
    · rintro ⟨first, last, c, rfl, begun, run⟩
      obtain ⟨rfl, rfl⟩ := run_ret.mp begun
      exact run
  | ask c k ih =>
    simp only [ask_bind, run_ask, ih]
    constructor
    · rintro ⟨x, _, rfl, first, last, a, rfl, begun, run⟩
      exact ⟨_, last, a, rfl, ⟨x, first, rfl, begun⟩, run⟩
    · rintro ⟨_, last, a, rfl, ⟨x, first, rfl, begun⟩, run⟩
      exact ⟨x, _, rfl, first, last, a, rfl, begun, run⟩

/-- The answered questions of a run that may have stopped before its end. -/
inductive Begun : Prog C A α → List (Sigma A) → Prop where
  | stopped (p : Prog C A α) : Begun p []
  | ask {c : C} {k : A c → Prog C A α} {tr : List (Sigma A)} (x : A c) :
      Begun (k x) tr → Begun (.ask c k) (⟨c, x⟩ :: tr)

@[simp] theorem begun_ret {a : α} {tr : List (Sigma A)} :
    Begun (.ret a : Prog C A α) tr ↔ tr = [] := by
  constructor
  · rintro ⟨⟩
    rfl
  · rintro rfl
    exact .stopped _

theorem begun_ask {c : C} {k : A c → Prog C A α} {tr : List (Sigma A)} :
    Begun (.ask c k) tr ↔ tr = [] ∨ ∃ x rest, tr = ⟨c, x⟩ :: rest ∧ Begun (k x) rest := by
  constructor
  · intro begun
    cases begun with
    | stopped => exact Or.inl rfl
    | ask x later => exact Or.inr ⟨x, _, rfl, later⟩
  · rintro (rfl | ⟨x, rest, rfl, later⟩)
    · exact .stopped _
    · exact .ask x later

theorem Run.begun {p : Prog C A α} {tr : List (Sigma A)} {a : α} (run : Run p tr a) : Begun p tr := by
  induction run with
  | ret a => exact .stopped _
  | ask x _ ih => exact .ask x ih

theorem Begun.bind {p : Prog C A α} {f : α → Prog C A β} {tr : List (Sigma A)} (begun : Begun p tr) :
    Begun (p >>= f) tr := by
  induction begun with
  | stopped p => exact .stopped _
  | ask x _ ih => exact .ask x ih

/-- A continuation that only returns adds nothing to a run. -/
theorem begun_bind_ret {p : Prog C A α} {f : α → Prog C A β} {tr : List (Sigma A)}
    (returns : ∀ a, ∃ b, f a = .ret b) (begun : Begun (p >>= f) tr) : Begun p tr := by
  induction p generalizing tr with
  | ret a =>
    obtain ⟨b, same⟩ := returns a
    rw [ret_bind, same, begun_ret] at begun
    exact begun_ret.mpr begun
  | ask c k ih =>
    rw [ask_bind] at begun
    rcases begun_ask.mp begun with rfl | ⟨x, rest, rfl, later⟩
    · exact .stopped _
    · exact .ask x (ih x later)

/-- `Exec sem p s a t`: from state `s`, with answers and state changes drawn from `sem`, `p` can
end in state `t` with result `a`. -/
inductive Exec (sem : (c : C) → σ → A c → σ → Prop) : Prog C A α → σ → α → σ → Prop where
  | ret (a : α) (s : σ) : Exec sem (.ret a) s a s
  | ask {c : C} {k : A c → Prog C A α} {s u t : σ} {a : α} (x : A c) :
      sem c s x u → Exec sem (k x) u a t → Exec sem (.ask c k) s a t

section Exec

variable {sem : (c : C) → σ → A c → σ → Prop}

@[simp] theorem exec_ret {a b : α} {s t : σ} :
    Exec sem (.ret a : Prog C A α) s b t ↔ b = a ∧ t = s := by
  constructor
  · rintro ⟨⟩
    exact ⟨rfl, rfl⟩
  · rintro ⟨rfl, rfl⟩
    exact .ret _ _

@[simp] theorem exec_ask {c : C} {k : A c → Prog C A α} {s t : σ} {b : α} :
    Exec sem (.ask c k) s b t ↔ ∃ x u, sem c s x u ∧ Exec sem (k x) u b t := by
  constructor
  · rintro ⟨⟩
    exact ⟨_, _, ‹_›, ‹_›⟩
  · rintro ⟨x, u, h, h'⟩
    exact .ask x h h'

theorem exec_bind {p : Prog C A α} {f : α → Prog C A β} {s t : σ} {b : β} :
    Exec sem (p >>= f) s b t ↔ ∃ a u, Exec sem p s a u ∧ Exec sem (f a) u b t := by
  induction p generalizing s with
  | ret a => simp
  | ask c k ih =>
    simp only [ask_bind, exec_ask, ih]
    constructor
    · rintro ⟨x, u, h, a, v, h', h''⟩
      exact ⟨a, v, ⟨x, u, h, h'⟩, h''⟩
    · rintro ⟨a, v, ⟨x, u, h, h'⟩, h''⟩
      exact ⟨x, u, h, a, v, h', h''⟩

@[simp] theorem exec_call {c : C} {s t : σ} {x : A c} :
    Exec sem (call c : Prog C A (A c)) s x t ↔ sem c s x t := by
  constructor
  · intro run
    obtain ⟨y, u, act, ending⟩ := exec_ask.mp run
    obtain ⟨rfl, rfl⟩ := exec_ret.mp ending
    exact act
  · exact fun act => .ask x act (.ret _ _)

theorem exec_andThen_ok {ε : Type} {p : Prog C A (Except ε α)} {f : α → Prog C A (Except ε β)}
    {s t : σ} {b : β} (run : Exec sem (p.andThen f) s (.ok b) t) :
    ∃ a u, Exec sem p s (.ok a) u ∧ Exec sem (f a) u (.ok b) t := by
  obtain ⟨result, u, first, rest⟩ := exec_bind.mp run
  cases result with
  | ok a => exact ⟨a, u, first, rest⟩
  | error e => cases (exec_ret.mp rest).1

theorem exec_relabel {C' : Type} {A' : C' → Type} {e : C → C'} {back : ∀ c, A' (e c) → A c}
    {sem : (c : C') → σ → A' c → σ → Prop} {p : Prog C A α} {s t : σ} {a : α} :
    Exec sem (p.relabel e back) s a t ↔
      Exec (fun c s x t => ∃ y, back c y = x ∧ sem (e c) s y t) p s a t := by
  induction p generalizing s with
  | ret b => simp
  | ask c k ih =>
    simp only [relabel_ask, exec_ask, ih]
    constructor
    · rintro ⟨y, u, act, rest⟩
      exact ⟨_, u, ⟨y, rfl, act⟩, rest⟩
    · rintro ⟨_, u, ⟨y, rfl, act⟩, rest⟩
      exact ⟨y, u, act, rest⟩

theorem Exec.mono {sem' : (c : C) → σ → A c → σ → Prop} (weaker : ∀ c s x t, sem c s x t → sem' c s x t)
    {p : Prog C A α} {s t : σ} {a : α} (run : Exec sem p s a t) : Exec sem' p s a t := by
  induction run with
  | ret a s => exact .ret a s
  | ask x moved _ ih => exact .ask x (weaker _ _ _ _ moved) ih

/-- The answered questions in order take the state from `s` to `t`. -/
def Follows (sem : (c : C) → σ → A c → σ → Prop) : σ → List (Sigma A) → σ → Prop
  | s, [], t => t = s
  | s, ⟨c, x⟩ :: rest, t => ∃ u, sem c s x u ∧ Follows sem u rest t

theorem exec_iff_run {p : Prog C A α} {s t : σ} {a : α} :
    Exec sem p s a t ↔ ∃ tr, Run p tr a ∧ Follows sem s tr t := by
  constructor
  · intro run
    induction run with
    | ret a s => exact ⟨[], .ret a, rfl⟩
    | ask x moved _ ih =>
      obtain ⟨tr, rest, later⟩ := ih
      exact ⟨_, .ask x rest, _, moved, later⟩
  · rintro ⟨tr, run, follows⟩
    induction run generalizing s with
    | ret a =>
      obtain rfl : t = s := follows
      exact .ret a t
    | ask x _ ih =>
      obtain ⟨u, moved, later⟩ := follows
      exact .ask x moved (ih later)

/-- Where every command can be answered, every program has a run. -/
theorem exec_exists (answered : ∀ c s, ∃ x t, sem c s x t) (p : Prog C A α) (s : σ) :
    ∃ a t, Exec sem p s a t := by
  induction p generalizing s with
  | ret a => exact ⟨a, s, .ret a s⟩
  | ask c k ih =>
    obtain ⟨x, u, moved⟩ := answered c s
    obtain ⟨a, t, later⟩ := ih x u
    exact ⟨a, t, .ask x moved later⟩

/-- A property of the states passes along a run when every command keeps it. -/
theorem Exec.keeps {R : σ → σ → Prop} (refl : ∀ s, R s s)
    (trans : ∀ {s t u}, R s t → R t u → R s u) {p : Prog C A α} {s t : σ} {a : α}
    (run : Exec sem p s a t) (act : ∀ c s x t, sem c s x t → R s t) : R s t := by
  induction run with
  | ret a s => exact refl s
  | ask x moved _ ih => exact trans (act _ _ _ _ moved) ih

end Exec

/-- Weakest precondition: each question meets `req` in the state in which it is put, and `post`
holds of the result, when every answer moves the state by `sem`. -/
def wp (sem : (c : C) → A c → σ → σ → Prop) (req : C → σ → Prop) (post : α → σ → Prop) :
    Prog C A α → σ → Prop
  | .ret a, s => post a s
  | .ask c k, s => req c s ∧ ∀ x t, sem c x s t → (k x).wp sem req post t

section Wp

variable {sem : (c : C) → A c → σ → σ → Prop} {req : C → σ → Prop}

@[simp] theorem wp_ret {post : α → σ → Prop} {a : α} {s : σ} :
    (.ret a : Prog C A α).wp sem req post s ↔ post a s := Iff.rfl

@[simp] theorem wp_ask {post : α → σ → Prop} {c : C} {k : A c → Prog C A α} {s : σ} :
    (.ask c k : Prog C A α).wp sem req post s ↔
      req c s ∧ ∀ x t, sem c x s t → (k x).wp sem req post t := Iff.rfl

theorem wp_bind {post : β → σ → Prop} {p : Prog C A α} {f : α → Prog C A β} {s : σ} :
    (p >>= f).wp sem req post s ↔ p.wp sem req (fun a t => (f a).wp sem req post t) s := by
  induction p generalizing s with
  | ret a => rfl
  | ask c k ih => simp only [ask_bind, wp_ask, ih]

theorem wp_mono {post post' : α → σ → Prop} (weaker : ∀ a s, post a s → post' a s)
    {p : Prog C A α} {s : σ} (h : p.wp sem req post s) : p.wp sem req post' s := by
  induction p generalizing s with
  | ret a => exact weaker a s h
  | ask c k ih => exact ⟨h.1, fun x t step => ih x (h.2 x t step)⟩

theorem wp_conseq {sem' : (c : C) → A c → σ → σ → Prop} {req' : C → σ → Prop}
    {post : α → σ → Prop} (moves : ∀ c x s t, sem' c x s t → sem c x s t)
    (allows : ∀ c s, req c s → req' c s) {p : Prog C A α} {s : σ} (h : p.wp sem req post s) :
    p.wp sem' req' post s := by
  induction p generalizing s with
  | ret a => exact h
  | ask c k ih => exact ⟨allows c s h.1, fun x t step => ih x (h.2 x t (moves c x s t step))⟩

theorem exec_wp {post : α → σ → Prop} {p : Prog C A α} {s t : σ} {a : α}
    (h : p.wp sem req post s) (run : Exec (fun c s x t => sem c x s t) p s a t) : post a t := by
  induction run with
  | ret a s => exact h
  | ask x step _ ih => exact ih (h.2 x _ step)

/-- A run says nothing of states, but every answer has a state after it. -/
theorem run_wp (total : ∀ c x s, ∃ t, sem c x s t) {post : α → σ → Prop} {p : Prog C A α} {s : σ}
    {tr : List (Sigma A)} {a : α} (h : p.wp sem req post s) (run : Run p tr a) : ∃ t, post a t := by
  induction run generalizing s with
  | ret a => exact ⟨s, h⟩
  | ask x _ ih =>
    obtain ⟨t, step⟩ := total _ x s
    exact ih (h.2 x t step)

theorem wp_relabel {C' : Type} {A' : C' → Type} {e : C → C'} {back : ∀ c, A' (e c) → A c}
    {sem : (c : C') → A' c → σ → σ → Prop} {req : C' → σ → Prop} {post : α → σ → Prop}
    {p : Prog C A α} {s : σ} :
    (p.relabel e back).wp sem req post s ↔
      p.wp (fun c x s t => ∃ y, back c y = x ∧ sem (e c) y s t) (fun c => req (e c)) post s := by
  induction p generalizing s with
  | ret a => rfl
  | ask c k ih =>
    simp only [relabel_ask, wp_ask, ih]
    constructor
    · rintro ⟨here, rest⟩
      refine ⟨here, ?_⟩
      rintro _ t ⟨y, rfl, step⟩
      exact rest y t step
    · rintro ⟨here, rest⟩
      exact ⟨here, fun y t step => rest _ t ⟨y, rfl, step⟩⟩

/-- An invariant of the whole state along a run whose outline speaks of a view of it. -/
theorem exec_outlined {τ : Type} {act : (c : C) → σ → A c → σ → Prop} {view : σ → τ}
    {sem : (c : C) → A c → τ → τ → Prop} {req : C → τ → Prop} {post : α → τ → Prop}
    {I : σ → Prop} (step : ∀ c s x t, I s → req c (view s) → act c s x t →
      I t ∧ sem c x (view s) (view t))
    {p : Prog C A α} {s t : σ} {a : α} (outlined : p.wp sem req post (view s)) (inv : I s)
    (run : Exec act p s a t) : I t ∧ post a (view t) := by
  induction run with
  | ret a s => exact ⟨inv, outlined⟩
  | ask x moved _ ih =>
    obtain ⟨after, learned⟩ := step _ _ x _ inv outlined.1 moved
    exact ih (outlined.2 x _ learned) after

end Wp

/-- Under answers drawn from `ans`, each question of `p` meets `req` and its result meets `post`. -/
def Meets (ans : (c : C) → A c → Prop) (req : C → Prop) (post : α → Prop) (p : Prog C A α) : Prop :=
  p.wp (fun c x (_ _ : Unit) => ans c x) (fun c _ => req c) (fun a _ => post a) ()

section Meets

variable {ans : (c : C) → A c → Prop} {req : C → Prop} {post : α → Prop}

@[simp] theorem meets_ret {a : α} : (.ret a : Prog C A α).Meets ans req post ↔ post a := Iff.rfl

@[simp] theorem meets_ask {c : C} {k : A c → Prog C A α} :
    (.ask c k : Prog C A α).Meets ans req post ↔
      req c ∧ ∀ x, ans c x → (k x).Meets ans req post :=
  ⟨fun h => ⟨h.1, fun x shown => h.2 x () shown⟩, fun h => ⟨h.1, fun x () shown => h.2 x shown⟩⟩

theorem meets_bind {post : β → Prop} {p : Prog C A α} {f : α → Prog C A β} :
    (p >>= f).Meets ans req post ↔ p.Meets ans req fun a => (f a).Meets ans req post :=
  wp_bind

/-- A `?` on a step that may fail: its error is the result's. -/
theorem meets_andThen {ε : Type} {post : Except ε β → Prop} {p : Prog C A (Except ε α)}
    {f : α → Prog C A (Except ε β)}
    (first : p.Meets ans req fun result => match result with
      | .ok a => (f a).Meets ans req post
      | .error e => post (.error e)) : (p.andThen f).Meets ans req post :=
  meets_bind.mpr (wp_mono (fun result _ h => by cases result <;> exact h) first)

theorem Meets.of_exec {p : Prog C A α} {a : α} (h : p.Meets ans req post)
    (run : Exec (fun c (_ : Unit) x (_ : Unit) => ans c x) p () a ()) : post a :=
  exec_wp h run

/-- Every command has an answer, so that every program has a run. -/
theorem run_exists (answered : ∀ c, ∃ x, ans c x) (p : Prog C A α) :
    ∃ tr a, Run p tr a ∧ ∀ e ∈ tr, ans e.1 e.2 := by
  induction p with
  | ret a => exact ⟨[], a, .ret a, by simp⟩
  | ask c k ih =>
    obtain ⟨x, shown⟩ := answered c
    obtain ⟨tr, a, run, rest⟩ := ih x
    exact ⟨⟨c, x⟩ :: tr, a, .ask x run, List.forall_mem_cons.mpr ⟨shown, rest⟩⟩

theorem Meets.of_run {p : Prog C A α} {tr : List (Sigma A)} {a : α} (met : p.Meets ans req post)
    (run : Run p tr a) (shown : ∀ e ∈ tr, ans e.1 e.2) : (∀ e ∈ tr, req e.1) ∧ post a := by
  induction run with
  | ret a => exact ⟨by simp, met⟩
  | ask x _ ih =>
    obtain ⟨here, after⟩ := List.forall_mem_cons.mp shown
    obtain ⟨asked, done⟩ := ih ((meets_ask.mp met).2 x here) after
    exact ⟨List.forall_mem_cons.mpr ⟨met.1, asked⟩, done⟩

/-- `Meets` speaks of every run with such answers. -/
theorem meets_iff_runs (answered : ∀ c, ∃ x, ans c x) {p : Prog C A α} :
    p.Meets ans req post ↔
      ∀ tr a, Run p tr a → (∀ e ∈ tr, ans e.1 e.2) → (∀ e ∈ tr, req e.1) ∧ post a := by
  constructor
  · exact fun met tr a run shown => met.of_run run shown
  · intro runs
    induction p with
    | ret a => exact (runs [] a (.ret a) (by simp)).2
    | ask c k ih =>
      refine meets_ask.mpr ⟨?_, fun x here => ih x fun tr a run after => ?_⟩
      · obtain ⟨tr, a, run, shown⟩ := run_exists answered (.ask c k)
        obtain ⟨x, rest, rfl, _⟩ := run_ask.mp run
        exact (runs _ a run shown).1 _ List.mem_cons_self
      · obtain ⟨asked, done⟩ :=
          runs (⟨c, x⟩ :: tr) a (.ask x run) (List.forall_mem_cons.mpr ⟨here, after⟩)
        exact ⟨fun e member => asked e (List.mem_cons_of_mem _ member), done⟩

end Meets

/-- Every question that `p` can put, whatever the answers so far, satisfies `P`. -/
def Asks (P : C → Prop) : Prog C A α → Prop
  | .ret _ => True
  | .ask c k => P c ∧ ∀ x, (k x).Asks P

section Asks

variable {P Q : C → Prop}

@[simp] theorem asks_ret {a : α} : (.ret a : Prog C A α).Asks P ↔ True := Iff.rfl

@[simp] theorem asks_ask {c : C} {k : A c → Prog C A α} :
    (.ask c k : Prog C A α).Asks P ↔ P c ∧ ∀ x, (k x).Asks P := Iff.rfl

theorem Asks.bind {p : Prog C A α} {f : α → Prog C A β}
    (first : p.Asks P) (rest : ∀ a, (f a).Asks P) : (p >>= f).Asks P := by
  induction p with
  | ret a => exact rest a
  | ask c k ih => exact ⟨first.1, fun x => ih x (first.2 x)⟩

theorem Asks.mono (weaker : ∀ c, P c → Q c) {p : Prog C A α} (h : p.Asks P) : p.Asks Q := by
  induction p with
  | ret a => trivial
  | ask c k ih => exact ⟨weaker c h.1, fun x => ih x (h.2 x)⟩

theorem Asks.of_run {p : Prog C A α} {tr : List (Sigma A)} {a : α} (h : p.Asks P)
    (run : Run p tr a) : ∀ e ∈ tr, P e.1 := by
  induction run with
  | ret a => exact fun e member => nomatch member
  | ask x _ ih =>
    intro e member
    rcases List.mem_cons.mp member with rfl | later
    · exact h.1
    · exact ih (h.2 x) e later

abbrev Returns (p : Prog C A α) (a : α) : Prop :=
  p.Exec (fun _ (_ : Unit) _ (_ : Unit) => True) () a ()

theorem Asks.after {σ : Type} {sem : (c : C) → σ → A c → σ → Prop} {p : Prog C A α}
    {f : α → Prog C A β} {s t : σ} {a : α} (h : (p >>= f).Asks P) (run : Exec sem p s a t) :
    (f a).Asks P := by
  induction run with
  | ret a s => exact h
  | ask x _ _ ih => exact ih (h.2 x)

theorem asks_relabel {C' : Type} {A' : C' → Type} {e : C → C'} {back : ∀ c, A' (e c) → A c}
    {P : C' → Prop} {p : Prog C A α} (h : p.Asks fun c => P (e c)) : (p.relabel e back).Asks P := by
  induction p with
  | ret a => trivial
  | ask c k ih => exact ⟨h.1, fun x => ih _ (h.2 _)⟩

theorem Asks.of_all (all : ∀ c, P c) (p : Prog C A α) : p.Asks P := by
  induction p with
  | ret a => trivial
  | ask c k ih => exact ⟨all c, ih⟩

theorem Asks.wp {sem : (c : C) → A c → σ → σ → Prop} {req : C → σ → Prop} {p : Prog C A α}
    (h : p.Asks P) (free : ∀ c s, P c → req c s) (s : σ) :
    p.wp sem req (fun _ _ => True) s := by
  induction p generalizing s with
  | ret a => trivial
  | ask c k ih => exact ⟨free c s h.1, fun x t _ => ih x (h.2 x) t⟩

/-- Commands that leave the state as it is. -/
theorem Asks.wp_still {sem : (c : C) → A c → σ → σ → Prop} {p : Prog C A α} (h : p.Asks P)
    (still : ∀ c x s t, P c → sem c x s t → t = s) (s : σ) :
    p.wp sem (fun _ _ => True) (fun _ t => t = s) s := by
  induction p with
  | ret a => rfl
  | ask c k ih =>
    refine ⟨trivial, fun x t moved => ?_⟩
    obtain rfl := still c x s t h.1 moved
    exact ih x (h.2 x)

end Asks

end Prog

end Interact
