import HyprPilot.Base.Prog
import Mathlib.Logic.Relation
import Mathlib.Logic.Function.Basic

/-!
# Programs interleaved over a shared state

A pool runs one program for each name over one shared state. A step lets one program put its next
question, which is answered and acts atomically, or lets the environment change the shared state.

`reach_inv` carries an invariant through every run. `reach_outlined` carries a proof outline of each
program as well, in which the other programs must not disturb its own view.
-/

namespace Interact

variable {C : Type} {A : C → Type} {α σ ι : Type} [DecidableEq ι]

structure Pool (C : Type) (A : C → Type) (α σ ι : Type) where
  shared : σ
  progs : ι → Prog C A α

namespace Pool

/-- How one program's question is answered, and how the environment moves on its own. -/
structure Rules (C : Type) (A : C → Type) (σ ι : Type) where
  act : ι → (c : C) → σ → A c → σ → Prop
  env : σ → σ → Prop

inductive Step (R : Rules C A σ ι) : Pool C A α σ ι → Pool C A α σ ι → Prop where
  | act {P : Pool C A α σ ι} {s : σ} (i : ι) {c : C} {k : A c → Prog C A α} (x : A c) :
      P.progs i = .ask c k → R.act i c P.shared x s →
      Step R P ⟨s, Function.update P.progs i (k x)⟩
  | env {P : Pool C A α σ ι} {s : σ} : R.env P.shared s → Step R P ⟨s, P.progs⟩

abbrev Reach (R : Rules C A σ ι) : Pool C A α σ ι → Pool C A α σ ι → Prop :=
  Relation.ReflTransGen (Step R)

variable {R : Rules C A σ ι} {P Q : Pool C A α σ ι}

theorem reach_inv {I : Pool C A α σ ι → Prop} (step : ∀ P Q, I P → Step R P Q → I Q)
    (start : I P) (run : Reach R P Q) : I Q := by
  induction run with
  | refl => exact start
  | tail _ last ih => exact step _ _ ih last

/-- Proof outlines. `view i` is what program `i` knows of the shared state: no other program and no
environment move changes it, and the program's own questions move it by `sem`. Then what is left of
each program still meets its specification, so each question that it puts meets `req`. -/
theorem reach_outlined {τ : Type} (view : ι → σ → τ) (sem : (c : C) → A c → τ → τ → Prop)
    (req : ι → C → τ → Prop) (post : ι → α → τ → Prop) (I : σ → Prop)
    (own : ∀ i c s x t, I s → R.act i c s x t → sem c x (view i s) (view i t))
    (other : ∀ i j c s x t, j ≠ i → R.act i c s x t → view j t = view j s)
    (quiet : ∀ i s t, R.env s t → view i t = view i s)
    (act : ∀ i c s x t, I s → req i c (view i s) → R.act i c s x t → I t)
    (env : ∀ s t, I s → R.env s t → I t)
    (inv : I P.shared) (start : ∀ i, (P.progs i).wp sem (req i) (post i) (view i P.shared))
    (run : Reach R P Q) :
    I Q.shared ∧ ∀ i, (Q.progs i).wp sem (req i) (post i) (view i Q.shared) := by
  refine reach_inv
    (I := fun P => I P.shared ∧ ∀ i, (P.progs i).wp sem (req i) (post i) (view i P.shared)) ?_
    ⟨inv, start⟩ run
  rintro P Q ⟨inv, outlined⟩ step
  cases step with
  | @act s i c k x next moved =>
    have here := outlined i
    rw [next, Prog.wp_ask] at here
    refine ⟨act i c _ x _ inv here.1 moved, fun j => ?_⟩
    by_cases same : j = i
    · subst same
      simpa using here.2 x _ (own j c _ x _ inv moved)
    · simpa [same, other i j c _ x _ same moved] using outlined j
  | @env s moved =>
    refine ⟨env _ _ inv moved, fun j => ?_⟩
    simpa [quiet j _ _ moved] using outlined j

/-- One program runs its first part while the others stand still. -/
theorem reach_bind {β : Type} {p : Prog C A β} {f : β → Prog C A α} {i : ι} {s t : σ}
    {progs : ι → Prog C A α} {b : β} (next : progs i = p >>= f) (run : Prog.Exec (R.act i) p s b t) :
    Reach R ⟨s, progs⟩ ⟨t, Function.update progs i (f b)⟩ := by
  induction run generalizing progs with
  | ret b s =>
    have same : Function.update progs i (f b) = progs := by
      rw [← Prog.ret_bind b f, ← next, Function.update_eq_self]
    rw [same]
  | @ask c k s u t b x moved _ ih =>
    have step := Step.act (R := R) (P := ⟨s, progs⟩) i x next moved
    have rest := ih (Function.update_self i (k x >>= f) progs)
    rw [Function.update_idem] at rest
    exact .head step rest

end Pool

end Interact
