import HyprPilot.Base.Pool

/-!
# Programs run by programs

`through` answers each question of a program by a program over another environment. What each of the
answering programs keeps to, the whole keeps to; and what every program of a pool keeps to carries an
invariant of the shared state through each run of the pool.
-/

namespace Interact

variable {C D : Type} {A : C → Type} {B : D → Type} {α β σ ι : Type}

namespace Prog

def through (serve : (c : C) → Prog D B (A c)) : Prog C A α → Prog D B α
  | .ret a => .ret a
  | .ask c k => serve c >>= fun x => (k x).through serve

variable {serve : (c : C) → Prog D B (A c)}

theorem through_bind (p : Prog C A α) (f : α → Prog C A β) :
    (p >>= f).through serve = p.through serve >>= fun a => (f a).through serve := by
  induction p with
  | ret a => rfl
  | ask c k ih => simp only [ask_bind, through, bind_assoc, ih]

section History

variable {req : List (Sigma A) → C → Prop} {post : α → List (Sigma A) → Prop}

/-- `req` holds of each question with what was asked and answered before it. -/
def Along (req : List (Sigma A) → C → Prop) : List (Sigma A) → List (Sigma A) → Prop
  | _, [] => True
  | before, e :: rest => req before e.1 ∧ Along req (before ++ [e]) rest

/-- A precondition in which the state is what was asked and answered so far. -/
def Tells (req : List (Sigma A) → C → Prop) (post : α → List (Sigma A) → Prop) (p : Prog C A α)
    (before : List (Sigma A)) : Prop :=
  p.wp (fun c x s t => t = s ++ [⟨c, x⟩]) (fun c s => req s c) post before

@[simp] theorem tells_ret {a : α} {before : List (Sigma A)} :
    (.ret a : Prog C A α).Tells req post before ↔ post a before := Iff.rfl

@[simp] theorem tells_ask {c : C} {k : A c → Prog C A α} {before : List (Sigma A)} :
    (.ask c k : Prog C A α).Tells req post before ↔
      req before c ∧ ∀ x, (k x).Tells req post (before ++ [⟨c, x⟩]) :=
  ⟨fun h => ⟨h.1, fun x => h.2 x _ rfl⟩, fun h => ⟨h.1, fun x _ same => same ▸ h.2 x⟩⟩

theorem along_append {before first second : List (Sigma A)} :
    Along req before (first ++ second) ↔ Along req before first ∧ Along req (before ++ first) second := by
  induction first generalizing before with
  | nil => simp [Along]
  | cons e rest ih => simp [Along, ih, and_assoc]

theorem Along.asked {before tr : List (Sigma A)} (along : Along req before tr) {e : Sigma A}
    (member : e ∈ tr) : ∃ earlier, req earlier e.1 := by
  obtain ⟨first, second, rfl⟩ := List.append_of_mem member
  exact ⟨_, (along_append.mp along).2.1⟩

/-- What is required of the questions may be used in the end. -/
theorem Tells.along {p : Prog C A α} {before : List (Sigma A)} (tells : p.Tells req post before)
    (asked : Along req [] before) : p.Tells req (fun a t => post a t ∧ Along req [] t) before := by
  induction p generalizing before with
  | ret a => exact ⟨tells, asked⟩
  | ask c k ih =>
    obtain ⟨here, later⟩ := tells_ask.mp tells
    refine tells_ask.mpr ⟨here, fun x => ih x (later x) (along_append.mpr ⟨asked, ?_⟩)⟩
    exact ⟨here, trivial⟩

theorem Tells.of_run {p : Prog C A α} {before tr : List (Sigma A)} {a : α} (tells : p.Tells req post before)
    (run : Run p tr a) : Along req before tr ∧ post a (before ++ tr) := by
  induction run generalizing before with
  | ret a => exact ⟨trivial, by simpa using tells⟩
  | ask x _ ih =>
    obtain ⟨here, later⟩ := tells_ask.mp tells
    obtain ⟨rest, ending⟩ := ih (later x)
    exact ⟨⟨here, rest⟩, by simpa using ending⟩

end History

section View

variable {ε : Type} (view : Sigma A → Option ε)

/-- A postcondition on the result and on what a view shows of the questions and answers. -/
def Leaves (post : α → List ε → Prop) (p : Prog C A α) (before : List ε) : Prop :=
  p.wp (fun c x s t => t = s ++ (view ⟨c, x⟩).toList) (fun _ _ => True) post before

variable {view} {post : α → List ε → Prop}

@[simp] theorem leaves_ret {a : α} {before : List ε} :
    (.ret a : Prog C A α).Leaves view post before ↔ post a before := Iff.rfl

theorem leaves_ask {c : C} {k : A c → Prog C A α} {before : List ε}
    (each : ∀ x, (k x).Leaves view post (before ++ (view ⟨c, x⟩).toList)) :
    (.ask c k : Prog C A α).Leaves view post before :=
  ⟨trivial, fun x _ same => same ▸ each x⟩

/-- A question of which the view shows nothing. -/
theorem leaves_ask_silent {c : C} {k : A c → Prog C A α} {before : List ε} (silent : ∀ x, view ⟨c, x⟩ = none)
    (each : ∀ x, (k x).Leaves view post before) : (.ask c k : Prog C A α).Leaves view post before :=
  leaves_ask fun x => by simpa [silent x] using each x

theorem leaves_bind {post : β → List ε → Prop} {p : Prog C A α} {f : α → Prog C A β} {before : List ε} :
    (p >>= f).Leaves view post before ↔ p.Leaves view (fun a t => (f a).Leaves view post t) before :=
  wp_bind

theorem Leaves.mono {post' : α → List ε → Prop} (weaker : ∀ a t, post a t → post' a t) {p : Prog C A α}
    {before : List ε} (leaves : p.Leaves view post before) : p.Leaves view post' before :=
  wp_mono weaker leaves

theorem Leaves.relabel {view' : Sigma B → Option ε} {e : C → D} {back : ∀ c, B (e c) → A c} {p : Prog C A α}
    {before : List ε} (same : ∀ c y, view' ⟨e c, y⟩ = view ⟨c, back c y⟩) (leaves : p.Leaves view post before) :
    (p.relabel e back).Leaves view' post before := by
  refine wp_relabel.mpr (wp_conseq ?_ (fun _ _ holds => holds) leaves)
  rintro c _ s _ ⟨y, rfl, rfl⟩
  rw [same]

theorem Leaves.of_run {p : Prog C A α} {before : List ε} {tr : List (Sigma A)} {a : α}
    (leaves : p.Leaves view post before) (run : Run p tr a) : post a (before ++ tr.filterMap view) := by
  induction run generalizing before with
  | ret a => simpa using leaves
  | @ask c k tr a x _ ih =>
    have later := ih (leaves.2 x _ rfl)
    cases shown : view ⟨c, x⟩ with
    | none => simpa [shown] using later
    | some e => simpa [shown] using later

end View

theorem meets_through {ans : (c : C) → A c → Prop} {req : C → Prop} {ans' : (d : D) → B d → Prop}
    {req' : D → Prop} {post : α → Prop} {p : Prog C A α} (met : p.Meets ans req post)
    (each : ∀ c, req c → (serve c).Meets ans' req' (ans c)) : (p.through serve).Meets ans' req' post := by
  induction p with
  | ret a => exact met
  | ask c k ih =>
    obtain ⟨asked, later⟩ := meets_ask.mp met
    exact meets_bind.mpr (wp_mono (fun x _ shown => ih x (later x shown)) (each c asked))

theorem Asks.meets {ans : (c : C) → A c → Prop} {req : C → Prop} {p : Prog C A α} (asks : p.Asks req) :
    p.Meets ans req fun _ => True := asks.wp (fun _ _ holds => holds) ()

theorem Meets.asks {ans : (c : C) → A c → Prop} {req : C → Prop} {post : α → Prop} {p : Prog C A α}
    (met : p.Meets ans req post) (shown : ∀ c x, ans c x) : p.Asks req := by
  induction p with
  | ret a => trivial
  | ask c k ih =>
    obtain ⟨asked, later⟩ := meets_ask.mp met
    exact ⟨asked, fun x => ih x (later x (shown c x))⟩

theorem meets_relabel {e : C → D} {back : ∀ c, B (e c) → A c} {ans : (d : D) → B d → Prop} {req : D → Prop}
    {ans' : (c : C) → A c → Prop} {post : α → Prop} {p : Prog C A α}
    (met : p.Meets ans' (fun c => req (e c)) post) (read : ∀ c y, ans (e c) y → ans' c (back c y)) :
    (p.relabel e back).Meets ans req post := by
  refine wp_relabel.mpr (wp_conseq ?_ (fun _ _ holds => holds) met)
  rintro c _ _ _ ⟨y, rfl, shown⟩
  exact read c y shown

end Prog

namespace Pool

variable [DecidableEq ι] {R : Rules C A σ ι} {P Q : Pool C A α σ ι}

theorem reach_meets {ans : (c : C) → A c → Prop} {req : ι → C → Prop} {post : α → Prop} {I : σ → Prop}
    (act : ∀ i c s x t, I s → req i c → R.act i c s x t → ans c x ∧ I t)
    (env : ∀ s t, I s → R.env s t → I t) (inv : I P.shared)
    (start : ∀ i, (P.progs i).Meets ans (req i) post) (run : Reach R P Q) :
    I Q.shared ∧ ∀ i, (Q.progs i).Meets ans (req i) post := by
  refine reach_inv (I := fun P => I P.shared ∧ ∀ i, (P.progs i).Meets ans (req i) post) ?_ ⟨inv, start⟩ run
  rintro P Q ⟨inv, met⟩ step
  cases step with
  | @act s i c k x next moved =>
    have here := met i
    rw [next] at here
    obtain ⟨asked, later⟩ := Prog.meets_ask.mp here
    obtain ⟨shown, after⟩ := act i c _ x _ inv asked moved
    refine ⟨after, fun j => ?_⟩
    by_cases same : j = i
    · subst same
      simpa using later x shown
    · simpa [same] using met j
  | env moved => exact ⟨env _ _ inv moved, met⟩

end Pool

end Interact
