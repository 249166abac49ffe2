import HyprPilot.Daemon.Rules

/-!
# Which rule fires

A configuration compiles when all its action strings parse, and its error names the first that does
not. An event that reaches matching fires the first rule of the file for its kind whose predicates
hold: all its actions are sent in order, whatever each of them answers.
-/

namespace HyprPilot
open Interact Collect

namespace Engine

def Parses (s : String) : Prop := ∃ action, Action.parse s = .ok action

/-- The compiled rule has the data of the rule and its actions in order. -/
structure Compiles (i : Nat) (rule : Rule) (compiled : CompiledRule) : Prop where
  label : compiled.label = rule.label i
  on : compiled.on = rule.on
  «when» : compiled.when = rule.when
  actions : rule.actions.map Action.parse = compiled.actions.map .ok

/-- The string at index `k` of the rule at index `i` is the first that does not parse. -/
structure FirstFailure (config : RuleConfig) (i k : Nat) (rule : Rule) (e : ParseError) : Prop where
  located : config.rules[i]? = some rule
  fails : ∃ s, rule.actions[k]? = some s ∧ Action.parse s = .error e
  actionsBefore : ∀ j < k, ∀ s, rule.actions[j]? = some s → Parses s
  rulesBefore : ∀ j < i, ∀ earlier, config.rules[j]? = some earlier → ∀ s ∈ earlier.actions, Parses s

def Fires (event : Event) (rule : Rule) : Prop :=
  rule.on = event.kind ∧ rule.predicateMatches event.fields = true

structure FirstToFire (config : RuleConfig) (event : Event) (i : Nat) (rule : Rule) : Prop where
  located : config.rules[i]? = some rule
  fires : Fires event rule
  before : ∀ j < i, ∀ earlier, config.rules[j]? = some earlier → ¬Fires event earlier

def Action.command (action : Action) : Connection.Cmd := .dispatch action.dispatcher

/-! ### Compilation -/

theorem parseAll_exists {strings : List String} :
    (∃ actions, parseAll strings = .ok actions) ↔ ∀ s ∈ strings, Parses s := by
  rw [parseAll, collect_ok_exists]
  simp only [mapError_ok]
  constructor
  · intro parses s member
    obtain ⟨k, located⟩ := List.mem_iff_getElem?.mp member
    exact parses k s located
  · intro parses k s located
    exact parses s (List.mem_of_getElem? located)

theorem parseAll_ok {strings : List String} {actions : List Action}
    (parsed : parseAll strings = .ok actions) :
    strings.map Action.parse = actions.map .ok := by
  apply List.ext_getElem?
  intro k
  rw [List.getElem?_map, List.getElem?_map]
  cases located : strings[k]? with
  | none =>
    have length := length_collect parsed
    rw [List.getElem?_eq_none_iff] at located
    rw [List.getElem?_eq_none (by omega)]
    rfl
  | some s =>
    obtain ⟨action, here, passed⟩ := collect_at parsed located
    rw [here, Option.map_some, Option.map_some, mapError_ok.mp passed]

theorem parseAll_error {strings : List String} {k : Nat} {e : ParseError} :
    parseAll strings = .error (k, e) ↔
      (∃ s, strings[k]? = some s ∧ Action.parse s = .error e) ∧
        ∀ j < k, ∀ s, strings[j]? = some s → Parses s := by
  rw [parseAll, collect_error_iff]
  unfold FailsAt
  simp only [mapError_ok, mapError_error, Nat.zero_add, Prod.mk.injEq]
  constructor
  · rintro ⟨i, ⟨s, located, e', fails, rfl, rfl⟩, before⟩
    exact ⟨⟨s, located, fails⟩, before⟩
  · rintro ⟨⟨s, located, fails⟩, before⟩
    exact ⟨k, ⟨s, located, e, fails, rfl, rfl⟩, before⟩

theorem compileRule_ok {i : Nat} {rule : Rule} {compiled : CompiledRule}
    (passed : compileRule i rule = .ok compiled) : Compiles i rule compiled := by
  unfold compileRule at passed
  cases parsed : parseAll rule.actions with
  | error failure =>
    rw [parsed] at passed
    cases passed
  | ok actions =>
    rw [parsed] at passed
    cases passed
    exact ⟨rfl, rfl, rfl, parseAll_ok parsed⟩

theorem compileRule_exists {i : Nat} {rule : Rule} :
    (∃ compiled, compileRule i rule = .ok compiled) ↔ ∀ s ∈ rule.actions, Parses s := by
  rw [← parseAll_exists]
  unfold compileRule
  cases parsed : parseAll rule.actions with
  | error failure =>
    constructor
    · rintro ⟨_, ⟨⟩⟩
    · rintro ⟨_, ⟨⟩⟩
  | ok actions => exact ⟨fun _ => ⟨actions, rfl⟩, fun _ => ⟨_, rfl⟩⟩

theorem compileRule_error {i : Nat} {rule : Rule} {message : String} :
    compileRule i rule = .error message ↔ ∃ k e, parseAll rule.actions = .error (k, e) ∧
      message = rule.label i ++ ": action[" ++ toString k ++ "]: " ++ e.text := by
  unfold compileRule
  cases parsed : parseAll rule.actions with
  | error failure =>
    obtain ⟨k, e⟩ := failure
    constructor
    · intro failed
      exact ⟨k, e, rfl, (Except.error.inj failed).symm⟩
    · rintro ⟨k', e', ⟨⟩, rfl⟩
      rfl
  | ok actions =>
    constructor
    · rintro ⟨⟩
    · rintro ⟨_, _, ⟨⟩, _⟩

theorem compile_exists {config : RuleConfig} :
    (∃ compiled, compile config = .ok compiled) ↔
      ∀ rule ∈ config.rules, ∀ s ∈ rule.actions, Parses s := by
  rw [compile, collect_ok_exists]
  simp only [compileRule_exists]
  constructor
  · intro parses rule member
    obtain ⟨i, located⟩ := List.mem_iff_getElem?.mp member
    exact parses i rule located
  · intro parses i rule located
    exact parses rule (List.mem_of_getElem? located)

theorem compile_error {config : RuleConfig} {message : String} :
    compile config = .error message ↔ ∃ i k rule e, FirstFailure config i k rule e ∧
      message = rule.label i ++ ": action[" ++ toString k ++ "]: " ++ e.text := by
  rw [compile, collect_error_iff]
  unfold FailsAt
  simp only [compileRule_exists, compileRule_error, parseAll_error, Nat.zero_add]
  constructor
  · rintro ⟨i, ⟨rule, located, k, e, ⟨fails, actionsBefore⟩, text⟩, rulesBefore⟩
    exact ⟨i, k, rule, e, ⟨located, fails, actionsBefore, rulesBefore⟩, text⟩
  · rintro ⟨i, k, rule, e, first, text⟩
    exact ⟨i, ⟨rule, first.located, k, e, ⟨first.fails, first.actionsBefore⟩, text⟩,
      first.rulesBefore⟩

theorem compile_at {config : RuleConfig} {compiled : List CompiledRule} {i : Nat} {rule : Rule}
    (passed : compile config = .ok compiled) (located : config.rules[i]? = some rule) :
    ∃ c, compiled[i]? = some c ∧ Compiles i rule c := by
  obtain ⟨c, here, rulePassed⟩ := collect_at passed located
  rw [Nat.zero_add] at rulePassed
  exact ⟨c, here, compileRule_ok rulePassed⟩

/-! ### One event -/

theorem run_executeAll {actions : List Action} {trace : List (Sigma Connection.Ans)} :
    Prog.Run (executeAll actions) trace () ↔ trace.map Sigma.fst = actions.map Action.command := by
  induction actions generalizing trace with
  | nil => simp [executeAll]
  | cons action rest ih =>
    have shape : executeAll (action :: rest) = .ask action.command fun _ => executeAll rest := rfl
    rw [shape, Prog.run_ask, List.map_cons]
    constructor
    · rintro ⟨answer, later, rfl, run⟩
      rw [List.map_cons, ih.mp run]
    · intro commands
      cases trace with
      | nil => cases commands
      | cons asked later =>
        obtain ⟨c, answer⟩ := asked
        obtain ⟨same, after⟩ := List.cons.inj commands
        dsimp only at same
        subst same
        exact ⟨answer, later, rfl, ih.mpr after⟩

/-- The loop over the rules executes the first that matches. -/
theorem executeFirst_eq (event : Event) (rules : List CompiledRule) :
    executeFirst event rules =
      (firstMatch rules event).elim (.ret ()) fun rule => executeAll rule.actions := by
  induction rules with
  | nil => rfl
  | cons rule rules ih =>
    rw [executeFirst, firstMatch]
    by_cases kind : rule.on = event.kind
    · rw [if_neg (not_not.mpr kind)]
      by_cases holds : predicateMatches rule.when event.fields = true
      · rw [if_neg (not_not.mpr holds), List.find?_cons_of_pos (by simp [kind, holds])]
        rfl
      · rw [if_pos holds, ih, List.find?_cons_of_neg (by simp [holds])]
        rfl
    · rw [if_pos kind, ih, List.find?_cons_of_neg (by simp [kind])]
      rfl

/-- The engine's copy of the predicate decides as the rule's own. -/
theorem matches_iff_fires {i : Nat} {rule : Rule} {c : CompiledRule} (compiles : Compiles i rule c)
    (event : Event) :
    (c.on = event.kind && predicateMatches c.when event.fields) = true ↔ Fires event rule := by
  rw [compiles.on, compiles.when, Fires, Bool.and_eq_true, decide_eq_true_eq]
  rfl

theorem source_at {config : RuleConfig} {compiled : List CompiledRule} {i : Nat} {c : CompiledRule}
    (passed : compile config = .ok compiled) (here : compiled[i]? = some c) :
    ∃ rule, config.rules[i]? = some rule ∧ Compiles i rule c := by
  have length := length_collect passed
  obtain ⟨within, _⟩ := List.getElem?_eq_some_iff.mp here
  have bound : i < config.rules.length := by omega
  have located : config.rules[i]? = some config.rules[i] := List.getElem?_eq_getElem bound
  obtain ⟨c', here', compiles⟩ := compile_at passed located
  rw [here] at here'
  cases here'
  exact ⟨_, located, compiles⟩

theorem firstMatch_iff {config : RuleConfig} {compiled : List CompiledRule} {event : Event}
    {c : CompiledRule} (passed : compile config = .ok compiled) :
    firstMatch compiled event = some c ↔
      ∃ i rule, FirstToFire config event i rule ∧ compiled[i]? = some c := by
  rw [firstMatch, List.find?_eq_some_iff_getElem]
  constructor
  · rintro ⟨holds, i, within, rfl, before⟩
    have here := List.getElem?_eq_getElem within
    obtain ⟨rule, located, compiles⟩ := source_at passed here
    refine ⟨i, rule, ⟨located, (matches_iff_fires compiles event).mp holds, ?_⟩, here⟩
    intro j early earlier located' fires
    obtain ⟨c', here', compiles'⟩ := compile_at passed located'
    have failed := before j early
    rw [(List.getElem?_eq_some_iff.mp here').2, (matches_iff_fires compiles' event).mpr fires] at failed
    cases failed
  · rintro ⟨i, rule, first, here⟩
    obtain ⟨c', here', compiles⟩ := compile_at passed first.located
    rw [here] at here'
    cases here'
    obtain ⟨within, same⟩ := List.getElem?_eq_some_iff.mp here
    refine ⟨(matches_iff_fires compiles event).mpr first.fires, i, within, same, ?_⟩
    intro j early
    have inside : j < compiled.length := by omega
    obtain ⟨earlier, located', compiles'⟩ := source_at passed (List.getElem?_eq_getElem inside)
    have silent := first.before j early earlier located'
    rw [← matches_iff_fires compiles' event, Bool.not_eq_true] at silent
    rw [silent]
    rfl

theorem firstMatch_none {config : RuleConfig} {compiled : List CompiledRule} {event : Event}
    (passed : compile config = .ok compiled) :
    firstMatch compiled event = none ↔ ∀ rule ∈ config.rules, ¬Fires event rule := by
  rw [firstMatch, List.find?_eq_none]
  constructor
  · intro silent rule member fires
    obtain ⟨i, located⟩ := List.mem_iff_getElem?.mp member
    obtain ⟨c, here, compiles⟩ := compile_at passed located
    exact silent c (List.mem_of_getElem? here) ((matches_iff_fires compiles event).mpr fires)
  · intro silent c member holds
    obtain ⟨i, here⟩ := List.mem_iff_getElem?.mp member
    obtain ⟨rule, located, compiles⟩ := source_at passed here
    exact silent rule (List.mem_of_getElem? located) ((matches_iff_fires compiles event).mp holds)

theorem run_handleEvent {config : RuleConfig} {compiled : List CompiledRule} {guard : ReentranceGuard}
    {event : Event} {trace : List (Sigma Connection.Ans)} (passed : compile config = .ok compiled)
    (free : guard.isInhibited = false) :
    Prog.Run (handleEvent compiled guard event) trace () ↔
      (∃ i rule c, FirstToFire config event i rule ∧ compiled[i]? = some c ∧
        trace.map Sigma.fst = c.actions.map Action.command) ∨
      ((∀ rule ∈ config.rules, ¬Fires event rule) ∧ trace = []) := by
  rw [handleEvent, if_neg (by simp [free]), executeFirst_eq]
  cases matched : firstMatch compiled event with
  | some c =>
    obtain ⟨i, rule, first, here⟩ := (firstMatch_iff passed).mp matched
    rw [Option.elim_some, run_executeAll]
    constructor
    · exact fun commands => Or.inl ⟨i, rule, c, first, here, commands⟩
    · rintro (⟨i', rule', c', first', here', commands⟩ | ⟨silent, _⟩)
      · have same := (firstMatch_iff passed).mpr ⟨i', rule', first', here'⟩
        rw [matched] at same
        cases same
        exact commands
      · exact absurd first.fires (silent rule (List.mem_of_getElem? first.located))
  | none =>
    have silent := (firstMatch_none passed).mp matched
    rw [Option.elim_none, Prog.run_ret]
    constructor
    · exact fun ended => Or.inr ⟨silent, ended.1⟩
    · rintro (⟨i, rule, c, first, _, _⟩ | ⟨_, ended⟩)
      · exact absurd first.fires (silent rule (List.mem_of_getElem? first.located))
      · exact ⟨ended, rfl⟩

/-- A configuration compiles when all its action strings parse, into its rules in order, and fails
with the first that does not. A rule's event then has the first rule to fire, and no other, executed:
each of its actions once and in order, whatever they answer; without one nothing is executed. -/
theorem rules_documented (config : RuleConfig) :
    ((∃ compiled, compile config = .ok compiled) ↔
      ∀ rule ∈ config.rules, ∀ s ∈ rule.actions, Parses s) ∧
    (∀ message, compile config = .error message ↔ ∃ i k rule e, FirstFailure config i k rule e ∧
      message = rule.label i ++ ": action[" ++ toString k ++ "]: " ++ e.text) ∧
    ∀ compiled, compile config = .ok compiled →
      compiled.length = config.rules.length ∧
      (∀ i rule, config.rules[i]? = some rule → ∃ c, compiled[i]? = some c ∧ Compiles i rule c) ∧
      ∀ guard event, guard.isInhibited = false → ∀ trace,
        Prog.Run (handleEvent compiled guard event) trace () ↔
          (∃ i rule c, FirstToFire config event i rule ∧ compiled[i]? = some c ∧
            trace.map Sigma.fst = c.actions.map Action.command) ∨
          ((∀ rule ∈ config.rules, ¬Fires event rule) ∧ trace = []) :=
  ⟨compile_exists, fun _ => compile_error, fun _ passed =>
    ⟨length_collect passed, fun _ _ located => compile_at passed located,
      fun _ _ free _ => run_handleEvent passed free⟩⟩

end Engine

end HyprPilot
