import CommandScript.Proofs.LibraryCalls
import CommandScript.Proofs.Soundness

/-!
# Control structures

`if`, `repeat` and `while` evaluate an action, each as often as it says.  Their answer is the last
answer of the action, or `didNothing` if it was never evaluated.

`else` has such a command in front of it, runs it, and evaluates its alternative if the answer is
`didNothing`.  An action never answers that, whatever stands in it: it is coerced to anything, which
puts `nothing` in the place of `didNothing`.  So the alternative is evaluated exactly if the action
was not.
-/

namespace CommandScript

/-- What is coerced with some fuel is coerced with more. -/
theorem Evaluator.Below.coerce_done {e other : Evaluator} {wanted : Coercion}
    {value result : Value} {scope : Scope} {store after : Store} (h : e.Below other)
    (hdone : e.coerce wanted value scope store = .done result after) :
    other.coerce wanted value scope store = .done result after :=
  ((h.coerce wanted value scope).eq (hdone ▸ nofun)).trans hdone

/-- A control structure that does something once, or as often as it says. -/
inductive Control where
  | ifThen
  | repeatTimes
  | whileDo

namespace Control

/-- What its handler does. -/
def body : Control → Primitive
  | .ifThen => .ifThen
  | .repeatTimes => .repeatTimes
  | .whileDo => .whileDo

/-- The parameter in front of the action. -/
def subject : Control → Parameter
  | .ifThen => Library.parameter "condition" .boolean
  | .repeatTimes => Library.parameter "count" .integer
  | .whileDo => Library.parameter "condition" .expression

/-- The parameters of its handler. -/
def parameters (control : Control) : List Parameter := [control.subject, Library.action]

/-- The name of its handler. -/
def name : Control → String
  | .ifThen => "if"
  | .repeatTimes => "repeat"
  | .whileDo => "while"

/-- The three controls are handlers of the library. -/
theorem mem_handlers (control : Control) :
    Library.define control.name control.parameters .anything control.body ∈ Library.handlers := by
  cases control with
  | _ => simp [Library.handlers, Library.controlHandlers, name, parameters, subject, body]

theorem library_parameters (control : Control) : ∀ definition ∈ Library.handlers,
    definition.body = control.body → definition.interface.parameters = control.parameters := by
  intro definition hmem hbody
  rw [Library.eq_of_body_eq hmem control.mem_handlers hbody]
  rfl

/-- The loop of a control structure goes round no more often than it may. -/
def InRounds (rounds : Nat) (answers : List Value) : Control → Prop
  | .whileDo => answers.length < rounds
  | _ => True

end Control

/-- The signature of `else`. -/
def Library.elseInterface : Interface :=
  ⟨.ofString "else", [Library.action, Library.parameter "alternative_action" .expression],
    .anything⟩

theorem Library.mem_else : ⟨elseInterface, .orElse⟩ ∈ handlers := by
  simp [handlers, controlHandlers, define, elseInterface]

theorem Library.elseInterface_eq : ∀ definition ∈ Library.handlers,
    definition.body = .orElse → definition.interface = Library.elseInterface := by
  intro definition hmem hbody
  rw [eq_of_body_eq hmem mem_else hbody]

namespace Evaluation

variable {fuel : Nat} {command : Command} {scope : Scope} {store after : Store}
  {e other : Evaluator} {value subject action answer : Value} {answers : List Value}
  {control : Control}

/-! ## How often the action runs -/

/-- An action is evaluated a number of times and gives these answers. -/
inductive Evaluates (e : Evaluator) (scope : Scope) (action : Value) :
    Nat → Store → List Value → Store → Prop where
  | zero {store : Store} : Evaluates e scope action 0 store [] store
  | succ {count : Nat} {store between after : Store} {answer : Value} {answers : List Value} :
      e.coerce .anything action scope store = .done answer between →
      Evaluates e scope action count between answers after →
      Evaluates e scope action (count + 1) store (answer :: answers) after

/-- A control structure evaluates its action again and again, which gives these answers, and comes
to its end. -/
inductive Acts (e : Evaluator) (scope : Scope) (subject action : Value) :
    Control → Store → List Value → Store → Prop where
  | ifFalse {store after : Store} :
      e.coerce .boolean subject scope store = .done (.boolean false) after →
      Acts e scope subject action .ifThen store [] after
  | ifTrue {store between after : Store} {answer : Value} :
      e.coerce .boolean subject scope store = .done (.boolean true) between →
      e.coerce .anything action scope between = .done answer after →
      Acts e scope subject action .ifThen store [answer] after
  /-- The action is evaluated as often as the count says, and not at all if it is negative. -/
  | repeatTimes {store between after : Store} {content : TextValue} {count : Int64}
      {answers : List Value} :
      e.coerce .integer subject scope store = .done (.text content) between →
      content.scalar.toInt64 = .ok count →
      Evaluates e scope action count.toInt.toNat between answers after →
      Acts e scope subject action .repeatTimes store answers after
  | whileFalse {store after : Store} :
      e.coerce .boolean subject scope store = .done (.boolean false) after →
      Acts e scope subject action .whileDo store [] after
  /-- The condition is tested anew after each evaluation of the action. -/
  | whileTrue {store tested between after : Store} {answer : Value} {answers : List Value} :
      e.coerce .boolean subject scope store = .done (.boolean true) tested →
      e.coerce .anything action scope tested = .done answer between →
      Acts e scope subject action .whileDo between answers after →
      Acts e scope subject action .whileDo store (answer :: answers) after

/-- More evaluator gives no other answers. -/
theorem Evaluates.mono {count : Nat} (hbelow : e.Below other)
    (h : Evaluates e scope action count store answers after) :
    Evaluates other scope action count store answers after := by
  induction h with
  | zero => exact .zero
  | succ hanswer _ ih => exact .succ (hbelow.coerce_done hanswer) ih

theorem Acts.mono (hbelow : e.Below other)
    (h : Acts e scope subject action control store answers after) :
    Acts other scope subject action control store answers after := by
  induction h with
  | ifFalse htest => exact .ifFalse (hbelow.coerce_done htest)
  | ifTrue htest hanswer => exact .ifTrue (hbelow.coerce_done htest) (hbelow.coerce_done hanswer)
  | repeatTimes hcount hnumber hanswers =>
    exact .repeatTimes (hbelow.coerce_done hcount) hnumber (hanswers.mono hbelow)
  | whileFalse htest => exact .whileFalse (hbelow.coerce_done htest)
  | whileTrue htest hanswer _ ih =>
    exact .whileTrue (hbelow.coerce_done htest) (hbelow.coerce_done hanswer) ih

/-! ## Loops -/

/-- The last answer of a loop is that of the last round. -/
theorem repeatLoop_done_iff {count : Nat} {last : Value} :
    repeatLoop (e.coerce .anything action scope) count last store = .done answer after ↔
      ∃ answers, Evaluates e scope action count store answers after ∧
        answer = answers.getLastD last := by
  induction count generalizing store last with
  | zero =>
    constructor
    · rintro ⟨⟩
      exact ⟨[], .zero, rfl⟩
    · rintro ⟨answers, hanswers, rfl⟩
      cases hanswers
      rfl
  | succ count ih =>
    constructor
    · intro h
      obtain ⟨first, between, hfirst, hrest⟩ := Outcome.andThen_eq_done h
      obtain ⟨answers, hanswers, rfl⟩ := ih.1 hrest
      exact ⟨first :: answers, .succ hfirst hanswers, (List.getLastD_cons ..).symm⟩
    · rintro ⟨answers, hanswers, rfl⟩
      cases hanswers with
      | succ hfirst hrest =>
        exact (Eval.bind_done hfirst).trans (ih.2 ⟨_, hrest, List.getLastD_cons ..⟩)

theorem unbox_bool_done_iff {flag : Bool} :
    Bridge.bool.unbox e scope subject store = .done flag after ↔
      e.coerce .boolean subject scope store = .done (.boolean flag) after := by
  constructor
  · intro h
    obtain ⟨found, between, hfound, hflag⟩ := Outcome.andThen_eq_done h
    cases found with
    | boolean given =>
      cases hflag
      exact hfound
    | _ => cases hflag
  · intro h
    exact Eval.bind_done h

theorem whileLoop_done_iff {rounds : Nat} {last : Value} :
    whileLoop (Bridge.bool.unbox e scope subject) (e.coerce .anything action scope) rounds last
        store = .done answer after ↔
      ∃ answers, Acts e scope subject action .whileDo store answers after ∧
        answers.length < rounds ∧ answer = answers.getLastD last := by
  induction rounds generalizing store last with
  | zero =>
    constructor
    · rintro ⟨⟩
    · rintro ⟨answers, -, hrounds, -⟩
      exact absurd hrounds (Nat.not_lt_zero _)
  | succ rounds ih =>
    constructor
    · intro h
      obtain ⟨flag, tested, htest, hrest⟩ := Outcome.andThen_eq_done h
      cases flag with
      | false =>
        cases hrest
        exact ⟨[], .whileFalse (unbox_bool_done_iff.1 htest), Nat.succ_pos _, rfl⟩
      | true =>
        obtain ⟨first, between, hfirst, hrest⟩ := Outcome.andThen_eq_done hrest
        obtain ⟨answers, hanswers, hrounds, rfl⟩ := ih.1 hrest
        exact ⟨first :: answers, .whileTrue (unbox_bool_done_iff.1 htest) hfirst hanswers,
          Nat.succ_lt_succ hrounds, (List.getLastD_cons ..).symm⟩
    · rintro ⟨answers, hanswers, hrounds, rfl⟩
      cases hanswers with
      | whileFalse htest => exact Eval.bind_done (unbox_bool_done_iff.2 htest)
      | whileTrue htest hfirst hrest =>
        refine (Eval.bind_done (unbox_bool_done_iff.2 htest)).trans
          ((Eval.bind_done hfirst).trans (ih.2 ?_))
        exact ⟨_, hrest, Nat.lt_of_succ_lt_succ hrounds, List.getLastD_cons ..⟩

/-! ## Calls -/

/-- The body of each control, once its subject is coerced, does what the relation says. -/
theorem perform_ifThen_iff :
    (∃ v between, coerce (fuel + 1) .boolean subject scope store = .done v between ∧
      perform (evaluator (fuel + 1)) ⟨command, scope, [v, action]⟩ .ifThen between =
        .done answer after) ↔
      ∃ answers, Acts (evaluator (fuel + 1)) scope subject action .ifThen store answers after ∧
        answer = answers.getLastD .didNothing := by
  constructor
  · rintro ⟨v, between, htest, hperform⟩
    obtain ⟨-, flag, rfl⟩ :=
      (coerce_ensures_shape (fuel + 1) .boolean subject scope).of_done trivial htest
    cases flag with
    | false =>
      cases hperform
      exact ⟨[], .ifFalse htest, rfl⟩
    | true => exact ⟨[answer], .ifTrue htest hperform, rfl⟩
  · rintro ⟨answers, hacts, rfl⟩
    cases hacts with
    | ifFalse htest => exact ⟨_, _, htest, rfl⟩
    | ifTrue htest hanswer => exact ⟨_, _, htest, hanswer⟩

/-- The count was coerced when the arguments were bound, and is only read. -/
theorem perform_repeatTimes {content : TextValue} {count : Int64} {radix : Nat}
    (h : content.scalar = .integer count radix) :
    perform (evaluator (fuel + 1)) ⟨command, scope, [.text content, action]⟩ .repeatTimes store =
      repeatLoop ((evaluator (fuel + 1)).coerce .anything action scope) count.toInt.toNat
        .didNothing store := by
  have hcoerce : coerce (fuel + 1) .integer (.text content) scope store =
      .done (.text content) store := by
    change checkScalar .integer content _ content.scalar.toInt64 store = _
    rw [h]
    rfl
  have hread : Bridge.integer.unbox (evaluator (fuel + 1)) scope (.text content) store =
      .done count store := by
    refine (Eval.bind_done hcoerce).trans ?_
    simp only [h]
    rfl
  exact Eval.bind_done hread

theorem perform_repeatTimes_iff :
    (∃ v between, coerce (fuel + 1) .integer subject scope store = .done v between ∧
      perform (evaluator (fuel + 1)) ⟨command, scope, [v, action]⟩ .repeatTimes between =
        .done answer after) ↔
      ∃ answers, Acts (evaluator (fuel + 1)) scope subject action .repeatTimes store answers after ∧
        answer = answers.getLastD .didNothing := by
  constructor
  · rintro ⟨v, between, hcount, hperform⟩
    obtain ⟨-, content, count, radix, rfl, hscalar⟩ :=
      (coerce_ensures_shape (fuel + 1) .integer subject scope).of_done trivial hcount
    rw [perform_repeatTimes hscalar] at hperform
    obtain ⟨answers, hanswers, rfl⟩ := repeatLoop_done_iff.1 hperform
    exact ⟨answers, .repeatTimes hcount (by rw [hscalar]; rfl) hanswers, rfl⟩
  · rintro ⟨answers, hacts, rfl⟩
    cases hacts with
    | @repeatTimes _ between _ content count _ hcount hnumber hanswers =>
      obtain ⟨-, _, number, radix, hcontent, hscalar⟩ :=
        (coerce_ensures_shape (fuel + 1) .integer subject scope).of_done trivial hcount
      cases hcontent
      rw [hscalar] at hnumber
      cases hnumber
      refine ⟨_, _, hcount, ?_⟩
      rw [perform_repeatTimes hscalar]
      exact repeatLoop_done_iff.2 ⟨answers, hanswers, rfl⟩

theorem perform_control_iff (control : Control) :
    (∃ v between, coerce (fuel + 1) control.subject.coercion subject scope store =
        .done v between ∧
      perform (evaluator (fuel + 1)) ⟨command, scope, [v, action]⟩ control.body between =
        .done answer after) ↔
      ∃ answers, Acts (evaluator (fuel + 1)) scope subject action control store answers after ∧
        control.InRounds (fuel + 1) answers ∧ answer = answers.getLastD .didNothing := by
  cases control with
  | ifThen =>
    simp only [Control.InRounds, true_and]
    exact perform_ifThen_iff
  | repeatTimes =>
    simp only [Control.InRounds, true_and]
    exact perform_repeatTimes_iff
  | whileDo =>
    refine Iff.trans ⟨?_, fun h => ⟨subject, store, rfl, h⟩⟩ whileLoop_done_iff
    rintro ⟨v, between, hsubject, hperform⟩
    cases hsubject
    exact hperform

/-- A command evaluates its action again and again, as the control structure it stands for says. -/
def CommandActs (e : Evaluator) (control : Control) (command : Command) (scope : Scope)
    (store : Store) (answers : List Value) (after : Store) : Prop :=
  ∃ subject action, Passes control.parameters command.arguments [subject, action] ∧
    Acts e scope subject action control store answers after

theorem causing_done_iff {action : Eval Value} {tell : Store → Failure} :
    Eval.causing tell action store = .done answer after ↔ action store = .done answer after := by
  unfold Eval.causing
  cases action store with
  | done result reached => exact Iff.rfl
  | failed problem reached => exact ⟨nofun, nofun⟩
  | outOfFuel => exact Iff.rfl

/-- A control structure ends with the last answer of its action. -/
theorem run_control_iff (h : StandsFor scope store command.name control.body) :
    run (fuel + 2) (.command command) scope store = .done answer after ↔
      ∃ answers, CommandActs (evaluator (fuel + 1)) control command scope store answers after ∧
        control.InRounds (fuel + 1) answers ∧ answer = answers.getLastD .didNothing := by
  obtain ⟨definition, hmem, hbody, hrun⟩ := run_standsFor h
  have hparameters := control.library_parameters definition hmem hbody
  rw [hrun]
  constructor
  · intro hdone
    obtain ⟨values, between, hvalues, hperform⟩ := Outcome.andThen_eq_done hdone
    obtain ⟨subject, action, v, w, tested, hpasses, hsubject, haction, rfl⟩ :=
      (bindArguments_pair hparameters).1 hvalues
    -- The action is wanted as an expression, so it stays as it is.
    cases haction
    obtain ⟨answers, hacts, hrounds, hanswer⟩ :=
      (perform_control_iff control).1 ⟨v, _, hsubject, causing_done_iff.1 hperform⟩
    exact ⟨answers, ⟨subject, action, hpasses, hacts⟩, hrounds, hanswer⟩
  · rintro ⟨answers, ⟨subject, action, hpasses, hacts⟩, hrounds, hanswer⟩
    obtain ⟨v, between, hsubject, hperform⟩ :=
      (perform_control_iff control).2 ⟨answers, hacts, hrounds, hanswer⟩
    have hvalues : bindArguments (evaluator (fuel + 1)) definition.interface command scope false
        store = .done [v, action] between :=
      (bindArguments_pair hparameters).2
        ⟨subject, action, v, action, between, hpasses, hsubject, rfl, rfl⟩
    exact (Eval.bind_done hvalues).trans (causing_done_iff.2 hperform)

/-! ## Alternatives -/

/-- The alternative of `else` in place of the answer that says that nothing was done. -/
def orAlternative (alternative : Eval Value) : Value → Eval Value
  | .didNothing => alternative
  | answer => pure answer

/-- `else` runs its action, and then its alternative if nothing was done. -/
theorem run_orElse {alternative : Value} (h : StandsFor scope store command.name .orElse)
    (hpasses : Passes Library.elseInterface.parameters command.arguments [action, alternative]) :
    run (fuel + 2) (.command command) scope store =
      (run (fuel + 1) action scope >>=
        orAlternative (coerce (fuel + 1) .anything alternative scope)).causing
          (handlerFailure Library.elseInterface.name command) store := by
  obtain ⟨definition, hmem, hbody, hrun⟩ := run_standsFor h
  rw [Library.elseInterface_eq definition hmem hbody] at hrun
  have hvalues : bindArguments (evaluator (fuel + 1)) Library.elseInterface command scope false
      store = .done [action, alternative] store :=
    (bindArguments_pair rfl).2 ⟨action, alternative, _, _, _, hpasses, rfl, rfl, rfl⟩
  rw [hrun, Eval.bind_done hvalues]
  rfl

/-! ## What comes of them -/

/-- Running a value ends in some way, with enough fuel, its answer as it is. -/
def RunEndsIn (value : Value) (scope : Scope) (store : Store) (outcome : Outcome Value) : Prop :=
  outcome ≠ .outOfFuel ∧ ∃ fuel, run fuel value scope store = outcome

/-- More fuel does not change how a run ends. -/
theorem run_endsIn {fuel' : Nat} {outcome : Outcome Value} (hfuel : fuel ≤ fuel')
    (h : run fuel value scope store = outcome) (hends : outcome ≠ .outOfFuel) :
    run fuel' value scope store = outcome :=
  ((run_below hfuel value scope).eq (h ▸ hends)).trans h

/-- What is evaluated is never taken for nothing done. -/
theorem coerce_anything_ne_didNothing (fuel : Nat) (value : Value) (scope : Scope) :
    (coerce fuel .anything value scope).Ensures (fun _ => True) (· ≠ .didNothing) anyError := by
  have hcollapse (answer : Value) : collapse answer ≠ .didNothing := by
    cases answer with
    | _ => exact nofun
  cases fuel with
  | zero => exact .exhausted
  | succ fuel =>
    refine .recover (.bind .any fun answer _ => .pure (hcollapse answer)) (.done nofun) ?_
    exact fun _ _ _ => trivial

theorem Evaluates.ne_didNothing {count : Nat}
    (h : Evaluates (evaluator fuel) scope action count store answers after) :
    ∀ answer ∈ answers, answer ≠ .didNothing := by
  induction h with
  | zero => exact nofun
  | succ hanswer _ ih =>
    have hfirst := (coerce_anything_ne_didNothing fuel action scope).of_done trivial hanswer
    exact List.forall_mem_cons.2 ⟨hfirst.2, ih⟩

theorem Acts.ne_didNothing
    (h : Acts (evaluator fuel) scope subject action control store answers after) :
    ∀ answer ∈ answers, answer ≠ .didNothing := by
  have hanswers {store after : Store} {answer : Value}
      (hanswer : coerce fuel .anything action scope store = .done answer after) :
      answer ≠ .didNothing :=
    ((coerce_anything_ne_didNothing fuel action scope).of_done trivial hanswer).2
  induction h with
  | ifFalse => exact nofun
  | ifTrue _ hanswer => exact List.forall_mem_singleton.2 (hanswers hanswer)
  | repeatTimes _ _ hevaluates => exact hevaluates.ne_didNothing
  | whileFalse => exact nofun
  | whileTrue _ hanswer _ ih => exact List.forall_mem_cons.2 ⟨hanswers hanswer, ih⟩

/-- A command that acts ends with its last answer, with enough fuel. -/
theorem CommandActs.run_eq (hstands : StandsFor scope store command.name control.body)
    (h : CommandActs (evaluator fuel) control command scope store answers after) {fuel' : Nat}
    (hfuel : fuel ≤ fuel') (hrounds : answers.length ≤ fuel') :
    run (fuel' + 2) (.command command) scope store =
      .done (answers.getLastD .didNothing) after := by
  obtain ⟨subject, action, hpasses, hacts⟩ := h
  have hmore := hacts.mono (evaluator_below (Nat.le_succ_of_le hfuel))
  have hlimit : control.InRounds (fuel' + 1) answers := by
    cases control with
    | ifThen => trivial
    | repeatTimes => trivial
    | whileDo => exact Nat.lt_succ_of_le hrounds
  exact (run_control_iff hstands).2 ⟨answers, ⟨subject, action, hpasses, hmore⟩, hlimit, rfl⟩

theorem runEndsIn_control_iff (hstands : StandsFor scope store command.name control.body) :
    RunEndsIn (.command command) scope store (.done answer after) ↔
      ∃ fuel answers, CommandActs (evaluator fuel) control command scope store answers after ∧
        answer = answers.getLastD .didNothing := by
  constructor
  · rintro ⟨-, fuel, hrun⟩
    have hmore := run_endsIn (Nat.le_add_right fuel 2) hrun nofun
    obtain ⟨answers, hacts, -, hanswer⟩ := (run_control_iff hstands).1 hmore
    exact ⟨_, answers, hacts, hanswer⟩
  · rintro ⟨fuel, answers, hacts, rfl⟩
    exact ⟨nofun, _, hacts.run_eq hstands (Nat.le_max_left fuel answers.length)
      (Nat.le_max_right fuel answers.length)⟩

section Else

variable {first : Command} {alternative : Value}

/-- After a command that acts, `else` goes by the last answer. -/
theorem CommandActs.run_else (hfirst : StandsFor scope store first.name control.body)
    (helse : StandsFor scope store command.name .orElse)
    (hpasses : Passes Library.elseInterface.parameters command.arguments
      [.command first, alternative])
    (h : CommandActs (evaluator fuel) control first scope store answers after) (fuel' : Nat)
    (hfuel : max fuel answers.length ≤ fuel') :
    run (fuel' + 3) (.command command) scope store =
      (orAlternative (coerce (fuel' + 2) .anything alternative scope)
        (answers.getLastD .didNothing)).causing
          (handlerFailure Library.elseInterface.name command) after := by
  rw [run_orElse helse hpasses]
  have hrun := h.run_eq hfirst (Nat.max_le.1 hfuel).1 (Nat.max_le.1 hfuel).2
  simp only [Eval.causing, Eval.bind_done hrun]

theorem causing_failed_iff {action : Eval Value} {tell : Store → Failure} {problem : EvalError} :
    Eval.causing tell action store = .failed problem after ↔
      ∃ cause, action store = .failed cause after ∧ problem = .caused (tell after) cause := by
  unfold Eval.causing
  cases action store with
  | done result reached => exact ⟨nofun, nofun⟩
  | failed cause reached =>
    constructor
    · rintro ⟨⟩
      exact ⟨cause, rfl, rfl⟩
    · rintro ⟨_, ⟨⟩, rfl⟩
      rfl
  | outOfFuel => exact ⟨nofun, nofun⟩

/-- How a run ends is told by the runs with enough fuel. -/
theorem runEndsIn_iff {bound : Nat} {ends : Nat → Outcome Value}
    (hrun : ∀ fuel, bound ≤ fuel → run (fuel + 3) value scope store = ends fuel)
    {outcome : Outcome Value} (hends : outcome ≠ .outOfFuel) :
    RunEndsIn value scope store outcome ↔ ∃ fuel, bound ≤ fuel ∧ ends fuel = outcome := by
  constructor
  · rintro ⟨-, fuel, hfuel⟩
    have hbound : bound ≤ max bound fuel := Nat.le_max_left bound fuel
    have hmore : run (max bound fuel + 3) value scope store = outcome :=
      run_endsIn (Nat.le_add_right_of_le (Nat.le_max_right bound fuel)) hfuel hends
    exact ⟨_, hbound, (hrun _ hbound).symm.trans hmore⟩
  · rintro ⟨fuel, hbound, hsame⟩
    exact ⟨hends, _, (hrun fuel hbound).trans hsame⟩

/-- How a value ends is told by the evaluations with enough fuel. -/
theorem endsIn_iff (bound : Nat) {outcome : Outcome Value} (hends : outcome ≠ .outOfFuel) :
    EndsIn value scope store outcome ↔
      ∃ fuel, bound ≤ fuel ∧ coerce (fuel + 2) .anything value scope store = outcome := by
  constructor
  · rintro ⟨-, fuel, hfuel⟩
    exact ⟨max bound fuel, Nat.le_max_left bound fuel,
      coerce_endsIn (Nat.le_add_right_of_le (Nat.le_max_right bound fuel)) hfuel hends⟩
  · rintro ⟨fuel, -, hfuel⟩
    exact ⟨hends, _, hfuel⟩

/-- An answer that is not the sentinel is kept. -/
theorem orAlternative_of_ne {instead : Eval Value} (h : answer ≠ .didNothing) :
    orAlternative instead answer = pure answer := by
  cases answer with
  | didNothing => exact absurd rfl h
  | _ => rfl

/-- If nothing was done, the alternative is evaluated where the action was. -/
theorem else_of_nothing {bound : Nat}
    (helse : ∀ fuel, bound ≤ fuel → run (fuel + 3) (.command command) scope store =
      (coerce (fuel + 2) .anything alternative scope).causing
        (handlerFailure Library.elseInterface.name command) after) :
    (∀ result last, RunEndsIn (.command command) scope store (.done result last) ↔
      EndsIn alternative scope after (.done result last)) ∧
    ∀ problem last, RunEndsIn (.command command) scope store (.failed problem last) ↔
      ∃ cause, EndsIn alternative scope after (.failed cause last) ∧
        problem = .caused (handlerFailure Library.elseInterface.name command last) cause := by
  refine ⟨fun result last => ?_, fun problem last => ?_⟩
  · rw [endsIn_iff bound (by rintro ⟨⟩), runEndsIn_iff helse (by rintro ⟨⟩)]
    exact exists_congr fun fuel => and_congr_right fun _ => causing_done_iff
  · rw [runEndsIn_iff helse (by rintro ⟨⟩)]
    constructor
    · rintro ⟨fuel, hbound, hfailed⟩
      obtain ⟨cause, halternative, rfl⟩ := causing_failed_iff.1 hfailed
      exact ⟨cause, (endsIn_iff bound (by rintro ⟨⟩)).2 ⟨fuel, hbound, halternative⟩, rfl⟩
    · rintro ⟨cause, halternative, rfl⟩
      obtain ⟨fuel, hbound, hfailed⟩ := (endsIn_iff bound (by rintro ⟨⟩)).1 halternative
      exact ⟨fuel, hbound, causing_failed_iff.2 ⟨cause, hfailed, rfl⟩⟩

/-- A control structure in front of `else` decides whether the alternative is evaluated.

* The command in front ends without an error exactly if it acts.  Its answer is the last of the
  action, or says that nothing was done.
* If the action was never evaluated, the alternative is, and `else` ends as it does.
* If it was, the last answer is the result, and the alternative is not evaluated. -/
theorem else_iff_did_nothing (hfirst : StandsFor scope store first.name control.body)
    (helse : StandsFor scope store command.name .orElse)
    (hpasses : Passes Library.elseInterface.parameters command.arguments
      [.command first, alternative]) :
    (∀ answer after, RunEndsIn (.command first) scope store (.done answer after) ↔
      ∃ fuel answers, CommandActs (evaluator fuel) control first scope store answers after ∧
        answer = answers.getLastD .didNothing) ∧
    ∀ fuel answers after, CommandActs (evaluator fuel) control first scope store answers after →
      (answers = [] →
        (∀ result last, RunEndsIn (.command command) scope store (.done result last) ↔
          EndsIn alternative scope after (.done result last)) ∧
        ∀ problem last, RunEndsIn (.command command) scope store (.failed problem last) ↔
          ∃ cause, EndsIn alternative scope after (.failed cause last) ∧
            problem = .caused (handlerFailure Library.elseInterface.name command last) cause) ∧
      ∀ front answer, answers = front ++ [answer] →
        ∀ outcome, RunEndsIn (.command command) scope store outcome ↔
          outcome = .done answer after := by
  refine ⟨fun _ _ => runEndsIn_control_iff hfirst, fun fuel answers after hacts => ?_⟩
  have hruns := hacts.run_else hfirst helse hpasses
  refine ⟨?_, ?_⟩
  · rintro rfl
    exact else_of_nothing hruns
  · rintro front answer rfl outcome
    -- The action was coerced to anything, so its answer is not taken for nothing done.
    obtain ⟨subject, action, -, hanswers⟩ := hacts
    have hanswer : answer ≠ .didNothing :=
      hanswers.ne_didNothing answer (List.mem_append_right _ (List.mem_singleton_self _))
    simp only [List.getLastD_concat, orAlternative_of_ne hanswer] at hruns
    constructor
    · rintro ⟨hends, hrun⟩
      obtain ⟨fuel', -, hsame⟩ := (runEndsIn_iff hruns hends).1 ⟨hends, hrun⟩
      exact hsame.symm
    · rintro rfl
      exact (runEndsIn_iff hruns (by rintro ⟨⟩)).2 ⟨_, Nat.le_refl _, rfl⟩

/-- In `if true { if false { 1 } } else { 2 }` the action of the outer `if` is evaluated, and comes
to nothing.  In `if false { 1 } else { 2 }` no action is. -/
theorem else_iff_did_nothing_nested :
    let conditional := Library.define "if" Control.ifThen.parameters .anything .ifThen
    let store : Store := ⟨#[[
      ⟨.ofString "if", .handler (.primitive 0 conditional.interface .ifThen), true⟩,
      ⟨.ofString "else", .handler (.primitive 1 Library.elseInterface .orElse), true⟩]], none, 2⟩
    let here : Scope := .frame (.root 0)
    let inner : Command :=
      ⟨.ofString "if", [⟨none, .boolean false⟩, ⟨none, .block [.ofInt64 1]⟩], none⟩
    let outer : Command :=
      ⟨.ofString "if", [⟨none, .boolean true⟩, ⟨none, .block [.command inner]⟩], none⟩
    let otherwise (first : Command) : Command :=
      ⟨.ofString "else", [⟨none, .command first⟩, ⟨none, .block [.ofInt64 2]⟩], none⟩
    RunEndsIn (.command outer) here store (.done .nothing store) ∧
    RunEndsIn (.command (otherwise outer)) here store (.done .nothing store) ∧
    RunEndsIn (.command inner) here store (.done .didNothing store) ∧
    RunEndsIn (.command (otherwise inner)) here store (.done (.ofInt64 2) store) := by
  intro conditional store here inner outer otherwise
  have hconditional : StandsFor here store (.ofString "if") Control.ifThen.body :=
    ⟨conditional, Control.ifThen.mem_handlers, rfl, rfl, 0, _, _, rfl, .handler⟩
  have helse (first : Command) : StandsFor here store (otherwise first).name .orElse :=
    ⟨⟨Library.elseInterface, .orElse⟩, Library.mem_else, rfl, rfl, 1, _, _, rfl, .handler⟩
  have houter : CommandActs (evaluator 5) .ifThen outer here store [.nothing] store :=
    ⟨_, _, passes_pair _ _ _ _, .ifTrue rfl rfl⟩
  have hinner : CommandActs (evaluator 5) .ifThen inner here store [] store :=
    ⟨_, _, passes_pair _ _ _ _, .ifFalse rfl⟩
  obtain ⟨hrun, hends⟩ :=
    else_iff_did_nothing (hconditional : StandsFor here store outer.name _) (helse outer)
      (passes_pair _ _ _ _)
  obtain ⟨hrun', hends'⟩ :=
    else_iff_did_nothing (hconditional : StandsFor here store inner.name _) (helse inner)
      (passes_pair _ _ _ _)
  refine ⟨(hrun _ _).2 ⟨5, _, houter, rfl⟩, ?_, (hrun' _ _).2 ⟨5, _, hinner, rfl⟩, ?_⟩
  · exact ((hends 5 _ _ houter).2 [] .nothing rfl _).2 rfl
  · obtain ⟨hdone, -⟩ := (hends' 5 _ _ hinner).1 rfl
    exact (hdone _ _).2 ⟨by rintro ⟨⟩, 5, rfl⟩

end Else

end Evaluation

end CommandScript
