import CommandScript.Proofs.Absence
import CommandScript.Proofs.Fuel
import CommandScript.Proofs.Joining
import CommandScript.Proofs.Session

/-!
# Scripts in parts

A script in two parts does what its parts do one after the other.

The last statement of a script is run and its answer coerced, and any other is coerced at once.  In
a frame the two come to the same: what an expression is wanted as only matters at the end, where its
answer is coerced.  So the first part of a script is its statements, each coerced to anything,
whether the second part follows or not.

The two sides use fuel differently.  Each is below the other with a little more fuel, so they end in
the same ways.
-/

namespace CommandScript

/-- Only what comes next can be recovered from, if what comes first fails with errors that last. -/
theorem Eval.recover_bind {α β : Type} {catches : EvalError → Bool} {first : Eval α}
    {next : α → Eval β} {instead : Eval β}
    (h : first.Ensures (fun _ => True) (fun _ => True) fun problem => catches problem = false) :
    Eval.recover catches (first >>= next) instead =
      first >>= fun value => Eval.recover catches (next value) instead := by
  funext store
  have hend := h store trivial
  change Eval.recover catches (Eval.andThen first next) instead store =
    Eval.andThen first (fun value => Eval.recover catches (next value) instead) store
  unfold Eval.recover Eval.andThen
  cases hfirst : first store with
  | done value after => rfl
  | failed problem after =>
    rw [hfirst] at hend
    have hmissed : catches problem = false := hend.2
    simp [hmissed]
  | outOfFuel => rfl

namespace Evaluation

variable {e : Evaluator} {wanted : Coercion}

/-! ## What is wanted matters at the end -/

/-- An evaluator that hands on expressions as they are, for as long as it has fuel. -/
def HandsOn (e : Evaluator) : Prop :=
  ∀ wanted value scope, (e.coerce .expression value scope >>= fun answer =>
    e.coerce wanted answer scope) = e.coerce wanted value scope

/-- A result may be coerced where it is wanted or after it is handed on. -/
theorem evaluator_handsOn (fuel : Nat) : HandsOn (evaluator fuel) := by
  intro wanted value scope
  cases fuel <;> rfl

/-- So it may behind each way of calling. -/
theorem callHandler_expression (he : HandsOn e) (command : Command) (caller owner : Scope)
    (handler : Handler) :
    callHandler e command caller owner wanted handler =
      callHandler e command caller owner .expression handler >>=
        fun answer => e.coerce wanted answer caller := by
  cases handler with
  | native id interface action isEvent =>
    simp only [callHandler, Eval.bind_assoc, he wanted]
  | primitive id interface body =>
    simp only [callHandler, Eval.bind_assoc, he wanted]

theorem callFound_expression (he : HandsOn e) (command : Command) (caller owner : Scope)
    (callee : Value) :
    callFound e command caller owner wanted callee =
      callFound e command caller owner .expression callee >>=
        fun answer => e.coerce wanted answer caller := by
  cases callee with
  | handler handler => exact callHandler_expression he command caller owner handler
  | closure handler scope => exact callHandler_expression he command caller scope handler
  | coercion given =>
    simp only [callFound]
    split
    next => exact (he wanted _ caller).symm
    next => simp only [callCoercion, Eval.bind_assoc, he wanted]
  | _ =>
    simp only [callFound]
    split
    next => exact (he wanted _ caller).symm
    next => rfl

theorem handleByName_expression (he : HandsOn e) (command : Command) (caller receiver : Scope) :
    handleByName e command caller receiver wanted =
      handleByName e command caller receiver .expression >>=
        fun answer => e.coerce wanted answer caller := by
  simp only [handleByName, Eval.bind_assoc]
  congr 1
  funext found
  split
  next value owner => exact callFound_expression he command caller owner value
  next => rfl

theorem runStatements_expression (he : HandsOn e) (scope : Scope) (items : List Value) :
    runStatements e scope wanted items =
      runStatements e scope .expression items >>= fun answer => e.coerce wanted answer scope := by
  induction items with
  | nil => exact (he wanted _ scope).symm
  | cons item items ih =>
    cases items with
    | nil => simp only [runStatements, Eval.bind_assoc, he wanted]
    | cons next others =>
      simp only [runStatements, Eval.bind_assoc] at ih ⊢
      rw [ih]

/-- An expression in a frame is run, and its answer coerced. -/
theorem runOr_expression (he : HandsOn e) (environment : Environment) {value : Value}
    (hvalue : value.isExpression = true) (otherwise otherwise' : Eval Value) :
    runOr e (.frame environment) wanted value otherwise =
      runOr e (.frame environment) .expression value otherwise' >>=
        fun answer => e.coerce wanted answer (.frame environment) := by
  cases value with
  | identifier name => simp only [runOr, Eval.bind_assoc, he wanted]
  | command command => exact handleByName_expression he command _ _
  | block items => exact runStatements_expression he _ items
  | thunk id body captured inner => simp only [runOr, Eval.bind_assoc, he wanted]
  | _ => cases hvalue

/-! ## Blocks -/

variable {environment : Environment}

theorem coerce_below {fuel fuel' : Nat} (h : fuel ≤ fuel') (wanted : Coercion) (value : Value)
    (scope : Scope) :
    (coerce fuel wanted value scope).Below (coerce fuel' wanted value scope) :=
  (evaluator_below h).coerce wanted value scope

theorem run_below {fuel fuel' : Nat} (h : fuel ≤ fuel') (value : Value) (scope : Scope) :
    (run fuel value scope).Below (run fuel' value scope) :=
  (evaluator_below h).run value scope

/-- An answer coerced to anything, with nothing in its place if there is none. -/
def settle (answer : Eval Value) : Eval Value :=
  Eval.recover EvalError.isAbsence (answer >>= fun value => pure (collapse value))
    (Eval.done .nothing)

theorem settle_below {answer other : Eval Value} (h : answer.Below other) :
    (settle answer).Below (settle other) :=
  .recover (.bindFirst h) (.refl _) _

/-- What was coerced to anything is settled. -/
theorem settle_coerce (fuel : Nat) (value : Value) (scope : Scope) :
    settle (coerce fuel .anything value scope) = coerce fuel .anything value scope := by
  have hensures : (coerce fuel .anything value scope).Ensures (fun _ => True)
      (fun result => collapse result = result) EvalError.Lasting := by
    cases fuel with
    | zero => exact .exhausted
    | succ fuel =>
      have hanswer (answer : Eval Value) : (answer >>= fun value => pure (collapse value)).Ensures
          (fun _ => True) (fun result => collapse result = result) anyError := by
        refine .bind .any fun value _ => .pure ?_
        cases value <;> rfl
      exact .recover (hanswer _) (.done rfl) fun _ hlasting _ => hlasting
  funext store
  have hend := hensures store trivial
  change Eval.recover EvalError.isAbsence (Eval.andThen (coerce fuel .anything value scope)
    fun value => Eval.done (collapse value)) (Eval.done .nothing) store = _
  unfold Eval.recover Eval.andThen
  cases hrun : coerce fuel .anything value scope store with
  | done result after =>
    rw [hrun] at hend
    simp only [Eval.done, hend.2]
  | failed problem after =>
    rw [hrun] at hend
    have hlasting : problem.isAbsence = false := hend.2
    simp [hlasting]
  | outOfFuel => rfl

theorem coerce_single (fuel : Nat) (value : Value) (scope : Scope) :
    coerce (fuel + 1) .anything (.block [value]) scope =
      settle (run fuel value scope >>= fun answer => coerce fuel .anything answer scope) := rfl

/-- What is no expression runs to itself. -/
theorem run_of_plain {value : Value} (h : value.isExpression = false) (fuel : Nat) (scope : Scope) :
    run (fuel + 1) value scope = pure value := by
  cases value with
  | identifier _ | command _ | block _ | thunk _ _ _ _ => cases h
  | _ => rfl

/-- An expression is run, and its answer coerced. -/
theorem coerce_expression {value : Value} (h : value.isExpression = true) (fuel : Nat) :
    coerce (fuel + 2) .anything value (.frame environment) =
      settle (run (fuel + 2) value (.frame environment) >>=
        fun answer => coerce (fuel + 1) .anything answer (.frame environment)) :=
  congrArg settle (runOr_expression (evaluator_handsOn (fuel + 1)) environment h _ _)

/-- A block with one expression does no more than the expression. -/
theorem coerce_single_below (fuel : Nat) (value : Value) :
    (coerce fuel .anything (.block [value]) (.frame environment)).Below
      (coerce fuel .anything value (.frame environment)) := by
  match fuel with
  | 0 => exact .exhausted _
  | 1 => exact fun _ => .inl rfl
  | fuel + 2 =>
    rw [coerce_single]
    cases hvalue : value.isExpression with
    | true =>
      rw [coerce_expression hvalue]
      exact settle_below (.bindFirst (run_below (Nat.le_succ _) _ _))
    | false =>
      rw [run_of_plain hvalue, Eval.pure_bind, settle_coerce]
      exact coerce_below (Nat.le_succ _) _ _ _

/-- An expression does no more than a block with it. -/
theorem below_coerce_single (fuel : Nat) (value : Value) :
    (coerce fuel .anything value (.frame environment)).Below
      (coerce (fuel + 2) .anything (.block [value]) (.frame environment)) := by
  match fuel with
  | 0 => exact .exhausted _
  | fuel + 1 =>
    rw [coerce_single]
    cases hvalue : value.isExpression with
    | true =>
      refine (coerce_below (Nat.le_succ _) _ _ _).trans ?_
      rw [coerce_expression hvalue]
      exact settle_below (.bindNext fun answer => coerce_below (Nat.le_succ _) _ _ _)
    | false =>
      rw [run_of_plain hvalue, Eval.pure_bind, settle_coerce]
      exact coerce_below (Nat.le_succ _) _ _ _

/-- Expressions coerced to anything, one after the other. -/
def coerceEach (e : Evaluator) (scope : Scope) : List Value → Eval Unit
  | [] => return ()
  | item :: items => do
    let _ ← e.coerce .anything item scope
    coerceEach e scope items

theorem coerceEach_below {e other : Evaluator} (he : e.Below other) (scope : Scope)
    (items : List Value) : (coerceEach e scope items).Below (coerceEach other scope items) := by
  induction items with
  | nil => exact .refl _
  | cons item items ih => exact .bind (he.coerce .anything item scope) fun _ => ih

/-- Statements are run one after the other. -/
theorem coerceEach_append (e : Evaluator) (scope : Scope) (items others : List Value) :
    coerceEach e scope (items ++ others) =
      coerceEach e scope items >>= fun _ => coerceEach e scope others := by
  induction items with
  | nil => rfl
  | cons item items ih => simp only [List.cons_append, coerceEach, ih, Eval.bind_assoc]

/-- The statements before the last ones are each coerced to anything. -/
theorem coerce_block_append (fuel : Nat) (scope : Scope) (items : List Value) {others : List Value}
    (h : others ≠ []) :
    coerce (fuel + 1) .anything (.block (items ++ others)) scope =
      coerceEach (evaluator fuel) scope items >>=
        fun _ => coerce (fuel + 1) .anything (.block others) scope := by
  have hblock (items : List Value) : coerce (fuel + 1) .anything (.block items) scope =
      settle (runStatements (evaluator fuel) scope .anything items) := rfl
  induction items with
  | nil => rfl
  | cons item items ih =>
    obtain ⟨next, rest, hrest⟩ :=
      List.exists_cons_of_ne_nil (List.append_ne_nil_of_right_ne_nil items h)
    have hstatements : runStatements (evaluator fuel) scope .anything (item :: (items ++ others)) =
        coerce fuel .anything item scope >>=
          fun _ => runStatements (evaluator fuel) scope .anything (items ++ others) := by
      rw [hrest]
      rfl
    have hsettle : settle (coerce fuel .anything item scope >>=
        fun _ => runStatements (evaluator fuel) scope .anything (items ++ others)) =
          coerce fuel .anything item scope >>=
            fun _ => settle (runStatements (evaluator fuel) scope .anything (items ++ others)) := by
      unfold settle
      rw [Eval.bind_assoc]
      exact Eval.recover_bind (coerce_anything_failsLasting fuel item scope)
    rw [List.cons_append, hblock, hstatements, hsettle, ← hblock, ih, coerceEach, Eval.bind_assoc]
    rfl

/-- The empty block is nothing. -/
theorem coerce_block_nil (fuel : Nat) (scope : Scope) :
    coerce (fuel + 2) .anything (.block []) scope = pure .nothing := rfl

/-- A block of statements and one more, and others behind. -/
theorem coerce_block_concat (fuel : Nat) (scope : Scope) (front : List Value) (last : Value)
    {others : List Value} (h : others ≠ []) :
    coerce (fuel + 1) .anything (.block (front ++ [last] ++ others)) scope =
      coerceEach (evaluator fuel) scope front >>= fun _ =>
        coerce fuel .anything last scope >>= fun _ =>
          coerce (fuel + 1) .anything (.block others) scope := by
  have hlast : coerceEach (evaluator fuel) scope [last] =
      coerce fuel .anything last scope >>= fun _ => pure () := rfl
  rw [coerce_block_append fuel scope _ h, coerceEach_append, hlast]
  simp only [Eval.bind_assoc, Eval.pure_bind]

theorem exists_concat (items : List Value) :
    items = [] ∨ ∃ front last, items = front ++ [last] := by
  rcases List.eq_nil_or_concat items with hnil | ⟨front, last, hitems⟩
  · exact .inl hnil
  · exact .inr ⟨front, last, hitems.trans List.concat_eq_append⟩

/-- A block in two parts does no more than its parts. -/
theorem coerce_split_below (fuel : Nat) (items : List Value) {others : List Value}
    (h : others ≠ []) :
    (coerce fuel .anything (.block (items ++ others)) (.frame environment)).Below
      (coerce (fuel + 2) .anything (.block items) (.frame environment) >>=
        fun _ => coerce (fuel + 2) .anything (.block others) (.frame environment)) := by
  match fuel with
  | 0 => exact .exhausted _
  | fuel + 1 =>
    have hothers : (coerce (fuel + 1) .anything (.block others) (.frame environment)).Below
        (coerce (fuel + 3) .anything (.block others) (.frame environment)) :=
      coerce_below (Nat.le_add_right _ 2) _ _ _
    rcases exists_concat items with rfl | ⟨front, last, rfl⟩
    · rw [coerce_block_nil, Eval.pure_bind]
      exact hothers
    · rw [coerce_block_concat fuel _ front last h,
        coerce_block_append (fuel + 2) _ front (List.cons_ne_nil last []), Eval.bind_assoc]
      refine .bind (coerceEach_below (evaluator_below (Nat.le_add_right _ 2)) _ _) fun _ => ?_
      have hlast := (below_coerce_single fuel last).trans
        (coerce_below (Nat.le_succ (fuel + 2)) .anything (.block [last]) (.frame environment))
      exact .bind hlast fun _ => hothers

/-- Two blocks do no more than the block made of both. -/
theorem coerce_join_below (fuel : Nat) (items : List Value) {others : List Value}
    (h : others ≠ []) :
    (coerce fuel .anything (.block items) (.frame environment) >>=
        fun _ => coerce fuel .anything (.block others) (.frame environment)).Below
      (coerce (fuel + 1) .anything (.block (items ++ others)) (.frame environment)) := by
  match fuel with
  | 0 => exact .exhausted _
  | fuel + 1 =>
    have hothers : (coerce (fuel + 1) .anything (.block others) (.frame environment)).Below
        (coerce (fuel + 2) .anything (.block others) (.frame environment)) :=
      coerce_below (Nat.le_succ _) _ _ _
    rcases exists_concat items with rfl | ⟨front, last, rfl⟩
    · refine (Eval.Below.bindFirst (coerce_below (Nat.le_succ _) _ _ _)).trans ?_
      rw [coerce_block_nil, Eval.pure_bind]
      exact hothers
    · rw [coerce_block_concat (fuel + 1) _ front last h,
        coerce_block_append fuel _ front (List.cons_ne_nil last []), Eval.bind_assoc]
      refine .bind (coerceEach_below (evaluator_below (Nat.le_succ _)) _ _) fun _ => ?_
      exact .bind (coerce_single_below (fuel + 1) last) fun _ => hothers

/-- Evaluating a value ends in some way, with enough fuel. -/
def EndsIn (value : Value) (scope : Scope) (store : Store) (outcome : Outcome Value) : Prop :=
  outcome ≠ .outOfFuel ∧ ∃ fuel, coerce fuel .anything value scope store = outcome

/-- More fuel does not change how an evaluation ends. -/
theorem coerce_endsIn {fuel fuel' : Nat} {value : Value} {scope : Scope} {store : Store}
    {outcome : Outcome Value} (hfuel : fuel ≤ fuel')
    (h : coerce fuel .anything value scope store = outcome) (hends : outcome ≠ .outOfFuel) :
    coerce fuel' .anything value scope store = outcome :=
  ((coerce_below hfuel .anything value scope).eq (h ▸ hends)).trans h

/-- A block in two parts ends as its parts do one after the other. -/
theorem endsIn_append_iff {items others : List Value} (h : others ≠ []) {store : Store}
    {outcome : Outcome Value} :
    EndsIn (.block (items ++ others)) (.frame environment) store outcome ↔
      (∃ result between, EndsIn (.block items) (.frame environment) store (.done result between) ∧
        EndsIn (.block others) (.frame environment) between outcome) ∨
      ∃ problem after, EndsIn (.block items) (.frame environment) store (.failed problem after) ∧
        outcome = .failed problem after := by
  constructor
  · rintro ⟨hends, fuel, rfl⟩
    have hparts := (coerce_split_below fuel items h).eq hends
    rw [← hparts] at hends ⊢
    cases hpart : coerce (fuel + 2) .anything (.block items) (.frame environment) store with
    | done result between =>
      rw [Eval.bind_done hpart] at hends ⊢
      exact .inl ⟨result, between, ⟨by rintro ⟨⟩, fuel + 2, hpart⟩, hends, fuel + 2, rfl⟩
    | failed problem after =>
      rw [Eval.bind_failed hpart]
      exact .inr ⟨problem, after, ⟨by rintro ⟨⟩, fuel + 2, hpart⟩, rfl⟩
    | outOfFuel =>
      rw [Eval.bind_outOfFuel hpart] at hends
      exact absurd rfl hends
  · rintro (⟨result, between, ⟨-, fuel, hpart⟩, hends, fuel', hpart'⟩ |
      ⟨problem, after, ⟨-, fuel, hpart⟩, rfl⟩)
    · have hfirst := coerce_endsIn (Nat.le_max_left fuel fuel') hpart (by rintro ⟨⟩)
      have hsecond := coerce_endsIn (Nat.le_max_right fuel fuel') hpart' hends
      have hparts : (coerce (max fuel fuel') .anything (.block items) (.frame environment) >>=
          fun _ => coerce (max fuel fuel') .anything (.block others) (.frame environment)) store =
            outcome := (Eval.bind_done hfirst).trans hsecond
      have hjoin := (coerce_join_below (max fuel fuel') items h).eq (hparts ▸ hends)
      exact ⟨hends, _, hjoin.trans hparts⟩
    · have hparts : (coerce fuel .anything (.block items) (.frame environment) >>=
          fun _ => coerce fuel .anything (.block others) (.frame environment)) store =
            .failed problem after := Eval.bind_failed hpart
      have hjoin := (coerce_join_below fuel items h).eq (by rw [hparts]; rintro ⟨⟩)
      exact ⟨by rintro ⟨⟩, _, hjoin.trans hparts⟩

end Evaluation

/-! ## Scripts -/

namespace Interpreter

variable {interpreter : Interpreter} {source : String} {statements : List Value}

/-- A source text ends in some way, with enough fuel. -/
def Ends (interpreter : Interpreter) (source : String) (outcome : ScriptOutcome) : Prop :=
  outcome ≠ .outOfFuel ∧ ∃ fuel, interpreter.evaluate fuel source = outcome

/-- The outcome of a script by that of its block. -/
def outcomeOf (interpreter : Interpreter) : Outcome Value → ScriptOutcome
  | .done result store => .done result { interpreter with store := store }
  | .failed problem store => .failed (.evaluation problem) { interpreter with store := store }
  | .outOfFuel => .outOfFuel

/-- How a script ends is how its block ends. -/
theorem ends_iff (h : readScript interpreter.registry source = .ok statements)
    (outcome : ScriptOutcome) :
    interpreter.Ends source outcome ↔
      ∃ found, Evaluation.EndsIn (.block statements) (.frame interpreter.globals)
          interpreter.store found ∧
        outcome = interpreter.outcomeOf found := by
  have hrun (fuel : Nat) : interpreter.evaluate fuel source =
      interpreter.outcomeOf (Evaluation.coerce fuel .anything (.block statements)
        (.frame interpreter.globals) interpreter.store) := by
    rw [evaluate, h]
    rfl
  constructor
  · rintro ⟨hends, fuel, rfl⟩
    rw [hrun] at hends ⊢
    refine ⟨_, ⟨fun hfuel => ?_, fuel, rfl⟩, rfl⟩
    rw [hfuel] at hends
    exact hends rfl
  · rintro ⟨found, ⟨hends, fuel, rfl⟩, rfl⟩
    refine ⟨?_, fuel, hrun fuel⟩
    cases hfound : Evaluation.coerce fuel .anything (.block statements)
        (.frame interpreter.globals) interpreter.store with
    | done result store => rintro ⟨⟩
    | failed problem store => rintro ⟨⟩
    | outOfFuel => exact absurd hfound hends

theorem ends_done_iff (h : readScript interpreter.registry source = .ok statements)
    {result : Value} {after : Interpreter} :
    interpreter.Ends source (.done result after) ↔
      ∃ store, Evaluation.EndsIn (.block statements) (.frame interpreter.globals) interpreter.store
        (.done result store) ∧ after = { interpreter with store := store } := by
  rw [ends_iff h]
  constructor
  · rintro ⟨found, hfound, hdone⟩
    cases found with
    | done value store =>
      cases hdone
      exact ⟨store, hfound, rfl⟩
    | failed problem store => cases hdone
    | outOfFuel => cases hdone
  · rintro ⟨store, hfound, rfl⟩
    exact ⟨_, hfound, rfl⟩

theorem ends_failed_iff (h : readScript interpreter.registry source = .ok statements)
    {problem : ScriptError} {after : Interpreter} :
    interpreter.Ends source (.failed problem after) ↔
      ∃ cause store, Evaluation.EndsIn (.block statements) (.frame interpreter.globals)
          interpreter.store (.failed cause store) ∧ problem = .evaluation cause ∧
          after = { interpreter with store := store } := by
  rw [ends_iff h]
  constructor
  · rintro ⟨found, hfound, hfailed⟩
    cases found with
    | failed cause store =>
      cases hfailed
      exact ⟨cause, store, hfound, rfl, rfl⟩
    | done value store => cases hfailed
    | outOfFuel => cases hfailed
  · rintro ⟨cause, store, hfound, rfl, rfl⟩
    exact ⟨_, hfound, rfl⟩

/-- A script in two parts, of which the second has a statement, ends as its parts do one after the
other: with what the second part ends with after the first, or with the failure of the first.  The
store, with the lines printed, is part of how a script ends. -/
theorem ends_join_iff (interpreter : Interpreter) (first second : String)
    (statements others : List Value) (outcome : ScriptOutcome)
    (hregistry : Library.registry = .ok interpreter.registry)
    (hfirst : readScript interpreter.registry first = .ok statements)
    (hsecond : readScript interpreter.registry second = .ok others) (hothers : others ≠ []) :
    interpreter.Ends (first ++ "\n" ++ second) outcome ↔
      (∃ result between, interpreter.Ends first (.done result between) ∧
        between.Ends second outcome) ∨
      ∃ problem after, interpreter.Ends first (.failed problem after) ∧
        outcome = .failed problem after := by
  obtain ⟨hregular, hbinding⟩ := Library.registry_regular hregistry
  have hboth := Parser.readScript_join hregular hbinding hfirst hsecond
  have hlater (store : Store) : readScript { interpreter with store := store }.registry second =
      .ok others := hsecond
  rw [ends_iff hboth]
  constructor
  · rintro ⟨found, hfound, rfl⟩
    rcases (Evaluation.endsIn_append_iff hothers).1 hfound with
      ⟨result, between, hdone, hmore⟩ | ⟨cause, after, hfailed, rfl⟩
    · left
      refine ⟨result, { interpreter with store := between }, (ends_done_iff hfirst).2 ?_, ?_⟩
      · exact ⟨between, hdone, rfl⟩
      · exact (ends_iff (hlater between) _).2 ⟨found, hmore, rfl⟩
    · right
      refine ⟨.evaluation cause, { interpreter with store := after }, ?_, rfl⟩
      exact (ends_failed_iff hfirst).2 ⟨cause, after, hfailed, rfl, rfl⟩
  · rintro (⟨result, between, hdone, hmore⟩ | ⟨problem, after, hfailed, rfl⟩)
    · obtain ⟨store, hreaches, rfl⟩ := (ends_done_iff hfirst).1 hdone
      obtain ⟨found, hfound, rfl⟩ := (ends_iff (hlater store) _).1 hmore
      refine ⟨found, (Evaluation.endsIn_append_iff hothers).2 (.inl ?_), rfl⟩
      exact ⟨result, store, hreaches, hfound⟩
    · obtain ⟨cause, store, hreaches, rfl, rfl⟩ := (ends_failed_iff hfirst).1 hfailed
      refine ⟨.failed cause store, (Evaluation.endsIn_append_iff hothers).2 (.inr ?_), rfl⟩
      exact ⟨cause, store, hreaches, rfl⟩

theorem registry_withLibrary {root : Environment} {store : Store} {interpreter : Interpreter}
    (h : withLibrary root store = .ok interpreter) :
    Library.registry = .ok interpreter.registry := by
  obtain ⟨hdone, hinterpreter⟩ := withLibrary_eq h
  rw [hinterpreter, registry_ofRoot]
  exact (Library.load_done hdone).1

/-- A script that was run to its end was read. -/
theorem readScript_of_done {interpreter after : Interpreter} {source : String} {fuel : Nat}
    {result : Value} (h : interpreter.evaluate fuel source = .done result after) :
    ∃ statements, readScript interpreter.registry source = .ok statements := by
  unfold evaluate at h
  split at h
  next => cases h
  next statements hread => exact ⟨statements, hread⟩

/-- A script whose first part ends in a carriage return, and whose second part shows a text and
gives a number with a sign. -/
theorem ends_join_carriage_return :
    ∃ start result between outcome,
      standard = .ok start ∧
      start.Ends "show(“a”)\r" (.done result between) ∧
      between.Ends "show(“b”)\n-2" outcome ∧
      start.Ends ("show(“a”)\r" ++ "\n" ++ "show(“b”)\n-2") outcome := by
  have htest : (standard.toOption.any fun start =>
      ((readScript start.registry "show(“b”)\n-2").toOption.any fun found => !found.isEmpty) &&
      (start.evaluate 60 "show(“a”)\r").continued?.any fun between =>
        (between.evaluate 60 "show(“b”)\n-2").result?.isSome) = true := by
    decide +kernel
  obtain ⟨start, hstart, hpassed⟩ := exists_ok htest
  have hload : withLibrary Store.empty.newRoot.1 Store.empty.newRoot.2 = .ok start := hstart
  have hregistry := registry_withLibrary hload
  rw [Bool.and_eq_true] at hpassed
  obtain ⟨hothers, hruns⟩ := hpassed
  cases hfirst : start.evaluate 60 "show(“a”)\r" with
  | failed problem after =>
    rw [hfirst] at hruns
    cases hruns
  | outOfFuel =>
    rw [hfirst] at hruns
    cases hruns
  | done result between =>
    rw [hfirst] at hruns
    obtain ⟨result', after, hsecond⟩ := ScriptOutcome.eq_done hruns
    obtain ⟨statements, hread⟩ := readScript_of_done hfirst
    have hdone : start.Ends "show(“a”)\r" (.done result between) := ⟨by rintro ⟨⟩, 60, hfirst⟩
    have hmore : between.Ends "show(“b”)\n-2" (.done result' after) :=
      ⟨by rintro ⟨⟩, 60, hsecond⟩
    cases hread' : readScript start.registry "show(“b”)\n-2" with
    | error problem =>
      rw [hread'] at hothers
      cases hothers
    | ok others =>
      have hstatement : others ≠ [] := by
        rintro rfl
        rw [hread'] at hothers
        cases hothers
      have hjoin := (ends_join_iff start _ _ statements others (.done result' after)
        hregistry hread hread' hstatement).2 (.inl ⟨result, between, hdone, hmore⟩)
      exact ⟨start, result, between, _, hstart, hdone, hmore, hjoin⟩

end Interpreter

end CommandScript
