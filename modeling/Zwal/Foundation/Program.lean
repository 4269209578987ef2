import Mathlib

/-! # Programs with state and errors

A program runs on a state and either returns a value or stops with an error; in
both cases what it did to the state remains. Pre- and postconditions come with
one rule for each way of building a program. -/

namespace Zwal

def Program (State Error Value : Type) : Type := State → Except Error Value × State

namespace Program

variable {State Error Value Result Whole : Type}

instance : Monad (Program State Error) where
  pure value := fun state => (.ok value, state)
  bind program next := fun state =>
    match program state with
    | (.ok value, middle) => next value middle
    | (.error error, middle) => (.error error, middle)

def fail (error : Error) : Program State Error Value := fun state => (.error error, state)

def read : Program State Error State := fun state => (.ok state, state)

def update (change : State → State) : Program State Error Unit :=
  fun state => (.ok (), change state)

/-- Run a program and go on whether or not it stopped with an error. -/
def attempt (program : Program State Error Value) : Program State Error (Except Error Value) :=
  fun state => (.ok (program state).1, (program state).2)

def within (component : Whole → State) (replace : Whole → State → Whole)
    (program : Program State Error Value) : Program Whole Error Value :=
  fun whole => ((program (component whole)).1, replace whole (program (component whole)).2)

theorem bind_of_ok {program : Program State Error Value} {next : Value → Program State Error Result}
    {state middle : State} {value : Value} (run : program state = (.ok value, middle)) :
    (program >>= next) state = next value middle := by
  simp only [Bind.bind, run]

theorem bind_of_error {program : Program State Error Value}
    {next : Value → Program State Error Result} {state middle : State} {error : Error}
    (run : program state = (.error error, middle)) :
    (program >>= next) state = (.error error, middle) := by
  simp only [Bind.bind, run]

theorem attempt_of_eq {program : Program State Error Value} {state middle : State}
    {outcome : Except Error Value} (run : program state = (outcome, middle)) :
    program.attempt state = (.ok outcome, middle) := by
  rw [attempt, run]

theorem bind_read (state : State) {next : State → Program State Error Result} :
    (read >>= next) state = next state state :=
  rfl

theorem bind_update (change : State → State) (state : State)
    {next : Unit → Program State Error Result} :
    (update change >>= next) state = next () (change state) :=
  rfl

theorem bind_attempt {program : Program State Error Value} {state middle : State}
    {outcome : Except Error Value} {next : Except Error Value → Program State Error Result}
    (run : program state = (outcome, middle)) :
    (program.attempt >>= next) state = next outcome middle :=
  bind_of_ok (attempt_of_eq run)

theorem bind_unit (program : Program State Error Unit) :
    (program >>= fun _ => Pure.pure ()) = program := by
  funext state
  rcases run : program state with ⟨error | value, middle⟩
  · rw [bind_of_error run]
  · rw [bind_of_ok run]
    rfl

theorem bind_of_eq {program other : Program State Error Value} {state : State}
    (same : program state = other state) (next : Value → Program State Error Result) :
    (program >>= next) state = (other >>= next) state := by
  rcases run : other state with ⟨error | value, middle⟩
  · rw [bind_of_error run, bind_of_error (same.trans run)]
  · rw [bind_of_ok run, bind_of_ok (same.trans run)]

theorem bind_assoc {Last : Type} (program : Program State Error Value)
    (next : Value → Program State Error Result) (last : Result → Program State Error Last) :
    ((program >>= next) >>= last) = program >>= fun value => next value >>= last := by
  funext state
  rcases run : program state with ⟨error | value, middle⟩
  · rw [bind_of_error run, bind_of_error (bind_of_error run)]
  · rw [bind_of_ok run]
    rcases rest : next value middle with ⟨error | result, final⟩
    · rw [bind_of_error rest, bind_of_error ((bind_of_ok run).trans rest)]
    · rw [bind_of_ok rest, bind_of_ok ((bind_of_ok run).trans rest)]

theorem bind_eq_ok {program : Program State Error Value}
    {next : Value → Program State Error Result} {state final : State} {result : Result}
    (run : (program >>= next) state = (.ok result, final)) :
    ∃ value middle, program state = (.ok value, middle) ∧ next value middle = (.ok result, final) := by
  rcases first : program state with ⟨error | value, middle⟩
  · rw [bind_of_error first] at run
    cases run
  · rw [bind_of_ok first] at run
    exact ⟨value, middle, rfl, run⟩

/-! ## Pre- and postconditions -/

/-- From a state satisfying `pre` the program ends in `post` when it returns and
in `failed` when it stops with an error. -/
def Triple (pre : State → Prop) (program : Program State Error Value)
    (post : Value → State → Prop) (failed : Error → State → Prop) : Prop :=
  ∀ state, pre state →
    (∀ value next, program state = (.ok value, next) → post value next) ∧
    (∀ error next, program state = (.error error, next) → failed error next)

namespace Triple

variable {pre : State → Prop} {post post' : Value → State → Prop}
  {failed : Error → State → Prop} {program : Program State Error Value}

theorem weaken (triple : Triple pre program post failed)
    (weaker : ∀ value state, post value state → post' value state) :
    Triple pre program post' failed := by
  intro state holds
  rcases triple state holds with ⟨returned, stopped⟩
  exact ⟨fun value next run => weaker _ _ (returned value next run), stopped⟩

theorem pure {value : Value} (holds : ∀ state, pre state → post value state) :
    Triple pre (Pure.pure value : Program State Error Value) post failed := by
  intro state start
  refine ⟨fun result next run => ?_, fun error next run => ?_⟩
  · cases run
    exact holds state start
  · cases run

theorem fail {error : Error} (holds : ∀ state, pre state → failed error state) :
    Triple pre (Program.fail error : Program State Error Value) post failed := by
  intro state start
  refine ⟨fun result next run => ?_, fun stop next run => ?_⟩
  · cases run
  · cases run
    exact holds state start

theorem update {change : State → State} {post : Unit → State → Prop}
    (holds : ∀ state, pre state → post () (change state)) :
    Triple pre (Program.update change : Program State Error Unit) post failed := by
  intro state start
  refine ⟨fun result next run => ?_, fun stop next run => ?_⟩
  · cases run
    exact holds state start
  · cases run

theorem bind {next : Value → Program State Error Result} {final : Result → State → Prop}
    (first : Triple pre program post failed)
    (second : ∀ value, Triple (post value) (next value) final failed) :
    Triple pre (program >>= next) final failed := by
  intro state holds
  rcases first state holds with ⟨returned, stopped⟩
  rcases run : program state with ⟨outcome | value, middle⟩
  · refine ⟨fun result final run' => ?_, fun error final run' => ?_⟩
    all_goals simp only [Bind.bind, run] at run'
    · cases run'
    · cases run'
      exact stopped _ _ run
  · have continued := second value middle (returned value middle run)
    refine ⟨fun result final run' => ?_, fun error final run' => ?_⟩
    all_goals simp only [Bind.bind, run] at run'
    · exact continued.1 _ _ run'
    · exact continued.2 _ _ run'

theorem attempt {post : Except Error Value → State → Prop}
    (triple : Triple pre program (fun value => post (.ok value))
      (fun error => post (.error error))) :
    Triple pre program.attempt post failed := by
  intro state holds
  rcases triple state holds with ⟨returned, stopped⟩
  refine ⟨fun outcome next run => ?_, fun error next run => ?_⟩
  · rcases ran : program state with ⟨error | value, middle⟩
    all_goals
      simp only [Program.attempt, ran] at run
      cases run
    · exact stopped _ _ ran
    · exact returned _ _ ran
  · cases run

end Triple

/-! ## What a program may do to the state -/

/-- However the program ends, the state it leaves is related to the one it got. -/
def Respects (relation : State → State → Prop) (program : Program State Error Value) : Prop :=
  ∀ state, relation state (program state).2

namespace Respects

variable {relation : State → State → Prop} {program : Program State Error Value}

theorem pure [Std.Refl relation] (value : Value) :
    Respects relation (Pure.pure value : Program State Error Value) :=
  fun state => Std.Refl.refl state

theorem fail [Std.Refl relation] (error : Error) :
    Respects relation (Program.fail error : Program State Error Value) :=
  fun state => Std.Refl.refl state

theorem read [Std.Refl relation] : Respects relation (Program.read : Program State Error State) :=
  fun state => Std.Refl.refl state

theorem update {change : State → State} (allowed : ∀ state, relation state (change state)) :
    Respects relation (Program.update change : Program State Error Unit) :=
  allowed

theorem attempt (respects : Respects relation program) : Respects relation program.attempt :=
  respects

theorem bind [IsTrans State relation] {next : Value → Program State Error Result}
    (first : Respects relation program) (second : ∀ value, Respects relation (next value)) :
    Respects relation (program >>= next) := by
  intro state
  have start := first state
  rcases run : program state with ⟨error | value, middle⟩
  all_goals
    rw [run] at start
    simp only [Bind.bind, run]
  · exact start
  · exact IsTrans.trans _ _ _ start (second value middle)

theorem read_bind {next : State → Program State Error Result}
    (rest : ∀ state, relation state ((next state) state).2) :
    Respects relation (Program.read >>= next) :=
  rest

theorem within {component : Whole → State} {replace : Whole → State → Whole}
    {whole : Whole → Whole → Prop} (respects : Respects relation program)
    (lifted : ∀ state next, relation (component state) next → whole state (replace state next)) :
    Respects whole (program.within component replace) :=
  fun _ => lifted _ _ (respects _)

theorem triple [IsTrans State relation] (respects : Respects relation program) (first : State) :
    Triple (relation first) program (fun _ => relation first) (fun _ => relation first) := by
  intro state reached
  have after := IsTrans.trans _ _ _ reached (respects state)
  refine ⟨fun value next run => ?_, fun error next run => ?_⟩
  all_goals
    rw [run] at after
    exact after

end Respects

/-! ## Programs that do the same

Two runs side by side, from states that agree in what matters. -/

def Alike (relation : State → State → Prop) (first second : Program State Error Value) : Prop :=
  ∀ one two, relation one two →
    (first one).1 = (second two).1 ∧ relation (first one).2 (second two).2

namespace Alike

variable {relation : State → State → Prop} {first second : Program State Error Value}

theorem pure (value : Value) :
    Alike relation (Pure.pure value : Program State Error Value) (Pure.pure value) :=
  fun _ _ same => ⟨rfl, same⟩

theorem fail (error : Error) :
    Alike relation (Program.fail error : Program State Error Value) (Program.fail error) :=
  fun _ _ same => ⟨rfl, same⟩

theorem update {change other : State → State}
    (changed : ∀ one two, relation one two → relation (change one) (other two)) :
    Alike relation (Program.update change : Program State Error Unit) (Program.update other) :=
  fun one two same => ⟨rfl, changed one two same⟩

theorem attempt (alike : Alike relation first second) :
    Alike relation first.attempt second.attempt :=
  fun one two same => ⟨congrArg Except.ok (alike one two same).1, (alike one two same).2⟩

theorem bind {next other : Value → Program State Error Result} (alike : Alike relation first second)
    (rest : ∀ value, Alike relation (next value) (other value)) :
    Alike relation (first >>= next) (second >>= other) := by
  intro one two same
  rcases alike one two same with ⟨ends, after⟩
  rcases run : first one with ⟨error | value, middle⟩
  all_goals
    rcases ran : second two with ⟨otherError | otherValue, otherMiddle⟩
    all_goals
      rw [run, ran] at ends after
      cases ends
  · rw [bind_of_error run, bind_of_error ran]
    exact ⟨rfl, after⟩
  · rw [bind_of_ok run, bind_of_ok ran]
    exact rest value middle otherMiddle after

theorem read_bind {next other : State → Program State Error Result}
    (rest : ∀ one two, relation one two → Alike relation (next one) (other two)) :
    Alike relation (Program.read >>= next) (Program.read >>= other) :=
  fun one two same => rest one two same one two same

theorem within {component : Whole → State} {replace : Whole → State → Whole}
    {outer : Whole → Whole → Prop} (alike : Alike relation first second)
    (inner : ∀ one two, outer one two → relation (component one) (component two))
    (replaced : ∀ one two, outer one two → ∀ next other, relation next other →
      outer (replace one next) (replace two other)) :
    Alike outer (first.within component replace) (second.within component replace) :=
  fun one two same =>
    have ends := alike _ _ (inner one two same)
    ⟨ends.1, replaced one two same _ _ ends.2⟩

end Alike

def Follows (relation : State → State → Prop) (first second : Program State Error Value) : Prop :=
  ∀ one two, relation one two → ∀ value next, first one = (.ok value, next) →
    ∃ other, second two = (.ok value, other) ∧ relation next other

namespace Follows

variable {relation : State → State → Prop} {first second : Program State Error Value}

theorem of_alike (alike : Alike relation first second) : Follows relation first second := by
  intro one two same value next run
  rcases alike one two same with ⟨ends, after⟩
  rw [run] at ends after
  exact ⟨(second two).2, Prod.ext ends.symm rfl, after⟩

theorem fail (error : Error) (second : Program State Error Value) :
    Follows relation (Program.fail error) second := by
  intro one two same value next run
  cases run

theorem bind {next other : Value → Program State Error Result}
    (follows : Follows relation first second)
    (rest : ∀ value, Follows relation (next value) (other value)) :
    Follows relation (first >>= next) (second >>= other) := by
  intro one two same result last run
  rcases bind_eq_ok run with ⟨value, middle, early, late⟩
  rcases follows one two same value middle early with ⟨beside, ran, still⟩
  rw [bind_of_ok ran]
  exact rest value middle beside still result last late

theorem read_bind {next other : State → Program State Error Result}
    (rest : ∀ one two, relation one two → Follows relation (next one) (other two)) :
    Follows relation (Program.read >>= next) (Program.read >>= other) :=
  fun one two same => rest one two same one two same

end Follows

/-! ## Programs that may fail to end

`exempt` has the failures after which the state is of no interest, such as that of a program
that does not come to an end. -/

/-- How a program that started in `state` ended: along `relation`, with `post` when it
returned, unless its failure is exempt. -/
def Along (relation : State → State → Prop) (exempt : Error → Prop) (state : State)
    (post : Value → State → Prop) : Except Error Value × State → Prop
  | (.ok value, next) => relation state next ∧ post value next
  | (.error failure, next) => exempt failure ∨ relation state next

namespace Along

variable {relation : State → State → Prop} {exempt : Error → Prop} {state : State}
variable {post : Value → State → Prop}

theorem here [Std.Refl relation] {value : Value} (holds : post value state) :
    Along relation exempt state post (.ok value, state) :=
  ⟨Std.Refl.refl state, holds⟩

theorem failed [Std.Refl relation] (failure : Error) :
    Along relation exempt state post (.error failure, state) :=
  .inr (Std.Refl.refl state)

theorem after [IsTrans State relation] {middle : State} {result : Except Error Value × State}
    (steps : relation state middle) (along : Along relation exempt middle post result) :
    Along relation exempt state post result := by
  rcases result with ⟨failure | value, next⟩
  · exact along.imp_right fun more => IsTrans.trans _ _ _ steps more
  · exact ⟨IsTrans.trans _ _ _ steps along.1, along.2⟩

theorem bind [IsTrans State relation] {program : Program State Error Value}
    {next : Value → Program State Error Result} {final : Result → State → Prop}
    (first : Along relation exempt state post (program state))
    (second : ∀ value middle, relation state middle → post value middle →
      Along relation exempt middle final (next value middle)) :
    Along relation exempt state final ((program >>= next) state) := by
  rcases run : program state with ⟨failure | value, middle⟩
  all_goals rw [run] at first
  · rw [Program.bind_of_error run]
    exact first
  · rw [Program.bind_of_ok run]
    exact (second value middle first.1 first.2).after first.1

theorem weaken {weaker : Value → State → Prop} {result : Except Error Value × State}
    (along : Along relation exempt state post result)
    (implied : ∀ value next, post value next → weaker value next) :
    Along relation exempt state weaker result := by
  rcases result with ⟨failure | value, next⟩
  · exact along
  · exact ⟨along.1, implied value next along.2⟩

theorem mono {coarser : State → State → Prop} {result : Except Error Value × State}
    (along : Along relation exempt state post result)
    (implied : ∀ next, relation state next → coarser state next) :
    Along coarser exempt state post result := by
  rcases result with ⟨failure | value, next⟩
  · exact along.imp_right (implied next)
  · exact ⟨implied next along.1, along.2⟩

theorem update {change : State → State} {post : Unit → State → Prop}
    (steps : relation state (change state)) (holds : post () (change state)) :
    Along relation exempt state post ((Program.update change : Program State Error Unit) state) :=
  ⟨steps, holds⟩

end Along

end Program

export Program (bind_of_ok bind_of_error bind_read bind_update bind_attempt bind_eq_ok bind_of_eq
  attempt_of_eq)

end Zwal
