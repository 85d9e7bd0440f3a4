import Mathlib.Logic.Relation
import Mathlib.Tactic.Common

/-! Fallible state changes that keep the state they reached, and the runs of steps they take. -/

namespace Oxgraph

/-- A state change that may fail; a failure keeps the changes made before it. -/
def Mutation (E S T : Type) := S → Except E T × S

namespace Mutation

variable {E S T U : Type}

instance : Monad (Mutation E S) where
  pure value := fun state => (.ok value, state)
  bind first next := fun state =>
    match first state with
    | (.ok value, state) => next value state
    | (.error error, state) => (.error error, state)

/-- Fails without changing the state. -/
def fail (error : E) : Mutation E S T := fun state => (.error error, state)

/-- Lifts a result that does not depend on the state. -/
def lift (result : Except E T) : Mutation E S T := fun state => (result, state)

/-- Reads the state. -/
def read : Mutation E S S := fun state => (.ok state, state)

/-- Changes the state. -/
def modify (change : S → S) : Mutation E S Unit := fun state => (.ok (), change state)

/-- Changes the state unless the change fails. -/
def attempt (change : S → Except E S) : Mutation E S Unit := fun state =>
  match change state with
  | .ok after => (.ok (), after)
  | .error error => (.error error, state)

/-- Runs a change of one part of the state. -/
def onPart {P : Type} (get : S → P) (put : S → P → S) (change : Mutation E P T) :
    Mutation E S T := fun state =>
  ((change (get state)).1, put state (change (get state)).2)

/-- Fails unless the condition holds of the state. -/
def require (holds : S → Bool) (error : E) : Mutation E S Unit := fun state =>
  if holds state then (.ok (), state) else (.error error, state)

/-- Runs a change and returns how it ended, so that what follows may handle a failure. -/
def tried (change : Mutation E S T) : Mutation E S (Except E T) := fun state =>
  (.ok (change state).1, (change state).2)

/-- From a state, the change only takes steps of a relation, whether it succeeds or fails. -/
def Steps (step : S → S → Prop) (change : Mutation E S T) (start : S) : Prop :=
  Relation.ReflTransGen step start (change start).2

variable {step : S → S → Prop} {start : S}

@[simp] theorem pure_apply (value : T) (start : S) :
    (Pure.pure value : Mutation E S T) start = (.ok value, start) := rfl

@[simp] theorem modify_apply (change : S → S) (start : S) :
    (modify change : Mutation E S Unit) start = (.ok (), change start) := rfl

theorem bind_apply (first : Mutation E S T) (next : T → Mutation E S U) (start : S) :
    (first >>= next) start =
      match first start with
      | (.ok value, state) => next value state
      | (.error error, state) => (.error error, state) := rfl

variable {next : T → Mutation E S U} {first : Mutation E S T} {value : T}

/-- A sequence goes on from where its first part stopped. -/
theorem bind_run {middle : S} (ran : first start = (.ok value, middle)) :
    (first >>= next) start = next value middle := by
  rw [bind_apply, ran]

/-- A read hands the state on. -/
theorem read_bind (next : S → Mutation E S U) : (read >>= next) start = next start start := rfl

/-- A sequence succeeds when its first part does and the second does from where that stopped. -/
theorem bind_ok {result : U} {last : S} :
    (first >>= next) start = (.ok result, last) ↔
      ∃ value state, first start = (.ok value, state) ∧ next value state = (.ok result, last) := by
  rw [bind_apply]
  rcases first start with ⟨_ | value, state⟩
  · simp
  · constructor
    · intro after
      exact ⟨value, state, rfl, after⟩
    · rintro ⟨_, _, same, after⟩
      cases same
      exact after

variable {error : E}

/-- A sequence fails in its first part, or in its second from where the first stopped. -/
theorem bind_error {last : S} :
    (first >>= next) start = (.error error, last) ↔ first start = (.error error, last) ∨
      ∃ value state, first start = (.ok value, state) ∧ next value state = (.error error, last) := by
  rw [bind_apply]
  rcases first start with ⟨_ | value, state⟩
  · simp
  · constructor
    · intro after
      exact .inr ⟨value, state, rfl, after⟩
    · rintro (failed | ⟨_, _, same, after⟩)
      · cases failed
      · cases same
        exact after

/-- State changes are sequenced associatively, and a pure value adds nothing. -/
instance : LawfulMonad (Mutation E S) := by
  refine LawfulMonad.mk' _ ?_ ?_ ?_
  · intro T change
    funext start
    show (match change start with
      | (.ok value, state) => (.ok value, state)
      | (.error error, state) => (.error error, state)) = change start
    rcases change start with ⟨_ | _, _⟩ <;> rfl
  · intro T U value next
    rfl
  · intro T U V first second third
    funext start
    rw [bind_apply, bind_apply, bind_apply]
    rcases first start with ⟨_ | _, _⟩ <;> rfl

variable {state : S}

/-- A lifted result succeeds when the result does, and changes nothing. -/
theorem lift_ok {result : Except E T} :
    (lift result : Mutation E S T) start = (.ok value, state) ↔
      result = .ok value ∧ state = start := by
  rw [lift, Prod.mk.injEq, eq_comm (a := start)]

/-- A change of one part puts back what the part's change makes of it. -/
theorem onPart_run {P : Type} {get : S → P} {put : S → P → S} {change : Mutation E P T} {part : P}
    (ran : change (get start) = (.ok value, part)) :
    onPart get put change start = (.ok value, put start part) := by
  rw [onPart, ran]

/-- A sequence goes on from what a change of one part puts back. -/
theorem onPart_bind {P : Type} {get : S → P} {put : S → P → S} {change : Mutation E P T}
    {part : P} (ran : change (get start) = (.ok value, part)) :
    (onPart get put change >>= next) start = next value (put start part) :=
  bind_run (onPart_run ran)

/-- A change of one part succeeds when the part's change does, and changes that part only. -/
theorem onPart_ok {P : Type} {get : S → P} {put : S → P → S} {change : Mutation E P T}
    (done : onPart get put change start = (.ok value, state)) :
    ∃ part, change (get start) = (.ok value, part) ∧ state = put start part := by
  obtain ⟨outcome, same⟩ := Prod.mk.inj done
  exact ⟨_, Prod.ext outcome rfl, same.symm⟩

/-- A change of one part fails when the part's change does, and changes that part only. -/
theorem onPart_error {P : Type} {get : S → P} {put : S → P → S} {change : Mutation E P T}
    (failed : onPart get put change start = (.error error, state)) :
    ∃ part, change (get start) = (.error error, part) ∧ state = put start part := by
  obtain ⟨outcome, same⟩ := Prod.mk.inj failed
  exact ⟨_, Prod.ext outcome rfl, same.symm⟩

variable {items : List T} {round : U → T → Mutation E S U}

/-- An invariant of the rounds done so far holds of a fold that succeeds. -/
theorem foldlM_ok (Inv : List T → U → S → Prop) {initial last : U} {final : S}
    (next : ∀ {done item value state value' state'}, item ∈ items → Inv done value state →
      round value item state = (.ok value', state') → Inv (done ++ [item]) value' state')
    (first : Inv [] initial start) (folded : items.foldlM round initial start = (.ok last, final)) :
    Inv items last final := by
  -- The first item moves into the invariant, so what is done grows at its end only.
  induction items generalizing Inv initial start with
  | nil =>
    cases folded
    exact first
  | cons item rest ih =>
    rw [List.foldlM_cons] at folded
    obtain ⟨value, state, one, others⟩ := bind_ok.mp folded
    exact ih (fun done => Inv (item :: done)) (fun member => next (List.mem_cons_of_mem _ member))
      (next List.mem_cons_self first one) others

/-- A fold whose rounds succeed under an invariant succeeds, and keeps it. -/
theorem foldlM_run (Inv : List T → U → S → Prop) {initial : U}
    (next : ∀ {done item rest value state}, items = done ++ item :: rest →
      Inv done value state → ∃ value' state',
        round value item state = (.ok value', state') ∧ Inv (done ++ [item]) value' state')
    (first : Inv [] initial start) :
    ∃ last final, items.foldlM round initial start = (.ok last, final) ∧ Inv items last final := by
  induction items generalizing Inv initial start with
  | nil => exact ⟨initial, start, rfl, first⟩
  | cons item rest ih =>
    obtain ⟨value, state, one, after⟩ := next rfl first
    obtain ⟨last, final, others, whole⟩ := ih (fun done => Inv (item :: done))
      (fun split => next (congrArg (item :: ·) split)) after
    refine ⟨last, final, ?_, whole⟩
    rw [List.foldlM_cons, bind_run one]
    exact others

/-- A loop whose rounds succeed under an invariant succeeds, and keeps it. -/
theorem forM_run (Inv : List T → S → Prop) {round : T → Mutation E S Unit}
    (next : ∀ {done item rest state}, items = done ++ item :: rest → Inv done state →
      ∃ state', round item state = (.ok (), state') ∧ Inv (done ++ [item]) state')
    (first : Inv [] start) :
    ∃ final, items.forM round start = (.ok (), final) ∧ Inv items final := by
  induction items generalizing Inv start with
  | nil => exact ⟨start, rfl, first⟩
  | cons item rest ih =>
    obtain ⟨state, one, after⟩ := next rfl first
    obtain ⟨final, others, whole⟩ := ih (fun done => Inv (item :: done))
      (fun split => next (congrArg (item :: ·) split)) after
    refine ⟨final, ?_, whole⟩
    rw [List.forM, bind_run one]
    exact others

/-- A requirement that succeeds is met, and changes nothing. -/
theorem require_ok {holds : S → Bool} {error : E} {state : S} :
    (require holds error : Mutation E S Unit) start = (.ok (), state) ↔
      holds start = true ∧ state = start := by
  unfold require
  by_cases met : holds start = true
  · rw [if_pos met, Prod.mk.injEq]
    exact ⟨fun same => ⟨met, same.2.symm⟩, fun same => ⟨rfl, same.2.symm⟩⟩
  · rw [if_neg met]
    exact ⟨fun same => (nomatch same), fun same => absurd same.1 met⟩

/-- A loop of requirements that succeeds has each of them met, and changes nothing. -/
theorem forM_require_ok {holds : T → S → Bool} {error : T → E} :
    (items.forM fun item => require (holds item) (error item) : Mutation E S Unit) start =
        (.ok (), state) ↔ (∀ item ∈ items, holds item start = true) ∧ state = start := by
  induction items with
  | nil =>
    show ((.ok (), start) : Except E Unit × S) = (.ok (), state) ↔ _
    rw [Prod.mk.injEq]
    exact ⟨fun same => ⟨fun _ member => (nomatch member), same.2.symm⟩,
      fun same => ⟨rfl, same.2.symm⟩⟩
  | cons item rest ih =>
    rw [List.forM, bind_ok]
    constructor
    · rintro ⟨_, middle, met, after⟩
      obtain ⟨own, rfl⟩ := require_ok.mp met
      obtain ⟨others, same⟩ := ih.mp after
      exact ⟨List.forall_mem_cons.mpr ⟨own, others⟩, same⟩
    · rintro ⟨all, same⟩
      obtain ⟨own, others⟩ := List.forall_mem_cons.mp all
      exact ⟨(), start, require_ok.mpr ⟨own, rfl⟩, ih.mpr ⟨others, same⟩⟩

/-- An invariant of the rounds done so far holds of a loop that succeeds. -/
theorem forM_ok {Inv : List T → S → Prop} {round : T → Mutation E S Unit} {items : List T}
    {final : S} (next : ∀ {done item rest state state'}, items = done ++ item :: rest →
      Inv done state → round item state = (.ok (), state') → Inv (done ++ [item]) state')
    (first : Inv [] start) (looped : items.forM round start = (.ok (), final)) :
    Inv items final := by
  induction items generalizing Inv start with
  | nil =>
    cases looped
    exact first
  | cons item rest ih =>
    rw [List.forM] at looped
    obtain ⟨_, state, one, others⟩ := bind_ok.mp looped
    refine @ih state (fun done => Inv (item :: done)) (fun split => ?_) (next rfl first one) others
    exact next (congrArg (item :: ·) split)

/-- A requirement that is met hands the unchanged state on. -/
theorem require_bind_ok {holds : S → Bool} {error : E} {next : Unit → Mutation E S U}
    (met : holds start = true) : (require holds error >>= next) start = next () start := by
  rw [bind_apply, require, if_pos met]

/-- A loop that fails ran its rounds up to the one that fails. -/
theorem forM_error {round : T → Mutation E S Unit} {last : S}
    (failed : items.forM round start = (.error error, last)) : ∃ done item rest middle,
      items = done ++ item :: rest ∧ done.forM round start = (.ok (), middle) ∧
        round item middle = (.error error, last) := by
  induction items generalizing start with
  | nil => cases failed
  | cons item rest ih =>
    rw [List.forM] at failed
    rcases bind_error.mp failed with here | ⟨_, middle, one, others⟩
    · exact ⟨[], item, rest, start, rfl, rfl, here⟩
    · obtain ⟨done, bad, left, stopped, rfl, ran, fails⟩ := ih others
      refine ⟨item :: done, bad, left, stopped, rfl, ?_, fails⟩
      rw [List.forM]
      exact bind_ok.mpr ⟨(), middle, one, ran⟩

/-- A fold that fails ran its rounds up to the one that fails. -/
theorem foldlM_error {initial : U} {last : S}
    (failed : items.foldlM round initial start = (.error error, last)) :
    ∃ done item rest value middle, items = done ++ item :: rest ∧
      done.foldlM round initial start = (.ok value, middle) ∧
        round value item middle = (.error error, last) := by
  induction items generalizing initial start with
  | nil => cases failed
  | cons item rest ih =>
    rw [List.foldlM_cons] at failed
    rcases bind_error.mp failed with here | ⟨next, middle, one, others⟩
    · exact ⟨[], item, rest, initial, start, rfl, rfl, here⟩
    · obtain ⟨done, bad, left, value, stopped, rfl, ran, fails⟩ := ih others
      refine ⟨item :: done, bad, left, value, stopped, rfl, ?_, fails⟩
      rw [List.foldlM_cons]
      exact bind_ok.mpr ⟨next, middle, one, ran⟩

-- What a change leaves behind when it fails.

/-- A change that fails leaves a state that is related to the one it started from. -/
def Leaves (related : S → S → Prop) (change : Mutation E S T) : Prop :=
  ∀ start error after, change start = (.error error, after) → related after start

variable {related : S → S → Prop}

theorem Leaves.pure (value : T) : Leaves related (Pure.pure value : Mutation E S T) :=
  fun _ _ _ failed => (nomatch failed)

theorem Leaves.modify (change : S → S) : Leaves related (Mutation.modify change : Mutation E S _) :=
  fun _ _ _ failed => (nomatch failed)

theorem Leaves.fail (refl : ∀ state, related state state) (error : E) :
    Leaves related (Mutation.fail error : Mutation E S T) := by
  intro start error after failed
  cases failed
  exact refl start

theorem Leaves.lift (refl : ∀ state, related state state) (result : Except E T) :
    Leaves related (Mutation.lift result) := by
  intro start error after failed
  cases failed
  exact refl start

theorem Leaves.require (refl : ∀ state, related state state) (holds : S → Bool) (error : E) :
    Leaves related (Mutation.require holds error) := by
  intro start error after failed
  unfold Mutation.require at failed
  split at failed
  · cases failed
  · cases failed
    exact refl start

/-- A sequence whose first part changes nothing when it succeeds leaves what its parts leave. -/
theorem Leaves.bind
    (passive : ∀ {start value after}, first start = (.ok value, after) → after = start)
    (before : Leaves related first) (after : ∀ value, Leaves related (next value)) :
    Leaves related (first >>= next) := by
  intro start error last failed
  rcases bind_error.mp failed with here | ⟨value, state, ran, rest⟩
  · exact before _ _ _ here
  · cases passive ran
    exact after value _ _ _ rest

/-- A sequence leaves what its second part leaves when its first part is a requirement. -/
theorem Leaves.require_bind (refl : ∀ state, related state state) {holds : S → Bool}
    {next : Unit → Mutation E S U} (after : Leaves related (next ())) :
    Leaves related (Mutation.require holds error >>= next) :=
  .bind (fun ran => (require_ok.mp ran).2) (.require refl holds error) fun _ => after

/-- A read changes nothing. -/
theorem Leaves.read_bind {next : S → Mutation E S U} (after : ∀ state, Leaves related (next state)) :
    Leaves related (Mutation.read >>= next) :=
  fun start => after start start

variable {change : Mutation E S T}

theorem Leaves.mono {wider : S → S → Prop} (leaves : Leaves related change)
    (wide : ∀ {after before}, related after before → wider after before) : Leaves wider change :=
  fun start error after failed => wide (leaves start error after failed)

/-- A loop of requirements fails at one that is not met, past those that changed nothing. -/
theorem Leaves.forM_require (refl : ∀ state, related state state) (holds : T → S → Bool)
    (error : T → E) (items : List T) :
    Leaves related (items.forM fun item => Mutation.require (holds item) (error item)) := by
  intro start raised after failed
  obtain ⟨done, item, rest, middle, _, ran, refused⟩ := forM_error failed
  obtain ⟨_, rfl⟩ := forM_require_ok.mp ran
  exact Leaves.require refl _ _ _ _ _ refused

/-- A sequence whose second part never fails leaves what its first part leaves. -/
theorem Leaves.bind_pure (before : Leaves related first) (value : T → U) :
    Leaves related (first >>= fun result => Pure.pure (value result)) := by
  intro start error last failed
  rcases bind_error.mp failed with here | ⟨result, state, _, rest⟩
  · exact before _ _ _ here
  · cases rest

/-- What every step keeps holds of the state that a change leaves. -/
theorem Steps.keeps {holds : S → Prop}
    (steps : Steps (fun before after => holds before → holds after) change start)
    (before : holds start) : holds (change start).2 := by
  unfold Steps at steps
  generalize (change start).2 = last at steps
  induction steps with
  | refl => exact before
  | tail _ one ih => exact one ih

theorem Steps.pure (value : T) : Steps step (Pure.pure value : Mutation E S T) start := .refl

theorem Steps.fail (error : E) : Steps step (Mutation.fail error : Mutation E S T) start := .refl

theorem Steps.lift (result : Except E T) : Steps step (Mutation.lift result) start := .refl

theorem Steps.require (holds : S → Bool) (error : E) :
    Steps step (require holds error) start := by
  unfold Steps Mutation.require
  split <;> exact .refl

theorem Steps.modify {change : S → S} (one : step start (change start)) :
    Steps step (modify change : Mutation E S Unit) start := .single one

/-- A sequence steps through its first part, then through its second from where that stopped. -/
theorem Steps.bind (before : Steps step first start)
    (after : ∀ value state, first start = (.ok value, state) → Steps step (next value) state) :
    Steps step (first >>= next) start := by
  unfold Steps
  rw [bind_apply]
  unfold Steps at before
  rcases result : first start with ⟨_ | value, state⟩
  · rw [result] at before
    exact before
  · rw [result] at before
    exact before.trans (after value state result)

/-- Past a requirement its condition holds of the unchanged state. -/
theorem Steps.require_bind {holds : S → Bool} {next : Unit → Mutation E S U}
    (after : holds start = true → Steps step (next ()) start) :
    Steps step (Mutation.require holds error >>= next) start := by
  refine .bind (.require _ _) ?_
  intro value state result
  unfold Mutation.require at result
  split at result
  · rename_i met
    cases result
    exact after met
  · cases result

/-- A read hands the unchanged state on. -/
theorem Steps.read_bind {next : S → Mutation E S U} (after : Steps step (next start) start) :
    Steps step (Mutation.read >>= next) start := after

/-- A change that is tried takes the steps it takes. -/
theorem Steps.tried (steps : Steps step change start) :
    Steps step change.tried start := steps

/-- A loop steps through each of its rounds. -/
theorem Steps.forM {round : T → Mutation E S Unit} (items : List T)
    (each : ∀ item ∈ items, ∀ state, Steps step (round item) state) :
    Steps step (items.forM round) start := by
  induction items generalizing start with
  | nil => exact .pure ()
  | cons item rest ih =>
    change Steps step (round item >>= fun _ => rest.forM round) start
    refine .bind (each item (by simp) start) ?_
    intro _ _ _
    exact ih fun other member => each other (by simp [member])

/-- A fold steps through each of its rounds. -/
theorem Steps.foldlM {round : U → T → Mutation E S U} (items : List T) (initial : U)
    (each : ∀ item ∈ items, ∀ value state, Steps step (round value item) state) :
    Steps step (items.foldlM round initial) start := by
  induction items generalizing initial start with
  | nil => exact .pure initial
  | cons item rest ih =>
    rw [List.foldlM_cons]
    refine .bind (each item (by simp) initial start) ?_
    intro value _ _
    exact ih value fun other member => each other (by simp [member])

-- Changes that are made once.

/-- A change that succeeds keeps the invariant, and reaches a state beyond its start. -/
def Moves (sound : S → Prop) (beyond : S → S → Prop) (change : Mutation E S T) : Prop :=
  ∀ start value after, sound start → change start = (.ok value, after) →
    sound after ∧ beyond after start

/-- Run again from a state beyond the one it reached, a change returns the same and does nothing. -/
def Settles (sound : S → Prop) (beyond : S → S → Prop) (change : Mutation E S T) : Prop :=
  ∀ start value after, sound start → change start = (.ok value, after) →
    ∀ later, beyond later after → change later = (.ok value, later)

variable {sound : S → Prop} {beyond : S → S → Prop}

theorem Settles.pure (value : T) : Settles sound beyond (Pure.pure value : Mutation E S T) := by
  intro start result after _ done later _
  cases done
  rfl

theorem Settles.lift (result : Except E T) :
    Settles sound beyond (Mutation.lift result : Mutation E S T) := by
  intro start value after _ done later _
  obtain ⟨same, _⟩ := lift_ok.mp done
  exact lift_ok.mpr ⟨same, rfl⟩

/-- A sequence settles when its parts do, since the second only moves on from the first. -/
theorem Settles.bind (trans : ∀ {later middle start}, beyond later middle → beyond middle start →
      beyond later start) (before : Settles sound beyond first) (moves : Moves sound beyond first)
    (after : ∀ value, Settles sound beyond (next value))
    (movesOn : ∀ value, Moves sound beyond (next value)) :
    Settles sound beyond (first >>= next) := by
  intro start result last good done later further
  obtain ⟨value, middle, one, rest⟩ := bind_ok.mp done
  obtain ⟨still, _⟩ := moves _ _ _ good one
  have onward := (movesOn value _ _ _ still rest).2
  have again := before _ _ _ good one later (trans further onward)
  exact bind_ok.mpr ⟨value, later, again, after value _ _ _ still rest later further⟩

/-- A fold settles when each of its rounds does. -/
theorem Settles.foldlM {round : U → T → Mutation E S U}
    (trans : ∀ {later middle start}, beyond later middle → beyond middle start →
      beyond later start)
    (each : ∀ value item, Settles sound beyond (round value item))
    (moves : ∀ value item, Moves sound beyond (round value item))
    (movesAll : ∀ items value, Moves sound beyond (List.foldlM round value items))
    (items : List T) (initial : U) : Settles sound beyond (items.foldlM round initial) := by
  induction items generalizing initial with
  | nil => exact .pure initial
  | cons item rest ih =>
    rw [List.foldlM_cons]
    exact .bind trans (each initial item) (moves initial item) ih (movesAll rest)

-- One change run from two states.

/-- From sound states that are the same to a reader, a change returns the same and keeps them so. -/
def Agrees (sound : S → Prop) (same : S → S → Prop) (change : Mutation E S T) : Prop :=
  ∀ left right, sound left → sound right → same left right →
    (change left).1 = (change right).1 ∧ same (change left).2 (change right).2

/-- A change leaves every sound state sound, whether it succeeds or fails. -/
def Keeps (sound : S → Prop) (change : Mutation E S T) : Prop :=
  ∀ start, sound start → sound (change start).2

section Agrees

variable {sound : S → Prop} {same : S → S → Prop}

theorem Agrees.pure (value : T) : Agrees sound same (Pure.pure value : Mutation E S T) :=
  fun _ _ _ _ alike => ⟨rfl, alike⟩

theorem Agrees.fail (error : E) : Agrees sound same (Mutation.fail error : Mutation E S T) :=
  fun _ _ _ _ alike => ⟨rfl, alike⟩

theorem Agrees.lift (result : Except E T) : Agrees sound same (Mutation.lift result) :=
  fun _ _ _ _ alike => ⟨rfl, alike⟩

/-- A requirement agrees when its condition reads the same. -/
theorem Agrees.require {holds : S → Bool} (error : E)
    (reads : ∀ {left right}, same left right → holds left = holds right) :
    Agrees sound same (Mutation.require holds error) := by
  intro left right _ _ alike
  unfold Mutation.require
  rw [reads alike]
  split <;> exact ⟨rfl, alike⟩

/-- A sequence agrees when its parts do, since its first part keeps the states sound. -/
theorem Agrees.bind {first : Mutation E S T} {next : T → Mutation E S U}
    (keeps : Keeps sound first) (before : Agrees sound same first)
    (after : ∀ value, Agrees sound same (next value)) : Agrees sound same (first >>= next) := by
  intro left right soundLeft soundRight alike
  obtain ⟨results, reached⟩ := before left right soundLeft soundRight alike
  have leftKept := keeps left soundLeft
  have rightKept := keeps right soundRight
  rw [bind_apply, bind_apply]
  generalize first left = one at results reached leftKept ⊢
  generalize first right = other at results reached rightKept ⊢
  obtain ⟨result, afterLeft⟩ := one
  obtain ⟨_, afterRight⟩ := other
  cases results
  cases result with
  | error _ => exact ⟨rfl, reached⟩
  | ok value => exact after value afterLeft afterRight leftKept rightKept reached

/-- A read agrees when it goes on alike from states that are the same to a reader. -/
theorem Agrees.read_bind {next : S → Mutation E S U}
    (reads : ∀ {left right}, sound left → sound right → same left right → next left = next right)
    (after : ∀ state, Agrees sound same (next state)) :
    Agrees sound same (Mutation.read >>= next) := by
  intro left right soundLeft soundRight alike
  change (next left left).1 = (next right right).1 ∧ same (next left left).2 (next right right).2
  rw [← reads soundLeft soundRight alike]
  exact after left left right soundLeft soundRight alike

/-- How a change ends agrees when the change does. -/
theorem Agrees.tried {change : Mutation E S T} (agrees : Agrees sound same change) :
    Agrees sound same change.tried := by
  intro left right soundLeft soundRight alike
  obtain ⟨results, reached⟩ := agrees left right soundLeft soundRight alike
  exact ⟨congrArg Except.ok results, reached⟩

/-- A loop agrees when its rounds do. -/
theorem Agrees.forM {round : T → Mutation E S Unit} (items : List T)
    (keeps : ∀ item, Keeps sound (round item)) (each : ∀ item, Agrees sound same (round item)) :
    Agrees sound same (items.forM round) := by
  induction items with
  | nil => exact .pure ()
  | cons item rest ih => exact .bind (keeps item) (each item) fun _ => ih

/-- A fold agrees when its rounds do. -/
theorem Agrees.foldlM {round : U → T → Mutation E S U} (items : List T) (initial : U)
    (keeps : ∀ value item, Keeps sound (round value item))
    (each : ∀ value item, Agrees sound same (round value item)) :
    Agrees sound same (items.foldlM round initial) := by
  induction items generalizing initial with
  | nil => exact .pure initial
  | cons item rest ih =>
    rw [List.foldlM_cons]
    exact .bind (keeps initial item) (each initial item) fun value => ih value

end Agrees

end Mutation

end Oxgraph
