import Mathlib.Data.List.Forall2

/-! Fallible computations taken apart, and folds over lists that correspond item by item. -/

namespace Oxgraph

variable {E F T U : Type}

/-- A sequence of two computations is a success exactly when both are. -/
theorem bind_eq_ok {first : Except E T} {next : T → Except E U} {value : U} :
    (first >>= next) = .ok value ↔ ∃ middle, first = .ok middle ∧ next middle = .ok value := by
  cases first with
  | error error =>
    constructor
    · intro impossible
      cases impossible
    · rintro ⟨_, never, _⟩
      cases never
  | ok middle =>
    refine ⟨fun after => ⟨middle, rfl, after⟩, ?_⟩
    rintro ⟨_, same, after⟩
    cases same
    exact after

/-- A check followed by a computation is a success exactly when both are. -/
theorem seq_eq_ok {check : Except E Unit} {next : Except E U} {value : U} :
    (check >>= fun _ => next) = .ok value ↔ check = .ok () ∧ next = .ok value := by
  rw [bind_eq_ok]
  exact ⟨fun ⟨_, first, after⟩ => ⟨first, after⟩, fun ⟨first, after⟩ => ⟨(), first, after⟩⟩

/-- A mapped result is a success exactly when the result is. -/
theorem map_eq_ok {result : Except E T} {f : T → U} {value : U}
    (mapped : result.map f = .ok value) : ∃ inner, result = .ok inner ∧ value = f inner := by
  cases result with
  | error error => cases mapped
  | ok inner =>
    cases mapped
    exact ⟨inner, rfl, rfl⟩

/-- Translating the error leaves a success alone. -/
@[simp] theorem mapError_eq_ok {result : Except E T} {f : E → F} {value : T} :
    result.mapError f = .ok value ↔ result = .ok value := by
  cases result <;> simp [Except.mapError]

/-- A check of every item of a list succeeds exactly when each item passes it. -/
theorem forM_eq_ok {A : Type} {check : A → Except E Unit} {items : List A} :
    items.forM check = .ok () ↔ ∀ item ∈ items, check item = .ok () := by
  induction items with
  | nil => simp [List.forM, pure, Except.pure]
  | cons item rest ih =>
    rw [List.forM, List.forall_mem_cons, ← ih]
    cases outcome : check item with
    | error _ => simp [bind, Except.bind]
    | ok _ => simp [bind, Except.bind]

/-- An invariant of the rounds done so far holds of a fold that succeeds. -/
theorem foldlM_ok {A : Type} (Inv : List A → T → Prop) {round : T → A → Except E T} {items : List A}
    {initial last : T} (next : ∀ {done item value value'}, item ∈ items → Inv done value →
      round value item = .ok value' → Inv (done ++ [item]) value')
    (first : Inv [] initial) (folded : items.foldlM round initial = .ok last) : Inv items last := by
  induction items generalizing Inv initial with
  | nil =>
    cases folded
    exact first
  | cons item rest ih =>
    rw [List.foldlM_cons] at folded
    obtain ⟨value, one, others⟩ := bind_eq_ok.mp folded
    exact ih (fun done => Inv (item :: done)) (fun member => next (List.mem_cons_of_mem _ member))
      (next List.mem_cons_self first one) others

variable {A B : Type}

/-- Every item of a corresponding list corresponds to one of the other list. -/
theorem exists_of_forall₂ {stored : A → B → Prop} {items : List A} {wires : List B}
    (all : List.Forall₂ stored items wires) {wire : B} (member : wire ∈ wires) :
    ∃ item ∈ items, stored item wire := by
  induction all with
  | nil => cases member
  | cons head _ ih =>
    rcases List.mem_cons.mp member with rfl | member
    · exact ⟨_, List.mem_cons_self, head⟩
    · obtain ⟨item, inside, same⟩ := ih member
      exact ⟨item, List.mem_cons_of_mem _ inside, same⟩

/-- A step that succeeds on every item of a list maps the list. -/
theorem mapM_some {A B : Type} {step : A → Option B} {f : A → B} {items : List A}
    (succeeds : ∀ item ∈ items, step item = some (f item)) :
    items.mapM step = some (items.map f) := by
  induction items with
  | nil => rfl
  | cons item rest ih =>
    rw [List.mapM_cons, succeeds item List.mem_cons_self,
      ih fun other member => succeeds other (List.mem_cons_of_mem _ member)]
    rfl

/-- A step that has a value for every item of a list maps the list to these. -/
theorem exists_mapM_some {step : A → Option B} {items : List A}
    (answers : ∀ item ∈ items, ∃ value, step item = some value) :
    ∃ values, items.mapM step = some values ∧ items.map step = values.map some := by
  induction items with
  | nil => exact ⟨[], rfl, rfl⟩
  | cons item rest ih =>
    obtain ⟨value, one⟩ := answers item List.mem_cons_self
    obtain ⟨values, more, others⟩ := ih fun other member => answers other (.tail _ member)
    refine ⟨value :: values, ?_, ?_⟩
    · rw [List.mapM_cons, one, more]
      rfl
    · rw [List.map_cons, List.map_cons, one, others]

variable {step : A → Except E B}

/-- A step that returns on every item of a list maps the list. -/
theorem mapM_ok {f : A → B} {items : List A} (succeeds : ∀ item ∈ items, step item = .ok (f item)) :
    items.mapM step = .ok (items.map f) := by
  induction items with
  | nil => rfl
  | cons item rest ih =>
    rw [List.mapM_cons, succeeds item List.mem_cons_self,
      ih fun other member => succeeds other (List.mem_cons_of_mem _ member)]
    rfl

/-- Translating the error of each step leaves a list that is mapped alone. -/
theorem mapM_mapError_eq_ok {f : E → F} {items : List A} {values : List B} :
    (items.mapM fun item => (step item).mapError f) = .ok values ↔ items.mapM step = .ok values := by
  induction items generalizing values with
  | nil => simp only [List.mapM_nil, pure, Except.pure, Except.ok.injEq]
  | cons item rest ih =>
    rw [List.mapM_cons, List.mapM_cons, bind_eq_ok, bind_eq_ok]
    simp only [mapError_eq_ok, bind_eq_ok, ih, pure, Except.pure, Except.ok.injEq]

/-- A list that is mapped had the step return on every item. -/
theorem exists_of_mapM_ok {items : List A} {values : List B}
    (mapped : items.mapM step = .ok values) : ∀ item ∈ items, ∃ value, step item = .ok value := by
  induction items generalizing values with
  | nil => exact fun item member => (nomatch member)
  | cons item rest ih =>
    obtain ⟨value, one, more⟩ := bind_eq_ok.mp ((List.mapM_cons ..).symm.trans mapped)
    obtain ⟨others, returned, _⟩ := bind_eq_ok.mp more
    exact List.forall_mem_cons.mpr ⟨⟨value, one⟩, ih returned⟩

/-- A step whose mapped answers are known maps the list to them. -/
theorem map_mapM_some {A B C : Type} {step : A → Option B} {f : B → C} {answer : A → C}
    {items : List A} (answers : ∀ item ∈ items, (step item).map f = some (answer item)) :
    (items.mapM step).map (fun found => found.map f) = some (items.map answer) := by
  induction items with
  | nil => rfl
  | cons item rest ih =>
    have others := ih fun other member => answers other (List.mem_cons_of_mem _ member)
    obtain ⟨found, same, mapped⟩ := Option.map_eq_some_iff.mp (answers item List.mem_cons_self)
    obtain ⟨tail, follow, whole⟩ := Option.map_eq_some_iff.mp others
    rw [List.mapM_cons, same, follow, List.map_cons, ← mapped, ← whole]
    rfl

-- Computations that may also panic.

/-- A computation that returns, fails with an error, or panics. -/
abbrev Fallible (E : Type) := ExceptT E Option

/-- A value that is there, or a panic. -/
def Fallible.orPanic (value : Option T) : Fallible E T := ExceptT.mk (value.map .ok)

/-- A result, which does not panic. -/
def Fallible.ofResult (result : Except E T) : Fallible E T := ExceptT.mk (some result)

/-- Translates the error, or panics when the translation does. -/
def Fallible.adaptOrPanic (translate : E → Option F) (whole : Fallible E T) : Fallible F T :=
  ExceptT.mk do
    match ← whole.run with
    | .error error => (translate error).map .error
    | .ok value => return .ok value

namespace Fallible

/-- Whether a computation returns a value that something holds of. -/
def returns (holds : T → Bool) (whole : Fallible E T) : Bool :=
  match whole.run with
  | some (.ok value) => holds value
  | _ => false

variable {whole : Fallible E T}

/-- A computation that returns such a value returns one. -/
theorem exists_of_returns {holds : T → Bool} (found : whole.returns holds = true) :
    ∃ value, whole = pure value ∧ holds value = true := by
  unfold returns at found
  split at found
  · rename_i value same
    exact ⟨value, same, found⟩
  · cases found

variable {next : T → Fallible E U} {first : Fallible E T}

/-- A sequence of two computations returns exactly when both do. -/
theorem bind_eq_pure {value : U} :
    (first >>= next) = pure value ↔ ∃ middle, first = pure middle ∧ next middle = pure value := by
  constructor
  · intro whole
    cases first with
    | none => cases whole
    | some result =>
      cases result with
      | error error => cases whole
      | ok middle => exact ⟨middle, rfl, whole⟩
  · rintro ⟨middle, rfl, after⟩
    exact after

/-- A check followed by a computation returns exactly when both do. -/
theorem seq_eq_pure {check : Fallible E Unit} {next : Fallible E U} {value : U} :
    (check >>= fun _ => next) = pure value ↔ check = pure () ∧ next = pure value := by
  rw [bind_eq_pure]
  exact ⟨fun ⟨_, first, after⟩ => ⟨first, after⟩, fun ⟨first, after⟩ => ⟨(), first, after⟩⟩

variable {value : T}

/-- After a return comes the rest. -/
theorem bind_of_pure (returns : first = pure value) : (first >>= next) = next value := by
  rw [returns]
  rfl

variable {error : E}

/-- After an error comes nothing. -/
theorem bind_of_throw (raises : first = throw error) : (first >>= next) = throw error := by
  rw [raises]
  rfl

/-- After a panic comes nothing. -/
theorem bind_of_panic (panics : first = ExceptT.mk none) : (first >>= next) = ExceptT.mk none := by
  rw [panics]
  rfl

/-- A success is what it returns. -/
@[simp] theorem ofResult_ok (value : T) : (ofResult (.ok value) : Fallible E T) = pure value := rfl

@[simp] theorem orPanic_eq_pure {option : Option T} :
    (orPanic option : Fallible E T) = pure value ↔ option = some value := by
  cases option with
  | none => exact ⟨fun impossible => (nomatch impossible), fun impossible => (nomatch impossible)⟩
  | some inner =>
    constructor
    · rintro ⟨⟩
      rfl
    · rintro ⟨⟩
      rfl

@[simp] theorem ofResult_eq_pure {result : Except E T} :
    (ofResult result : Fallible E T) = pure value ↔ result = .ok value := by
  constructor
  · rintro ⟨⟩
    rfl
  · rintro rfl
    rfl

/-- A computation returns one value at most. -/
@[simp] theorem pure_eq_pure {value other : T} :
    (pure value : Fallible E T) = pure other ↔ value = other := by
  constructor
  · rintro ⟨⟩
    rfl
  · rintro rfl
    rfl

/-- Translating the error leaves a return alone. -/
@[simp] theorem adapt_eq_pure {f : E → F} :
    (ExceptT.adapt f whole : Fallible F T) = pure value ↔ whole = pure value := by
  cases whole with
  | none => exact ⟨fun impossible => (nomatch impossible), fun impossible => (nomatch impossible)⟩
  | some result =>
    cases result with
    | error error =>
      exact ⟨fun impossible => (nomatch impossible), fun impossible => (nomatch impossible)⟩
    | ok inner =>
      constructor
      · rintro ⟨⟩
        rfl
      · rintro ⟨⟩
        rfl

/-- Translating the error leaves a return alone, also when the translation may panic. -/
@[simp] theorem adaptOrPanic_eq_pure {translate : E → Option F} :
    whole.adaptOrPanic translate = pure value ↔ whole = pure value := by
  constructor
  · intro returned
    cases whole with
    | none => cases returned
    | some result =>
      cases result with
      | error error =>
        -- A translated error is an error, and an error that cannot be translated is a panic.
        have translated : Fallible.adaptOrPanic translate (some (Except.error error) :
            Fallible E T) = ExceptT.mk ((translate error).map Except.error) := rfl
        rw [translated] at returned
        cases raised : translate error with
        | none =>
          rw [raised] at returned
          cases returned
        | some other =>
          rw [raised] at returned
          cases returned
      | ok inner =>
        cases returned
        rfl
  · rintro rfl
    rfl

/-- A raised error is not a return. -/
@[simp] theorem throw_ne_pure : (throw error : Fallible E T) ≠ pure value := by
  rintro ⟨⟩

/-- A raised error returns nothing. -/
theorem not_exists_throw : ¬∃ value, (throw error : Fallible E T) = pure value := by
  rintro ⟨_, never⟩
  exact throw_ne_pure never

/-- A check of every item of a list returns exactly when each item passes it. -/
theorem forM_eq_pure {A : Type} {check : A → Fallible E Unit} {items : List A} :
    items.forM check = pure () ↔ ∀ item ∈ items, check item = pure () := by
  induction items with
  | nil => simp [List.forM]
  | cons item rest ih =>
    rw [List.forM, bind_eq_pure, List.forall_mem_cons, ← ih]
    constructor
    · rintro ⟨_, first, others⟩
      exact ⟨first, others⟩
    · rintro ⟨first, others⟩
      exact ⟨(), first, others⟩

-- Computations that do not panic.

/-- A computation that returns or fails, and does not panic. -/
def Total (whole : Fallible E T) : Prop := whole.run ≠ none

/-- A return is no panic. -/
@[simp] theorem total_pure (value : T) : Total (pure value : Fallible E T) := by
  intro panics
  cases panics

/-- An error is no panic. -/
@[simp] theorem total_throw (error : E) : Total (throw error : Fallible E T) := by
  intro panics
  cases panics

/-- A result is no panic. -/
@[simp] theorem total_ofResult (result : Except E T) : Total (ofResult result) := by
  intro panics
  cases panics

/-- A sequence does not panic when its first part does not, and its second part after a return. -/
theorem Total.bind (before : Total first)
    (after : ∀ value, first = pure value → Total (next value)) : Total (first >>= next) := by
  cases first with
  | none => exact absurd rfl before
  | some result =>
    cases result with
    | error error => exact total_throw error
    | ok value => exact after value rfl

/-- Translating errors does not panic when every error that is raised can be translated. -/
theorem Total.adaptOrPanic {translate : E → Option F} (total : Total whole)
    (translates : ∀ error, whole = throw error → (translate error).isSome) :
    Total (whole.adaptOrPanic translate) := by
  cases whole with
  | none => exact absurd rfl total
  | some result =>
    cases result with
    | ok value => exact total_pure value
    | error error =>
      obtain ⟨other, translated⟩ := Option.isSome_iff_exists.mp (translates error rfl)
      show ExceptT.mk ((translate error).map Except.error) ≠ none
      rw [translated]
      intro panics
      cases panics

-- Computations that do not panic, with what holds of their returns.

/-- A computation that does not panic, and returns only what something holds of. -/
structure Gives (whole : Fallible E T) (holds : T → Prop) : Prop where
  total : Total whole
  holds : ∀ value, whole = pure value → holds value

variable {post : T → Prop}

theorem gives_pure (holds : post value) : Gives (pure value : Fallible E T) post :=
  ⟨total_pure value, fun _ same => pure_eq_pure.mp same ▸ holds⟩

theorem gives_throw : Gives (throw error : Fallible E T) post :=
  ⟨total_throw error, fun _ never => absurd never throw_ne_pure⟩

/-- A result gives what holds of it as a success. -/
theorem gives_ofResult {result : Except E T} (success : ∀ value, result = .ok value → post value) :
    Gives (ofResult result) post :=
  ⟨total_ofResult result, fun value same => success value (ofResult_eq_pure.mp same)⟩

/-- A value that is there is given. -/
theorem gives_orPanic {option : Option T} (there : option = some value) (holds : post value) :
    Gives (orPanic option : Fallible E T) post := by
  rw [orPanic_eq_pure.mpr there]
  exact gives_pure holds

/-- A sequence gives what its second part does after what the first part gives. -/
theorem Gives.bind {middle : T → Prop} {post : U → Prop} (before : Gives first middle)
    (after : ∀ value, first = pure value → middle value → Gives (next value) post) :
    Gives (first >>= next) post where
  total := before.total.bind fun value same => (after value same (before.holds value same)).total
  holds last ran := by
    obtain ⟨value, same, rest⟩ := bind_eq_pure.mp ran
    exact (after value same (before.holds value same)).holds last rest

/-- What is given may be weakened. -/
theorem Gives.imp {post other : T → Prop} (gives : Gives whole post)
    (weaker : ∀ value, post value → other value) : Gives whole other :=
  ⟨gives.total, fun value same => weaker value (gives.holds value same)⟩

variable {values : List T}

/-- A step that returns for every item of a list maps the list. -/
theorem mapM_eq_pure {A : Type} {step : A → Fallible E T} {items : List A}
    (each : List.Forall₂ (fun item value => step item = pure value) items values) :
    items.mapM step = pure values := by
  induction each with
  | nil => rfl
  | cons one _ ih =>
    rw [List.mapM_cons, bind_of_pure one, bind_of_pure ih]

/-- A list that is mapped to values had the step return each of them in order. -/
theorem forall₂_of_mapM {A : Type} {step : A → Fallible E T} {items : List A}
    (mapped : items.mapM step = pure values) :
    List.Forall₂ (fun item value => step item = pure value) items values := by
  induction items generalizing values with
  | nil =>
    obtain rfl := pure_eq_pure.mp mapped
    exact .nil
  | cons item rest ih =>
    rw [List.mapM_cons, bind_eq_pure] at mapped
    obtain ⟨value, one, mapped⟩ := mapped
    obtain ⟨others, returned, whole⟩ := bind_eq_pure.mp mapped
    obtain rfl := pure_eq_pure.mp whole
    exact .cons one (ih returned)

/-- Translating the error of each step leaves a list that is mapped alone. -/
theorem mapM_adapt {A : Type} {step : A → Fallible E T} {f : E → F} {items : List A}
    (mapped : items.mapM step = pure values) :
    (items.mapM fun item => (ExceptT.adapt f (step item) : Fallible F T)) = pure values :=
  mapM_eq_pure ((forall₂_of_mapM mapped).imp fun _ _ one => adapt_eq_pure.mpr one)

-- Runs of steps that may fail.

/-- The state after each step in order; a step that fails leaves it, and a panic ends the run. -/
def runAll {S A : Type} (step : S → A → Fallible E S) : List A → S → Option S
  | [], state => some state
  | input :: rest, state =>
    match (step state input).run with
    | none => none
    | some (.error _) => runAll step rest state
    | some (.ok next) => runAll step rest next

/-- What every step of a fold keeps holds of what the fold returns. -/
theorem foldlM_keeps {S A : Type} {holds : S → Prop} {step : S → A → Fallible E S}
    (each : ∀ state item next, holds state → step state item = pure next → holds next)
    {items : List A} {start last : S} (initially : holds start)
    (ran : items.foldlM step start = pure last) : holds last := by
  induction items generalizing start with
  | nil =>
    rw [List.foldlM_nil, Fallible.pure_eq_pure] at ran
    exact ran ▸ initially
  | cons item rest ih =>
    rw [List.foldlM_cons] at ran
    obtain ⟨next, one, others⟩ := bind_eq_pure.mp ran
    exact ih (each _ _ _ initially one) others

/-- A fold whose steps go from one state to the next returns the state of all its items. -/
theorem foldlM_through {S A : Type} {step : S → A → Fallible E S} {items : List A}
    (state : List A → S)
    (goesOn : ∀ done item rest, items = done ++ item :: rest →
      step (state done) item = pure (state (done ++ [item]))) :
    items.foldlM step (state []) = pure (state items) := by
  induction items generalizing state with
  | nil => rfl
  | cons item rest ih =>
    have further := ih (fun done => state (item :: done)) fun done next others split =>
      goesOn (item :: done) next others (congrArg (item :: ·) split)
    rw [List.foldlM_cons]
    exact (bind_of_pure (goesOn [] item rest rfl)).trans further

/-- A step keeps a relation to a second system that makes the same step. -/
def Keeps {S T A : Type} (step : S → A → Fallible E S) (other : T → A → T) (related : S → T → Prop) :
    Prop :=
  ∀ state twin input, related state twin →
    match (step state input).run with
    | none => True
    | some (.error _) => related state (other twin input)
    | some (.ok next) => related next (other twin input)

/-- A relation that every step keeps holds after a run. -/
theorem Keeps.runAll {S T A : Type} {step : S → A → Fallible E S} {other : T → A → T}
    {related : S → T → Prop} (keeps : Keeps step other related) {inputs : List A} {state final : S}
    {twin : T} (start : related state twin) (ran : Fallible.runAll step inputs state = some final) :
    related final (inputs.foldl other twin) := by
  induction inputs generalizing state twin with
  | nil =>
    cases ran
    exact start
  | cons input rest ih =>
    have kept := keeps state twin input start
    rw [Fallible.runAll] at ran
    rw [List.foldl_cons]
    -- The run goes on from the old state or from the next one, and both are related.
    cases outcome : (step state input).run with
    | none =>
      rw [outcome] at ran
      cases ran
    | some result =>
      rw [outcome] at ran kept
      cases result with
      | error _ => exact ih kept ran
      | ok _ => exact ih kept ran

/-- A step keeps what the same step on a part of its state keeps. -/
theorem Keeps.of_map {S P T A : Type} {step : S → A → Fallible E S} {core : P → A → Fallible E P}
    {other : T → A → T} {related : P → T → Prop} {part : S → P}
    (same : ∀ state input, part <$> step state input = core (part state) input)
    (keeps : Keeps core other related) :
    Keeps step other fun state twin => related (part state) twin := by
  intro state twin input start
  have kept := keeps (part state) twin input start
  rw [← same] at kept
  -- The step and its part return, fail and panic together.
  cases outcome : (step state input).run with
  | none =>
    trivial
  | some result =>
    have mapped : (part <$> step state input).run = some (part <$> result) := by
      rw [ExceptT.run_map, outcome]
      rfl
    rw [mapped] at kept
    cases result with
    | error _ => exact kept
    | ok _ => exact kept

end Fallible

end Oxgraph
