import Oxgraph.Proofs.Algo.History

/-! A bounded search with a visitor that never breaks visits what is listed, up to its cap. -/

namespace Oxgraph

open Mutation (bind_apply bind_run read_bind)

namespace Bfs

namespace Bounded

open BoundedRun

variable {Id V : Type} {graph : TopologyView Id} {visit : BfsVisitor Id V}

-- What the parts of a run do to it.

variable {run : BoundedRun Id V} {element : Id}

/-- Emitting an element to a visitor that goes on counts it, and breaks at the result cap. -/
theorem emit_eq {depth : UInt32} (continues : (visit run.visitor element depth).1 = .continue) :
    emit visit element depth run =
      (.ok (if run.emitted + 1 ≥ run.bounds.resultLimit then .break else .continue),
        { run with
          visitor := (visit run.visitor element depth).2
          emitted := run.emitted + 1 }) := by
  simp only [emit, read_bind, continues]
  rfl

/-- Queueing an element marks it and takes the slot at the tail. -/
theorem enqueue_eq {last : Id} (element : Id) (index : Nat)
    (room : run.queue[run.tail]? = some last) :
    enqueue element index run = (.ok (), { run with
      marks := run.marks.set index run.epoch
      queue := run.queue.set run.tail element
      tail := run.tail + 1 }) := by
  have seated : slot queue run.tail { run with marks := run.marks.set index run.epoch } =
      (.ok last, { run with marks := run.marks.set index run.epoch }) := by
    simp only [slot, read_bind, room]
    rfl
  unfold enqueue
  rw [bind_run (Mutation.modify_apply _ run), read_bind,
    bind_run seated]
  rfl

/-- Popping past the last element yields nothing. -/
theorem pop_exhausted (exhausted : run.head = run.tail) :
    pop run = (.ok none, run) := by
  show (if run.head = run.tail then (pure none : Mutation BfsHalt _ _) else _) run = _
  rw [if_pos exhausted]
  rfl

/-- Popping inside a wave yields the element at the head with the depth of the wave. -/
theorem pop_inside (more : run.head ≠ run.tail) (inside : run.head ≠ run.waveEnd)
    (read : run.queue[run.head]? = some element) :
    pop run = (.ok (some (element, run.depth)), { run with head := run.head + 1 }) := by
  unfold pop
  rw [bind_apply, Mutation.read]
  simp only
  rw [if_neg more, if_neg inside, bind_apply, slot, bind_apply, Mutation.read]
  simp only
  rw [read]
  rfl

/-- Popping past a wave yields the element at the head with the next depth. -/
theorem pop_past (more : run.head ≠ run.tail) (past : run.head = run.waveEnd)
    (read : run.queue[run.head]? = some element) (shallow : run.depth ≠ 4294967295) :
    pop run = (.ok (some (element, run.depth + 1)), { run with
      depth := run.depth + 1
      waveEnd := run.tail
      head := run.head + 1 }) := by
  unfold pop
  rw [bind_apply, Mutation.read]
  simp only
  rw [if_neg more, if_pos past, bind_apply, Mutation.modify_apply, if_neg shallow]
  simp only
  rw [bind_apply, slot, bind_apply, Mutation.read]
  simp only
  rw [read]
  rfl

-- What a run has listed and emitted.

/-- The entries that are emitted: all of them, or those that are no seeds. -/
def shown (bounds : BfsBounds) (entries : List (Id × Nat)) : List (Id × Nat) :=
  entries.filter fun entry => bounds.includeSeeds || decide (0 < entry.2)

/-- A visitor after it observed entries one after the other. -/
def observed (visit : BfsVisitor Id V) (visitor : V) (entries : List (Id × Nat)) : V :=
  entries.foldl (fun visitor entry => (visit visitor entry.1 (UInt32.ofNat entry.2)).2) visitor

/-- How many elements are emitted before the search stops; the first is, whatever the limit. -/
def cap (bounds : BfsBounds) : Nat := max 1 bounds.resultLimit

/-- A visitor that never breaks. -/
def NeverBreaks (visit : BfsVisitor Id V) : Prop :=
  ∀ visitor element depth, (visit visitor element depth).1 = .continue

/-- A visitor that goes on at contained elements, after any others that it has observed. -/
def Continues (graph : TopologyView Id) (visit : BfsVisitor Id V) (initial : V) : Prop :=
  ∀ (entries : List (Id × Nat)) (element : Id) (depth : UInt32),
    (∀ entry ∈ entries, graph.containsElement entry.1 = true) →
      graph.containsElement element = true →
        (visit (observed visit initial entries) element depth).1 = .continue

theorem NeverBreaks.continues (never : NeverBreaks visit) (initial : V) :
    Continues graph visit initial :=
  fun _ _ _ _ _ => never _ _ _

/-- A run has listed entries, and has emitted those that are shown. -/
structure Tracking (graph : TopologyView Id) (visit : BfsVisitor Id V) (bounds : BfsBounds)
    (initial : V) (run : BoundedRun Id V) (entries : List (Id × Nat)) : Prop where
  found : Found graph (entries.map Prod.fst)
  marks : Marks graph (· ≠ run.epoch) run.marks (entries.map Prod.fst)
  queued : Queued graph run.queue (entries.map Prod.fst) run.head run.tail
  visitor : run.visitor = observed visit initial (shown bounds entries)
  emitted : run.emitted = (shown bounds entries).length
  bounds : run.bounds = bounds
  elementBound : run.elementBound = graph.elementBound

/-- A part of a search lists entries and goes on below the cap, or stops at it on the way. -/
inductive Lists (graph : TopologyView Id) (visit : BfsVisitor Id V) (bounds : BfsBounds)
    (initial : V) (search : Mutation BfsHalt (BoundedRun Id V) Unit) (run : BoundedRun Id V)
    (entries : List (Id × Nat)) (keeps : BoundedRun Id V → Prop) : Prop where
  | goesOn (after : BoundedRun Id V) (ran : search run = (.ok (), after))
      (tracked : Tracking graph visit bounds initial after entries) (kept : keeps after)
      (below : (shown bounds entries).length < cap bounds)
  | stops (after : BoundedRun Id V) (part : List (Id × Nat))
      (stopped : search run = (.error .stopped, after)) (before : part <+: entries)
      (tracked : Tracking graph visit bounds initial after part)
      (full : (shown bounds part).length = cap bounds)

variable {bounds : BfsBounds} {initial : V} {run : BoundedRun Id V}

/-- Two parts of a search list what the second does, if that extends what the first does. -/
theorem Lists.bind {first next : Mutation BfsHalt (BoundedRun Id V) Unit}
    {entries more : List (Id × Nat)} {keeps lastly : BoundedRun Id V → Prop}
    (before : Lists graph visit bounds initial first run entries keeps)
    (longer : entries <+: more)
    (continued : ∀ {after}, Tracking graph visit bounds initial after entries → keeps after →
      (shown bounds entries).length < cap bounds →
        Lists graph visit bounds initial next after more lastly) :
    Lists graph visit bounds initial (first >>= fun _ => next) run more lastly := by
  cases before with
  | goesOn after ran tracked kept below =>
    cases continued tracked kept below with
    | goesOn last ranNext trackedNext keptNext belowNext =>
      exact .goesOn last (Mutation.bind_ok.mpr ⟨_, after, ran, ranNext⟩) trackedNext keptNext
        belowNext
    | stops last part stopped inside trackedPart full =>
      exact .stops last part (Mutation.bind_error.mpr (.inr ⟨_, after, ran, stopped⟩)) inside
        trackedPart full
  | stops after part stopped inside tracked full =>
    exact .stops after part (Mutation.bind_error.mpr (.inl stopped)) (inside.trans longer) tracked
      full

variable {entries : List (Id × Nat)}

/-- A search that runs as another from where that starts lists what the other lists. -/
theorem Lists.of_eq {search other : Mutation BfsHalt (BoundedRun Id V) Unit}
    {run start : BoundedRun Id V} {keeps : BoundedRun Id V → Prop}
    (same : search run = other start)
    (lists : Lists graph visit bounds initial other start entries keeps) :
    Lists graph visit bounds initial search run entries keeps := by
  cases lists with
  | goesOn after ran tracked kept below => exact .goesOn after (same.trans ran) tracked kept below
  | stops after part stopped before tracked full =>
    exact .stops after part (same.trans stopped) before tracked full

/-- What is kept below the cap may be weakened. -/
theorem Lists.mono {search : Mutation BfsHalt (BoundedRun Id V) Unit}
    {keeps weaker : BoundedRun Id V → Prop}
    (lists : Lists graph visit bounds initial search run entries keeps)
    (weaken : ∀ {after}, keeps after → weaker after) :
    Lists graph visit bounds initial search run entries weaker := by
  cases lists with
  | goesOn after ran tracked kept below => exact .goesOn after ran tracked (weaken kept) below
  | stops after part stopped before tracked full =>
    exact .stops after part stopped before tracked full

/-- A run after an element has been marked and queued. -/
def seated (graph : TopologyView Id) (run : BoundedRun Id V) (element : Id) : BoundedRun Id V :=
  { run with
    marks := run.marks.set (graph.elementIndex element) run.epoch
    queue := run.queue.set run.tail element
    tail := run.tail + 1 }

/-- A contained element that has not been found is seated, and a visitor is shown it next. -/
theorem Tracking.seat [DecidableEq Id] (lawful : graph.Lawful)
    (tracked : Tracking graph visit bounds initial run entries)
    (contained : graph.containsElement element = true) (unfound : element ∉ entries.map Prod.fst) :
    enqueue element (graph.elementIndex element) run = (.ok (), seated graph run element) ∧
      ∀ (depth : Nat) (after : BoundedRun Id V),
        after = { seated graph run element with
          visitor := after.visitor
          emitted := after.emitted } →
        after.visitor = observed visit initial (shown bounds (entries ++ [(element, depth)])) →
        after.emitted = (shown bounds (entries ++ [(element, depth)])).length →
          Tracking graph visit bounds initial after (entries ++ [(element, depth)]) := by
  obtain ⟨found, marks, queued, visitor, emitted, boundsAre, boundIs⟩ := tracked
  -- There is room for an element that has not been found.
  have free := found.free lawful contained unfound queued.room
  have room := List.getElem?_eq_getElem (queued.tail.trans_lt free)
  refine ⟨enqueue_eq element _ room, fun depth after same visitorIs emittedIs => ?_⟩
  have nodes : (entries ++ [(element, depth)]).map Prod.fst = entries.map Prod.fst ++ [element] := by
    rw [List.map_append]
    rfl
  constructor
  · rw [nodes]
    exact found.push contained unfound
  · rw [nodes, same]
    exact marks.visit lawful contained (not_not.mpr rfl)
  · rw [nodes, same]
    exact queued.push free element
  · exact visitorIs
  · exact emittedIs
  · rw [same]
    exact boundsAre
  · rw [same]
    exact boundIs

/-- Whether an entry of a depth is shown. -/
theorem shown_snoc (bounds : BfsBounds) (entries : List (Id × Nat)) (entry : Id × Nat) :
    shown bounds (entries ++ [entry]) = shown bounds entries ++
      if (bounds.includeSeeds || decide (0 < entry.2)) = true then [entry] else [] := by
  unfold shown
  rw [List.filter_append, List.filter_singleton]
  cases bounds.includeSeeds || decide (0 < entry.2) <;> rfl

/-- A part of a search that pops nothing keeps the head and the wave. -/
structure SameWave (run after : BoundedRun Id V) : Prop where
  head : after.head = run.head
  depth : after.depth = run.depth
  waveEnd : after.waveEnd = run.waveEnd

theorem SameWave.trans {first second third : BoundedRun Id V} (before : SameWave first second)
    (after : SameWave second third) : SameWave first third :=
  ⟨after.head.trans before.head, after.depth.trans before.depth, after.waveEnd.trans before.waveEnd⟩

section Pieces

variable {run : BoundedRun Id V} {entries : List (Id × Nat)}

/-- The mark of a contained element tells whether it has been found. -/
theorem slot_marks (tracked : Tracking graph visit bounds initial run entries) {element : Id}
    (contained : graph.containsElement element = true) : ∃ mark,
      slot BoundedRun.marks (graph.elementIndex element) run = (.ok mark, run) ∧
        (mark = run.epoch ↔ element ∈ entries.map Prod.fst) := by
  obtain ⟨mark, read, tells⟩ := tracked.marks.tells contained
  refine ⟨mark, ?_, ?_⟩
  · unfold slot
    rw [bind_apply, Mutation.read]
    simp only
    rw [read]
    rfl
  · rw [← not_iff_not]
    exact tells

variable [DecidableEq Id]

/-- Emitting a seated element lists it, and stops at the cap. -/
theorem emit_lists (lawful : graph.Lawful) (continues : Continues graph visit initial)
    (tracked : Tracking graph visit bounds initial run entries) {element : Id}
    (contained : graph.containsElement element = true)
    (unfound : element ∉ entries.map Prod.fst) {depth : UInt32}
    (emits : (bounds.includeSeeds || decide (0 < depth.toNat)) = true)
    (below : (shown bounds entries).length < cap bounds) :
    Lists graph visit bounds initial (emit visit element depth >>= obey)
      (seated graph run element) (entries ++ [(element, depth.toNat)]) (SameWave run) := by
  obtain ⟨_, lists⟩ := tracked.seat lawful contained unfound
  have more : shown bounds (entries ++ [(element, depth.toNat)]) =
      shown bounds entries ++ [(element, depth.toNat)] := by
    rw [shown_snoc, if_pos emits]
  have goesOn : (visit (seated graph run element).visitor element depth).1 = .continue := by
    show (visit run.visitor element depth).1 = _
    rw [tracked.visitor]
    refine continues _ _ _ (fun entry member => ?_) contained
    exact tracked.found.contained _ (List.mem_map_of_mem (List.mem_filter.mp member).1)
  have emitted := emit_eq goesOn
  have length : (shown bounds (entries ++ [(element, depth.toNat)])).length =
      (shown bounds entries).length + 1 := by
    rw [more, List.length_append, List.length_singleton]
  have after := lists depth.toNat { seated graph run element with
    visitor := (visit run.visitor element depth).2
    emitted := run.emitted + 1 } rfl
    (by
      rw [more]
      unfold observed
      rw [List.foldl_append, List.foldl_cons, List.foldl_nil, UInt32.ofNat_toNat]
      show (visit run.visitor element depth).2 = _
      rw [tracked.visitor]
      rfl)
    (by
      rw [length, ← tracked.emitted])
  have limit : (seated graph run element).bounds.resultLimit = bounds.resultLimit := by
    show run.bounds.resultLimit = _
    rw [tracked.bounds]
  have count : (seated graph run element).emitted = (shown bounds entries).length := tracked.emitted
  -- The one emitted is the last when it fills the limit.
  by_cases reached : (shown bounds entries).length + 1 ≥ bounds.resultLimit
  · rw [if_pos (by rw [limit, count]; exact reached)] at emitted
    refine .stops _ _ ?_ List.prefix_rfl after ?_
    · rw [bind_apply, emitted]
      rfl
    · rw [length]
      unfold cap at *
      omega
  · rw [if_neg (by rw [limit, count]; exact reached)] at emitted
    refine .goesOn _ ?_ after ⟨rfl, rfl, rfl⟩ ?_
    · rw [bind_apply, emitted]
      rfl
    · rw [length]
      unfold cap
      omega

omit [DecidableEq Id] in
/-- Discovering what has been found does nothing. -/
theorem discover_known (lawful : graph.Lawful)
    (tracked : Tracking graph visit bounds initial run entries) {target : Id}
    (contained : graph.containsElement target = true)
    (known : target ∈ entries.map Prod.fst) (depth : UInt32) :
    (discover visit target (graph.elementIndex target) depth >>= obey) run = (.ok (), run) := by
  obtain ⟨mark, read, tells⟩ := slot_marks tracked contained
  have inside : ¬ graph.elementIndex target ≥ run.elementBound := by
    rw [tracked.elementBound]
    exact Nat.not_le.mpr (lawful.indexed contained)
  unfold discover
  rw [bind_apply, bind_apply, Mutation.read]
  simp only
  rw [if_neg inside, bind_apply, read]
  simp only
  rw [if_pos (tells.mpr known)]
  rfl

/-- Discovering a contained target enters it one deeper than a seed. -/
theorem discover_lists (lawful : graph.Lawful) (continues : Continues graph visit initial)
    (tracked : Tracking graph visit bounds initial run entries) {target : Id}
    (contained : graph.containsElement target = true) {depth : UInt32} (deep : 0 < depth.toNat)
    (below : (shown bounds entries).length < cap bounds) :
    Lists graph visit bounds initial
      (discover visit target (graph.elementIndex target) depth >>= obey) run
      (enter entries (target, depth.toNat)) (SameWave run) := by
  obtain ⟨mark, read, tells⟩ := slot_marks tracked contained
  have inside : ¬ graph.elementIndex target ≥ run.elementBound := by
    rw [tracked.elementBound]
    exact Nat.not_le.mpr (lawful.indexed contained)
  have starts : discover visit target (graph.elementIndex target) depth run =
      (if mark = run.epoch then pure .continue else do
        enqueue target (graph.elementIndex target)
        emit visit target depth : Mutation BfsHalt (BoundedRun Id V) ControlFlow) run := by
    unfold discover
    rw [bind_apply, Mutation.read]
    simp only
    rw [if_neg inside, bind_apply, read]
  unfold enter
  by_cases known : target ∈ entries.map Prod.fst
  · rw [if_pos known]
    exact .goesOn run (discover_known lawful tracked contained known depth) tracked
      ⟨rfl, rfl, rfl⟩ below
  · rw [if_neg (mt tells.mp known)] at starts
    rw [if_neg known]
    obtain ⟨seats, _⟩ := tracked.seat lawful contained known
    have rest := emit_lists lawful continues tracked contained known
      (by rw [decide_eq_true deep, Bool.or_true]) below
    -- The rest runs from the state in which the target is seated.
    have same : (discover visit target (graph.elementIndex target) depth >>= obey) run =
        (emit visit target depth >>= obey) (seated graph run target) := by
      rw [bind_apply, starts, bind_apply, seats]
      rfl
    exact rest.of_eq same

/-- A contained seed is entered at depth zero. -/
theorem seed_lists (lawful : graph.Lawful) (continues : Continues graph visit initial)
    (tracked : Tracking graph visit bounds initial run entries) {element : Id}
    (contained : graph.containsElement element = true)
    (below : (shown bounds entries).length < cap bounds) :
    Lists graph visit bounds initial (BoundedRun.seed graph visit element) run
      (enter entries (element, 0)) (SameWave run) := by
  obtain ⟨mark, read, tells⟩ := slot_marks tracked contained
  have inside : ¬ graph.elementIndex element ≥ run.elementBound := by
    rw [tracked.elementBound]
    exact Nat.not_le.mpr (lawful.indexed contained)
  have starts : BoundedRun.seed graph visit element run =
      (if mark = run.epoch then pure () else do
        enqueue element (graph.elementIndex element)
        if run.bounds.includeSeeds then do
          let flow ← emit visit element 0
          obey flow : Mutation BfsHalt (BoundedRun Id V) Unit) run := by
    unfold BoundedRun.seed
    rw [bind_apply, Mutation.read]
    simp only
    rw [if_neg (not_not.mpr contained), if_neg inside, bind_apply, read]
  unfold enter
  by_cases known : element ∈ entries.map Prod.fst
  · rw [if_pos (tells.mpr known)] at starts
    rw [if_pos known]
    exact .goesOn run starts tracked ⟨rfl, rfl, rfl⟩ below
  · rw [if_neg (mt tells.mp known), tracked.bounds, bind_apply] at starts
    rw [if_neg known]
    obtain ⟨seats, lists⟩ := tracked.seat lawful contained known
    rw [seats] at starts
    by_cases emits : bounds.includeSeeds = true
    · simp only [if_pos emits] at starts
      have rest : Lists graph visit bounds initial (emit visit element 0 >>= obey)
          (seated graph run element) (entries ++ [(element, 0)]) (SameWave run) :=
        emit_lists lawful continues tracked contained known (by rw [emits, Bool.true_or]) below
      exact rest.of_eq starts
    · simp only [if_neg emits] at starts
      -- A seed that is not emitted is listed but not shown.
      have unshown : shown bounds (entries ++ [(element, 0)]) = shown bounds entries := by
        rw [shown_snoc, if_neg, List.append_nil]
        rw [eq_false_of_ne_true emits]
        exact Bool.false_ne_true
      refine .goesOn _ starts (lists 0 _ rfl ?_ ?_) ⟨rfl, rfl, rfl⟩ ?_
      · rw [unshown]
        exact tracked.visitor
      · rw [unshown]
        exact tracked.emitted
      · rw [unshown]
        exact below

/-- A loop over items enters the entry of each. -/
theorem forM_lists {T : Type} {step : T → Mutation BfsHalt (BoundedRun Id V) Unit}
    {entry : T → Id × Nat} {items : List T}
    (each : ∀ {item run entries}, item ∈ items → Tracking graph visit bounds initial run entries →
      (shown bounds entries).length < cap bounds →
        Lists graph visit bounds initial (step item) run (enter entries (entry item)) (SameWave run))
    (tracked : Tracking graph visit bounds initial run entries)
    (below : (shown bounds entries).length < cap bounds) :
    Lists graph visit bounds initial (items.forM step) run
      ((items.map entry).foldl enter entries) (SameWave run) := by
  induction items generalizing run entries with
  | nil => exact .goesOn run rfl tracked ⟨rfl, rfl, rfl⟩ below
  | cons item rest ih =>
    rw [List.forM]
    refine (each List.mem_cons_self tracked below).bind ?_ ?_
    · exact prefix_enterAll _ _
    · intro after trackedAfter same belowAfter
      have others := ih (fun member => each (List.mem_cons_of_mem _ member)) trackedAfter belowAfter
      exact others.mono same.trans

end Pieces

variable {entries : List (Id × Nat)}

/-- What is listed below the cap or stopped at it is the capped listing. -/
theorem Lists.visitor {search : Mutation BfsHalt (BoundedRun Id V) Unit} {run : BoundedRun Id V}
    {keeps : BoundedRun Id V → Prop}
    (lists : Lists graph visit bounds initial search run entries keeps) : ∃ outcome after,
      search run = (outcome, after) ∧ (outcome = .ok () ∨ outcome = .error .stopped) ∧
        after.visitor = observed visit initial ((shown bounds entries).take (cap bounds)) := by
  cases lists with
  | goesOn after ran tracked kept below =>
    refine ⟨_, after, ran, .inl rfl, ?_⟩
    rw [List.take_of_length_le (Nat.le_of_lt below)]
    exact tracked.visitor
  | stops after part stopped before tracked full =>
    refine ⟨_, after, stopped, .inr rfl, ?_⟩
    -- What was shown is in front of what is shown in all.
    have front : shown bounds part <+: shown bounds entries := before.filter _
    rw [← full, ← List.prefix_iff_eq_take.mp front]
    exact tracked.visitor

-- The waves of a run.

/-- The unpopped entries are those of the current wave, then those one deeper. -/
structure Waves (run : BoundedRun Id V) (entries : List (Id × Nat)) : Prop where
  ordered : run.head ≤ run.waveEnd
  within : run.waveEnd ≤ entries.length
  wave : ∀ {position entry}, run.head ≤ position → position < run.waveEnd →
    entries[position]? = some entry → entry.2 = run.depth.toNat
  next : ∀ {position entry}, run.waveEnd ≤ position → entries[position]? = some entry →
    entry.2 = run.depth.toNat + 1
  -- Every wave has an entry, so the depth stays below the number of popped entries.
  shallow : run.depth.toNat ≤ run.head - 1
  first : run.head = 0 → run.waveEnd = entries.length

/-- Entries one deeper than the wave may be added at the end. -/
theorem Waves.extend {run after : BoundedRun Id V} {entries added : List (Id × Nat)}
    (waves : Waves run entries) (same : SameWave run after) (begun : 0 < run.head)
    (deeper : ∀ entry ∈ added, entry.2 = run.depth.toNat + 1) : Waves after (entries ++ added) := by
  obtain ⟨head, depth, waveEnd⟩ := same
  constructor
  case ordered =>
    rw [head, waveEnd]
    exact waves.ordered
  case within =>
    rw [waveEnd, List.length_append]
    exact Nat.le_add_right_of_le waves.within
  case wave =>
    intro position entry from_ until_ read
    rw [head] at from_
    rw [waveEnd] at until_
    rw [depth]
    rw [List.getElem?_append_left (Nat.lt_of_lt_of_le until_ waves.within)] at read
    exact waves.wave from_ until_ read
  case next =>
    -- What comes after the wave is of the old entries or of the new ones.
    intro position entry from_ read
    rw [waveEnd] at from_
    rw [depth]
    rcases Nat.lt_or_ge position entries.length with old | new
    · rw [List.getElem?_append_left old] at read
      exact waves.next from_ read
    · rw [List.getElem?_append_right new] at read
      exact deeper _ (List.mem_of_getElem? read)
  case shallow =>
    rw [depth, head]
    exact waves.shallow
  case first =>
    intro none
    omega

/-- Popping an entry of the wave leaves the rest of it. -/
theorem Waves.inside (waves : Waves run entries) (below : run.head < run.waveEnd) :
    Waves { run with head := run.head + 1 } entries := by
  have shallow := waves.shallow
  constructor
  case ordered => exact below
  case within => exact waves.within
  case wave =>
    intro position entry from_ until_ found
    exact waves.wave (Nat.le_of_succ_le from_) until_ found
  case next => exact waves.next
  case shallow =>
    show run.depth.toNat ≤ run.head + 1 - 1
    omega
  case first =>
    intro none
    cases none

/-- Popping the first entry after the wave starts the next one, which ends with the entries. -/
theorem Waves.past {run : BoundedRun Id V} (waves : Waves run entries)
    (past : run.head = run.waveEnd) (tail : run.tail = entries.length)
    (more : run.head < entries.length) (deeper : (run.depth + 1).toNat = run.depth.toNat + 1) :
    Waves { run with
      depth := run.depth + 1
      waveEnd := run.tail
      head := run.head + 1 } entries := by
  have shallow := waves.shallow
  have begun : run.head ≠ 0 := by
    intro none
    have := waves.first none
    omega
  constructor
  case ordered =>
    show run.head + 1 ≤ run.tail
    omega
  case within => exact Nat.le_of_eq tail
  case wave =>
    -- The entries left were one deeper than the wave before.
    intro position entry from_ _ found
    rw [deeper]
    exact waves.next (by rw [← past]; exact Nat.le_of_succ_le from_) found
  case next =>
    intro position entry from_ found
    have : position < entries.length := (List.getElem?_eq_some_iff.mp found).1
    have : run.tail ≤ position := from_
    omega
  case shallow =>
    show (run.depth + 1).toNat ≤ run.head + 1 - 1
    rw [deeper]
    omega
  case first =>
    intro none
    cases none

/-- A run whose entries have all been popped pops nothing; another pops the next entry. -/
theorem pop_cases (tracked : Tracking graph visit bounds initial run entries)
    (waves : Waves run entries) (fits : ∀ entry ∈ entries, entry.2 < 2 ^ 32) :
    (entries[run.head]? = none ∧ pop run = (.ok none, run)) ∨
      ∃ element depth after, entries[run.head]? = some (element, depth.toNat) ∧
        pop run = (.ok (some (element, depth)), after) ∧
        Tracking graph visit bounds initial after entries ∧ Waves after entries ∧
        after.head = run.head + 1 ∧ after.depth = depth := by
  obtain ⟨found, marks, queued, visitor, emitted, boundsAre, boundIs⟩ := tracked
  rcases queued.pop with ⟨exhausted, past⟩ | ⟨element, more, read, here, popped⟩
  · rw [List.getElem?_map, Option.map_eq_none_iff] at past
    exact .inl ⟨past, pop_exhausted exhausted⟩
  · rw [List.getElem?_map] at here
    obtain ⟨⟨_, deep⟩, entryHere, rfl⟩ := Option.map_eq_some_iff.mp here
    have tail : run.tail = entries.length := by
      rw [queued.tail, List.length_map]
    have inside : run.head < entries.length := (List.getElem?_eq_some_iff.mp entryHere).1
    have small : deep < 2 ^ 32 := fits _ (List.mem_of_getElem? entryHere)
    have shallow := waves.shallow
    rcases Nat.lt_or_eq_of_le waves.ordered with below | past
    · -- The wave goes on.
      have deepIs : deep = run.depth.toNat := waves.wave (Nat.le_refl _) below entryHere
      subst deepIs
      exact .inr ⟨_, run.depth, _, entryHere, pop_inside more (Nat.ne_of_lt below) read,
        ⟨found, marks, popped, visitor, emitted, boundsAre, boundIs⟩, waves.inside below, rfl, rfl⟩
    · -- The wave is over, and the entries left are the next one.
      have deepIs : deep = run.depth.toNat + 1 := waves.next (Nat.le_of_eq past.symm) entryHere
      have sum : (run.depth + 1).toNat = run.depth.toNat + 1 := by
        rw [UInt32.toNat_add]
        exact Nat.mod_eq_of_lt (by show run.depth.toNat + 1 < 2 ^ 32; omega)
      have notLast : run.depth ≠ 4294967295 := by
        intro last
        have : run.depth.toNat = 4294967295 := by rw [last]; rfl
        omega
      refine .inr ⟨_, run.depth + 1, _, ?_, pop_past more past read notLast,
        ⟨found, marks, popped, visitor, emitted, boundsAre, boundIs⟩,
        waves.past past tail inside sum, rfl, rfl⟩
      rw [sum, ← deepIs]
      exact entryHere

-- Whole runs.

/-- The depth limit of bounds, as a number of hops. -/
def depthLimit (bounds : BfsBounds) : Option Nat := bounds.maxDepth.map UInt32.toNat

/-- An element is expanded where the listing goes on. -/
theorem expands_eq (bounds : BfsBounds) (depth : UInt32) :
    bounds.expands depth = goesOn (depthLimit bounds) depth.toNat := by
  unfold BfsBounds.expands depthLimit goesOn
  cases bounds.maxDepth with
  | none => rfl
  | some most => rfl

section Runs

variable [DecidableEq Id] {rows : Id → List Id} {run : BoundedRun Id V}
  {entries : List (Id × Nat)}

/-- The elements are few enough, or the depth limit low enough, for every depth to fit a word. -/
def DepthsFit (graph : TopologyView Id) (bounds : BfsBounds) : Prop :=
  graph.elementBound < 2 ^ 32 ∨ graph.elementBound ≤ 2 ^ 32 ∧ bounds.maxDepth.isSome

/-- Every depth that a search reports before it stops fits a word. -/
def Reportable (rows : Id → List Id) (seeds : List Id) (bounds : BfsBounds) : Prop :=
  ∀ count, ∀ entry ∈ (shown bounds (listing rows (depthLimit bounds) seeds count)).take (cap bounds),
    entry.2 < 2 ^ 32

omit [DecidableEq Id] in
/-- An entry below the first depth is shown. -/
theorem mem_shown {entry : Id × Nat} (member : entry ∈ entries) (deep : 0 < entry.2) :
    entry ∈ shown bounds entries := by
  unfold shown
  rw [List.mem_filter, decide_eq_true deep, Bool.or_true]
  exact ⟨member, rfl⟩

variable {seeds : List Id}

/-- What is listed below the cap has depths that fit a word. -/
theorem Reportable.fits (reportable : Reportable rows seeds bounds) {count : Nat}
    (below : (shown bounds (listing rows (depthLimit bounds) seeds count)).length < cap bounds) :
    ∀ entry ∈ listing rows (depthLimit bounds) seeds count, entry.2 < 2 ^ 32 := by
  intro entry member
  rcases Nat.eq_zero_or_pos entry.2 with seed | deep
  · rw [seed]
    exact Nat.two_pow_pos 32
  · refine reportable count entry ?_
    rw [List.take_of_length_le (Nat.le_of_lt below)]
    exact mem_shown member deep

/-- Below the cap, an entry whose row has a new node is not too deep to report that. -/
theorem Reportable.next (reportable : Reportable rows seeds bounds) {count : Nat}
    {entry : Id × Nat} (here : listed rows (depthLimit bounds) seeds count = some entry)
    (more : goesOn (depthLimit bounds) entry.2 = true)
    (below : (shown bounds (listing rows (depthLimit bounds) seeds count)).length < cap bounds) :
    entry.2 + 1 < 2 ^ 32 ∨ ∀ target ∈ rows entry.1,
      target ∈ (listing rows (depthLimit bounds) seeds count).map Prod.fst := by
  obtain ⟨added, grown, inside⟩ := enterAll_eq_append
    (listing rows (depthLimit bounds) seeds count) (expansion rows (depthLimit bounds) entry)
  cases added with
  | nil =>
    -- Nothing is entered, so that the whole row is listed.
    refine .inr fun target member => ?_
    have leads : (target, entry.2 + 1) ∈ expansion rows (depthLimit bounds) entry := by
      unfold expansion
      rw [if_pos more]
      exact List.mem_map.mpr ⟨target, member, rfl⟩
    have entered := @node_mem_enterAll Id _ _ (listing rows (depthLimit bounds) seeds count) _ leads
    rwa [grown, List.append_nil] at entered
  | cons first rest =>
    refine .inl ?_
    have deeper := (expansion_depth (inside List.mem_cons_self)).2.1
    rw [← deeper]
    refine reportable (count + 1) first ?_
    -- The first new entry is the next to be reported, and the cap has not been reached.
    rw [listing_succ here, grown]
    unfold shown at below ⊢
    rw [List.filter_append, List.filter_cons, decide_eq_true (by omega : 0 < first.2), Bool.or_true,
      if_pos rfl, List.take_append]
    refine List.mem_append_right _ ?_
    obtain ⟨left, room⟩ := Nat.exists_eq_add_of_lt below
    rw [show cap bounds - _ = left + 1 by omega, List.take_succ_cons]
    exact List.mem_cons_self

omit [DecidableEq Id] in
/-- A loop whose every round does nothing does nothing. -/
theorem forM_known {T : Type} {step : T → Mutation BfsHalt (BoundedRun Id V) Unit} {items : List T}
    (each : ∀ item ∈ items, step item run = (.ok (), run)) :
    items.forM step run = (.ok (), run) := by
  induction items with
  | nil => rfl
  | cons item rest ih =>
    rw [List.forM, bind_apply, each item List.mem_cons_self]
    exact ih fun other member => each other (List.mem_cons_of_mem _ member)

/-- Expanding a popped entry enters what it leads to. -/
theorem expand_lists (lawful : graph.Lawful) (continues : Continues graph visit initial)
    (closed : ∀ {element}, graph.containsElement element = true →
      ∀ target ∈ rows element, graph.containsElement target = true)
    (tracked : Tracking graph visit bounds initial run entries) {element : Id} {depth : UInt32}
    (contained : graph.containsElement element = true)
    (small : goesOn (depthLimit bounds) depth.toNat = true → depth.toNat + 1 < 2 ^ 32 ∨
      ∀ target ∈ rows element, target ∈ entries.map Prod.fst)
    (below : (shown bounds entries).length < cap bounds) :
    Lists graph visit bounds initial (expand graph visit rows element depth) run
      ((expansion rows (depthLimit bounds) (element, depth.toNat)).foldl enter entries)
      (SameWave run) := by
  have starts : expand graph visit rows element depth run =
      (if run.bounds.expands depth = true then
        (rows element).forM fun target =>
          discover visit target (graph.elementIndex target) (depth + 1) >>= obey
      else pure () : Mutation BfsHalt (BoundedRun Id V) Unit) run := rfl
  unfold expansion
  rw [tracked.bounds, expands_eq] at starts
  -- At the depth limit nothing is expanded.
  by_cases more : goesOn (depthLimit bounds) depth.toNat = true
  · rw [if_pos more] at starts
    rw [if_pos more]
    rcases small more with fits | known
    · have next : (depth + 1).toNat = depth.toNat + 1 := by
        rw [UInt32.toNat_add]
        exact Nat.mod_eq_of_lt fits
      have targets := @forM_lists Id V graph visit bounds initial run entries _ Id
        (fun target => discover visit target (graph.elementIndex target) (depth + 1) >>= obey)
        (fun target => (target, depth.toNat + 1)) (rows element)
        (fun {target run entries} member tracked below => by
          rw [← next]
          exact discover_lists lawful continues tracked (closed contained target member)
            (by rw [next]; exact Nat.succ_pos _) below) tracked below
      exact targets.of_eq starts
    · -- Nothing is discovered, so the depth that would be reported does not matter.
      rw [enterAll_known known]
      refine .goesOn run (starts.trans ?_) tracked ⟨rfl, rfl, rfl⟩ below
      exact forM_known fun target member =>
        discover_known lawful tracked (closed contained target member) (known target member) _
  · rw [if_neg more] at starts
    rw [if_neg more]
    exact .goesOn run starts tracked ⟨rfl, rfl, rfl⟩ below

/-- Driving a run expands one listed entry after the other. -/
theorem drive_lists (lawful : graph.Lawful) (continues : Continues graph visit initial)
    (reportable : Reportable rows seeds bounds)
    (closed : ∀ {element}, graph.containsElement element = true →
      ∀ target ∈ rows element, graph.containsElement target = true) (fuel : Nat)
    (tracked : Tracking graph visit bounds initial run
      (listing rows (depthLimit bounds) seeds run.head))
    (waves : Waves run (listing rows (depthLimit bounds) seeds run.head))
    (below : (shown bounds (listing rows (depthLimit bounds) seeds run.head)).length <
      cap bounds) :
    Lists graph visit bounds initial (drive graph visit rows fuel) run
      (listing rows (depthLimit bounds) seeds (run.head + fuel)) fun _ => True := by
  -- Every popped entry is expanded, so the listing is driven on by one.
  induction fuel generalizing run with
  | zero => exact .goesOn run rfl tracked trivial below
  | succ fuel ih =>
    rcases pop_cases tracked waves (reportable.fits below) with ⟨past, pops⟩ |
      ⟨element, depth, after, here, pops, trackedAfter, wavesAfter, head, wave⟩
    · -- Nothing is left, so the listing is complete.
      have starts : drive graph visit rows (fuel + 1) run = (.ok (), run) := by
        rw [drive, bind_run pops]
        rfl
      rw [listing_ended past]
      exact .goesOn run starts tracked trivial below
    · have starts : drive graph visit rows (fuel + 1) run =
          (expand graph visit rows element depth >>= fun _ => drive graph visit rows fuel) after := by
        rw [drive, bind_run pops]
      have contained : graph.containsElement element = true :=
        tracked.found.contained _ (List.mem_map.mpr ⟨_, List.mem_of_getElem? here, rfl⟩)
      have expanded :=
        expand_lists lawful continues closed trackedAfter contained
          (fun more => reportable.next here more below) below
      obtain ⟨added, grown, inside⟩ := enterAll_eq_append
        (listing rows (depthLimit bounds) seeds run.head)
        (expansion rows (depthLimit bounds) (element, depth.toNat))
      have next := listing_succ here
      rw [← next] at expanded
      have whole : Lists graph visit bounds initial
          (expand graph visit rows element depth >>= fun _ => drive graph visit rows fuel) after
          (listing rows (depthLimit bounds) seeds (run.head + (fuel + 1))) fun _ => True := by
        refine expanded.bind (listing_isPrefix (by omega)) ?_
        intro last trackedLast same belowLast
        have position : last.head = run.head + 1 := same.head.trans head
        have count : run.head + (fuel + 1) = last.head + fuel := by omega
        rw [count]
        rw [← position] at trackedLast belowLast
        refine ih trackedLast ?_ belowLast
        rw [position, next, grown]
        refine wavesAfter.extend same (by omega) ?_
        intro entry member
        rw [wave]
        exact (expansion_depth (inside member)).2.1
      exact whole.of_eq starts

/-- The listed elements are contained, and distinct. -/
theorem listing_found (closed : ∀ {element}, graph.containsElement element = true →
      ∀ target ∈ rows element, graph.containsElement target = true)
    (contained : ∀ seed ∈ seeds, graph.containsElement seed = true) (limit : Option Nat)
    (count : Nat) : Found graph ((listing rows limit seeds count).map Prod.fst) := by
  refine ⟨nodup_listing count, fun node member => ?_⟩
  obtain ⟨⟨_, depth⟩, inListing, rfl⟩ := List.mem_map.mp member
  -- It is reached from a seed, and each row on the way leads to contained elements.
  exact hops_closed contained (fun _ => closed) (hops_of_mem inListing).1

/-- No more elements are listed than the bound allows, so the listing is complete by then. -/
theorem listing_complete (lawful : graph.Lawful)
    (closed : ∀ {element}, graph.containsElement element = true →
      ∀ target ∈ rows element, graph.containsElement target = true)
    (contained : ∀ seed ∈ seeds, graph.containsElement seed = true) (limit : Option Nat) :
    listed rows limit seeds graph.elementBound = none := by
  obtain ⟨distinct, allContained⟩ := listing_found closed contained limit graph.elementBound
  have fits := length_le_bound lawful distinct allContained
  rw [List.length_map] at fits
  exact List.getElem?_eq_none fits

/-- A listed depth is less than the bound. -/
theorem depth_lt_bound (lawful : graph.Lawful)
    (closed : ∀ {element}, graph.containsElement element = true →
      ∀ target ∈ rows element, graph.containsElement target = true)
    (contained : ∀ seed ∈ seeds, graph.containsElement seed = true) {limit : Option Nat}
    {count : Nat} {entry : Id × Nat} (member : entry ∈ listing rows limit seeds count) :
    entry.2 < graph.elementBound := by
  obtain ⟨position, here⟩ := listed_of_mem member
  have far := (listed_iff.mp ⟨position, here⟩).1
  obtain ⟨distinct, allContained⟩ := listing_found closed contained none graph.elementBound
  have complete := listing_complete lawful closed contained none
  have reach {hops : Nat} {node : Id} (reached : Hops rows seeds hops node) :
      node ∈ (listing rows none seeds graph.elementBound).map Prod.fst :=
    (mem_listing_iff complete).mpr ⟨hops, reached, fun _ none => (nomatch none)⟩
  exact Nat.lt_of_lt_of_le (distance_lt_length reach far)
    (length_le_bound lawful distinct allContained)

/-- Depths that fit a word by the bound or by the limit can be reported. -/
theorem reportable_of_depthsFit (lawful : graph.Lawful)
    (closed : ∀ {element}, graph.containsElement element = true →
      ∀ target ∈ rows element, graph.containsElement target = true)
    (contained : ∀ seed ∈ seeds, graph.containsElement seed = true)
    (small : DepthsFit graph bounds) : Reportable rows seeds bounds := by
  intro count entry member
  have listedEntry := (List.mem_filter.mp (List.mem_of_mem_take member)).1
  rcases small with few | ⟨_, limited⟩
  · exact Nat.lt_trans (depth_lt_bound lawful closed contained listedEntry) few
  · obtain ⟨most, limit⟩ := Option.isSome_iff_exists.mp limited
    have listable := (hops_of_mem listedEntry).2 most.toNat (by unfold depthLimit; rw [limit]; rfl)
    exact Nat.lt_of_le_of_lt listable most.toNat_lt

variable {scratch : BfsEpochScratch Id}

omit [DecidableEq Id] in
/-- A bounded search succeeds when its run goes on to the end or is stopped. -/
theorem boundedSearch_ran {visitor : V} (marksFit : graph.elementBound ≤ scratch.marks.length)
    (queueFits : graph.elementBound ≤ scratch.queue.length) {outcome : Except BfsHalt Unit}
    {after : BoundedRun Id V} (ran : (seeds.forM (BoundedRun.seed graph visit) >>= fun _ =>
        (Mutation.modify fun run : BoundedRun Id V => { run with waveEnd := run.tail }) >>=
          fun _ => drive graph visit rows (scratch.queue.length + 1))
      { marks := (scratch.epoch.advance scratch.marks).2, queue := scratch.queue
        epoch := (scratch.epoch.advance scratch.marks).1.epoch, head := 0, tail := 0, waveEnd := 0
        depth := 0, emitted := 0, bounds, elementBound := graph.elementBound, visitor } =
          (outcome, after)) (succeeded : outcome = .ok () ∨ outcome = .error .stopped) :
    boundedSearch graph rows seeds bounds visit scratch visitor =
      (.ok (),
        { marks := after.marks, queue := after.queue
          epoch := (scratch.epoch.advance scratch.marks).1 }, after.visitor) := by
  unfold boundedSearch
  simp only
  rw [if_neg (Nat.not_lt.mpr marksFit), if_neg (Nat.not_lt.mpr queueFits), ran]
  rcases succeeded with rfl | rfl <;> rfl

/-- A bounded search shows its visitor what is listed, up to the cap. -/
theorem boundedSearch_observes (lawful : graph.Lawful)
    (closed : ∀ {element}, graph.containsElement element = true →
      ∀ target ∈ rows element, graph.containsElement target = true)
    (contained : ∀ seed ∈ seeds, graph.containsElement seed = true)
    (settled : Settled scratch.marks scratch.epoch)
    (marksFit : graph.elementBound ≤ scratch.marks.length)
    (queueFits : graph.elementBound ≤ scratch.queue.length) (bounds : BfsBounds)
    (reportable : Reportable rows seeds bounds) {visitor : V}
    (continues : Continues graph visit visitor) :
    ∃ after, boundedSearch graph rows seeds bounds visit scratch visitor =
      (.ok (), after, observed visit visitor ((shown bounds
        (listing rows (depthLimit bounds) seeds graph.elementBound)).take (cap bounds))) := by
  obtain ⟨length, fresh⟩ := advance_fresh settled
  have nothing := marks_fresh lawful (by rw [length]; exact marksFit) fresh
  let start : BoundedRun Id V :=
    { marks := (scratch.epoch.advance scratch.marks).2, queue := scratch.queue
      epoch := (scratch.epoch.advance scratch.marks).1.epoch, head := 0, tail := 0, waveEnd := 0
      depth := 0, emitted := 0, bounds, elementBound := graph.elementBound, visitor }
  have begins : Tracking graph visit bounds visitor start [] :=
    ⟨⟨List.nodup_nil, fun _ member => (nomatch member)⟩, nothing,
      ⟨queueFits, List.nil_prefix, rfl, Nat.le_refl _⟩, rfl, rfl, rfl, rfl⟩
  have below : (shown bounds ([] : List (Id × Nat))).length < cap bounds :=
    Nat.lt_of_lt_of_le Nat.zero_lt_one (Nat.le_max_left _ _)
  have seeded := @forM_lists Id V graph visit bounds visitor start [] _ Id
    (BoundedRun.seed graph visit) (fun seed => (seed, 0)) seeds
    (fun member tracked below => seed_lists lawful continues tracked (contained _ member) below)
    begins below
  have whole : Lists graph visit bounds visitor
      (seeds.forM (BoundedRun.seed graph visit) >>= fun _ =>
        (Mutation.modify fun run : BoundedRun Id V => { run with waveEnd := run.tail }) >>=
          fun _ => drive graph visit rows (scratch.queue.length + 1)) start
      (listing rows (depthLimit bounds) seeds (0 + (scratch.queue.length + 1))) fun _ => True := by
    refine seeded.bind (listing_isPrefix (Nat.zero_le _)) ?_
    intro after tracked same belowAfter
    -- The first wave spans the seeds that have been queued.
    let waved : BoundedRun Id V := { after with waveEnd := after.tail }
    have head : waved.head = 0 := same.head
    have trackedWaved : Tracking graph visit bounds visitor waved
        (listing rows (depthLimit bounds) seeds waved.head) := by
      rw [head]
      exact ⟨tracked.found, tracked.marks, tracked.queued, tracked.visitor, tracked.emitted,
        tracked.bounds, tracked.elementBound⟩
    have tail : waved.waveEnd = (listing rows (depthLimit bounds) seeds 0).length := by
      show after.tail = _
      rw [tracked.queued.tail, List.length_map]
      rfl
    have depth : waved.depth = 0 := same.depth
    have waves : Waves waved (listing rows (depthLimit bounds) seeds waved.head) := by
      rw [head]
      refine ⟨?_, Nat.le_of_eq tail, ?_, ?_, ?_, fun _ => tail⟩
      · rw [head]
        exact Nat.zero_le _
      · intro position entry _ _ found
        have member : entry ∈ listing rows (depthLimit bounds) seeds 0 := List.mem_of_getElem? found
        rcases mem_enterAll member with none | entered
        · cases none
        · obtain ⟨seed, _, rfl⟩ := List.mem_map.mp entered
          rw [depth]
          rfl
      · intro position entry past found
        have := (List.getElem?_eq_some_iff.mp found).1
        omega
      · rw [depth]
        exact Nat.zero_le _
    have driven :=
      drive_lists lawful continues reportable closed (scratch.queue.length + 1) trackedWaved waves
      (by rw [head]; exact belowAfter)
    rw [head] at driven
    have starts : ((Mutation.modify fun run : BoundedRun Id V => { run with waveEnd := run.tail }) >>=
        fun _ => drive graph visit rows (scratch.queue.length + 1)) after =
          drive graph visit rows (scratch.queue.length + 1) waved := rfl
    exact driven.of_eq starts
  obtain ⟨outcome, after, ran, succeeded, visited⟩ := whole.visitor
  have complete : listing rows (depthLimit bounds) seeds (0 + (scratch.queue.length + 1)) =
      listing rows (depthLimit bounds) seeds graph.elementBound := by
    have enough : graph.elementBound ≤ scratch.queue.length + 1 := Nat.le_succ_of_le queueFits
    obtain ⟨more, same⟩ := Nat.exists_eq_add_of_le enough
    rw [Nat.zero_add, same]
    exact listing_ended (listing_complete lawful closed contained _) more
  rw [complete] at visited
  refine ⟨{ marks := after.marks, queue := after.queue
            epoch := (scratch.epoch.advance scratch.marks).1 }, ?_⟩
  rw [← visited, boundedSearch_ran marksFit queueFits ran succeeded]

/-- A bounded search with a visitor that never breaks shows it what is listed, up to the cap. -/
theorem boundedSearch_eq (lawful : graph.Lawful) (never : NeverBreaks visit)
    (small : graph.elementBound < 2 ^ 32)
    (closed : ∀ {element}, graph.containsElement element = true →
      ∀ target ∈ rows element, graph.containsElement target = true)
    (contained : ∀ seed ∈ seeds, graph.containsElement seed = true)
    (settled : Settled scratch.marks scratch.epoch)
    (marksFit : graph.elementBound ≤ scratch.marks.length)
    (queueFits : graph.elementBound ≤ scratch.queue.length) (bounds : BfsBounds) (visitor : V) :
    ∃ after, boundedSearch graph rows seeds bounds visit scratch visitor =
      (.ok (), after, observed visit visitor ((shown bounds
        (listing rows (depthLimit bounds) seeds graph.elementBound)).take (cap bounds))) :=
  boundedSearch_observes lawful closed contained settled marksFit queueFits bounds
    (reportable_of_depthsFit lawful closed contained (.inl small)) (never.continues visitor)

end Runs

end Bounded

end Bfs

end Oxgraph
