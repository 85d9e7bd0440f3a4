import Mathlib.Data.List.Forall2
import Mathlib.Data.List.Nodup
import Mathlib.Data.List.Infix
import Mathlib.Data.List.Perm.Subperm
import Mathlib.Tactic.Common

/-! Breadth-first discovery over any rows: what is listed, in what order, and at what depth. -/

namespace Oxgraph

open List (foldl_cons length_map mem_map mem_singleton)

variable {N : Type}

/-- A node is so many rows away from the seeds. -/
def Hops (row : N → List N) (seeds : List N) : Nat → N → Prop
  | 0, node => node ∈ seeds
  | hops + 1, node => ∃ before, Hops row seeds hops before ∧ node ∈ row before

/-- The hop distance of a node from the seeds: the least number of rows to it. -/
def Distance (row : N → List N) (seeds : List N) (hops : Nat) (node : N) : Prop :=
  Hops row seeds hops node ∧ ∀ fewer < hops, ¬ Hops row seeds fewer node

/-- A search goes on from a depth unless that is as deep as it goes. -/
def goesOn (limit : Option Nat) (depth : Nat) : Bool :=
  match limit with
  | some most => decide (depth < most)
  | none => true

/-- A depth is one that a search lists. -/
def Listable (limit : Option Nat) (depth : Nat) : Prop := ∀ most, limit = some most → depth ≤ most

section Nodes

variable [DecidableEq N]

/-- Appends a node unless it is there. -/
def enterNode (nodes : List N) (node : N) : List N :=
  if node ∈ nodes then nodes else nodes ++ [node]

/-- The nodes of a list without repeats, each where it first occurs. -/
def firsts (nodes : List N) : List N := nodes.foldl enterNode []

/-- Lists a node with its depth, unless the node is listed. -/
def enter (listing : List (N × Nat)) (entry : N × Nat) : List (N × Nat) :=
  if entry.1 ∈ listing.map Prod.fst then listing else listing ++ [entry]

/-- What an entry leads to: its row, one deeper. -/
def expansion (row : N → List N) (limit : Option Nat) (entry : N × Nat) : List (N × Nat) :=
  if goesOn limit entry.2 then (row entry.1).map fun node => (node, entry.2 + 1) else []

/-- The listing when its first so many entries have been expanded. -/
def listing (row : N → List N) (limit : Option Nat) (seeds : List N) : Nat → List (N × Nat)
  | 0 => (seeds.map fun seed => (seed, 0)).foldl enter []
  | count + 1 =>
    match (listing row limit seeds count)[count]? with
    | none => listing row limit seeds count
    | some entry => (expansion row limit entry).foldl enter (listing row limit seeds count)

/-- The entry at a position, once those before it have been expanded. -/
def listed (row : N → List N) (limit : Option Nat) (seeds : List N) (position : Nat) :
    Option (N × Nat) :=
  (listing row limit seeds position)[position]?

end Nodes

/-- What an entry leads to is one deeper. -/
theorem expansion_depth {row : N → List N} {limit : Option Nat} {entry next : N × Nat}
    (member : next ∈ expansion row limit entry) :
    next.1 ∈ row entry.1 ∧ next.2 = entry.2 + 1 ∧ goesOn limit entry.2 = true := by
  unfold expansion at member
  split at member
  · rename_i more
    obtain ⟨node, inRow, rfl⟩ := mem_map.mp member
    exact ⟨inRow, rfl, more⟩
  · cases member

section Enter

variable [DecidableEq N] {entries : List (N × Nat)} {found : List (N × Nat)} {entry : N × Nat}

/-- Entering adds some of the entries at the end. -/
theorem enterAll_eq_append (found entries : List (N × Nat)) :
    ∃ added, entries.foldl enter found = found ++ added ∧ added ⊆ entries := by
  induction entries generalizing found with
  | nil => exact ⟨[], (List.append_nil _).symm, List.Subset.refl _⟩
  | cons head rest ih =>
    obtain ⟨added, same, inside⟩ := ih (enter found head)
    rw [foldl_cons, same]
    unfold enter
    split
    · exact ⟨added, rfl, List.subset_cons_of_subset _ inside⟩
    · exact ⟨head :: added, by rw [List.append_assoc, List.singleton_append],
        List.cons_subset_cons _ inside⟩

/-- Entering keeps what is listed in front. -/
theorem prefix_enterAll (found entries : List (N × Nat)) : found <+: entries.foldl enter found := by
  obtain ⟨added, same, _⟩ := enterAll_eq_append found entries
  exact ⟨added, same.symm⟩

/-- Entering repeats no node. -/
theorem nodup_enterAll (distinct : (found.map Prod.fst).Nodup) :
    ((entries.foldl enter found).map Prod.fst).Nodup := by
  induction entries generalizing found with
  | nil => exact distinct
  | cons head rest ih =>
    apply ih
    unfold enter
    split
    · exact distinct
    · rename_i fresh
      rw [List.map_append]
      exact distinct.append (List.nodup_singleton _) (by simpa using fresh)

/-- What is listed after entering was listed before or was entered. -/
theorem mem_enterAll (member : entry ∈ entries.foldl enter found) :
    entry ∈ found ∨ entry ∈ entries := by
  induction entries generalizing found with
  | nil => exact .inl member
  | cons head rest ih =>
    rcases ih member with before | later
    · unfold enter at before
      split at before
      · exact .inl before
      · rcases List.mem_append.mp before with old | new
        · exact .inl old
        · rw [mem_singleton.mp new]
          exact .inr List.mem_cons_self
    · exact .inr (List.mem_cons_of_mem _ later)

/-- Every entered node is listed. -/
theorem node_mem_enterAll (member : entry ∈ entries) :
    entry.1 ∈ (entries.foldl enter found).map Prod.fst := by
  induction entries generalizing found with
  | nil => cases member
  | cons head rest ih =>
    rcases List.mem_cons.mp member with rfl | later
    · -- It is there once it has been entered, and it stays.
      have here : entry.1 ∈ (enter found entry).map Prod.fst := by
        unfold enter
        split
        · assumption
        · simp
      exact ((prefix_enterAll (enter found entry) rest).map Prod.fst).subset here
    · exact ih later

/-- Entering what is listed lists nothing more. -/
theorem enterAll_known {nodes : List N} {depth : Nat}
    (known : ∀ node ∈ nodes, node ∈ found.map Prod.fst) :
    (nodes.map fun node => (node, depth)).foldl enter found = found := by
  induction nodes with
  | nil => rfl
  | cons node rest ih =>
    rw [List.map_cons, foldl_cons, enter, if_pos (known node List.mem_cons_self)]
    exact ih fun other member => known other (List.mem_cons_of_mem _ member)

/-- The nodes of a listing are entered as nodes. -/
theorem map_enterAll (found entries : List (N × Nat)) :
    (entries.foldl enter found).map Prod.fst =
      (entries.map Prod.fst).foldl enterNode (found.map Prod.fst) := by
  induction entries generalizing found with
  | nil => rfl
  | cons head rest ih =>
    rw [foldl_cons, ih, List.map_cons, foldl_cons]
    congr 1
    unfold enter enterNode
    split
    · rfl
    · rw [List.map_append]
      rfl

end Enter

section Firsts

variable [DecidableEq N]

/-- Entering nodes adds exactly those. -/
theorem mem_enterNodes {nodes added : List N} {node : N} :
    node ∈ added.foldl enterNode nodes ↔ node ∈ nodes ∨ node ∈ added := by
  induction added generalizing nodes with
  | nil => simp
  | cons head rest ih =>
    have entered : node ∈ enterNode nodes head ↔ node ∈ nodes ∨ node = head := by
      unfold enterNode
      split
      · rename_i known
        exact (or_iff_left_of_imp fun same => same ▸ known).symm
      · rw [List.mem_append, mem_singleton]
    rw [foldl_cons, ih, entered, List.mem_cons, or_assoc]

/-- The first occurrences are of the nodes of the list. -/
theorem mem_firsts {nodes : List N} {node : N} : node ∈ firsts nodes ↔ node ∈ nodes := by
  unfold firsts
  rw [mem_enterNodes, or_iff_right List.not_mem_nil]

/-- Entering nodes repeats none. -/
theorem nodup_enterNodes {nodes added : List N} (distinct : nodes.Nodup) :
    (added.foldl enterNode nodes).Nodup := by
  induction added generalizing nodes with
  | nil => exact distinct
  | cons head rest ih =>
    apply ih
    unfold enterNode
    split
    · exact distinct
    · rename_i fresh
      exact distinct.append (List.nodup_singleton _) (by simpa using fresh)

/-- First occurrences repeat no node. -/
theorem nodup_firsts (nodes : List N) : (firsts nodes).Nodup := nodup_enterNodes List.nodup_nil

/-- First occurrences stand in the order in which their nodes first occur, also among others. -/
theorem pairwise_firsts (keep : N → Bool) (nodes : List N) :
    (firsts (nodes.filter keep)).Pairwise (nodes.idxOf · < nodes.idxOf ·) := by
  -- A further node changes no earlier position, and is itself behind all of them if it is new.
  induction nodes using List.reverseRecOn with
  | nil => exact List.Pairwise.nil
  | append_singleton nodes node ih =>
    have known {other : N} (member : other ∈ firsts (nodes.filter keep)) : other ∈ nodes :=
      (List.mem_filter.mp (mem_firsts.mp member)).1
    have before : (firsts (nodes.filter keep)).Pairwise
        ((nodes ++ [node]).idxOf · < (nodes ++ [node]).idxOf ·) := by
      refine ih.imp_of_mem fun {left right} member other earlier => ?_
      rwa [List.idxOf_append_of_mem (known member), List.idxOf_append_of_mem (known other)]
    rw [List.filter_append]
    by_cases kept : keep node = true
    · rw [List.filter_cons_of_pos kept, firsts, List.foldl_append]
      change List.Pairwise _ (if node ∈ firsts (nodes.filter keep) then _ else _)
      split
      · exact before
      · rename_i fresh
        have absent : node ∉ nodes := fun member =>
          fresh (mem_firsts.mpr (List.mem_filter.mpr ⟨member, kept⟩))
        refine List.pairwise_append.mpr ⟨before, List.pairwise_singleton _ _, ?_⟩
        intro other member last inside
        rw [mem_singleton.mp inside, List.idxOf_append_of_mem (known member),
          List.idxOf_append_of_notMem absent]
        exact Nat.lt_of_lt_of_le (List.idxOf_lt_length_of_mem (known member)) (Nat.le_add_right _ _)
    · rw [List.filter_cons_of_neg kept, List.filter_nil, List.append_nil]
      exact before

/-- Lists that correspond one to one do so where each node first occurs. -/
theorem forall₂_firsts {M : Type} [DecidableEq M] {related : N → M → Prop}
    (unique : Relator.BiUnique related) {nodes : List N} {others : List M}
    (same : List.Forall₂ related nodes others) :
    List.Forall₂ related (firsts nodes) (firsts others) := by
  unfold firsts
  -- A node is entered exactly when its correspondent is, so the entered nodes correspond.
  have general {found : List N} {foundOthers : List M}
      (before : List.Forall₂ related found foundOthers) :
      List.Forall₂ related (nodes.foldl enterNode found) (others.foldl enterNode foundOthers) := by
    induction same generalizing found foundOthers with
    | nil => exact before
    | @cons node other _ _ alike _ ih =>
      rw [foldl_cons, foldl_cons]
      apply ih
      have known : node ∈ found ↔ other ∈ foundOthers := List.rel_mem unique alike before
      unfold enterNode
      by_cases inside : node ∈ found
      · rw [if_pos inside, if_pos (known.mp inside)]
        exact before
      · rw [if_neg inside, if_neg (mt known.mpr inside)]
        exact List.rel_append before (.cons alike .nil)
  exact general .nil

end Firsts

section Listing

variable [DecidableEq N] {row : N → List N} {limit : Option Nat} {seeds : List N}

/-- At first, the seeds are listed at depth zero. -/
theorem listing_zero : listing row limit seeds 0 = (firsts seeds).map fun seed => (seed, 0) := by
  have nodes : (listing row limit seeds 0).map Prod.fst = firsts seeds := by
    unfold listing
    rw [map_enterAll, List.map_map]
    exact congrArg firsts (List.map_id seeds)
  rw [← nodes, List.map_map]
  refine ((List.map_congr_left fun entry member => ?_).trans (List.map_id _)).symm
  rcases mem_enterAll member with none | seeded
  · cases none
  · obtain ⟨seed, _, rfl⟩ := mem_map.mp seeded
    rfl

variable {entry : N × Nat} {count : Nat}

/-- An entry at the position to be expanded enters what it leads to. -/
theorem listing_succ (here : listed row limit seeds count = some entry) :
    listing row limit seeds (count + 1) =
      (expansion row limit entry).foldl enter (listing row limit seeds count) := by
  unfold listed at here
  rw [listing, here]

/-- A listing without an entry to be expanded is complete. -/
theorem listing_ended (ended : listed row limit seeds count = none) (more : Nat) :
    listing row limit seeds (count + more) = listing row limit seeds count := by
  induction more with
  | zero => rfl
  | succ more ih =>
    unfold listed at ended
    have past : (listing row limit seeds (count + more))[count + more]? = none := by
      rw [ih, List.getElem?_eq_none_iff] at *
      omega
    rw [← Nat.add_assoc, listing, past]
    exact ih

/-- Listings grow at their ends. -/
theorem listing_isPrefix {fewer count : Nat} (before : fewer ≤ count) :
    listing row limit seeds fewer <+: listing row limit seeds count := by
  induction before with
  | refl => exact List.prefix_rfl
  | @step count _ ih =>
    cases here : listed row limit seeds count with
    | none =>
      rw [listing_ended here 1]
      exact ih
    | some entry =>
      rw [listing_succ here]
      exact ih.trans (prefix_enterAll _ _)

/-- No node is listed twice. -/
theorem nodup_listing (count : Nat) : ((listing row limit seeds count).map Prod.fst).Nodup := by
  induction count with
  | zero => exact nodup_enterAll List.nodup_nil
  | succ count ih =>
    cases here : listed row limit seeds count with
    | none =>
      rw [listing_ended here 1]
      exact ih
    | some entry =>
      rw [listing_succ here]
      exact nodup_enterAll ih

/-- What a listing has at a position, every longer one has there. -/
theorem getElem?_of_isPrefix {T : Type} {items longer : List T} (shorter : items <+: longer)
    {position : Nat} {item : T} (found : items[position]? = some item) :
    longer[position]? = some item := by
  obtain ⟨rest, rfl⟩ := shorter
  obtain ⟨inside, same⟩ := List.getElem?_eq_some_iff.mp found
  rw [List.getElem?_append_left inside]
  exact found

/-- What a listing has at a position is what is listed there. -/
theorem getElem?_listing {count position : Nat}
    (found : (listing row limit seeds count)[position]? = some entry) :
    listed row limit seeds position = some entry := by
  rcases Nat.le_total position count with before | after
  · cases here : listed row limit seeds position with
    | none =>
      -- Nothing is listed from there on, so the listing ends before the position.
      obtain ⟨more, rfl⟩ := Nat.exists_eq_add_of_le before
      rw [listing_ended here, ← listed, here] at found
      cases found
    | some other =>
      have kept := getElem?_of_isPrefix (listing_isPrefix before) here
      rw [← kept, found]
  · exact getElem?_of_isPrefix (listing_isPrefix after) found

/-- What is listed is in every later listing. -/
theorem mem_listing_of_listed {position count : Nat}
    (here : listed row limit seeds position = some entry) (before : position ≤ count) :
    entry ∈ listing row limit seeds count :=
  List.mem_of_getElem? (getElem?_of_isPrefix (listing_isPrefix before) here)

/-- The entries of listings are those that are listed. -/
theorem listed_of_mem (member : entry ∈ listing row limit seeds count) :
    ∃ position, listed row limit seeds position = some entry := by
  obtain ⟨position, found⟩ := List.mem_iff_getElem?.mp member
  exact ⟨position, getElem?_listing found⟩

/-- Nothing is listed past a position at which nothing is. -/
theorem listed_ended {position later : Nat} (ended : listed row limit seeds position = none)
    (after : position ≤ later) : listed row limit seeds later = none := by
  obtain ⟨more, rfl⟩ := Nat.exists_eq_add_of_le after
  unfold listed at *
  rw [listing_ended ended]
  rw [List.getElem?_eq_none_iff] at *
  omega

/-- A complete listing has at each position what is listed there. -/
theorem getElem?_complete (complete : listed row limit seeds count = none) (position : Nat) :
    (listing row limit seeds count)[position]? = listed row limit seeds position := by
  rcases Nat.lt_or_ge position count with before | after
  · cases here : listed row limit seeds position with
    | none =>
      obtain ⟨more, rfl⟩ := Nat.exists_eq_add_of_le (Nat.le_of_lt before)
      rw [listing_ended here]
      exact here
    | some entry => exact getElem?_of_isPrefix (listing_isPrefix (Nat.le_of_lt before)) here
  · rw [listed_ended complete after]
    exact List.getElem?_eq_none (Nat.le_trans (List.getElem?_eq_none_iff.mp complete) after)

variable {node : N}

/-- A node is listed at one position, with one depth. -/
theorem listed_once {left right : Nat} {depth other : Nat}
    (first : listed row limit seeds left = some (node, depth))
    (second : listed row limit seeds right = some (node, other)) : left = right := by
  have distinct := @nodup_listing N _ row limit seeds (max left right)
  have one := getElem?_of_isPrefix (listing_isPrefix (Nat.le_max_left left right)) first
  have two := getElem?_of_isPrefix (listing_isPrefix (Nat.le_max_right left right)) second
  obtain ⟨inside, _⟩ := List.getElem?_eq_some_iff.mp one
  apply (List.getElem?_inj (by rw [length_map]; exact inside) distinct).mp
  rw [List.getElem?_map, List.getElem?_map, one, two]
  rfl

-- Depths.

/--
Depths of a listing ascend, and no entry is more than one deeper than an entry to be expanded.
-/
structure Levelled (found : List (N × Nat)) (count : Nat) : Prop where
  sorted : (found.map Prod.snd).Pairwise (· ≤ ·)
  near : ∀ {position entry}, count ≤ position → found[position]? = some entry →
    ∀ other ∈ found, other.2 ≤ entry.2 + 1

/-- Entering entries of one depth, which no listed one exceeds, keeps depths ascending. -/
theorem sorted_enterAll {found entries : List (N × Nat)} {depth : Nat}
    (sorted : (found.map Prod.snd).Pairwise (· ≤ ·)) (most : ∀ entry ∈ found, entry.2 ≤ depth)
    (level : ∀ entry ∈ entries, entry.2 = depth) :
    ((entries.foldl enter found).map Prod.snd).Pairwise (· ≤ ·) ∧
      ∀ entry ∈ entries.foldl enter found, entry.2 ≤ depth := by
  induction entries generalizing found with
  | nil => exact ⟨sorted, most⟩
  | cons head rest ih =>
    obtain ⟨own, others⟩ := List.forall_mem_cons.mp level
    unfold enter at *
    rw [foldl_cons]
    -- A node that is listed already is not entered again.
    split
    · exact ih sorted most others
    · apply ih
      · rw [List.map_append, List.pairwise_append]
        refine ⟨sorted, List.pairwise_singleton _ _, ?_⟩
        intro left leftMember right rightMember
        obtain ⟨entry, member, rfl⟩ := mem_map.mp leftMember
        rw [List.map_cons, List.map_nil] at rightMember
        rw [mem_singleton.mp rightMember, own]
        exact most entry member
      · intro entry member
        rcases List.mem_append.mp member with old | new
        · exact most entry old
        · rw [mem_singleton.mp new, own]
      · exact others

/-- Every listing is levelled. -/
theorem levelled_listing (count : Nat) : Levelled (listing row limit seeds count) count := by
  induction count with
  | zero =>
    have flat := @sorted_enterAll N _ [] (seeds.map fun seed => (seed, 0)) 0 List.Pairwise.nil
      (fun _ member => (nomatch member)) (by
        intro entry member
        obtain ⟨seed, _, rfl⟩ := mem_map.mp member
        rfl)
    exact ⟨flat.1, fun _ _ other member => Nat.le_trans (flat.2 other member) (Nat.zero_le _)⟩
  | succ count ih =>
    cases here : listed row limit seeds count with
    | none =>
      have same := listing_ended here 1
      rw [same]
      exact ⟨ih.sorted, fun after found => ih.near (by omega) found⟩
    | some entry =>
      rw [listing_succ here]
      -- What is expanded is one deeper than the entry, and nothing listed is deeper than that.
      obtain ⟨sorted, most⟩ := sorted_enterAll ih.sorted (ih.near (Nat.le_refl _) here)
        fun next member => (expansion_depth member).2.1
      refine ⟨sorted, ?_⟩
      intro position found after read other member
      have kept := getElem?_of_isPrefix (prefix_enterAll _ (expansion row limit entry)) here
      have ascending : entry.2 ≤ found.2 := by
        rw [List.pairwise_iff_getElem] at sorted
        obtain ⟨inside, same⟩ := List.getElem?_eq_some_iff.mp read
        obtain ⟨insideHere, sameHere⟩ := List.getElem?_eq_some_iff.mp kept
        have step := sorted count position (by rw [length_map]; exact insideHere)
          (by rw [length_map]; exact inside) (by omega)
        rw [List.getElem_map, List.getElem_map, same, sameHere] at step
        exact step
      exact Nat.le_trans (most other member) (by omega)

/-- Depths ascend with positions. -/
theorem listed_sorted {left right : Nat} {one other : N × Nat} (before : left ≤ right)
    (first : listed row limit seeds left = some one)
    (second : listed row limit seeds right = some other) : one.2 ≤ other.2 := by
  rcases Nat.lt_or_eq_of_le before with below | rfl
  · have sorted := (@levelled_listing N _ row limit seeds right).sorted
    have kept := getElem?_of_isPrefix (listing_isPrefix before) first
    rw [List.pairwise_iff_getElem] at sorted
    obtain ⟨inside, same⟩ := List.getElem?_eq_some_iff.mp kept
    obtain ⟨insideOther, sameOther⟩ := List.getElem?_eq_some_iff.mp second
    have step := sorted left right (by rw [length_map]; exact inside)
      (by rw [length_map]; exact insideOther) below
    rw [List.getElem_map, List.getElem_map, same, sameOther] at step
    exact step
  · cases first.symm.trans second
    exact Nat.le_refl _

-- Reach.

/-- A listed node is as many rows away as its depth, and no deeper than the search goes. -/
theorem hops_of_mem (member : entry ∈ listing row limit seeds count) :
    Hops row seeds entry.2 entry.1 ∧ Listable limit entry.2 := by
  induction count generalizing entry with
  | zero =>
    rcases mem_enterAll member with never | seeded
    · cases never
    · obtain ⟨seed, inSeeds, rfl⟩ := mem_map.mp seeded
      exact ⟨inSeeds, fun most _ => Nat.zero_le most⟩
  | succ count ih =>
    cases here : listed row limit seeds count with
    | none =>
      rw [listing_ended here 1] at member
      exact ih member
    | some parent =>
      rw [listing_succ here] at member
      rcases mem_enterAll member with old | new
      · exact ih old
      · -- A new entry is one row further than the entry that is expanded.
        obtain ⟨inRow, deeper, more⟩ := expansion_depth new
        obtain ⟨reached, _⟩ := ih (List.mem_of_getElem? here)
        rw [deeper]
        refine ⟨⟨parent.1, reached, inRow⟩, ?_⟩
        rintro most rfl
        exact of_decide_eq_true more

omit [DecidableEq N] in
/-- Rows that stay among some nodes lead to those only. -/
theorem hops_closed {among : N → Prop} (seeded : ∀ seed ∈ seeds, among seed)
    (closed : ∀ node, among node → ∀ next ∈ row node, among next) {hops : Nat} {node : N}
    (reached : Hops row seeds hops node) : among node := by
  induction hops generalizing node with
  | zero => exact seeded node reached
  | succ hops ih =>
    obtain ⟨before, reachedBefore, inRow⟩ := reached
    exact closed before (ih reachedBefore) node inRow

omit [DecidableEq N] in
/-- A node whose row holds the first seed of a way leads it on by one. -/
theorem hops_prepend {first start : N} (inRow : start ∈ row first) {hops : Nat}
    (reached : Hops row [start] hops node) : Hops row [first] (hops + 1) node := by
  induction hops generalizing node with
  | zero =>
    cases mem_singleton.mp reached
    exact ⟨first, List.mem_singleton_self first, inRow⟩
  | succ hops ih =>
    obtain ⟨before, reachedBefore, last⟩ := reached
    exact ⟨before, ih reachedBefore, last⟩

omit [DecidableEq N] in
/-- Converse rows lead back along every way. -/
theorem hops_converse {among : N → Prop} {back : N → List N}
    (closed : ∀ node, among node → ∀ next ∈ row node, among next)
    (converse : ∀ node next, among node → among next → next ∈ row node → node ∈ back next)
    {start : N} (inside : among start) {hops : Nat} (reached : Hops row [start] hops node) :
    Hops back [node] hops start := by
  induction hops generalizing node with
  | zero =>
    cases mem_singleton.mp reached
    exact List.mem_singleton_self start
  | succ hops ih =>
    obtain ⟨before, reachedBefore, last⟩ := reached
    have seeded : ∀ seed ∈ [start], among seed := fun seed member =>
      mem_singleton.mp member ▸ inside
    have insideBefore := hops_closed seeded closed reachedBefore
    -- The last row is the first one on the way back.
    have firstBack := converse before node insideBefore (closed before insideBefore node last) last
    exact hops_prepend firstBack (ih reachedBefore)

/-- The listing only reads the rows of nodes that the seeds lead to. -/
theorem listing_congr {among : N → Prop} {other : N → List N}
    (seeded : ∀ seed ∈ seeds, among seed)
    (closed : ∀ node, among node → ∀ next ∈ row node, among next)
    (same : ∀ node, among node → row node = other node) (count : Nat) :
    listing row limit seeds count = listing other limit seeds count := by
  induction count with
  | zero => rfl
  | succ count ih =>
    unfold listing
    rw [← ih]
    cases here : (listing row limit seeds count)[count]? with
    | none => rfl
    | some entry =>
      have reached := (hops_of_mem (List.mem_of_getElem? here)).1
      have alike := same entry.1 (hops_closed seeded closed reached)
      simp only [expansion, alike]

/-- Without seeds nothing is listed. -/
theorem listing_nil (count : Nat) : listing row limit [] count = [] := by
  induction count with
  | zero => rfl
  | succ count ih =>
    unfold listing
    rw [ih]
    rfl

/-- A node that few enough rows lead to is listed at most as deep. -/
theorem listed_of_hops {hops : Nat} (reached : Hops row seeds hops node)
    (listable : Listable limit hops) :
    ∃ position depth, listed row limit seeds position = some (node, depth) ∧ depth ≤ hops := by
  induction hops generalizing node with
  | zero =>
    have entered := @node_mem_enterAll N _ (seeds.map fun seed => (seed, 0)) [] (node, 0)
      (mem_map.mpr ⟨node, reached, rfl⟩)
    obtain ⟨⟨_, depth⟩, member, rfl⟩ := mem_map.mp entered
    obtain ⟨position, found⟩ := listed_of_mem (show _ ∈ listing row limit seeds 0 from member)
    refine ⟨position, depth, found, ?_⟩
    rcases mem_enterAll member with never | seeded
    · cases never
    · obtain ⟨seed, _, same⟩ := mem_map.mp seeded
      cases same
      exact Nat.le_refl _
  | succ hops ih =>
    obtain ⟨parent, parentReached, inRow⟩ := reached
    have parentListable : Listable limit hops := by
      intro most bounded
      have := listable most bounded
      omega
    obtain ⟨position, depth, here, shallow⟩ := ih parentReached parentListable
    -- The parent is expanded, so that the node is in the listing after it.
    have more : goesOn limit depth = true := by
      unfold goesOn
      split
      · have := listable _ rfl
        exact decide_eq_true (by omega)
      · rfl
    have leads : (node, depth + 1) ∈ expansion row limit (parent, depth) := by
      unfold expansion
      rw [if_pos more]
      exact mem_map.mpr ⟨node, inRow, rfl⟩
    have entered := @node_mem_enterAll N _ _ (listing row limit seeds position) _ leads
    rw [← listing_succ here] at entered
    obtain ⟨⟨_, found⟩, member, rfl⟩ := mem_map.mp entered
    obtain ⟨place, listedThere⟩ := listed_of_mem member
    refine ⟨place, found, listedThere, ?_⟩
    rw [listing_succ here] at member
    rcases mem_enterAll member with old | new
    · have near := (levelled_listing position).near (Nat.le_refl _) here _ old
      exact Nat.le_trans near (by omega)
    · have deeper := (expansion_depth new).2.1
      change found = depth + 1 at deeper
      omega

/-- What is listed are the nodes in reach, each at its hop distance. -/
theorem listed_iff {depth : Nat} :
    (∃ position, listed row limit seeds position = some (node, depth)) ↔
      Distance row seeds depth node ∧ Listable limit depth := by
  constructor
  · rintro ⟨position, here⟩
    obtain ⟨reached, listable⟩ := hops_of_mem (List.mem_of_getElem? here)
    refine ⟨⟨reached, ?_⟩, listable⟩
    intro fewer below shorter
    -- A shorter way would have listed the node less deep.
    have fewerListable : Listable limit fewer := by
      intro most bounded
      have := listable most bounded
      change depth ≤ most at this
      omega
    obtain ⟨other, shallow, there, least⟩ := listed_of_hops shorter fewerListable
    cases listed_once here there
    cases here.symm.trans there
    omega
  · rintro ⟨⟨reached, least⟩, listable⟩
    obtain ⟨position, found, here, shallow⟩ := listed_of_hops reached listable
    have other := (hops_of_mem (List.mem_of_getElem? here)).1
    rcases Nat.lt_or_eq_of_le shallow with below | rfl
    · exact absurd other (least found below)
    · exact ⟨position, here⟩

/-- Once every entry has been expanded, the nodes that few enough rows lead to are listed. -/
theorem mem_listing_iff (ended : listed row limit seeds count = none) :
    node ∈ (listing row limit seeds count).map Prod.fst ↔
      ∃ hops, Hops row seeds hops node ∧ Listable limit hops := by
  constructor
  · intro member
    obtain ⟨entry, inListing, rfl⟩ := mem_map.mp member
    exact ⟨entry.2, hops_of_mem inListing⟩
  · rintro ⟨hops, reached, listable⟩
    obtain ⟨position, depth, here, _⟩ := listed_of_hops reached listable
    have before : position < count := by
      by_contra past
      rw [listed_ended ended (Nat.le_of_not_lt past)] at here
      cases here
    exact mem_map.mpr ⟨(node, depth), mem_listing_of_listed here (Nat.le_of_lt before), rfl⟩

omit [DecidableEq N] in
/-- On the way to a node there is one at every lesser distance. -/
theorem exists_distance_below {depth hops : Nat} (far : Distance row seeds depth node)
    (below : hops ≤ depth) : ∃ other, Distance row seeds hops other := by
  induction depth generalizing node with
  | zero => exact ⟨node, Nat.le_zero.mp below ▸ far⟩
  | succ depth ih =>
    rcases Nat.lt_or_eq_of_le below with less | rfl
    · obtain ⟨⟨before, reached, inRow⟩, least⟩ := far
      -- A shorter way to the node before would shorten the way to the node.
      have near : Distance row seeds depth before :=
        ⟨reached, fun fewer shorter other =>
          least (fewer + 1) (Nat.succ_lt_succ shorter) ⟨before, other, inRow⟩⟩
      exact ih near (Nat.le_of_lt_succ less)
    · exact ⟨node, far⟩

omit [DecidableEq N] in
/-- A distance is less than the number of nodes that are in reach. -/
theorem distance_lt_length {among : List N}
    (reach : ∀ {hops node}, Hops row seeds hops node → node ∈ among) {depth : Nat}
    (far : Distance row seeds depth node) : depth < among.length := by
  have nodes : ∀ hops, ∃ other, hops ≤ depth → Distance row seeds hops other := by
    intro hops
    by_cases below : hops ≤ depth
    · obtain ⟨other, near⟩ := exists_distance_below far below
      exact ⟨other, fun _ => near⟩
    · exact ⟨node, fun inside => absurd inside below⟩
  choose witness near using nodes
  have inside {hops : Nat} (member : hops ∈ List.range (depth + 1)) : hops ≤ depth :=
    Nat.le_of_lt_succ (List.mem_range.mp member)
  -- Nodes at different distances are different.
  have distinct : ((List.range (depth + 1)).map witness).Nodup := by
    refine List.Nodup.map_on (fun hops member other memberOther same => ?_) List.nodup_range
    have one := near hops (inside member)
    have two := near other (inside memberOther)
    rw [← same] at two
    rcases Nat.lt_trichotomy hops other with less | equal | more
    · exact absurd one.1 (two.2 hops less)
    · exact equal
    · exact absurd two.1 (one.2 other more)
  have part : (List.range (depth + 1)).map witness ⊆ among := by
    intro other member
    obtain ⟨hops, listed, rfl⟩ := mem_map.mp member
    exact reach (near hops (inside listed)).1
  have count := (distinct.subperm part).length_le
  rw [length_map, List.length_range] at count
  exact count

-- Order.

/-- The nodes that a search without a limit lists first. -/
theorem map_listing (count : Nat) :
    (listing row none seeds count).map Prod.fst =
      firsts (seeds ++ ((List.range count).filterMap (listed row none seeds)).flatMap
        fun entry => row entry.1) := by
  induction count with
  | zero =>
    show ((seeds.map fun seed => (seed, 0)).foldl enter []).map Prod.fst = _
    rw [map_enterAll, List.map_map]
    unfold firsts
    simp [Function.comp_def]
  | succ count ih =>
    rw [List.range_succ, List.filterMap_append, List.flatMap_append]
    cases here : listed row none seeds count with
    | none =>
      rw [listing_ended here 1, ih]
      simp [here]
    | some entry =>
      rw [listing_succ here, map_enterAll, ih]
      unfold firsts expansion goesOn
      simp [here, List.foldl_append, Function.comp_def]

end Listing

end Oxgraph
