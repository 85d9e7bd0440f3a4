import Oxgraph.Lib.Numbering
import Oxgraph.Lib.Result
import Oxgraph.Spec.Coherent
import Oxgraph.Spec.Schema

/-! Registrations keep the catalog well formed, and what its names resolve to. -/

namespace Oxgraph

namespace NameTable

variable {Entry : Type} [CatalogEntry Entry] {table after : NameTable Entry} {entry : Entry}

/-- A registration is read back under its id, and leaves every other id alone. -/
theorem get_insert (inserted : table.insert entry = .ok after) (id : UInt64) :
    after.entries[id]? = if CatalogEntry.id entry = id then some entry else table.entries[id]? := by
  obtain ⟨_, rfl⟩ := insert_eq_ok.mp inserted
  exact Oxgraph.get_insert _ _ _ _

/-- A registration under a fresh id keeps every entry. -/
theorem get_of_insert (inserted : table.insert entry = .ok after)
    (fresh : CatalogEntry.id entry ∉ table.entries) {id : UInt64} {found : Entry}
    (present : table.entries[id]? = some found) : after.entries[id]? = some found := by
  rw [get_insert inserted, if_neg]
  · exact present
  · rintro rfl
    exact fresh (Std.ExtTreeMap.mem_iff_isSome_getElem?.mpr (by rw [present]; rfl))

/-- A registration adds its own id to the ids of a family. -/
theorem mem_insert (inserted : table.insert entry = .ok after) {id : UInt64}
    (member : id ∈ after.entries) : CatalogEntry.id entry = id ∨ id ∈ table.entries := by
  rw [Std.ExtTreeMap.mem_iff_isSome_getElem?, get_insert inserted] at member
  split at member
  · rename_i own
    exact .inl own
  · exact .inr (Std.ExtTreeMap.mem_iff_isSome_getElem?.mpr member)

/-- Registering an entry under a fresh id keeps a family well formed. -/
theorem WellFormed.insert (wellFormed : table.WellFormed)
    (fresh : CatalogEntry.id entry ∉ table.entries) (inserted : table.insert entry = .ok after) :
    after.WellFormed := by
  have read := get_insert inserted
  have absent : table.entries[CatalogEntry.id entry]? = none := by
    cases found : table.entries[CatalogEntry.id entry]? with
    | none => rfl
    | some other =>
      exact absurd (Std.ExtTreeMap.mem_iff_isSome_getElem?.mpr (by rw [found]; rfl)) fresh
  obtain ⟨untaken, same⟩ := insert_eq_ok.mp inserted
  have names : ∀ name, after.names[name]? =
      if CatalogEntry.name entry = name then some (CatalogEntry.id entry)
      else table.names[name]? := by
    intro name
    rw [same]
    exact Oxgraph.get_insert _ _ _ _
  constructor
  · intro id found present
    rw [read] at present
    split at present
    · rename_i own
      cases present
      exact own
    · exact wellFormed.keyed present
  · intro name id
    rw [names]
    constructor
    · intro bound
      split at bound
      · rename_i own
        cases bound
        exact ⟨entry, by rw [read, if_pos rfl], own⟩
      · obtain ⟨found, present, called⟩ := wellFormed.named.mp bound
        refine ⟨found, ?_, called⟩
        rw [read, if_neg]
        · exact present
        · rintro rfl
          rw [absent] at present
          cases present
    · rintro ⟨found, present, called⟩
      rw [read] at present
      split at present
      · rename_i own
        cases present
        rw [if_pos called, own]
      · rw [if_neg]
        · exact wellFormed.named.mpr ⟨found, present, called⟩
        · -- The new name was not taken, so no earlier entry has it.
          intro clash
          have bound := wellFormed.named.mpr ⟨found, present, called⟩
          rw [← clash] at bound
          exact untaken (Std.ExtTreeMap.mem_iff_isSome_getElem?.mpr (by rw [bound]; rfl))

end NameTable

namespace NameTable.Grows

variable {Entry : Type} {first second third : NameTable Entry}

theorem refl (table : NameTable Entry) : table.Grows table :=
  ⟨fun present => present, fun present => present⟩

theorem trans (before : second.Grows first) (after : third.Grows second) : third.Grows first :=
  ⟨fun present => after.entries (before.entries present),
    fun present => after.names (before.names present)⟩

/-- A name that an entry of the smaller family has after growing, it had before. -/
theorem name_of_entry [CatalogEntry Entry] (grows : second.Grows first)
    (wellFormed : first.WellFormed) (wider : second.WellFormed) {name : String} {id : UInt64}
    (named : second.names[name]? = some id) (present : id ∈ first.entries) :
    first.names[name]? = some id := by
  obtain ⟨entry, found⟩ := Option.isSome_iff_exists.mp
    (Std.ExtTreeMap.mem_iff_isSome_getElem?.mp present)
  obtain ⟨again, foundAgain, called⟩ := wider.named.mp named
  cases (grows.entries found).symm.trans foundAgain
  exact wellFormed.named.mpr ⟨entry, found, called⟩

/-- Registering an entry under a fresh id grows the family. -/
theorem insert [CatalogEntry Entry] {entry : Entry} (inserted : first.insert entry = .ok second)
    (fresh : CatalogEntry.id entry ∉ first.entries) : second.Grows first := by
  refine ⟨NameTable.get_of_insert inserted fresh, ?_⟩
  intro name id present
  obtain ⟨untaken, same⟩ := insert_eq_ok.mp inserted
  rw [same, Oxgraph.get_insert, if_neg]
  · exact present
  · -- The name was free, so it is none of those already bound.
    rintro rfl
    exact untaken (Std.ExtTreeMap.mem_iff_isSome_getElem?.mpr (by rw [present]; rfl))

end NameTable.Grows

namespace Catalog.Grows

variable {first second third : Catalog}

theorem refl (catalog : Catalog) : catalog.Grows catalog :=
  ⟨.refl _, .refl _, .refl _, .refl _, .refl _, .refl _⟩

theorem trans (before : second.Grows first) (after : third.Grows second) : third.Grows first :=
  ⟨before.roles.trans after.roles, before.labels.trans after.labels,
    before.relationTypes.trans after.relationTypes, before.propertyKeys.trans after.propertyKeys,
    before.projections.trans after.projections, before.indexes.trans after.indexes⟩

/-- A read that is there stays there. -/
theorem isSome {K V : Type} {before after : K → Option V} {key : K}
    (kept : ∀ {value}, before key = some value → after key = some value)
    (present : (before key).isSome) : (after key).isSome := by
  obtain ⟨value, found⟩ := Option.isSome_iff_exists.mp present
  rw [kept found]
  rfl

end Catalog.Grows

namespace Registration

variable {entry : Registration} {catalog after : Catalog}

/-- A registration registers its own id besides the ones registered before. -/
theorem registers_insert (inserted : entry.insert catalog = .ok after) {family : IdFamily}
    {id : UInt64} (registers : after.Registers family id) :
    entry.handle = (family, id) ∨ catalog.Registers family id := by
  cases entry <;> obtain ⟨table, added, rfl⟩ := map_eq_ok inserted <;> cases family <;>
    first
    | exact .inr registers
    | exact (NameTable.mem_insert added registers).imp_left (congrArg (Prod.mk _))

/-- A registration under a fresh id keeps the catalog well formed, and grows it. -/
theorem wellFormed_insert (inserted : entry.insert catalog = .ok after)
    (fresh : ¬ catalog.Registers entry.handle.1 entry.handle.2) :
    (catalog.WellFormed → after.WellFormed) ∧ after.Grows catalog := by
  have same := Catalog.Grows.refl catalog
  cases entry with
  | role id name =>
    obtain ⟨table, added, rfl⟩ := map_eq_ok inserted
    exact ⟨fun wellFormed => { wellFormed with roles := wellFormed.roles.insert fresh added },
      { same with roles := .insert added fresh }⟩
  | label id name =>
    obtain ⟨table, added, rfl⟩ := map_eq_ok inserted
    exact ⟨fun wellFormed => { wellFormed with labels := wellFormed.labels.insert fresh added },
      { same with labels := .insert added fresh }⟩
  | relationType id name =>
    obtain ⟨table, added, rfl⟩ := map_eq_ok inserted
    exact ⟨fun wellFormed => { wellFormed with relationTypes := wellFormed.relationTypes.insert fresh added },
      { same with relationTypes := .insert added fresh }⟩
  | propertyKey definition =>
    obtain ⟨table, added, rfl⟩ := map_eq_ok inserted
    exact ⟨fun wellFormed => { wellFormed with propertyKeys := wellFormed.propertyKeys.insert fresh added },
      { same with propertyKeys := .insert added fresh }⟩
  | projection id definition =>
    obtain ⟨table, added, rfl⟩ := map_eq_ok inserted
    exact ⟨fun wellFormed => { wellFormed with projections := wellFormed.projections.insert fresh added },
      { same with projections := .insert added fresh }⟩
  | index id name definition =>
    obtain ⟨table, added, rfl⟩ := map_eq_ok inserted
    exact ⟨fun wellFormed => { wellFormed with indexes := wellFormed.indexes.insert fresh added },
      { same with indexes := .insert added fresh }⟩

end Registration

end Oxgraph

-- What is registered under names, and the ids they resolve to.

namespace Oxgraph

namespace NameTable

variable {Entry : Type} [CatalogEntry Entry] {table after : NameTable Entry}

/-- A bound name has an entry under its id that carries both. -/
theorem WellFormed.entry_of_name (wellFormed : table.WellFormed) {name : String} {id : UInt64}
    (bound : table.names[name]? = some id) : ∃ entry, table.entries[id]? = some entry ∧
      CatalogEntry.id entry = id ∧ CatalogEntry.name entry = name ∧
      table.named name = some entry := by
  obtain ⟨entry, found, called⟩ := wellFormed.named.mp bound
  refine ⟨entry, found, wellFormed.keyed found, called, ?_⟩
  rw [NameTable.named, bound]
  exact found

/-- No two names are bound to one id. -/
theorem WellFormed.name_unique (wellFormed : table.WellFormed) {left right : String} {id : UInt64}
    (first : table.names[left]? = some id) (second : table.names[right]? = some id) :
    left = right := by
  obtain ⟨entry, found, called⟩ := wellFormed.named.mp first
  obtain ⟨again, foundAgain, calledAgain⟩ := wellFormed.named.mp second
  cases found.symm.trans foundAgain
  exact called.symm.trans calledAgain

variable {entry : Entry}

/-- A registered name reads its entry, and every other name reads what it did. -/
theorem WellFormed.named_insert (wellFormed : table.WellFormed)
    (fresh : CatalogEntry.id entry ∉ table.entries) (inserted : table.insert entry = .ok after)
    (probe : String) : after.named probe =
      if CatalogEntry.name entry = probe then some entry else table.named probe := by
  have entries := get_insert inserted
  have names : after.names[probe]? = if CatalogEntry.name entry = probe
      then some (CatalogEntry.id entry) else table.names[probe]? := by
    obtain ⟨_, same⟩ := insert_eq_ok.mp inserted
    rw [same]
    exact Oxgraph.get_insert _ _ _ _
  unfold NameTable.named
  rw [names]
  split
  · rw [Option.bind_some, entries, if_pos rfl]
  · cases bound : table.names[probe]? with
    | none => rfl
    | some id =>
      obtain ⟨found, present, _⟩ := wellFormed.named.mp bound
      rw [Option.bind_some, Option.bind_some, entries, if_neg]
      -- The fresh id is none of those already bound.
      rintro rfl
      exact fresh (Std.ExtTreeMap.mem_iff_isSome_getElem?.mpr (by rw [present]; rfl))

/-- A registered entry is bound under its name. -/
theorem names_insert (inserted : table.insert entry = .ok after) :
    after.names[CatalogEntry.name entry]? = some (CatalogEntry.id entry) ∧
      after.entries[CatalogEntry.id entry]? = some entry := by
  obtain ⟨_, rfl⟩ := insert_eq_ok.mp inserted
  exact ⟨by rw [Oxgraph.get_insert, if_pos rfl], by rw [Oxgraph.get_insert, if_pos rfl]⟩

/-- A catalog with an entry added to one of its families reads the entry there. -/
theorem stored {put : NameTable Entry → Catalog} {catalog : Catalog}
    (family : Catalog → NameTable Entry) (inserted : (table.insert entry).map put = .ok catalog)
    (family_put : ∀ table, family (put table) = table) :
    catalog = put (family catalog) ∧
      (family catalog).names[CatalogEntry.name entry]? = some (CatalogEntry.id entry) ∧
      (family catalog).entries[CatalogEntry.id entry]? = some entry ∧
      table.insert entry = .ok (family catalog) := by
  obtain ⟨grown, added, rfl⟩ := map_eq_ok inserted
  rw [family_put]
  obtain ⟨named, entered⟩ := names_insert added
  exact ⟨rfl, named, entered, added⟩

/-- A claim on a bound name changes nothing. -/
theorem WellFormed.claim_bound {D : Type} (wellFormed : table.WellFormed) (f : Entry → D)
    {name : String} {id : UInt64} (bound : table.names[name]? = some id) (wants : Option D) :
    (fun probe => (table.named probe).map f) =
      claim (fun probe => (table.named probe).map f) name wants := by
  obtain ⟨entry, _, _, _, found⟩ := wellFormed.entry_of_name bound
  funext probe
  unfold claim
  split
  · rename_i same
    simp only [← same, found, Option.map_some, Option.some_or]
  · rfl

/-- A registration is a claim on a free name. -/
theorem WellFormed.claim_insert {D : Type} (wellFormed : table.WellFormed) (f : Entry → D)
    (fresh : CatalogEntry.id entry ∉ table.entries) (inserted : table.insert entry = .ok after) :
    (fun probe => (after.named probe).map f) =
      claim (fun probe => (table.named probe).map f) (CatalogEntry.name entry)
        (some (f entry)) := by
  obtain ⟨untaken, _⟩ := insert_eq_ok.mp inserted
  have free : table.named (CatalogEntry.name entry) = none := by
    unfold NameTable.named
    rw [Std.ExtTreeMap.getElem?_eq_none untaken]
    rfl
  funext probe
  unfold claim
  rw [wellFormed.named_insert fresh inserted]
  split
  · rename_i same
    simp only [← same, free, Option.map_none, Option.none_or, Option.map_some]
  · rfl

end NameTable

-- Names resolved into sets.

variable {lookup : String → Option UInt64} {ids : BTreeSet UInt64} {names : List String}

/-- Resolving names one by one into a set is resolving them all and collecting. -/
theorem resolveNames_ok {resolve : String → Except DbError UInt64}
    (agrees : ∀ {name id}, resolve name = .ok id → lookup name = some id)
    (resolved : Writer.resolveNames resolve names = .ok ids) :
    Catalog.resolveAll lookup names = some ids := by
  have general : ∀ start,
      names.foldlM (fun (ids : BTreeSet UInt64) name => (resolve name).map ids.insert) start =
        .ok ids →
      ∃ listed, names.mapM lookup = some listed ∧ ids = extendSet start listed := by
    clear resolved
    induction names with
    | nil =>
      intro start folded
      cases folded
      exact ⟨[], rfl, rfl⟩
    | cons name rest ih =>
      intro start folded
      rw [List.foldlM_cons] at folded
      obtain ⟨next, inserted, after⟩ := bind_eq_ok.mp folded
      obtain ⟨id, found, rfl⟩ := map_eq_ok inserted
      obtain ⟨listed, others, same⟩ := ih _ after
      refine ⟨id :: listed, ?_, same⟩
      rw [List.mapM_cons, agrees found, others]
      rfl
  obtain ⟨listed, found, same⟩ := general ∅ resolved
  unfold Catalog.resolveAll
  rw [found, same]
  rfl

/-- The ids of resolved names are those the names have. -/
theorem mem_of_mapM_some {listed : List UInt64} (found : names.mapM lookup = some listed) :
    (∀ name ∈ names, (lookup name).isSome) ∧
      ∀ id, id ∈ listed ↔ ∃ name ∈ names, lookup name = some id := by
  induction names generalizing listed with
  | nil =>
    cases found
    simp
  | cons name rest ih =>
    rw [List.mapM_cons] at found
    cases first : lookup name with
    | none =>
      rw [first] at found
      cases found
    | some id =>
      cases others : rest.mapM lookup with
      | none =>
        rw [first, others] at found
        cases found
      | some ids =>
        rw [first, others] at found
        cases found
        obtain ⟨all, members⟩ := ih others
        refine ⟨List.forall_mem_cons.mpr ⟨by rw [first]; rfl, all⟩, fun probe => ?_⟩
        simp only [List.mem_cons, members, exists_eq_or_imp, first, Option.some.injEq]
        rw [eq_comm]

/-- Names resolve to a set exactly when each has an id and the set holds those ids. -/
theorem resolveAll_eq_some :
    Catalog.resolveAll lookup names = some ids ↔
      (∀ name ∈ names, (lookup name).isSome) ∧
        ∀ id, id ∈ ids ↔ ∃ name ∈ names, lookup name = some id := by
  unfold Catalog.resolveAll
  constructor
  · intro resolved
    obtain ⟨listed, found, rfl⟩ := Option.map_eq_some_iff.mp resolved
    obtain ⟨all, members⟩ := mem_of_mapM_some found
    exact ⟨all, fun id => mem_collectSet.trans (members id)⟩
  · rintro ⟨all, members⟩
    have found : names.mapM lookup = some (names.map fun name => (lookup name).getD 0) := by
      refine mapM_some fun name member => ?_
      obtain ⟨id, has⟩ := Option.isSome_iff_exists.mp (all name member)
      rw [has]
      rfl
    rw [found, Option.map_some, Option.some.injEq]
    apply Std.ExtTreeSet.ext_mem
    intro id
    rw [mem_collectSet, members, ← (mem_of_mapM_some found).2]

/-- Lists of the same names resolve to the same set. -/
theorem resolveAll_congr {left right : List String} (same : SameNames left right) :
    Catalog.resolveAll lookup left = Catalog.resolveAll lookup right := by
  have one {left right : List String} (same : SameNames left right) {ids : BTreeSet UInt64}
      (resolved : Catalog.resolveAll lookup left = some ids) :
      Catalog.resolveAll lookup right = some ids := by
    obtain ⟨all, members⟩ := resolveAll_eq_some.mp resolved
    refine resolveAll_eq_some.mpr ⟨fun name member => all name ((same name).mpr member), ?_⟩
    intro id
    rw [members]
    constructor
    · rintro ⟨name, member, has⟩
      exact ⟨name, (same name).mp member, has⟩
    · rintro ⟨name, member, has⟩
      exact ⟨name, (same name).mpr member, has⟩
  apply Option.ext
  intro ids
  exact ⟨one same, one fun name => (same name).symm⟩

/-- Lists that resolve to the same set, by a lookup without shared ids, have the same names. -/
theorem sameNames_of_resolveAll
    (unique : ∀ {left right id}, lookup left = some id → lookup right = some id → left = right)
    {left right : List String} (first : Catalog.resolveAll lookup left = some ids)
    (second : Catalog.resolveAll lookup right = some ids) : SameNames left right := by
  have one {left right : List String} (first : Catalog.resolveAll lookup left = some ids)
      (second : Catalog.resolveAll lookup right = some ids) {name : String}
      (member : name ∈ left) : name ∈ right := by
    obtain ⟨all, members⟩ := resolveAll_eq_some.mp first
    obtain ⟨_, others⟩ := resolveAll_eq_some.mp second
    obtain ⟨id, has⟩ := Option.isSome_iff_exists.mp (all name member)
    obtain ⟨other, otherMember, otherHas⟩ := (others id).mp ((members id).mpr ⟨name, member, has⟩)
    rwa [unique has otherHas]
  exact fun name => ⟨one first second, one second first⟩

/-- A growing catalog keeps the sets that names resolve to. -/
theorem resolveAll_mono {before after : String → Option UInt64}
    (grows : ∀ {name id}, before name = some id → after name = some id)
    (resolved : Catalog.resolveAll before names = some ids) :
    Catalog.resolveAll after names = some ids := by
  obtain ⟨all, members⟩ := resolveAll_eq_some.mp resolved
  refine resolveAll_eq_some.mpr ⟨fun name member => ?_, fun id => ?_⟩
  · obtain ⟨id, found⟩ := Option.isSome_iff_exists.mp (all name member)
    rw [grows found]
    rfl
  · rw [members]
    constructor
    · intro ⟨name, member, found⟩
      exact ⟨name, member, grows found⟩
    · intro ⟨name, member, found⟩
      -- The name had an id before, and it kept that one.
      obtain ⟨old, had⟩ := Option.isSome_iff_exists.mp (all name member)
      cases (grows had).symm.trans found
      exact ⟨name, member, had⟩

end Oxgraph
