import Oxgraph.Proofs.Property.Layer
import Oxgraph.Proofs.Property.Sections

/-! Layers are encoded exactly when they differ and fit the width, and are read back as they were. -/

namespace Oxgraph.Property

open Layout

variable {Id W T V : Type} [DecidableEq T] {ipc : ArrowIpc T V} [PropertyIndex W]

-- What an encoder that succeeds has checked.

/-- A word is built only from a value that fits the width. -/
theorem fits_of_leWord {value : Nat} {word : W} (built : leWord value = .ok word) :
    value < LayoutIndex.bound W := by
  unfold leWord at built
  cases converted : (fromUsize value : Option W) with
  | none =>
    rw [converted] at built
    cases built
  | some other =>
    rw [← fromUsize_eq_some.mp converted]
    exact LayoutIndex.toNat_lt other

variable [LayerId Id W]

/-- A record is built only of what fits the width. -/
theorem fitsAt_of_record {any : AnyLayer Id T V} {nameOffset dataOffset : Nat}
    {record : PropertySnapshotRecord W}
    (built : PropertySnapshotEncoder.record any.layer nameOffset dataOffset
      (any.valueStream ipc).length (any.defaultOffset ipc dataOffset)
      ((any.defaultStream ipc).getD []).length = .ok record) :
    any.FitsAt W ipc nameOffset dataOffset := by
  unfold PropertySnapshotEncoder.record at built
  dsimp only at built
  cases converted : (LayerId.tryIntoWord any.layer.descriptor.layerId : Option W) with
  | none =>
    rw [converted] at built
    cases built
  | some word =>
    rw [converted] at built
    obtain ⟨_, _, built⟩ := bind_eq_ok.mp built
    obtain ⟨_, nameOffset, built⟩ := bind_eq_ok.mp built
    obtain ⟨_, nameLen, built⟩ := bind_eq_ok.mp built
    -- The tags fit every width.
    obtain ⟨_, _, built⟩ := bind_eq_ok.mp built
    obtain ⟨_, _, built⟩ := bind_eq_ok.mp built
    obtain ⟨_, _, built⟩ := bind_eq_ok.mp built
    obtain ⟨_, _, built⟩ := bind_eq_ok.mp built
    obtain ⟨_, logicalLen, built⟩ := bind_eq_ok.mp built
    obtain ⟨_, valueCount, built⟩ := bind_eq_ok.mp built
    obtain ⟨_, valueOffset, built⟩ := bind_eq_ok.mp built
    obtain ⟨_, valueLen, built⟩ := bind_eq_ok.mp built
    obtain ⟨_, defaultOffset, built⟩ := bind_eq_ok.mp built
    obtain ⟨_, defaultLen, _⟩ := bind_eq_ok.mp built
    refine ⟨?_, fits_of_leWord nameOffset, fits_of_leWord nameLen, fits_of_leWord logicalLen,
      fits_of_leWord valueCount, fits_of_leWord valueOffset, fits_of_leWord valueLen,
      fits_of_leWord defaultOffset, fits_of_leWord defaultLen⟩
    rw [← (LayerId.tryIntoWord_eq_some _ word).mp converted]
    exact LayoutIndex.toNat_lt word

/-- A layer is appended exactly when its name and its ID are new, and it fits. -/
theorem exists_append_iff (inverse : ipc.Inverse) {encoder : PropertySnapshotEncoder W}
    {any : AnyLayer Id T V} :
    (∃ last, encoder.append ipc any.layer = .ok last) ↔
      any.named ∉ encoder.names ∧ any.id W ∉ encoder.ids ∧
        any.FitsAt W ipc encoder.strings.length encoder.data.length := by
  constructor
  · rintro ⟨last, appended⟩
    obtain ⟨values, _, _⟩ := any.valueStream_spec inverse
    obtain ⟨defaults, _⟩ := any.defaultStream_spec inverse
    unfold PropertySnapshotEncoder.append at appended
    dsimp only at appended
    split at appended
    · cases appended
    · rename_i unnamed
      split at appended
      · cases appended
      · rename_i fresh
        rw [Std.ExtTreeSet.contains_iff_mem] at unnamed fresh
        refine ⟨unnamed, fresh, ?_⟩
        rw [values, defaults] at appended
        obtain ⟨_, ⟨⟩, appended⟩ := bind_eq_ok.mp appended
        obtain ⟨_, ⟨⟩, appended⟩ := bind_eq_ok.mp appended
        obtain ⟨record, built, _⟩ := bind_eq_ok.mp appended
        -- The offset of the default stream is past the value stream, if there is one.
        refine @fitsAt_of_record _ _ _ _ _ ipc _ _ _ _ _ record ?_
        rw [← built]
        unfold AnyLayer.defaultOffset
        cases any.defaultStream ipc with
        | none => rfl
        | some bytes => rw [List.length_append]; rfl
  · rintro ⟨unnamed, fresh, fits⟩
    exact ⟨_, append_eq_ok inverse unnamed fresh fits⟩

-- Runs.

/-- Layers fit with one behind them exactly when they do and that fits after them. -/
theorem fitFrom_append {nameOffset dataOffset : Nat} {layers : List (AnyLayer Id T V)}
    {any : AnyLayer Id T V} :
    FitFrom W ipc nameOffset dataOffset (layers ++ [any]) ↔
      FitFrom W ipc nameOffset dataOffset layers ∧
        any.FitsAt W ipc (nameOffset + (layers.flatMap AnyLayer.nameBytes).length)
          (dataOffset + (layers.flatMap fun any => any.streams ipc).length) := by
  induction layers generalizing nameOffset dataOffset with
  | nil => exact and_comm
  | cons first rest ih =>
    rw [List.cons_append, FitFrom, FitFrom, ih, List.flatMap_cons, List.flatMap_cons,
      List.length_append, List.length_append, AnyLayer.length_streams, AnyLayer.nameBytes, and_assoc]
    simp only [Nat.add_assoc]

/-- Layers that are appended after those an encoder holds can be encoded with them. -/
theorem encodable_of_appendAll (inverse : ipc.Inverse) {done rest : List (AnyLayer Id T V)}
    {encoder last : PropertySnapshotEncoder W} (holds : encoder.HoldsLayers ipc done)
    (encodable : Encodable W ipc done)
    (ran : rest.foldlM (fun encoder any => encoder.append ipc any.layer) encoder = .ok last) :
    Encodable W ipc (done ++ rest) := by
  induction rest generalizing done encoder with
  | nil => rwa [List.append_nil]
  | cons any rest ih =>
    rw [List.foldlM_cons] at ran
    obtain ⟨next, appended, ran⟩ := bind_eq_ok.mp ran
    obtain ⟨unnamed, fresh, fits⟩ := (exists_append_iff inverse).mp ⟨next, appended⟩
    rw [append_eq_ok inverse unnamed fresh fits] at appended
    cases appended
    rw [holds.names] at unnamed
    rw [holds.ids] at fresh
    rw [holds.strings, holds.data] at fits
    rw [← List.singleton_append, ← List.append_assoc]
    refine ih (holds.withLayer any) ⟨?_, ?_, ?_⟩ ran
    · rw [List.map_append, List.map_singleton, ← List.concat_eq_append]
      exact encodable.ids.concat fresh
    · rw [List.map_append, List.map_singleton, ← List.concat_eq_append]
      exact encodable.names.concat unnamed
    · rw [fitFrom_append, Nat.zero_add, Nat.zero_add]
      exact ⟨encodable.fits, fits⟩

/-- The encoder succeeds exactly on layers that the width can encode. -/
theorem exists_encodeLayers_iff (inverse : ipc.Inverse) {layers : List (AnyLayer Id T V)}
    (addressed : sectionsLen W ipc layers < usizeBound) :
    (∃ encoded, encodeLayers W ipc layers = .ok encoded) ↔ Encodable W ipc layers := by
  constructor
  · rintro ⟨encoded, encodes⟩
    obtain ⟨last, ran, _⟩ := bind_eq_ok.mp encodes
    exact encodable_of_appendAll inverse holdsLayers_new ⟨.nil, .nil, trivial⟩ ran
  · rintro ⟨ids, names, fits⟩
    unfold sectionsLen at addressed
    exact ⟨_, encodeLayers_eq_ok inverse names ids fits (by omega)⟩

/--
Layers are encoded exactly when the width can encode them, and then they are read back as they were.

The two sections must fit the address space, and the values must be countable.
-/
theorem encodeLayers_roundTrips (inverse : ipc.Inverse) (layers : List (AnyLayer Id T V))
    (addressed : sectionsLen W ipc layers < usizeBound)
    (counted : (layers.map fun any => any.layer.len).sum < usizeBound) :
    ((∃ encoded, encodeLayers W ipc layers = .ok encoded) ↔ Encodable W ipc layers) ∧
      ∀ encoded, encodeLayers W ipc layers = .ok encoded →
        validatePropertySections W ipc encoded.descriptors encoded.data =
            pure (summaryOf layers) ∧
          DecodedPropertyLayer.decodeSections W ipc encoded.descriptors encoded.data =
            pure (layers.map fun any => any.decoded W) := by
  refine ⟨exists_encodeLayers_iff inverse addressed, fun encoded encodes => ?_⟩
  obtain ⟨ids, names, fits⟩ := (exists_encodeLayers_iff inverse addressed).mp ⟨encoded, encodes⟩
  have records : layers.length * FixedLayout.size (PropertySnapshotRecord W) < usizeBound := by
    unfold sectionsLen at addressed
    omega
  rw [encodeLayers_eq_ok inverse names ids fits records] at encodes
  cases encodes
  rw [← length_encodedLayers] at addressed
  obtain ⟨validated, decoded⟩ := readLayers_eq inverse names ids fits (by omega) (by omega)
  rw [if_pos counted] at validated decoded
  exact ⟨validated, decoded⟩

/-- A dense layer of elements, a sparse one of relations, and a sparse one with a default. -/
def mixedLayers : List (AnyLayer UInt64 Unit Unit) :=
  [{ I := UInt16
     layer :=
      { descriptor :=
          { layerId := 7, name := weightName, idFamily := .element, role := .weight
            storage := .dense
            arrowField := { name := "weight", dataType := .uint32, nullable := false } }
        len := 2
        data := .dense (.uint32 ⟨[⟨5, false⟩, ⟨6, false⟩]⟩)
        checked := { storage := rfl, type := rfl, nulls := fun _ => rfl, len := rfl } } },
   { I := UInt16
     layer :=
      { descriptor :=
          { layerId := 8, name := weightName, idFamily := .relation, role := .property
            storage := .sparse .null
            arrowField := { name := "weight", dataType := .other (), nullable := true } }
        len := 4
        data := .sparse ⟨[⟨1, false⟩, ⟨3, false⟩]⟩ (.other () [⟨(), false⟩, ⟨(), true⟩]) none
        checked :=
          { policy := ⟨_, rfl, rfl⟩, type := rfl, lengths := rfl, indexNulls := rfl
            nulls := fun strict => Bool.noConfusion strict, ascending := rfl } } },
   { I := UInt64
     layer :=
      { descriptor :=
          { layerId := 9, name := weightName, idFamily := .incidence, role := .weight
            storage := .sparse .default
            arrowField := { name := "weight", dataType := .uint16, nullable := false } }
        len := 3
        data := .sparse ⟨[⟨2, false⟩]⟩ (.uint16 ⟨[⟨4, false⟩]⟩) (some (.uint16 ⟨[⟨1, false⟩]⟩))
        checked :=
          { policy := ⟨_, rfl, rfl⟩, type := rfl, lengths := rfl, indexNulls := rfl
            nulls := fun _ => rfl, ascending := rfl } } }]

/-- Words of sixteen bits can encode the three layers. -/
theorem encodable_mixed : Encodable UInt16 ArrowIpc.plain mixedLayers where
  ids := by decide
  names := by decide
  fits := by
    refine ⟨⟨?_, ?_, ?_, ?_, ?_, ?_, ?_, ?_, ?_⟩, ⟨?_, ?_, ?_, ?_, ?_, ?_, ?_, ?_, ?_⟩,
      ⟨?_, ?_, ?_, ?_, ?_, ?_, ?_, ?_, ?_⟩, trivial⟩ <;> decide

/-- The three layers are encoded with words of sixteen bits, and read back. -/
theorem encodeLayers_roundTrips_mixed : ∃ encoded,
    encodeLayers UInt16 .plain mixedLayers = .ok encoded ∧
    validatePropertySections UInt16 .plain encoded.descriptors encoded.data = pure ⟨3, 9⟩ ∧
    DecodedPropertyLayer.decodeSections UInt16 .plain encoded.descriptors encoded.data =
      pure (mixedLayers.map fun any => any.decoded UInt16) := by
  obtain ⟨encodes, reads⟩ := encodeLayers_roundTrips (W := UInt16) ArrowIpc.inverse_plain
    mixedLayers (by decide) (by decide)
  obtain ⟨encoded, encoding⟩ := encodes.mpr encodable_mixed
  exact ⟨encoded, encoding, reads encoded encoding⟩

end Oxgraph.Property
