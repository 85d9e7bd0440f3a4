import Oxgraph.Property.Model

/-! Rekeying property layers from canonical order into snapshot-local order. -/

namespace Oxgraph.Property

open Layout

/-- The selection kernel of Arrow. -/
structure ArrowSelect (T V : Type) where
  -- The slots of an array at the indexes of another; a failure is a message.
  take : ArrowArray T V → ArrowArray T V → Except String (ArrowArray T V)

variable {Id I T V : Type} [DecidableEq T] [PropertyIndex I]

/-- An array of words, none of them null. -/
def primitiveArray (values : List I) : PrimitiveArray I :=
  ⟨values.map fun value => ⟨value, false⟩⟩

/-- The error of an index that is not there, or not below a length. -/
def indexOutOfBounds (index : I) (len : Nat) : PropertyError :=
  .sparseIndexOutOfBounds (.ofNat (Layout.toNat index)) len

/-- The error of a position that the index width cannot hold. -/
def positionOutOfBounds (position len : Nat) : PropertyError :=
  .sparseIndexOutOfBounds (.ofNat position) len

/-- Checks that every entry of a mapping is below the length of the layer. -/
def validateMapping (layerLen : Nat) (localToCanonical : List I) : Except PropertyError Unit :=
  localToCanonical.forM fun canonical =>
    if (toUsize canonical).any fun index => decide (index < layerLen) then .ok ()
    else .error (indexOutOfBounds canonical layerLen)

/-- Selects slots of an array by words. -/
def takeAt (arrow : ArrowSelect T V) (values : ArrowArray T V) (positions : List I) :
    Except PropertyError (ArrowArray T V) :=
  (arrow.take values (PropertyIndex.intoArray (primitiveArray positions))).mapError .arrow

/-- Enters one local position at its canonical index, over what is there. -/
def enterLocal (layerLen mapLen : Nat) (canonicalToLocal : List (Option I)) (entry : I × Nat) :
    Except PropertyError (List (Option I)) :=
  match toUsize entry.1 with
  | none => .error (indexOutOfBounds entry.1 layerLen)
  | some canonical =>
    if layerLen ≤ canonical then .error (indexOutOfBounds entry.1 layerLen)
    else
      match (fromUsize entry.2 : Option I) with
      | none => .error (positionOutOfBounds entry.2 mapLen)
      | some position => .ok (canonicalToLocal.set canonical (some position))

/-- The bytes of an optional word: it takes as much again to say whether there is one. -/
def optionBytes (I : Type) [LayoutIndex I] : Nat := 2 * LayoutIndex.bytes I

/--
The local position of each canonical index; an index without one is `none`.

The length of a sparse layer is not bounded by what is stored, so its slots may not fit in memory.
-/
def invertMapping (layerLen : Nat) (localToCanonical : List I) :
    Fallible PropertyError (List (Option I)) := do
  let unmapped ← .orPanic (repeatOrPanic (optionBytes I) layerLen none)
  .ofResult (localToCanonical.zipIdx.foldlM (enterLocal layerLen localToCanonical.length) unmapped)

/-- The local position of an explicit index, beside the position of its value. -/
def remapIndex (layerLen : Nat) (canonicalToLocal : List (Option I)) (indicesLen : Nat)
    (entry : Slot I × Nat) : Except PropertyError (I × I) :=
  match toUsize entry.1.value with
  | none => .error (indexOutOfBounds entry.1.value layerLen)
  | some canonical =>
    match canonicalToLocal[canonical]? with
    | none | some none => .error (indexOutOfBounds entry.1.value layerLen)
    | some (some target) =>
      match (fromUsize entry.2 : Option I) with
      | none => .error (positionOutOfBounds entry.2 indicesLen)
      | some takePosition => .ok (target, takePosition)

/-- Checks that a default that is there has the type of the descriptor's field. -/
def ensureDefaultType (descriptor : PropertyLayerDescriptor Id T) :
    Option (ArrowArray T V) → Except PropertyError Unit
  | none => .ok ()
  | some default => ensureArrowType descriptor default

/--
Rekeys a layer, so that each local position takes what the canonical index mapped there holds.

A dense layer selects through the mapping. A sparse one inverts it, and sorts its explicit values by
their local positions.
-/
def rekeyLayerToLocal (arrow : ArrowSelect T V) (layer : PropertyLayer Id I T V)
    (localToCanonical : List I) : Fallible PropertyError (PropertyLayer Id I T V) := do
  .ofResult (validateMapping layer.len localToCanonical)
  match layer.data with
  | .dense values =>
    .ofResult do
      let values ← takeAt arrow values localToCanonical
      PropertyLayer.tryNewDense layer.descriptor values
  | .sparse indices values default => do
    let canonicalToLocal ← invertMapping layer.len localToCanonical
    -- There are no more pairs than slots, and a pair is no larger, so they fit as the slots do.
    let remapped ← .ofResult (indices.slots.zipIdx.mapM
      (remapIndex layer.len canonicalToLocal indices.slots.length))
    let remapped := remapped.mergeSort fun left right =>
      decide (Layout.toNat left.1 ≤ Layout.toNat right.1)
    .ofResult do
      let values ← takeAt arrow values (remapped.map Prod.snd)
      ensureDefaultType layer.descriptor default
      PropertyLayer.tryNewSparse layer.descriptor localToCanonical.length
        (primitiveArray (remapped.map Prod.fst)) values default

end Oxgraph.Property
