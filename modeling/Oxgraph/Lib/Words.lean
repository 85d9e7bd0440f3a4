import Mathlib.Tactic

/-! Little-endian words, fixed-width records, and the arrays of records laid out in a byte buffer. -/

namespace Oxgraph

/-- A byte buffer, as every file, section, and log record is one. -/
abbrev Bytes := List UInt8

/-- One past the largest value a 64-bit `usize` can hold. -/
def usizeBound : Nat := 2 ^ 64

/-- One past the largest value a `u32` field can hold. -/
def u32Bound : Nat := 2 ^ 32

/-- The bytes of a `usize`. -/
def usizeBytes : Nat := 8

/-- The bytes of a vector itself: where its items are, how many they are, and how many fit. -/
def vecBytes : Nat := 24

/-- The most bytes that one allocation can hold. -/
def isizeMax : Nat := 2 ^ 63 - 1

/-- The most items of a size in bytes that one allocation can hold. -/
def sliceBound (size : Nat) : Nat := isizeMax / size

theorem sliceBound_le (size : Nat) : sliceBound size ≤ isizeMax := Nat.div_le_self _ _

/-- What one allocation holds is counted by a `usize`. -/
theorem lt_usizeBound_of_le_sliceBound {count size : Nat} (few : count ≤ sliceBound size) :
    count < usizeBound :=
  Nat.lt_of_le_of_lt (few.trans (sliceBound_le size)) (by decide)

/-- A vector with one more item of a size; growing past what memory can address panics. -/
def pushOrPanic {T : Type} (size : Nat) (items : List T) (item : T) : Option (List T) :=
  if items.length < sliceBound size then some (items ++ [item]) else none

/-- A vector grows by its item, or panics. -/
theorem pushOrPanic_eq_some {T : Type} {size : Nat} {items grown : List T} {item : T} :
    pushOrPanic size items item = some grown ↔
      items.length < sliceBound size ∧ grown = items ++ [item] := by
  unfold pushOrPanic
  split
  · rename_i room
    simp [room, eq_comm]
  · rename_i full
    simp [full]

/-- A vector that is full panics. -/
theorem pushOrPanic_eq_none {T : Type} {size : Nat} {items : List T} {item : T} :
    pushOrPanic size items item = none ↔ sliceBound size ≤ items.length := by
  simp [pushOrPanic]

/-- A vector of copies of an item of a size; more than memory can address panics. -/
def repeatOrPanic {T : Type} (size count : Nat) (item : T) : Option (List T) :=
  if count ≤ sliceBound size then some (List.replicate count item) else none

/-- A vector with the item at an index replaced; an index outside panics. -/
def setOrPanic {T : Type} (items : List T) (index : Nat) (item : T) : Option (List T) :=
  if index < items.length then some (items.set index item) else none

/-- Addition that refuses to leave the 64-bit range. -/
def checkedAdd (left right : Nat) : Option Nat :=
  if left + right < usizeBound then some (left + right) else none

/-- Multiplication that refuses to leave the 64-bit range. -/
def checkedMul (left right : Nat) : Option Nat :=
  if left * right < usizeBound then some (left * right) else none

/-- A successful checked sum is the sum, and it fits. -/
theorem checkedAdd_eq_some {left right total : Nat} :
    checkedAdd left right = some total ↔ left + right = total ∧ total < usizeBound := by
  unfold checkedAdd
  split <;> simp <;> omega

/-- Slices `bytes[start..end]` when the range lies inside the buffer. -/
def sliceOf {α : Type} (items : List α) (start stop : Nat) : Option (List α) :=
  if start ≤ stop ∧ stop ≤ items.length then some ((items.drop start).take (stop - start)) else none

/-- A slice of the middle of a concatenation is its middle part. -/
theorem sliceOf_middle {α : Type} (before middle after : List α) :
    sliceOf (before ++ middle ++ after) before.length (before.length + middle.length) =
      some middle := by
  have inside : before.length + middle.length ≤ (before ++ middle ++ after).length := by
    simp [List.length_append]
  rw [sliceOf, if_pos ⟨Nat.le_add_right _ _, inside⟩]
  simp [List.append_assoc]

/-- Equal slices that exist hold the same item at every index between their bounds. -/
theorem getElem?_of_sliceOf_eq {α : Type} {own other : List α} {start stop index : Nat}
    (inside : stop ≤ own.length) (same : sliceOf other start stop = sliceOf own start stop)
    (low : start ≤ index) (high : index < stop) : other[index]? = own[index]? := by
  have ordered : start ≤ stop ∧ stop ≤ own.length := ⟨by omega, inside⟩
  unfold sliceOf at same
  rw [if_pos ordered] at same
  split at same
  · have at_index := congrArg (fun slice : List α => slice[index - start]?) (Option.some.inj same)
    simp only [List.getElem?_take, List.getElem?_drop, Nat.add_sub_cancel' low] at at_index
    rwa [if_pos (by omega), if_pos (by omega)] at at_index
  · cases same

/-- The `width` little-endian bytes of a natural number; higher digits are dropped. -/
def leBytes : Nat → Nat → Bytes
  | 0, _ => []
  | width + 1, value => UInt8.ofNat (value % 256) :: leBytes width (value / 256)

/-- The natural number whose little-endian digits are the given bytes. -/
def ofLeBytes : Bytes → Nat
  | [] => 0
  | byte :: rest => byte.toNat + 256 * ofLeBytes rest

/-- An encoded word occupies exactly the requested number of bytes. -/
@[simp] theorem length_leBytes (width value : Nat) : (leBytes width value).length = width := by
  induction width generalizing value with
  | zero => rfl
  | succ width ih => simp [leBytes, ih]

/-- Reading back the digits of a number that fits gives the number. -/
theorem ofLeBytes_leBytes {width value : Nat} (fits : value < 256 ^ width) :
    ofLeBytes (leBytes width value) = value := by
  -- One digit is peeled off at a time, and the quotient fits the remaining digits.
  induction width generalizing value with
  | zero => simp [leBytes, ofLeBytes] at *; omega
  | succ width ih =>
    have quotient : value / 256 < 256 ^ width := by
      rw [Nat.pow_succ] at fits
      omega
    have digit : (UInt8.ofNat (value % 256)).toNat = value % 256 :=
      UInt8.toNat_ofNat_of_lt' (Nat.mod_lt _ (by decide))
    simp only [leBytes, ofLeBytes, digit, ih quotient]
    omega

/-- Zero digits are the number zero. -/
@[simp] theorem ofLeBytes_zeros (count : Nat) : ofLeBytes (List.replicate count 0) = 0 := by
  induction count with
  | zero => rfl
  | succ count ih => simp [List.replicate_succ, ofLeBytes, ih]

/-- Keeping the low digits of a number and zeroing the others keeps its remainder. -/
theorem ofLeBytes_take_zeros {width value : Nat} (fits : value < 256 ^ width) (kept zeros : Nat) :
    ofLeBytes ((leBytes width value).take kept ++ List.replicate zeros 0) =
      value % 256 ^ kept := by
  -- One digit is kept at a time, and the quotient fits the remaining digits.
  induction width generalizing value kept with
  | zero =>
    have none : value = 0 := by simpa using fits
    simp [leBytes, none]
  | succ width ih =>
    cases kept with
    | zero => simp [Nat.mod_one]
    | succ kept =>
      have quotient : value / 256 < 256 ^ width := by
        rw [Nat.div_lt_iff_lt_mul (by decide), ← Nat.pow_succ]
        exact fits
      have digit : (UInt8.ofNat (value % 256)).toNat = value % 256 :=
        UInt8.toNat_ofNat_of_lt' (Nat.mod_lt _ (by decide))
      rw [leBytes, List.take_succ_cons, List.cons_append, ofLeBytes, ih quotient, digit,
        Nat.pow_succ, Nat.mul_comm (256 ^ kept), Nat.mod_mul]

/-- A digit string names a number below the next power of its base. -/
theorem ofLeBytes_lt (bytes : Bytes) : ofLeBytes bytes < 256 ^ bytes.length := by
  induction bytes with
  | nil => simp [ofLeBytes]
  | cons byte rest ih =>
    have digit : byte.toNat < 256 := byte.toNat_lt
    simp only [ofLeBytes, List.length_cons, Nat.pow_succ]
    omega

/-- Writing the number a digit string names gives the digit string. -/
theorem leBytes_ofLeBytes (bytes : Bytes) : leBytes bytes.length (ofLeBytes bytes) = bytes := by
  induction bytes with
  | nil => rfl
  | cons byte rest ih =>
    have digit : byte.toNat < 256 := byte.toNat_lt
    have low : (byte.toNat + 256 * ofLeBytes rest) % 256 = byte.toNat := by omega
    have high : (byte.toNat + 256 * ofLeBytes rest) / 256 = ofLeBytes rest := by omega
    simp [leBytes, ofLeBytes, low, high, ih]

/--
A record type with one fixed byte layout, every byte of which is meaningful.

Reading looks only at the record's own bytes, so a record can be read off the head of a buffer.
-/
class FixedLayout (α : Type) where
  -- Byte length of one record.
  size : Nat
  -- The bytes of one record.
  asBytes : α → Bytes
  -- The record at the head of a buffer at least `size` long.
  readFromPrefix : Bytes → α
  -- No record occupies zero bytes.
  size_pos : 0 < size
  -- Every record occupies exactly `size` bytes.
  length_asBytes : ∀ record, (asBytes record).length = size
  -- A written record reads back, whatever follows it.
  read_asBytes : ∀ record rest, readFromPrefix (asBytes record ++ rest) = record
  -- Any `size` bytes are the bytes of the record they read as.
  asBytes_read : ∀ bytes : Bytes, size ≤ bytes.length →
    asBytes (readFromPrefix bytes) = bytes.take size

export FixedLayout (asBytes readFromPrefix)

attribute [simp] FixedLayout.length_asBytes FixedLayout.read_asBytes

/-- A single byte is its own layout. -/
instance : FixedLayout UInt8 where
  size := 1
  asBytes byte := [byte]
  readFromPrefix bytes := bytes.headD 0
  size_pos := by decide
  length_asBytes _ := rfl
  read_asBytes _ _ := rfl
  asBytes_read bytes enough := by
    cases bytes with
    | nil => simp at enough
    | cons byte rest => simp

/-- A `u16` is laid out as two little-endian bytes. -/
instance : FixedLayout UInt16 where
  size := 2
  asBytes word := leBytes 2 word.toNat
  readFromPrefix bytes := UInt16.ofNat (ofLeBytes (bytes.take 2))
  size_pos := by decide
  length_asBytes word := length_leBytes 2 word.toNat
  read_asBytes word rest := by
    have fits : word.toNat < 256 ^ 2 := word.toNat_lt
    simp [ofLeBytes_leBytes fits]
  asBytes_read bytes enough := by
    have width : (bytes.take 2).length = 2 := by simp; omega
    have fits : ofLeBytes (bytes.take 2) < UInt16.size := by
      have := ofLeBytes_lt (bytes.take 2)
      rwa [width] at this
    rw [UInt16.toNat_ofNat_of_lt' fits]
    simpa [width] using leBytes_ofLeBytes (bytes.take 2)

/-- A `u32` is laid out as four little-endian bytes. -/
instance : FixedLayout UInt32 where
  size := 4
  asBytes word := leBytes 4 word.toNat
  readFromPrefix bytes := UInt32.ofNat (ofLeBytes (bytes.take 4))
  size_pos := by decide
  length_asBytes word := length_leBytes 4 word.toNat
  read_asBytes word rest := by
    have fits : word.toNat < 256 ^ 4 := word.toNat_lt
    simp [ofLeBytes_leBytes fits]
  asBytes_read bytes enough := by
    have width : (bytes.take 4).length = 4 := by simp; omega
    have fits : ofLeBytes (bytes.take 4) < UInt32.size := by
      have := ofLeBytes_lt (bytes.take 4)
      rwa [width] at this
    rw [UInt32.toNat_ofNat_of_lt' fits]
    simpa [width] using leBytes_ofLeBytes (bytes.take 4)

/-- A `u64` is laid out as eight little-endian bytes. -/
instance : FixedLayout UInt64 where
  size := 8
  asBytes word := leBytes 8 word.toNat
  readFromPrefix bytes := UInt64.ofNat (ofLeBytes (bytes.take 8))
  size_pos := by decide
  length_asBytes word := length_leBytes 8 word.toNat
  read_asBytes word rest := by
    have fits : word.toNat < 256 ^ 8 := word.toNat_lt
    simp [ofLeBytes_leBytes fits]
  asBytes_read bytes enough := by
    have width : (bytes.take 8).length = 8 := by simp; omega
    have fits : ofLeBytes (bytes.take 8) < UInt64.size := by
      have := ofLeBytes_lt (bytes.take 8)
      rwa [width] at this
    rw [UInt64.toNat_ofNat_of_lt' fits]
    simpa [width] using leBytes_ofLeBytes (bytes.take 8)

/-- Two fields one after the other, with no padding between them. -/
instance {α β : Type} [FixedLayout α] [FixedLayout β] : FixedLayout (α × β) where
  size := FixedLayout.size α + FixedLayout.size β
  asBytes pair := asBytes pair.1 ++ asBytes pair.2
  readFromPrefix bytes := (readFromPrefix bytes, readFromPrefix (bytes.drop (FixedLayout.size α)))
  size_pos := Nat.add_pos_left FixedLayout.size_pos _
  length_asBytes pair := by simp
  read_asBytes pair rest := by
    -- The second read starts exactly where the first field ends.
    have skip : (asBytes pair.1 ++ (asBytes pair.2 ++ rest)).drop (FixedLayout.size α) =
        asBytes pair.2 ++ rest := List.drop_left' (FixedLayout.length_asBytes pair.1)
    simp only [List.append_assoc, skip, FixedLayout.read_asBytes]
  asBytes_read bytes enough := by
    rw [FixedLayout.asBytes_read bytes (by omega),
      FixedLayout.asBytes_read (bytes.drop (FixedLayout.size α)) (by simp; omega), List.take_add]

/-- A record whose declared fields, in declaration order, are a tuple with a known layout. -/
@[reducible] def FixedLayout.ofFields {α β : Type} [FixedLayout β] (fields : α → β) (build : β → α)
    (build_fields : ∀ record, build (fields record) = record)
    (fields_build : ∀ tuple, fields (build tuple) = tuple) : FixedLayout α where
  size := FixedLayout.size β
  asBytes record := asBytes (fields record)
  readFromPrefix bytes := build (readFromPrefix bytes)
  size_pos := FixedLayout.size_pos
  length_asBytes record := FixedLayout.length_asBytes _
  read_asBytes record rest := by rw [FixedLayout.read_asBytes, build_fields]
  asBytes_read bytes enough := by rw [fields_build, FixedLayout.asBytes_read bytes enough]

section Arrays

variable {α : Type} [FixedLayout α]

/-- The bytes of a record array. -/
def arrayBytes (records : List α) : Bytes :=
  records.flatMap asBytes

/-- The first `count` records of a buffer. -/
def readArray : Nat → Bytes → List α
  | 0, _ => []
  | count + 1, bytes => readFromPrefix bytes :: readArray count (bytes.drop (FixedLayout.size α))

/-- Borrows a whole buffer as a record array; a length that is not a whole number of records fails. -/
def refFromBytes (α : Type) [FixedLayout α] (bytes : Bytes) : Option (List α) :=
  if bytes.length % FixedLayout.size α = 0 then
    some (readArray (bytes.length / FixedLayout.size α) bytes)
  else none

@[simp] theorem arrayBytes_nil : arrayBytes ([] : List α) = [] := rfl

@[simp] theorem arrayBytes_cons (record : α) (rest : List α) :
    arrayBytes (record :: rest) = asBytes record ++ arrayBytes rest := rfl

@[simp] theorem arrayBytes_append (left right : List α) :
    arrayBytes (left ++ right) = arrayBytes left ++ arrayBytes right :=
  List.flatMap_append

/-- An array occupies its record count times the record size. -/
@[simp] theorem length_arrayBytes (records : List α) :
    (arrayBytes records).length = records.length * FixedLayout.size α := by
  induction records with
  | nil => simp
  | cons record rest ih => simp [ih, Nat.succ_mul]; omega

/-- Reading as many records as were written gives them back, whatever follows. -/
theorem readArray_arrayBytes (records : List α) (rest : Bytes) :
    readArray records.length (arrayBytes records ++ rest) = records := by
  induction records with
  | nil => rfl
  | cons record tail ih =>
    have skip : (asBytes record ++ (arrayBytes tail ++ rest)).drop (FixedLayout.size α) =
        arrayBytes tail ++ rest := List.drop_left' (FixedLayout.length_asBytes record)
    simp only [List.length_cons, arrayBytes_cons, List.append_assoc, readArray,
      FixedLayout.read_asBytes, skip, ih]

/-- A read of `count` records has `count` of them. -/
@[simp] theorem length_readArray (count : Nat) (bytes : Bytes) :
    (readArray count bytes : List α).length = count := by
  induction count generalizing bytes with
  | zero => rfl
  | succ count ih => simp [readArray, ih]

/-- The records read off a buffer are laid out as the bytes they were read from. -/
theorem arrayBytes_readArray (count : Nat) (bytes : Bytes)
    (enough : count * FixedLayout.size α ≤ bytes.length) :
    arrayBytes (readArray count bytes : List α) = bytes.take (count * FixedLayout.size α) := by
  induction count generalizing bytes with
  | zero => simp [readArray]
  | succ count ih =>
    rw [Nat.succ_mul] at enough
    have tail := ih (bytes.drop (FixedLayout.size α)) (by simp; omega)
    rw [readArray, arrayBytes_cons, tail, FixedLayout.asBytes_read bytes (by omega), Nat.succ_mul,
      Nat.add_comm (count * _), List.take_add]

/-- An array's bytes borrow back as the array. -/
@[simp] theorem refFromBytes_arrayBytes (records : List α) :
    refFromBytes α (arrayBytes records) = some records := by
  have positive : 0 < FixedLayout.size α := FixedLayout.size_pos
  have whole := readArray_arrayBytes records []
  rw [List.append_nil] at whole
  rw [refFromBytes, length_arrayBytes, if_pos (Nat.mul_mod_left _ _),
    Nat.mul_div_cancel _ positive, whole]

/-- A buffer that borrows as an array is that array's bytes. -/
theorem arrayBytes_of_refFromBytes {bytes : Bytes} {records : List α}
    (borrowed : refFromBytes α bytes = some records) : arrayBytes records = bytes := by
  unfold refFromBytes at borrowed
  split at borrowed
  · rename_i whole
    have exactly : bytes.length / FixedLayout.size α * FixedLayout.size α = bytes.length :=
      Nat.div_mul_cancel (Nat.dvd_of_mod_eq_zero whole)
    cases borrowed
    rw [arrayBytes_readArray _ _ (by omega), exactly, List.take_length]
  · cases borrowed

end Arrays

-- Magic numbers are eight bytes long.
instance instNeZeroEight : NeZero 8 := ⟨by decide⟩

/-- A fixed number of equal records in a row. -/
instance {α : Type} {count : Nat} [FixedLayout α] [NeZero count] :
    FixedLayout (Vector α count) where
  size := count * FixedLayout.size α
  asBytes records := arrayBytes records.toList
  readFromPrefix bytes := ⟨(readArray count bytes).toArray, by simp⟩
  size_pos := Nat.mul_pos (Nat.pos_of_ne_zero (NeZero.ne count)) FixedLayout.size_pos
  length_asBytes records := by simp
  read_asBytes records rest := by
    have whole := readArray_arrayBytes records.toList rest
    simp only [Vector.length_toList] at whole
    apply Vector.toArray_inj.mp
    rw [Vector.toArray_mk, whole]
    exact Array.toArray_toList
  asBytes_read bytes enough := by
    simpa using arrayBytes_readArray count bytes enough

/-- The UTF-8 bytes of a string. -/
def utf8Bytes (string : String) : Bytes := string.toByteArray.data.toList

/-- The string a byte slice spells, when it is valid UTF-8. -/
def fromUtf8 (bytes : Bytes) : Option String := String.fromUTF8? ⟨bytes.toArray⟩

/-- A string's bytes spell the string. -/
@[simp] theorem fromUtf8_utf8Bytes (string : String) : fromUtf8 (utf8Bytes string) = some string := by
  have same : (⟨(utf8Bytes string).toArray⟩ : ByteArray) = string.toByteArray := by
    simp [utf8Bytes]
  rw [fromUtf8, same, String.fromUTF8?, dif_pos string.isValidUTF8]
  rfl

end Oxgraph
