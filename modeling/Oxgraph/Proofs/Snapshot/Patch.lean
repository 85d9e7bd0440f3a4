import Oxgraph.Proofs.Snapshot.Verify
import Oxgraph.Snapshot.Patch

/-! Patching section checksums after a change in place gives back an intact snapshot. -/

namespace Oxgraph.Container

open FixedLayout (length_asBytes)
open List (append_assoc forall_mem_map length_append length_map)

variable {checksum : Checksum32}

-- The two checksum fields.

/-- An entry's bytes, around its checksum field. -/
theorem asBytes_entry (entry : RawSectionEntry) : ∃ before after : Bytes,
    before.length = entryCrcOffset ∧ ∀ crc : UInt32,
      asBytes { entry with crc32c := crc } = before ++ (asBytes crc ++ after) := by
  refine ⟨asBytes (entry.offset, entry.length, entry.kind, entry.version),
    asBytes (entry.alignmentLog2, entry.flags, entry.reserved),
    length_asBytes (entry.offset, entry.length, entry.kind, entry.version),
    fun crc => ?_⟩
  -- Both sides are the same fields in the same order.
  change asBytes entry.offset ++ (asBytes entry.length ++ (asBytes entry.kind ++
    (asBytes entry.version ++ (asBytes crc ++ _)))) =
      (asBytes entry.offset ++ (asBytes entry.length ++ (asBytes entry.kind ++
        asBytes entry.version))) ++ (asBytes crc ++ _)
  simp only [append_assoc]

/-- A header's bytes, around its table checksum field. -/
theorem asBytes_header_crc (header : RawHeader) : ∃ before after : Bytes,
    before.length = headerCrcOffset ∧ ∀ crc : UInt32,
      asBytes { header with tableCrc32c := crc } = before ++ (asBytes crc ++ after) := by
  refine ⟨asBytes (header.magic, header.formatMajor, header.formatMinor, header.headerSize,
      header.sectionCount), asBytes header.reserved,
    length_asBytes (header.magic, header.formatMajor, header.formatMinor,
      header.headerSize, header.sectionCount), fun crc => ?_⟩
  change asBytes header.magic ++ (asBytes header.formatMajor ++ (asBytes header.formatMinor ++
    (asBytes header.headerSize ++ (asBytes header.sectionCount ++ (asBytes crc ++ _))))) =
      (asBytes header.magic ++ (asBytes header.formatMajor ++ (asBytes header.formatMinor ++
        (asBytes header.headerSize ++ asBytes header.sectionCount)))) ++ (asBytes crc ++ _)
  simp only [append_assoc]

/-- Copying over exactly a middle part of a buffer replaces it. -/
theorem copyOrPanic_middle {front middle bytes back : Bytes} {offset : Nat}
    (place : front.length = offset) (size : middle.length = bytes.length) :
    copyOrPanic (front ++ (middle ++ back)) offset bytes = some (front ++ (bytes ++ back)) := by
  rw [copyOrPanic, if_pos (by simp only [length_append]; omega), overwrite_middle place size]

/-- Copying a checksum over an entry's field changes that field of the table, and nothing else. -/
theorem copy_entry_crc {front back : Bytes} {entries : List RawSectionEntry} {index : Nat}
    {entry : RawSectionEntry} (place : front.length = headerSize)
    (found : entries[index]? = some entry) (crc : UInt32) :
    copyOrPanic (front ++ (arrayBytes entries ++ back))
        (headerSize + index * sectionEntrySize + entryCrcOffset) (asBytes crc) =
      some (front ++ (arrayBytes (entries.set index { entry with crc32c := crc }) ++ back)) := by
  obtain ⟨bound, rfl⟩ := List.getElem?_eq_some_iff.mp found
  obtain ⟨before, after, offset, bytes⟩ := asBytes_entry entries[index]
  have width : FixedLayout.size RawSectionEntry = sectionEntrySize := rfl
  have own := bytes entries[index].crc32c
  -- The table is the entries before the patched one, that one, and the entries after it.
  have split : arrayBytes entries = arrayBytes (entries.take index) ++
      (asBytes entries[index] ++ arrayBytes (entries.drop (index + 1))) := by
    rw [← arrayBytes_cons, ← List.drop_eq_getElem_cons bound, ← arrayBytes_append,
      List.take_append_drop]
  have patched : arrayBytes (entries.set index { entries[index] with crc32c := crc }) =
      arrayBytes (entries.take index) ++ (asBytes { entries[index] with crc32c := crc } ++
        arrayBytes (entries.drop (index + 1))) := by
    rw [List.set_eq_take_cons_drop _ bound, arrayBytes_append, arrayBytes_cons]
  have position : (front ++ (arrayBytes (entries.take index) ++ before)).length =
      headerSize + index * sectionEntrySize + entryCrcOffset := by
    rw [length_append, length_append, place, length_arrayBytes, width, offset,
      List.length_take, Nat.min_eq_left (Nat.le_of_lt bound)]
    omega
  have copied := @copyOrPanic_middle (front ++ (arrayBytes (entries.take index) ++ before))
    (asBytes entries[index].crc32c) (asBytes crc)
    (after ++ (arrayBytes (entries.drop (index + 1)) ++ back)) _ position
    (by rw [length_asBytes, length_asBytes])
  rw [split, patched, bytes crc, own]
  simp only [append_assoc] at copied ⊢
  exact copied

/-- Copying a checksum over the header's field changes that field, and nothing else. -/
theorem copy_header_crc (header : RawHeader) (back : Bytes) (crc : UInt32) :
    copyOrPanic (asBytes header ++ back) headerCrcOffset (asBytes crc) =
      some (asBytes { header with tableCrc32c := crc } ++ back) := by
  obtain ⟨before, after, offset, bytes⟩ := asBytes_header_crc header
  -- The bytes before the copy are those of the header with its own checksum.
  have own := bytes header.tableCrc32c
  have copied := @copyOrPanic_middle before (asBytes header.tableCrc32c) (asBytes crc)
    (after ++ back) _ offset (by rw [length_asBytes, length_asBytes])
  rw [bytes crc]
  change copyOrPanic (asBytes { header with tableCrc32c := header.tableCrc32c } ++ back) _ _ = _
  rw [own]
  simp only [append_assoc] at copied ⊢
  exact copied

/-- Copying into a buffer keeps its length, and every byte outside the copied range. -/
theorem copyOrPanic_frame {buf bytes after : Bytes} {offset : Nat}
    (copied : copyOrPanic buf offset bytes = some after) : after.length = buf.length ∧
      ∀ index, ¬ (offset ≤ index ∧ index < offset + bytes.length) →
        after[index]? = buf[index]? := by
  unfold copyOrPanic at copied
  split at copied
  · rename_i room
    cases copied
    unfold overwrite
    refine ⟨by simp only [length_append, List.length_take, List.length_drop]; omega, ?_⟩
    intro index outside
    by_cases early : index < offset
    · -- Before the range lies the buffer's own beginning.
      rw [append_assoc, List.getElem?_append_left (by rw [List.length_take]; omega),
        List.getElem?_take_of_lt early]
    · have front : (buf.take offset ++ bytes).length = offset + bytes.length := by
        rw [length_append, List.length_take]
        omega
      rw [List.getElem?_append_right (by omega), front, List.getElem?_drop,
        Nat.add_sub_cancel' (by omega)]
  · cases copied

-- A table with some checksums taken again.

/-- An entry whose checksum is taken again from the bytes, if its kind is listed. -/
def restamp (checksum : Checksum32) (bytes : Bytes) (kinds : List UInt32)
    (entry : RawSectionEntry) : RawSectionEntry :=
  { entry with
    crc32c := if entry.kind ∈ kinds then checksum 0 (entry.payload bytes) else entry.crc32c }

section Restamp

variable {bytes : Bytes} {kinds : List UInt32} (entry : RawSectionEntry)

@[simp] theorem restamp_kind : (restamp checksum bytes kinds entry).kind = entry.kind := rfl

@[simp] theorem restamp_offset : (restamp checksum bytes kinds entry).offset = entry.offset := rfl

@[simp] theorem restamp_flags : (restamp checksum bytes kinds entry).flags = entry.flags := rfl

@[simp] theorem restamp_reserved :
    (restamp checksum bytes kinds entry).reserved = entry.reserved := rfl

@[simp] theorem restamp_alignmentLog2 :
    (restamp checksum bytes kinds entry).alignmentLog2 = entry.alignmentLog2 := rfl

@[simp] theorem restamp_stop : (restamp checksum bytes kinds entry).stop = entry.stop := rfl

@[simp] theorem restamp_payload (other : Bytes) :
    (restamp checksum bytes kinds entry).payload other = entry.payload other := rfl

/-- With no kind listed, an entry stays as it is. -/
@[simp] theorem restamp_nothing : restamp checksum bytes [] entry = entry := rfl

/-- With no kind listed, a table stays as it is. -/
theorem map_restamp_nothing (entries : List RawSectionEntry) :
    entries.map (restamp checksum bytes []) = entries :=
  (List.map_congr_left fun entry _ => restamp_nothing entry).trans (List.map_id' entries)

/-- Taking checksums again twice, over the same payload, lists the kinds of both times. -/
theorem restamp_restamp {other : Bytes} {later : List UInt32}
    (same : entry.payload other = entry.payload bytes) :
    restamp checksum other later (restamp checksum bytes kinds entry) =
      restamp checksum bytes (kinds ++ later) entry := by
  have crc : (if entry.kind ∈ later then checksum 0 (entry.payload other)
      else (restamp checksum bytes kinds entry).crc32c) =
        if entry.kind ∈ kinds ++ later then checksum 0 (entry.payload bytes)
        else entry.crc32c := by
    -- The later call takes the checksum of the same payload, if it takes it at all.
    by_cases own : entry.kind ∈ later
    · simp [own, same]
    · simp [own, restamp]
  exact congrArg (fun crc : UInt32 => { entry with crc32c := crc }) crc

end Restamp

variable {entries : List RawSectionEntry} {header : RawHeader} {entry : RawSectionEntry}
  {rest : Bytes}

/-- A payload past the table depends only on what follows the table. -/
theorem payload_assembled (after : tableEnd entries.length ≤ entry.offset.toNat) :
    entry.payload (assembled header entries rest) =
      (rest.drop (entry.offset.toNat - tableEnd entries.length)).take entry.length.toNat := by
  have front := length_front header entries
  rw [RawSectionEntry.payload, assembled, ← append_assoc, List.drop_append,
    List.drop_of_length_le (by omega), List.nil_append, front]

/-- New checksums in the header and the table leave every payload where it was. -/
theorem payload_restamped (after : tableEnd entries.length ≤ entry.offset.toNat)
    (checksum : Checksum32) (bytes : Bytes) (kinds : List UInt32) (crc : UInt32) :
    entry.payload (assembled { header with tableCrc32c := crc }
        (entries.map (restamp checksum bytes kinds)) rest) =
      entry.payload (assembled header entries rest) := by
  rw [payload_assembled (by rw [length_map]; exact after), payload_assembled after,
    length_map]

/-- New checksums leave an acceptable file acceptable. -/
theorem Acceptable.restamped {bytes rest : Bytes} {header : RawHeader}
    {entries : List RawSectionEntry}
    (acceptable : Acceptable (assembled header entries rest) header entries)
    (checksum : Checksum32) (kinds : List UInt32) (crc : UInt32) :
    Acceptable (assembled { header with tableCrc32c := crc }
        (entries.map (restamp checksum bytes kinds)) rest)
      { header with tableCrc32c := crc } (entries.map (restamp checksum bytes kinds)) := by
  have size (header : RawHeader) (entries : List RawSectionEntry) :
      (assembled header entries rest).length = tableEnd entries.length + rest.length := by
    rw [assembled, ← append_assoc, length_append, length_front]
  have inside := acceptable.inside
  rw [size] at inside
  exact {
    begins := ⟨rest, rfl⟩
    magic := acceptable.magic
    major := acceptable.major
    minor := acceptable.minor
    size := acceptable.size
    reserved := acceptable.reserved
    count := by rw [length_map]; exact acceptable.count
    few := by rw [length_map]; exact acceptable.few
    flags := forall_mem_map.mpr fun entry member => by
      rw [restamp_flags]; exact acceptable.flags entry member
    zero := forall_mem_map.mpr fun entry member => by
      rw [restamp_reserved]; exact acceptable.zero entry member
    aligned := forall_mem_map.mpr fun entry member => by
      rw [restamp_alignmentLog2]; exact acceptable.aligned entry member
    inside := forall_mem_map.mpr fun entry member => by
      rw [restamp_stop, size, length_map]; exact inside entry member
    after := forall_mem_map.mpr fun entry member => by
      rw [restamp_offset, length_map]; exact acceptable.after entry member
    ascending := List.pairwise_map.mpr (acceptable.ascending.imp fun below => by
      rw [restamp_kind, restamp_kind]; exact below)
    apart := List.pairwise_map.mpr (acceptable.apart.imp fun below => by
      rw [restamp_stop, restamp_offset]; exact below) }

-- One call.

/-- Locating a section never panics, and it fails only where no section has the kind. -/
theorem locateSection_cases (bytes : Bytes) (kind : UInt32) (checksum : Checksum32) :
    (∃ error, locateSection bytes kind checksum = some (.error error) ∧
      ∀ snapshot, Snapshot.openBytes bytes = .ok snapshot →
        ∀ entry ∈ snapshot.entries, entry.kind ≠ kind) ∨
    ∃ snapshot index entry, Snapshot.openBytes bytes = .ok snapshot ∧
      snapshot.entries[index]? = some entry ∧ entry.kind = kind ∧
      locateSection bytes kind checksum = some (.ok (headerSize + index * sectionEntrySize,
        checksum 0 (entry.payload bytes), snapshot.entries.length)) := by
  unfold locateSection
  rw [openOrPanic_eq]
  cases opened : Snapshot.openBytes bytes with
  | error error => exact .inl ⟨error, rfl, fun snapshot impossible => nomatch impossible⟩
  | ok snapshot =>
    obtain ⟨⟨header, acceptable⟩, same, valid⟩ := acceptable_of_open opened
    have sorted : Ascending (snapshot.entries.map RawSectionEntry.kind) :=
      List.pairwise_map.mpr (acceptable.ascending.imp fun below => Std.compare_eq_lt.mpr below)
    -- Kinds ascend in a table that opens, so the search finds the one entry there may be.
    have search := binarySearchBy_spec (monotone_of_ascending sorted kind)
    dsimp only [Option.bind_eq_bind, Option.bind_some]
    cases located : binarySearchBy snapshot.entries fun entry => compare entry.kind kind with
    | none =>
      rw [located] at search
      refine .inl ⟨.sectionMissing kind, rfl, ?_⟩
      rintro _ ⟨⟩ entry member rfl
      exact search entry member Std.ReflOrd.compare_self
    | some index =>
      -- The position found is inside the table, and its payload inside the bytes.
      rw [located] at search
      obtain ⟨entry, position, equal⟩ := search
      have sliced := fromEntryOrPanic_eq (valid entry (List.mem_of_getElem? position))
      refine .inr ⟨snapshot, index, entry, rfl, position,
        Std.LawfulEqOrd.eq_of_compare equal, ?_⟩
      dsimp only
      rw [same, position]
      dsimp only [Option.bind_some]
      rw [sliced]
      rfl

/-- Setting the one entry of a kind is taking that kind's checksum again. -/
theorem set_eq_restamp {bytes : Bytes} {index : Nat}
    (ascending : entries.Pairwise fun before after => before.kind < after.kind)
    (found : entries[index]? = some entry) :
    entries.set index { entry with crc32c := checksum 0 (entry.payload bytes) } =
      entries.map (restamp checksum bytes [entry.kind]) := by
  refine List.ext_getElem? fun position => ?_
  rw [List.getElem?_set, List.getElem?_map]
  have nodup : (entries.map RawSectionEntry.kind).Nodup :=
    List.pairwise_map.mpr (ascending.imp fun below => UInt32.ne_of_lt below)
  split
  · rename_i same
    subst same
    obtain ⟨bound, _⟩ := List.getElem?_eq_some_iff.mp found
    -- At the position of the kind, the entry is the one that was set.
    rw [if_pos bound, found]
    simp [restamp]
  · rename_i apart
    cases other : entries[position]? with
    | none => rfl
    | some item =>
      -- Kinds are distinct, so no other position holds the kind.
      have differs : item.kind ≠ entry.kind := by
        intro equal
        have first : (entries.map RawSectionEntry.kind)[index]? = some entry.kind := by
          rw [List.getElem?_map, found]; rfl
        have second : (entries.map RawSectionEntry.kind)[position]? = some entry.kind := by
          rw [List.getElem?_map, other, ← equal]; rfl
        obtain ⟨bound, _⟩ := List.getElem?_eq_some_iff.mp first
        exact apart ((List.getElem?_inj bound nodup).mp (first.trans second.symm))
      simp [restamp, differs]

/-- An index inside the checksum field of the entry at a position of the table. -/
def InEntryCrc (position index : Nat) : Prop :=
  headerSize + position * sectionEntrySize + entryCrcOffset ≤ index ∧
    index < headerSize + position * sectionEntrySize + entryCrcOffset + 4

/-- An index inside the table checksum field of the header. -/
def InTableCrc (index : Nat) : Prop := headerCrcOffset ≤ index ∧ index < headerCrcOffset + 4

/-- Patching a known kind takes its checksum again, then the table's, and changes no other byte. -/
theorem patchSectionCrc_known
    (acceptable : Acceptable (assembled header entries rest) header entries)
    (range : ∀ entry ∈ entries, entry.stop < usizeBound) {kind : UInt32}
    (known : ∃ entry ∈ entries, entry.kind = kind) (checksum : Checksum32) :
    ∃ after, patchSectionCrc (assembled header entries rest) kind checksum = some (.ok (), after) ∧
      (let patched := entries.map (restamp checksum (assembled header entries rest) [kind])
       after = assembled { header with tableCrc32c := checksum 0 (arrayBytes patched) } patched
        rest) ∧
      after.length = (assembled header entries rest).length ∧
      ∀ index, ¬ InTableCrc index →
        (∀ position entry, entries[position]? = some entry → entry.kind = kind →
          ¬ InEntryCrc position index) →
        after[index]? = (assembled header entries rest)[index]? := by
  have opened := acceptable.openBytes_eq range
  rcases locateSection_cases (assembled header entries rest) kind checksum with
    ⟨_, _, unknown⟩ | ⟨snapshot, position, entry, opens, found, rfl, located⟩
  · obtain ⟨entry, member, same⟩ := known
    exact absurd same (unknown _ opened entry member)
  rw [opened] at opens
  obtain rfl := Except.ok.inj opens
  dsimp only at found located
  have headerBytes (header : RawHeader) : (asBytes header).length = headerSize :=
    length_asBytes header
  have word (crc : UInt32) : (asBytes crc).length = 4 := length_asBytes crc
  have first := @copy_entry_crc (asBytes header) rest entries position entry (headerBytes header)
    found (checksum 0 (entry.payload (assembled header entries rest)))
  -- The first write goes to the entry, and the second to the header, over the new table.
  rw [set_eq_restamp acceptable.ascending found] at first
  have copied := copyOrPanic_frame first
  generalize patchedEq : entries.map
    (restamp checksum (assembled header entries rest) [entry.kind]) = patched at first copied ⊢
  have count : patched.length = entries.length := by rw [← patchedEq, length_map]
  have table := table_slice header patched rest
  rw [count] at table
  have second := copy_header_crc header (arrayBytes patched ++ rest)
    (checksum 0 (arrayBytes patched))
  have stamped := copyOrPanic_frame second
  refine ⟨_, ?_, rfl, stamped.1.trans copied.1, fun index outside apart => ?_⟩
  · unfold patchSectionCrc
    rw [located]
    dsimp only [Option.bind_eq_bind, Option.bind_some]
    change (copyOrPanic (asBytes header ++ (arrayBytes entries ++ rest)) _ _).bind _ = _
    rw [first, Option.bind_some]
    change (sliceOf (assembled header patched rest) headerSize (tableEnd entries.length)).bind _ = _
    -- The table that is hashed is the one just written.
    rw [table, Option.bind_some]
    rw [second]
    rfl
  · rw [word] at stamped copied
    exact (stamped.2 index outside).trans (copied.2 index (apart position entry found rfl))

/-- A call never panics, and one that fails leaves the buffer as it was. -/
theorem patchSectionCrc_total (bytes : Bytes) (kind : UInt32) (checksum : Checksum32) :
    ∃ result after, patchSectionCrc bytes kind checksum = some (result, after) ∧
      ∀ error, result = .error error → after = bytes := by
  -- An error leaves before the first write.
  rcases locateSection_cases bytes kind checksum with
    ⟨error, located, _⟩ | ⟨snapshot, _, entry, opened, found, same, _⟩
  · refine ⟨.error error, bytes, ?_, fun _ _ => rfl⟩
    rw [patchSectionCrc, located]
    rfl
  · obtain ⟨⟨header, acceptable⟩, _, valid⟩ := acceptable_of_open opened
    obtain ⟨rest, rfl⟩ := acceptable.begins
    obtain ⟨after, patched, _⟩ := patchSectionCrc_known acceptable
      (fun entry member => (valid entry member).range)
      ⟨entry, List.mem_of_getElem? found, same⟩ checksum
    exact ⟨_, after, patched, fun _ impossible => nomatch impossible⟩

-- A run of calls.

/-- Every call of a run succeeds; together they take the listed checksums again, and the table's. -/
theorem patchSections_known (checksum : Checksum32) (kinds : List UInt32) :
    ∀ {header : RawHeader} {entries : List RawSectionEntry},
      Acceptable (assembled header entries rest) header entries →
      (∀ entry ∈ entries, entry.stop < usizeBound) →
      (∀ kind ∈ kinds, ∃ entry ∈ entries, entry.kind = kind) →
      ∃ after, patchSections checksum kinds (assembled header entries rest) =
          some (.ok (), after) ∧
        (let patched := entries.map (restamp checksum (assembled header entries rest) kinds)
         after = assembled { header with
           tableCrc32c := if kinds = [] then header.tableCrc32c
             else checksum 0 (arrayBytes patched) } patched rest) ∧
        after.length = (assembled header entries rest).length ∧
        ∀ index, ¬ InTableCrc index →
          (∀ position entry, entries[position]? = some entry → entry.kind ∈ kinds →
            ¬ InEntryCrc position index) →
          after[index]? = (assembled header entries rest)[index]? := by
  induction kinds with
  | nil =>
    intro header entries _ _ _
    refine ⟨_, rfl, ?_, rfl, fun _ _ _ => rfl⟩
    dsimp only
    rw [map_restamp_nothing, if_pos rfl]
  | cons kind others ih =>
    intro header entries acceptable range known
    obtain ⟨middle, called, middleEq, size, kept⟩ :=
      patchSectionCrc_known acceptable range (known kind List.mem_cons_self) checksum
    dsimp only at middleEq
    subst middleEq
    -- The table after the first call has the same kinds over the same payloads.
    have accepts := @Acceptable.restamped (assembled header entries rest) _ _ _ acceptable checksum
      [kind] (checksum 0 (arrayBytes (entries.map
        (restamp checksum (assembled header entries rest) [kind]))))
    obtain ⟨after, ran, afterEq, length, frame⟩ := ih accepts
      (forall_mem_map.mpr range) fun other member => by
        obtain ⟨entry, inTable, same⟩ := known other (List.mem_cons_of_mem _ member)
        exact ⟨_, List.mem_map_of_mem inTable, same⟩
    refine ⟨after, ?_, ?_, length.trans size, fun index outside apart => ?_⟩
    · rw [patchSections, called]
      exact ran
    · have again (crc : UInt32) :
          (entries.map (restamp checksum (assembled header entries rest) [kind])).map
            (restamp checksum (assembled { header with tableCrc32c := crc }
              (entries.map (restamp checksum (assembled header entries rest) [kind])) rest)
              others) =
            entries.map (restamp checksum (assembled header entries rest) (kind :: others)) := by
        rw [List.map_map]
        exact List.map_congr_left fun entry member =>
          restamp_restamp entry
            (payload_restamped (acceptable.after entry member) checksum _ [kind] _)
      rw [afterEq]
      dsimp only
      rw [again, if_neg (List.cons_ne_nil kind others)]
      -- The last call records the table checksum, whichever call that is.
      cases others with
      | nil => rw [if_pos rfl]
      | cons other more => rw [if_neg (List.cons_ne_nil other more)]
    · rw [frame index outside, kept index outside fun position entry found same =>
        apart position entry found (by rw [same]; exact List.mem_cons_self)]
      intro position entry found listed
      rw [List.getElem?_map, Option.map_eq_some_iff] at found
      obtain ⟨original, found, rfl⟩ := found
      exact apart position original found (List.mem_cons_of_mem _ listed)

/-- A change confined to payloads leaves the header and the table in place. -/
theorem Acceptable.mutated {bytes mutated : Bytes} (acceptable : Acceptable bytes header entries)
    (size : mutated.length = bytes.length)
    (confined : ∀ index, (∀ entry ∈ entries, ¬ (entry.offset.toNat ≤ index ∧ index < entry.stop)) →
      mutated[index]? = bytes[index]?) :
    ∃ rest, mutated = assembled header entries rest ∧ Acceptable mutated header entries := by
  obtain ⟨rest, begins⟩ := acceptable.begins
  have front := length_front header entries
  -- No payload starts before the table's end, so the bytes up to it are as they were.
  have kept : mutated.take (tableEnd entries.length) = asBytes header ++ arrayBytes entries := by
    have own : bytes.take (tableEnd entries.length) = asBytes header ++ arrayBytes entries := by
      rw [begins, ← append_assoc, List.take_left' front]
    rw [← own]
    refine List.ext_getElem? fun index => ?_
    rw [List.getElem?_take, List.getElem?_take]
    split
    · rename_i early
      refine confined index fun entry member inside => ?_
      have after := acceptable.after entry member
      unfold tableEnd at early
      omega
    · rfl
  have starts : mutated = assembled header entries (mutated.drop (tableEnd entries.length)) := by
    rw [assembled, ← append_assoc, ← kept, List.take_append_drop]
  exact ⟨_, starts, { acceptable with
    begins := ⟨_, starts⟩
    inside := fun entry member => by
      rw [size]
      exact acceptable.inside entry member }⟩

/-- A payload that a change leaves alone is what it was. -/
theorem RawSectionEntry.payload_congr {entry : RawSectionEntry} {bytes other : Bytes}
    (same : ∀ index, entry.offset.toNat ≤ index → index < entry.stop →
      other[index]? = bytes[index]?) : entry.payload other = entry.payload bytes := by
  -- A payload is the bytes from its offset to its end.
  refine List.ext_getElem? fun index => ?_
  unfold RawSectionEntry.payload
  rw [List.getElem?_take, List.getElem?_take]
  split
  · rename_i inside
    rw [List.getElem?_drop, List.getElem?_drop]
    exact same _ (Nat.le_add_right _ _) (Nat.add_lt_add_left inside _)
  · rfl

/-- Payloads apart in order of kind share no byte. -/
theorem apart_of_kind_ne
    (apart : entries.Pairwise fun before after => before.stop ≤ after.offset.toNat)
    {first second : RawSectionEntry} (inTable : first ∈ entries) (other : second ∈ entries)
    (differ : first.kind ≠ second.kind) {index : Nat}
    (inside : first.offset.toNat ≤ index ∧ index < first.stop) :
    ¬ (second.offset.toNat ≤ index ∧ index < second.stop) := by
  have symmetric : Std.Symm fun left right : RawSectionEntry =>
      left.stop ≤ right.offset.toNat ∨ right.stop ≤ left.offset.toNat :=
    ⟨fun _ _ either => either.symm⟩
  -- One of two entries comes first, whichever way round they are asked for.
  have either : entries.Pairwise fun left right =>
      left.stop ≤ right.offset.toNat ∨ right.stop ≤ left.offset.toNat :=
    apart.imp fun below => Or.inl below
  have ordered := either.forall inTable other
    fun same => differ (congrArg RawSectionEntry.kind same)
  omega

/-- Patching every section whose payload changed, in any order, gives back an intact snapshot of
the changed payloads and touches only the recorded checksums; a failed call touches nothing. -/
theorem patch_restores (checksum : Checksum32) :
    (∀ (bytes mutated : Bytes) (snapshot : Snapshot) (kinds : List UInt32),
      Intact checksum bytes snapshot →
      (∀ kind ∈ kinds, ∃ entry ∈ snapshot.entries, entry.kind = kind) →
      mutated.length = bytes.length →
      (∀ index, (∀ entry ∈ snapshot.entries, entry.kind ∈ kinds →
        ¬ (entry.offset.toNat ≤ index ∧ index < entry.stop)) → mutated[index]? = bytes[index]?) →
      ∃ after patched, patchSections checksum kinds mutated = some (.ok (), after) ∧
        Intact checksum after patched ∧
        patched.sections.map Section.planned =
          snapshot.entries.map (RawSectionEntry.described mutated) ∧
        after.length = mutated.length ∧
        ∀ index, ¬ InTableCrc index →
          (∀ position entry, snapshot.entries[position]? = some entry → entry.kind ∈ kinds →
            ¬ InEntryCrc position index) →
          after[index]? = mutated[index]?) ∧
    ∀ (bytes : Bytes) (kind : UInt32), ∃ result after,
      patchSectionCrc bytes kind checksum = some (result, after) ∧
        ∀ error, result = .error error → after = bytes := by
  refine ⟨?_, fun bytes kind => patchSectionCrc_total bytes kind checksum⟩
  intro bytes mutated snapshot kinds intact known size confined
  -- The change spares the header and the table, so the file is still acceptable.
  obtain ⟨header, kept, _⟩ := intact_iff.mp intact
  generalize snapshot.entries = entries at *
  obtain ⟨rest, rfl, acceptable⟩ := kept.acceptable.mutated size fun index outside =>
    confined index fun entry member _ => outside entry member
  obtain ⟨after, ran, afterEq, length, frame⟩ :=
    patchSections_known checksum kinds acceptable kept.range known
  dsimp only at afterEq
  have payloads (entry : RawSectionEntry) (member : entry ∈ entries) :
      entry.payload after = entry.payload (assembled header entries rest) := by
    rw [afterEq]
    exact payload_restamped (acceptable.after entry member) checksum _ kinds _
  let patched := entries.map (restamp checksum (assembled header entries rest) kinds)
  have again : Sealed checksum after
      { header with tableCrc32c :=
          if kinds = [] then header.tableCrc32c else checksum 0 (arrayBytes patched) } patched :=
    { acceptable := by
        rw [afterEq]
        exact acceptable.restamped checksum kinds _
      range := forall_mem_map.mpr kept.range
      table := by
        -- With nothing to patch, the table is the one that was sealed before.
        dsimp only
        split
        · rename_i nothing
          have same : patched = entries := by
            unfold patched
            rw [nothing, map_restamp_nothing]
          rw [same]
          exact kept.table
        · rfl
      payloads := forall_mem_map.mpr fun entry member => by
        rw [restamp_payload, payloads entry member]
        by_cases listed : entry.kind ∈ kinds
        · simp [restamp, listed]
        · -- A payload whose kind is not listed did not change, so its checksum still holds.
          have unchanged := @RawSectionEntry.payload_congr entry bytes
            (assembled header entries rest) fun index low high =>
              confined index fun other inTable changed inside =>
                apart_of_kind_ne acceptable.apart member inTable
                  (fun same => listed (by rw [same]; exact changed)) ⟨low, high⟩ inside
          rw [unchanged, kept.payloads entry member]
          simp [restamp, listed] }
  obtain ⟨reread, intact, inTable, same⟩ := again.intact
  refine ⟨after, reread, ran, intact, ?_, length, frame⟩
  unfold Snapshot.sections
  rw [inTable, same, List.map_map, List.map_map]
  refine List.map_congr_left fun entry member => ?_
  have described : entry.described after = entry.described (assembled header entries rest) := by
    unfold RawSectionEntry.described
    rw [payloads entry member]
  exact described

/-- A payload byte changed in place and then patched for is read back, under new checksums. -/
theorem patch_restores_changed : ∃ (bytes after : Bytes) (reread : Snapshot),
    patchSections castagnoli.crc32cAppend [1] (bytes.set 64 9) = some (.ok (), after) ∧
      Intact castagnoli.crc32cAppend after reread ∧
      reread.sections.map Section.planned = [⟨1, 1, 0, [9, 2, 3]⟩] := by
  let sections : List PendingSection := [⟨1, 1, 0, [1, 2, 3]⟩]
  let bytes := encoded castagnoli.crc32cAppend sections
  have fits : Fits (tableEnd sections.length) sections := by
    simp [Fits, alignUp, tableEnd, headerSize, sectionEntrySize, sections, usizeBound]
  obtain ⟨wrote, finished⟩ := wrote_encoded castagnoli.crc32cAppend
    (by decide : sections.length ≤ maxSectionCount) rfl fits
  obtain ⟨snapshot, intact⟩ := wrote.intact finished
  -- The one entry is evaluated off the bytes; its payload holds the changed index.
  have evaluated : (Snapshot.openChecked bytes castagnoli.crc32cAppend).toOption.any
      (fun snapshot => decide
        ((∃ entry ∈ snapshot.entries, entry.kind = 1 ∧
            (entry.offset.toNat ≤ 64 ∧ 64 < entry.stop)) ∧
          snapshot.entries.map (RawSectionEntry.described (bytes.set 64 9)) =
            [⟨1, 1, 0, [9, 2, 3]⟩])) = true := by decide +kernel
  rw [intact.opened] at evaluated
  obtain ⟨⟨entry, member, kind, inside⟩, described⟩ := of_decide_eq_true evaluated
  have confined (index : Nat) (outside : ∀ entry ∈ snapshot.entries, entry.kind ∈ [1] →
      ¬ (entry.offset.toNat ≤ index ∧ index < entry.stop)) :
      (bytes.set 64 9)[index]? = bytes[index]? := by
    refine List.getElem?_set_ne fun same => ?_
    subst same
    exact outside entry member (List.mem_singleton.mpr kind) inside
  obtain ⟨after, reread, ran, again, listed, _⟩ :=
    (patch_restores castagnoli.crc32cAppend).1 bytes (bytes.set 64 9) snapshot [1] intact
      (fun other listed => ⟨entry, member, kind.trans (List.mem_singleton.mp listed).symm⟩)
      List.length_set confined
  exact ⟨bytes, after, reread, ran, again, listed.trans described⟩

end Oxgraph.Container
