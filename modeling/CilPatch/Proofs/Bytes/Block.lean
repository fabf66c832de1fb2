import CilPatch.Bytes.Cursor

/-!
# Blocks that agree

Two blocks of bytes agree on a range when the same bytes stand there. What is read within the range
is then the same in both. Appending to a block, or writing elsewhere in it, makes no difference.
-/

namespace CilPatch

open LittleEndian

/-- The same bytes stand in two blocks from one offset up to another. -/
def Agree (data other : Bytes) (start stop : Nat) : Prop :=
  ∀ index, start ≤ index → index < stop → data[index]? = other[index]?

/-- A byte of a part of a block. -/
theorem getElem?_extract_eq (data : Bytes) (start stop index : Nat) :
    (data.extract start stop)[index]? =
      if index < stop - start then data[start + index]? else none := by
  rw [Array.getElem?_extract]
  split
  · next hlt => rw [if_pos (by omega)]
  · next hle =>
    split
    · rw [Array.getElem?_eq_none_iff.mpr (by omega)]
    · rfl

namespace LittleEndian

/-- A 16-bit word has two bytes. -/
@[simp] theorem length_u16 (value : UInt16) : (LittleEndian.u16 value).length = 2 :=
  length_encode 2 _

/-- A 32-bit word has four bytes. -/
@[simp] theorem length_u32 (value : UInt32) : (LittleEndian.u32 value).length = 4 :=
  length_encode 4 _

end LittleEndian

namespace Agree

variable {data other third : Bytes} {start stop : Nat}

/-- A block agrees with itself. -/
theorem refl (data : Bytes) (start stop : Nat) : Agree data data start stop := fun _ _ _ => rfl

/-- Agreement is mutual. -/
theorem symm (h : Agree data other start stop) : Agree other data start stop :=
  fun index hstart hstop => (h index hstart hstop).symm

/-- Blocks that agree with a block between them agree. -/
theorem trans (h : Agree data other start stop) (h' : Agree other third start stop) :
    Agree data third start stop :=
  fun index hstart hstop => (h index hstart hstop).trans (h' index hstart hstop)

/-- Blocks agree on a part of where they agree. -/
theorem mono (h : Agree data other start stop) {start' stop' : Nat} (hstart : start ≤ start')
    (hstop : stop' ≤ stop) : Agree data other start' stop' :=
  fun index hle hlt => h index (Nat.le_trans hstart hle) (Nat.lt_of_lt_of_le hlt hstop)

/-- The parts between the same offsets are the same. -/
theorem extract_eq (h : Agree data other start stop) :
    data.extract start stop = other.extract start stop := by
  apply Array.ext_getElem?
  intro index
  rw [getElem?_extract_eq, getElem?_extract_eq]
  split
  · exact h _ (by omega) (by omega)
  · rfl

/-- The words that stand there are the same. -/
theorem wordAt_eq {offset width : Nat} (h : Agree data other offset (offset + width)) :
    wordAt data offset width = wordAt other offset width := by
  rw [wordAt, wordAt, h.extract_eq]

end Agree

/-- A block agrees with one that goes on behind its end. -/
theorem agree_append (data more : Bytes) : Agree (data ++ more) data 0 data.size :=
  fun _ _ hlt => Array.getElem?_append_left hlt

/-- Writing into a block leaves what stands before the written bytes. -/
theorem agree_overwrite_of_le (data : Bytes) {offset : Nat} (bytes : List UInt8) {start stop : Nat}
    (h : stop ≤ offset) : Agree (overwrite data offset bytes) data start stop :=
  fun _ _ hlt => getElem?_overwrite_of_lt data bytes (Nat.lt_of_lt_of_le hlt h)

/-- Writing into a block leaves what stands behind the written bytes. -/
theorem agree_overwrite_of_ge (data : Bytes) {offset : Nat} (bytes : List UInt8) {start stop : Nat}
    (h : offset + bytes.length ≤ start) : Agree (overwrite data offset bytes) data start stop :=
  fun _ hle _ => getElem?_overwrite_of_le data bytes (Nat.le_trans h hle)

/-- What was written stands where it was written. -/
theorem extract_overwrite (data : Bytes) {offset : Nat} {bytes : List UInt8}
    (h : offset + bytes.length ≤ data.size) :
    (overwrite data offset bytes).extract offset (offset + bytes.length) = bytes.toArray := by
  apply Array.ext_getElem?
  intro index
  have hbytes : bytes.toArray[index]? = bytes[index]? := List.getElem?_toArray
  rw [getElem?_extract_eq, Nat.add_sub_cancel_left, hbytes]
  split
  · next hlt => exact getElem?_overwrite_add data offset hlt (by omega)
  · next hle => exact (List.getElem?_eq_none_iff.mpr (Nat.not_lt.mp hle)).symm

/-! ## Several writes -/

/-- A block with several strings of bytes written over it, one after another. -/
def overwriteAll (data : Bytes) (writes : List (Nat × List UInt8)) : Bytes :=
  writes.foldl (fun data write => overwrite data write.1 write.2) data

/-- The bytes from one offset up to another are not written. -/
def Untouched (writes : List (Nat × List UInt8)) (start stop : Nat) : Prop :=
  ∀ write ∈ writes, stop ≤ write.1 ∨ write.1 + write.2.length ≤ start

/-- Nothing is written where there are no writes. -/
@[simp] theorem untouched_nil (start stop : Nat) : Untouched [] start stop := nofun

/-- Bytes are not written when they lie apart from every write. -/
@[simp] theorem untouched_cons {write : Nat × List UInt8} {rest : List (Nat × List UInt8)}
    {start stop : Nat} : Untouched (write :: rest) start stop ↔
      (stop ≤ write.1 ∨ write.1 + write.2.length ≤ start) ∧ Untouched rest start stop :=
  List.forall_mem_cons

/-- Writing over a block keeps its size. -/
@[simp] theorem size_overwriteAll (data : Bytes) (writes : List (Nat × List UInt8)) :
    (overwriteAll data writes).size = data.size := by
  induction writes generalizing data with
  | nil => rfl
  | cons write rest ih => rw [overwriteAll, List.foldl_cons, ← overwriteAll, ih, size_overwrite]

/-- What is not written stays. -/
theorem agree_overwriteAll (data : Bytes) {writes : List (Nat × List UInt8)} {start stop : Nat}
    (h : Untouched writes start stop) : Agree (overwriteAll data writes) data start stop := by
  induction writes generalizing data with
  | nil => exact .refl data start stop
  | cons write rest ih =>
    obtain ⟨hwrite, hrest⟩ := untouched_cons.mp h
    refine (ih (overwrite data write.1 write.2) hrest).trans ?_
    rcases hwrite with hbelow | habove
    · exact agree_overwrite_of_le data write.2 hbelow
    · exact agree_overwrite_of_ge data write.2 habove

/-- A part of what is not written is not written. -/
theorem Untouched.mono {writes : List (Nat × List UInt8)} {start stop start' stop' : Nat}
    (h : Untouched writes start stop) (hstart : start ≤ start') (hstop : stop' ≤ stop) :
    Untouched writes start' stop' :=
  fun write hwrite => (h write hwrite).imp (Nat.le_trans hstop) (Nat.le_trans · hstart)

/-- A byte that was written stands where it was written unless it is written over later. -/
theorem getElem?_overwriteAll {data : Bytes} {writes : List (Nat × List UInt8)} (index : Nat)
    {offset delta : Nat} {bytes : List UInt8} (hwrite : writes[index]? = some (offset, bytes))
    (hdelta : delta < bytes.length) (hroom : offset + delta < data.size)
    (hlater : Untouched (writes.drop (index + 1)) (offset + delta) (offset + delta + 1)) :
    (overwriteAll data writes)[offset + delta]? = bytes[delta]? := by
  obtain ⟨hlt, hget⟩ := List.getElem?_eq_some_iff.mp hwrite
  have hsplit : writes = writes.take index ++ (offset, bytes) :: writes.drop (index + 1) := by
    rw [← hget, ← List.drop_eq_getElem_cons hlt, List.take_append_drop]
  have hfold : overwriteAll data (writes.take index ++ (offset, bytes) :: writes.drop (index + 1)) =
      overwriteAll (overwrite (overwriteAll data (writes.take index)) offset bytes)
        (writes.drop (index + 1)) := by
    rw [overwriteAll, List.foldl_append, List.foldl_cons]
    rfl
  rw [(congrArg (overwriteAll data) hsplit).trans hfold,
    agree_overwriteAll _ hlater _ (Nat.le_refl _) (Nat.lt_succ_self _)]
  exact getElem?_overwrite_add _ _ hdelta (by rwa [size_overwriteAll])

/-- What was written stands where it was written unless it is written over later. -/
theorem extract_overwriteAll {data : Bytes} {writes : List (Nat × List UInt8)} (index : Nat)
    {offset : Nat} {bytes : List UInt8} (hwrite : writes[index]? = some (offset, bytes))
    (hroom : offset + bytes.length ≤ data.size)
    (hlater : Untouched (writes.drop (index + 1)) offset (offset + bytes.length)) :
    (overwriteAll data writes).extract offset (offset + bytes.length) = bytes.toArray := by
  apply Array.ext_getElem?
  intro delta
  have hbytes : bytes.toArray[delta]? = bytes[delta]? := List.getElem?_toArray
  rw [getElem?_extract_eq, Nat.add_sub_cancel_left, hbytes]
  split
  · next hlt =>
    exact getElem?_overwriteAll index hwrite hlt (by omega) (hlater.mono (by omega) (by omega))
  · next hle => exact (List.getElem?_eq_none_iff.mpr (Nat.not_lt.mp hle)).symm

/-- Bytes with others laid over those from an offset on. -/
def overlay (bytes : List UInt8) (offset : Nat) (part : List UInt8) : List UInt8 :=
  bytes.take offset ++ (part ++ bytes.drop (offset + part.length))

/-- Bytes with several others laid over them, one after another. -/
def overlayAll (bytes : List UInt8) (writes : List (Nat × List UInt8)) : List UInt8 :=
  writes.foldl (fun bytes write => overlay bytes write.1 write.2) bytes

/-- Bytes that are laid over a part of others take its place. -/
theorem length_overlay {bytes part : List UInt8} {offset : Nat}
    (h : offset + part.length ≤ bytes.length) :
    (overlay bytes offset part).length = bytes.length := by
  simp only [overlay, List.length_append, List.length_take, List.length_drop]
  omega

/-- Writing into a block lays the bytes over it. -/
theorem overwrite_toArray {bytes part : List UInt8} {offset : Nat}
    (h : offset + part.length ≤ bytes.length) :
    overwrite bytes.toArray offset part = (overlay bytes offset part).toArray := by
  induction part generalizing bytes offset with
  | nil => simp [overwrite, overlay]
  | cons byte rest ih =>
    rw [List.length_cons] at h
    have hset : (bytes.set offset byte).take (offset + 1) = bytes.take offset ++ [byte] := by
      rw [List.take_add_one, List.take_set_of_le (Nat.le_refl _), List.getElem?_set_self (by omega)]
      rfl
    rw [overwrite, List.setIfInBounds_toArray, ih (by rw [List.length_set]; omega), overlay,
      overlay, hset, List.drop_set_of_lt (by omega), List.append_assoc, List.length_cons,
      List.singleton_append, List.cons_append, Nat.add_assoc, Nat.add_comm 1]

/-- Writing several strings into a block lays one after another over it. -/
theorem overwriteAll_toArray {bytes : List UInt8} {writes : List (Nat × List UInt8)}
    (h : ∀ write ∈ writes, write.1 + write.2.length ≤ bytes.length) :
    overwriteAll bytes.toArray writes = (overlayAll bytes writes).toArray := by
  induction writes generalizing bytes with
  | nil => rfl
  | cons write rest ih =>
    obtain ⟨hfirst, hrest⟩ := List.forall_mem_cons.mp h
    rw [overwriteAll, List.foldl_cons, ← overwriteAll, overwrite_toArray hfirst, overlayAll,
      List.foldl_cons]
    refine ih fun other hother => ?_
    rw [length_overlay hfirst]
    exact hrest other hother

/-- Bytes are written when there is room for all of them. -/
theorem writeAt_eq_ok_iff {data written : Bytes} {offset : Nat} {bytes : List UInt8} :
    writeAt data offset bytes = .ok written ↔
      offset + bytes.length ≤ data.size ∧ overwrite data offset bytes = written := by
  unfold writeAt
  split
  · next hlt =>
    exact ⟨nofun, fun h => absurd h.1 (Nat.not_le.mpr hlt)⟩
  · next hle =>
    exact ⟨fun h => ⟨Nat.not_lt.mp hle, Except.ok.inj h⟩, fun h => congrArg Except.ok h.2⟩

/-- The part of a block that stands between two others. -/
theorem extract_between (front middle back : List UInt8) :
    (front ++ (middle ++ back)).toArray.extract front.length (front.length + middle.length) =
      middle.toArray := by
  apply Array.toList_inj.mp
  rw [Array.toList_extract, List.extract_eq_take_drop, Nat.add_sub_cancel_left, List.drop_left,
    List.take_left]

/-- The word of some bytes that stand in a block. -/
theorem wordAt_of_extract {data : Bytes} {offset width value : Nat}
    (h : data.extract offset (offset + width) = (encode width value).toArray)
    (hvalue : value < range width) : wordAt data offset width = value := by
  rw [wordAt, h, decode_encode, Nat.mod_eq_of_lt hvalue]

/-- A word that stands between two parts of a block. -/
theorem wordAt_between (front back : List UInt8) {width value : Nat} (h : value < range width) :
    wordAt (front ++ (encode width value ++ back)).toArray front.length width = value := by
  have hword := extract_between front (encode width value) back
  rw [length_encode] at hword
  exact wordAt_of_extract hword h

/-- A 16-bit word that stands in a block. -/
theorem wordAt_of_u16 {data : Bytes} {offset : Nat} {value : UInt16}
    (h : data.extract offset (offset + (LittleEndian.u16 value).length) =
      (LittleEndian.u16 value).toArray) : wordAt data offset 2 = value.toNat := by
  rw [length_u16] at h
  exact wordAt_of_extract h value.toNat_lt

/-- The number of a stored word is the word. -/
theorem ofNat_decode_u32 (value : UInt32) :
    UInt32.ofNat (decode (LittleEndian.u32 value)) = value := by
  have hlt : value.toNat < range 4 := value.toNat_lt
  rw [LittleEndian.u32, decode_encode, Nat.mod_eq_of_lt hlt, UInt32.ofNat_toNat]

/-- A part of a part of a block. -/
theorem extract_extract_of_le (data : Bytes) {start stop first last : Nat}
    (h : start + last ≤ stop) :
    (data.extract start stop).extract first last = data.extract (start + first) (start + last) := by
  rw [Array.extract_extract, Nat.min_eq_left h]

/-- A word of a part of a block is one of the block. -/
theorem wordAt_extract (data : Bytes) {start stop offset width : Nat}
    (h : start + (offset + width) ≤ stop) :
    wordAt (data.extract start stop) offset width = wordAt data (start + offset) width := by
  rw [wordAt, wordAt, extract_extract_of_le data h, Nat.add_assoc]

/-! ## Fields -/

/-- A word of 32 bits that stands in a block. -/
def fieldAt (data : Bytes) (offset : Nat) : UInt32 := UInt32.ofNat (wordAt data offset 4)

/-- Blocks that agree have the same fields. -/
theorem Agree.fieldAt_eq {data other : Bytes} {offset : Nat}
    (h : Agree data other offset (offset + 4)) : fieldAt data offset = fieldAt other offset := by
  rw [fieldAt, fieldAt, h.wordAt_eq]

/-- A word is one that so many bytes can hold. -/
theorem wordAt_lt (data : Bytes) (offset width : Nat) : wordAt data offset width < range width := by
  refine Nat.lt_of_lt_of_le (decode_lt _) ?_
  rw [range, range, Nat.one_shiftLeft, Nat.one_shiftLeft, Array.length_toList, Array.size_extract]
  exact Nat.pow_le_pow_right (by decide) (by omega)

/-- The first byte of a field is the low byte of its word. -/
theorem getElem?_of_fieldAt {data : Bytes} {offset : Nat} (hroom : offset < data.size) :
    data[offset]? = some (UInt8.ofNat (fieldAt data offset).toNat) := by
  have hget : data[offset]? = some data[offset] := Array.getElem?_eq_getElem hroom
  have hhead : (data.extract offset (offset + 4)).toList.head? = some data[offset] := by
    rw [List.head?_eq_getElem?, Array.getElem?_toList, getElem?_extract_eq, if_pos (by omega)]
    exact hget
  obtain ⟨rest, hrest⟩ := List.head?_eq_some_iff.mp hhead
  have hlt : wordAt data offset 4 < UInt32.size := wordAt_lt data offset 4
  have hbyte := data[offset].toNat_lt
  rw [fieldAt, UInt32.toNat_ofNat_of_lt' hlt, wordAt, hrest, decode, hget]
  congr 1
  apply UInt8.toNat_inj.mp
  rw [UInt8.toNat_ofNat']
  omega

/-- A field of a part of a block is one of the block. -/
theorem fieldAt_extract (data : Bytes) {start stop offset : Nat} (h : start + (offset + 4) ≤ stop) :
    fieldAt (data.extract start stop) offset = fieldAt data (start + offset) := by
  rw [fieldAt, fieldAt, wordAt_extract data h]

/-- A field whose bytes are a part of a block. -/
theorem fieldAt_of_extract {data : Bytes} {offset : Nat} {value : UInt32}
    (h : data.extract offset (offset + (LittleEndian.u32 value).length) =
      (LittleEndian.u32 value).toArray) : fieldAt data offset = value := by
  rw [length_u32] at h
  rw [fieldAt, wordAt_of_extract h value.toNat_lt, UInt32.ofNat_toNat]

/-- A field whose bytes stand at an offset. -/
theorem fieldAt_of_take {bytes : List UInt8} {value : UInt32} {offset : Nat}
    (h : (bytes.drop offset).take 4 = LittleEndian.u32 value) :
    fieldAt bytes.toArray offset = value := by
  have hfield : (bytes.toArray.extract offset (offset + 4)).toList = LittleEndian.u32 value := by
    rw [Array.toList_extract, List.extract_eq_take_drop, Nat.add_sub_cancel_left, ← h]
  rw [fieldAt, wordAt, hfield, ofNat_decode_u32]

end CilPatch
