import CilPatch.Heap.Blob
import CilPatch.Heap.Guid
import CilPatch.Heap.Strings
import CilPatch.Proofs.Bytes.Align
import CilPatch.Proofs.Bytes.Compressed
import CilPatch.Proofs.Bytes.Local

/-!
# Grown heaps

Heaps only grow: blobs are put behind those that are there, and every heap is padded with zeros.
What an index leads to stays the same.
-/

namespace CilPatch

/-- A byte of a block is there when the block goes on. -/
theorem getElem?_append_of_some {data : Bytes} {index : Nat} {byte : UInt8}
    (h : data[index]? = some byte) (more : Bytes) : (data ++ more)[index]? = some byte := by
  obtain ⟨hlt, -⟩ := Array.getElem?_eq_some_iff.mp h
  rw [Array.getElem?_append_left hlt, h]

namespace BlobHeap

variable {heap : BlobHeap} {data : Bytes}

/-- A block that is taken as a heap is the data of the heap. -/
theorem ofBytes_eq_ok_iff : ofBytes data = .ok heap ↔ data[0]? = some 0 ∧ heap = ⟨data⟩ := by
  unfold ofBytes
  split
  · next hzero => exact ⟨fun h => ⟨hzero, (Except.ok.inj h).symm⟩, fun h => congrArg _ h.2.symm⟩
  · next hzero => exact ⟨nofun, fun h => absurd h.1 hzero⟩

/-- A block that goes on is still a heap. -/
theorem ofBytes_append (h : ofBytes data = .ok heap) (more : Bytes) :
    ofBytes (data ++ more) = .ok ⟨heap.data ++ more⟩ := by
  obtain ⟨hzero, rfl⟩ := ofBytes_eq_ok_iff.mp h
  exact ofBytes_eq_ok_iff.mpr ⟨getElem?_append_of_some hzero more, rfl⟩

/-- A blob is found at its index when the heap has grown. -/
theorem get_append {index : Nat} {blob : Bytes} (h : heap.get index = .ok blob) (more : Bytes) :
    (⟨heap.data ++ more⟩ : BlobHeap).get index = .ok blob := by
  unfold get at h ⊢
  split at h
  · cases h
  · next hlt =>
    rw [if_neg (by simp only [Array.size_append]; omega)]
    obtain ⟨after, hrun⟩ : ∃ after, read.run ⟨heap.data, index⟩ = (.ok blob, after) :=
      ⟨_, Prod.ext h rfl⟩
    have hlocal : Read.Local read := Read.local_compressed.bind fun _ => Read.local_bytes _
    exact congrArg Prod.fst (hlocal more hrun)

/-- A new blob is put behind a block that is not empty, and its index is where it starts. -/
theorem append_eq_ok {data blob after : Bytes} {index : UInt32} (hdata : data.isEmpty = false)
    (h : append data blob = (after, .ok index)) : ∃ head,
      Compressed.encode blob.size = .ok head ∧ after = data ++ (head.toArray ++ blob) ∧
        index.toNat = data.size ∧ blob.size < UInt32.size := by
  unfold append at h
  simp only [hdata, Bool.false_eq_true, if_false] at h
  split at h
  · cases (Prod.mk.inj h).2
  · next hroom =>
    split at h
    · cases (Prod.mk.inj h).2
    · next hblob =>
      split at h
      · cases (Prod.mk.inj h).2
      · next head hhead =>
        obtain ⟨rfl, hindex⟩ := Prod.mk.inj h
        obtain rfl := Except.ok.inj hindex
        refine ⟨head, hhead, ?_, UInt32.toNat_ofNat_of_lt' (Nat.not_le.mp hroom),
          Nat.not_le.mp hblob⟩
        apply Array.ext'
        simp

/-- A new blob is found at the index that it got. -/
theorem get_appended {data blob after : Bytes} {index : UInt32} (hdata : data.isEmpty = false)
    (h : append data blob = (after, .ok index)) :
    (⟨after⟩ : BlobHeap).get index.toNat = .ok blob := by
  obtain ⟨head, hhead, rfl, hindex, hblob⟩ := append_eq_ok hdata h
  let start : Cursor := ⟨data ++ (head.toArray ++ blob), data.size⟩
  have hrest : start.rest = head ++ (blob.toList ++ []) := by
    simp [start, Cursor.rest]
  have hpasses := Cursor.passes_of_rest hrest (by simp [start])
  have hlength := Read.run_compressed hhead hpasses
  have hblob' := Cursor.passes_of_rest (hpasses.rest_eq hrest) hpasses.bounded
  have hsize : (UInt32.ofNat blob.size).toNat = blob.size := UInt32.toNat_ofNat_of_lt' hblob
  have hrun : read.run start = (.ok blob, _) :=
    run_bind_eq_ok_iff.mpr ⟨_, _, hlength,
      Read.run_bytes_eq_ok_iff.mpr ⟨hsize.symm, hblob'⟩⟩
  have hpos := Compressed.length_pos_of_encode hhead
  rw [hindex, get, if_neg]
  · exact congrArg Prod.fst hrun
  · simp only [Array.size_append, List.size_toArray]
    omega

end BlobHeap

namespace StringHeap

variable {heap : StringHeap} {data : Bytes}

/-- A block that is taken as a heap is the data of the heap. -/
theorem ofBytes_eq_ok_iff : ofBytes data = .ok heap ↔ data[0]? = some 0 ∧ heap = ⟨data⟩ := by
  unfold ofBytes
  split
  · next hzero => exact ⟨fun h => ⟨hzero, (Except.ok.inj h).symm⟩, fun h => congrArg _ h.2.symm⟩
  · next hzero => exact ⟨nofun, fun h => absurd h.1 hzero⟩

/-- A block that goes on is still a heap. -/
theorem ofBytes_append (h : ofBytes data = .ok heap) (more : Bytes) :
    ofBytes (data ++ more) = .ok ⟨heap.data ++ more⟩ := by
  obtain ⟨hzero, rfl⟩ := ofBytes_eq_ok_iff.mp h
  exact ofBytes_eq_ok_iff.mpr ⟨getElem?_append_of_some hzero more, rfl⟩

/-- A zero byte that was found lies within the block. -/
theorem lt_size_of_findZero {fuel index stop : Nat} (h : findZero data fuel index = some stop) :
    stop < data.size := by
  induction fuel generalizing index with
  | zero => cases h
  | succ fuel ih =>
    rw [findZero] at h
    split at h
    · cases h
    · next byte hbyte =>
      split at h
      · obtain rfl := Option.some.inj h
        exact (Array.getElem?_eq_some_iff.mp hbyte).1
      · exact ih h

/-- A zero byte that was found is found when the block goes on. -/
theorem findZero_append {fuel index stop : Nat} (h : findZero data fuel index = some stop)
    (more : Bytes) (extra : Nat) : findZero (data ++ more) (fuel + extra) index = some stop := by
  induction fuel generalizing index with
  | zero => cases h
  | succ fuel ih =>
    rw [findZero] at h
    rw [Nat.add_right_comm, findZero]
    split at h
    · cases h
    · next byte hbyte =>
      rw [getElem?_append_of_some hbyte more]
      simp only
      split at h
      · next hzero => rw [if_pos hzero, h]
      · next hzero =>
        rw [if_neg hzero]
        exact ih h

/-- A text is found at its index when the heap has grown. -/
theorem get_append {index : Nat} {text : String} (h : heap.get index = .ok text) (more : Bytes) :
    (⟨heap.data ++ more⟩ : StringHeap).get index = .ok text := by
  unfold get at h ⊢
  split at h
  · cases h
  · next hlt =>
    rw [if_neg (by simp only [Array.size_append]; omega)]
    cases hstop : findZero heap.data heap.data.size index with
    | none =>
      rw [hstop] at h
      cases h
    | some stop =>
      have hle := Nat.le_of_lt (lt_size_of_findZero hstop)
      have hagree := (agree_append heap.data more).mono (Nat.zero_le index) hle
      rw [hstop] at h
      simp only [Array.size_append, findZero_append hstop more, Option.bind_some,
        hagree.extract_eq] at h ⊢
      exact h

end StringHeap

/-- A heap of identifiers needs no padding. -/
theorem GuidHeap.padding_eq_nil {data : Bytes} {heap : GuidHeap} (h : ofBytes data = .ok heap)
    (hsize : data.size + 4 ≤ wordRange) : padding data.size 4 = [] := by
  unfold ofBytes at h
  split at h
  · next hmod => exact CilPatch.padding_eq_nil (by omega) hsize
  · cases h

end CilPatch
