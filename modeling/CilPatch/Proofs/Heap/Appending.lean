import CilPatch.Proofs.Heap.Growth

/-!
# Blobs that are put one behind the other

Putting a blob at the end of a heap makes the heap longer or, when the blob is refused, leaves it as
it is. So after any number of blobs the heap still starts with what it was, every index leads to
what it led to before, and every new blob is found at the index that it got, which lies behind all
indexes that others got before it.
-/

namespace CilPatch.BlobHeap

/-- Puts blobs at the end of a block, one behind the other, and lists their indexes. A blob that is
refused leaves the fault in place of an index. -/
def appendAll (data : Bytes) : List Bytes → Bytes × List (Except Fault UInt32)
  | [] => (data, [])
  | blob :: rest =>
      let (after, index) := append data blob
      let (last, indexes) := appendAll after rest
      (last, index :: indexes)

variable {data blob : Bytes} {blobs : List Bytes}

/-- What becomes of a blob: it is refused and nothing changes, or the block goes on and the index is
where it ended. -/
theorem append_cases (hdata : data.isEmpty = false) (blob : Bytes) :
    (∃ fault, append data blob = (data, .error fault) ∧
      (sizeLimit ≤ data.size ∨ Compressed.limit ≤ blob.size)) ∨
      ∃ more index, append data blob = (data ++ more, .ok index) ∧ 0 < more.size ∧
        index.toNat = data.size ∧ data.size < sizeLimit ∧ blob.size < Compressed.limit := by
  have hsmaller : Compressed.limit ≤ sizeLimit := by decide
  by_cases hfull : sizeLimit ≤ data.size
  · refine .inl ⟨.malformed .blobHeapSize, ?_, .inl hfull⟩
    simp only [append, hdata, Bool.false_eq_true, if_false, if_pos hfull]
  by_cases hlong : sizeLimit ≤ blob.size
  · refine .inl ⟨.malformed .blobSize, ?_, .inr (by omega)⟩
    simp only [append, hdata, Bool.false_eq_true, if_false, if_neg hfull, if_pos hlong]
  cases hhead : Compressed.encode blob.size with
  | error fault =>
    refine .inl ⟨fault, ?_, .inr ?_⟩
    · simp only [append, hdata, Bool.false_eq_true, if_false, if_neg hfull, if_neg hlong, hhead]
    · rw [← Compressed.encode?_eq_none_iff]
      cases hnone : Compressed.encode? blob.size with
      | none => rfl
      | some head => simp [Compressed.encode, hnone] at hhead
  | ok head =>
    have happend : append data blob = (data ++ head ++ blob, .ok (UInt32.ofNat data.size)) := by
      simp only [append, hdata, Bool.false_eq_true, if_false, if_neg hfull, if_neg hlong, hhead]
    obtain ⟨-, -, hafter, hindex, -⟩ := append_eq_ok hdata happend
    have hpos := Compressed.length_pos_of_encode hhead
    refine .inr ⟨head.toArray ++ blob, UInt32.ofNat data.size, ?_, ?_, hindex, by omega, ?_⟩
    · rw [happend]
      apply congrArg (·, _)
      apply Array.ext'
      simp
    · simp only [Array.size_append, List.size_toArray]
      omega
    · by_contra hlarge
      have hnone := Compressed.encode?_eq_none_iff.mpr (Nat.not_lt.mp hlarge)
      simp [Compressed.encode, hnone] at hhead

/-- A block that goes on is not empty. -/
theorem isEmpty_append (hdata : data.isEmpty = false) (more : Bytes) :
    (data ++ more).isEmpty = false := by
  rw [Array.isEmpty_eq_false_iff] at hdata ⊢
  simp [hdata]

/-- Whatever is put at its end, a block goes on. -/
theorem exists_appendAll_eq (hdata : data.isEmpty = false) (blobs : List Bytes) :
    ∃ more, (appendAll data blobs).1 = data ++ more := by
  induction blobs generalizing data with
  | nil => exact ⟨#[], Array.append_empty.symm⟩
  | cons blob rest ih =>
    rcases append_cases hdata blob with ⟨_, happend, -⟩ | ⟨new, index, happend, -⟩
    · obtain ⟨more, hmore⟩ := ih hdata
      refine ⟨more, ?_⟩
      simp only [appendAll, happend, hmore]
    · obtain ⟨more, hmore⟩ := ih (isEmpty_append hdata new)
      refine ⟨new ++ more, ?_⟩
      simp only [appendAll, happend, hmore, Array.append_assoc]

/-- Each blob has an index or a fault. -/
theorem length_appendAll : (appendAll data blobs).2.length = blobs.length := by
  induction blobs generalizing data with
  | nil => rfl
  | cons blob rest ih =>
    simp only [appendAll, List.length_cons, ih]

/-- The indexes lie behind the block. -/
theorem size_le_of_mem_appendAll (hdata : data.isEmpty = false) {index : UInt32}
    (h : .ok index ∈ (appendAll data blobs).2) : data.size ≤ index.toNat := by
  induction blobs generalizing data with
  | nil => cases h
  | cons blob rest ih =>
    rcases append_cases hdata blob with
      ⟨_, happend, -⟩ | ⟨new, first, happend, -, hfirst, -⟩
    · simp only [appendAll, happend, List.mem_cons, reduceCtorEq, false_or] at h
      exact ih hdata h
    · simp only [appendAll, happend, List.mem_cons, Except.ok.injEq] at h
      rcases h with rfl | h
      · omega
      · have hlater := ih (isEmpty_append hdata new) h
        rw [Array.size_append] at hlater
        omega

/-- Of two blobs the later one has the greater index. -/
theorem pairwise_appendAll (hdata : data.isEmpty = false) :
    ((appendAll data blobs).2.filterMap Except.toOption).Pairwise (· < ·) := by
  induction blobs generalizing data with
  | nil => exact List.Pairwise.nil
  | cons blob rest ih =>
    rcases append_cases hdata blob with
      ⟨_, happend, -⟩ | ⟨new, first, happend, hnew, hfirst, -⟩
    · simpa only [appendAll, happend, List.filterMap_cons, Except.toOption] using ih hdata
    · have hgrown := isEmpty_append hdata new
      simp only [appendAll, happend, List.filterMap_cons, Except.toOption, List.pairwise_cons]
      refine ⟨fun index hindex => ?_, ih hgrown⟩
      obtain ⟨result, hresult, hok⟩ := List.mem_filterMap.mp hindex
      obtain rfl : result = .ok index := eq_ok_of_toOption hok
      have hlater := size_le_of_mem_appendAll hgrown hresult
      rw [Array.size_append] at hlater
      rw [UInt32.lt_iff_toNat_lt]
      omega

/-- A blob that was found before others are put at the end is found behind them. -/
theorem get_appendAll (hdata : data.isEmpty = false) {index : Nat}
    (h : (⟨data⟩ : BlobHeap).get index = .ok blob) :
    (⟨(appendAll data blobs).1⟩ : BlobHeap).get index = .ok blob := by
  obtain ⟨more, hmore⟩ := exists_appendAll_eq hdata blobs
  rw [hmore]
  exact get_append h more

/-- Every blob that got an index is found there in the end. -/
theorem get_of_mem_appendAll (hdata : data.isEmpty = false) {place : Nat} {index : UInt32}
    (hblob : blobs[place]? = some blob)
    (hindex : (appendAll data blobs).2[place]? = some (.ok index)) :
    (⟨(appendAll data blobs).1⟩ : BlobHeap).get index.toNat = .ok blob := by
  induction blobs generalizing data place with
  | nil => cases hblob
  | cons first rest ih =>
    have hafter : (append data first).1.isEmpty = false := by
      rcases append_cases hdata first with ⟨_, happend, -⟩ | ⟨new, _, happend, -⟩
      · rw [happend]
        exact hdata
      · rw [happend]
        exact isEmpty_append hdata new
    simp only [appendAll] at hindex ⊢
    cases place with
    | zero =>
      obtain rfl : first = blob := Option.some.inj hblob
      have hok : (append data first).2 = .ok index := Option.some.inj hindex
      have hnew : append data first = ((append data first).1, .ok index) := Prod.ext rfl hok
      exact get_appendAll hafter (get_appended hdata hnew)
    | succ place => exact ih hafter hblob hindex

/-- **Appending keeps every blob.** Blobs are put at the end of a heap one behind the other, and
some of them may be refused. The block that comes of it is a heap that starts with the old one.
Every blob that got an index is found there, every blob that was found at some index before is found
at that index still, and later blobs have greater indexes. A block that is not empty takes a blob
exactly when its size fits a word and the length of the blob has a compressed form, and stays as it
is otherwise. -/
theorem appended_blobs_kept {heap : BlobHeap} (hheap : ofBytes data = .ok heap)
    {last : Bytes} {indexes : List (Except Fault UInt32)}
    (hrun : appendAll heap.data blobs = (last, indexes)) :
    (∃ more, last = data ++ more) ∧ indexes.length = blobs.length ∧
      (∃ grown, ofBytes last = .ok grown ∧
        (∀ (place : Nat) (blob : Bytes) (index : UInt32), blobs[place]? = some blob →
          indexes[place]? = some (.ok index) → grown.get index.toNat = .ok blob) ∧
        ∀ index blob, heap.get index = .ok blob → grown.get index = .ok blob) ∧
      (indexes.filterMap Except.toOption).Pairwise (· < ·) ∧
      ∀ block blob : Bytes, block.isEmpty = false →
        ((∃ after index, append block blob = (after, .ok index)) ↔
          block.size ≤ 0xFFFFFFFF ∧ blob.size ≤ 0x1FFFFFFF) ∧
        (0x1FFFFFFF < blob.size → ∃ fault, append block blob = (block, .error fault)) := by
  obtain ⟨hzero, rfl⟩ := ofBytes_eq_ok_iff.mp hheap
  have hdata : data.isEmpty = false := by
    rw [Array.isEmpty_eq_false_iff]
    rintro rfl
    cases hzero
  obtain rfl : (appendAll data blobs).1 = last := congrArg Prod.fst hrun
  obtain rfl : (appendAll data blobs).2 = indexes := congrArg Prod.snd hrun
  obtain ⟨more, hmore⟩ := exists_appendAll_eq hdata blobs
  refine ⟨⟨more, hmore⟩, length_appendAll, ⟨⟨(appendAll data blobs).1⟩, ?_, ?_, ?_⟩,
    pairwise_appendAll hdata, fun block blob hblock => ?_⟩
  · rw [hmore]
    exact ofBytes_append hheap more
  · intro place blob index hblob hindex
    exact get_of_mem_appendAll hdata hblob hindex
  · intro index blob hblob
    exact get_appendAll hdata hblob
  · have hsize : sizeLimit = 0x100000000 := rfl
    have hlimit : Compressed.limit = 0x20000000 := rfl
    rcases append_cases hblock blob with
      ⟨fault, happend, hlarge⟩ | ⟨more, index, happend, -, -, hroom⟩
    · rw [happend]
      refine ⟨⟨?_, fun hroom => ?_⟩, fun _ => ⟨fault, rfl⟩⟩
      · rintro ⟨_, _, ⟨⟩⟩
      · omega
    · rw [happend]
      refine ⟨⟨fun _ => ?_, fun _ => ⟨_, index, rfl⟩⟩, fun hlong => ?_⟩
      · omega
      · omega

/-- A heap with a blob of two bytes, inside of which the index 2 leads to another blob. -/
def nestedData : Bytes := #[0, 2, 1, 0xAA]

/-- A short blob, one whose length takes two bytes, and an empty one. -/
def newBlobs : List Bytes := [#[7, 1, 8], Array.replicate 0x80 6, #[]]

/-- The three blobs are found in the heap, and so is the one inside of the old blob. -/
theorem appended_blobs_kept_nested :
    ofBytes nestedData = .ok ⟨nestedData⟩ ∧
      (appendAll nestedData newBlobs).2 = [.ok 4, .ok 8, .ok 138] ∧
      ∃ grown : BlobHeap, ofBytes (appendAll nestedData newBlobs).1 = .ok grown ∧
        grown.get 4 = .ok #[7, 1, 8] ∧ grown.get 8 = .ok (Array.replicate 0x80 6) ∧
        grown.get 138 = .ok #[] ∧ grown.get 2 = .ok #[0xAA] := by
  have hheap : ofBytes nestedData = .ok ⟨nestedData⟩ := rfl
  have hindexes : (appendAll nestedData newBlobs).2 = [.ok 4, .ok 8, .ok 138] := by
    simp [nestedData, newBlobs, appendAll, append, sizeLimit, UInt32.size, Compressed.encode,
      Compressed.encode?]
  have hinner : (⟨nestedData⟩ : BlobHeap).get 2 = .ok #[0xAA] := eq_ok_of_toOption (by decide)
  have hrun : appendAll nestedData newBlobs =
      ((appendAll nestedData newBlobs).1, [.ok 4, .ok 8, .ok 138]) := by
    rw [← hindexes]
  obtain ⟨-, -, ⟨grown, hgrown, hnew, hold⟩, -⟩ := appended_blobs_kept hheap hrun
  have hfirst := hnew 0 #[7, 1, 8] 4 (by simp [newBlobs]) (by simp)
  have hsecond := hnew 1 (Array.replicate 0x80 6) 8 (by simp [newBlobs]) (by simp)
  have hthird := hnew 2 #[] 138 (by simp [newBlobs]) (by simp)
  exact ⟨hheap, hindexes, grown, hgrown, hfirst, hsecond, hthird, hold 2 _ hinner⟩

end CilPatch.BlobHeap
