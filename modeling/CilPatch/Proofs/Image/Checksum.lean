import CilPatch.Image.Checksum
import CilPatch.Proofs.Bytes.Block
import Mathlib.Tactic.ByContra

/-!
# What a checksum adds up

Adding a carry to the low end of a sum keeps its remainder by 0xFFFF, and only the sum of nothing is
zero. So a checksum depends on one plain sum, in which every byte has a weight: low bytes of words
count once, high bytes 256 times, and the bytes of words that start within the field not at all. For
a field at an even offset that is the sum of all words with zeros in the field, as the standard
checksum has it; but the standard adds the length of the image as it is, and does not fold it in.
-/

namespace CilPatch.Checksum

open LittleEndian

/-! ## Carries -/

/-- What is left of a sum when all carries are folded in: a number of sixteen bits, which is zero for
nothing but zero. -/
def folded (sum : Nat) : Nat := if sum = 0 then 0 else (sum - 1) % 0xFFFF + 1

variable {sum first second : Nat}

/-- A folded sum has sixteen bits. -/
theorem folded_le (sum : Nat) : folded sum ≤ 0xFFFF := by
  unfold folded
  split <;> omega

/-- A number of sixteen bits has no carry. -/
theorem folded_of_le (h : sum ≤ 0xFFFF) : folded sum = sum := by
  unfold folded
  split <;> omega

/-- Carries may be folded in before more is added. -/
theorem folded_folded_add (first second : Nat) :
    folded (folded first + second) = folded (first + second) := by
  unfold folded
  split
  · next hzero => rw [hzero]
  · rw [if_neg (by omega), if_neg (by omega)]
    omega

/-- Sums are folded to the same number when they have the same remainder. -/
theorem folded_eq_iff (hfirst : 0 < first) (hsecond : 0 < second) :
    folded first = folded second ↔ first % 0xFFFF = second % 0xFFFF := by
  rw [folded, folded, if_neg (by omega), if_neg (by omega)]
  omega

/-- Folding once is enough for the sum of two words. -/
theorem fold_eq (h : sum ≤ 0x1FFFE) : fold sum = folded sum := by
  unfold fold folded
  split <;> split <;> omega

/-- Folding as long as there are carries leaves the folded sum. -/
theorem foldAll_eq (sum : Nat) : foldAll sum = folded sum := by
  fun_induction foldAll sum with
  | case1 sum h => exact (folded_of_le h).symm
  | case2 sum h ih =>
    rw [ih, folded, folded, if_neg (by omega), if_neg (by omega)]
    omega

/-! ## Weights -/

/-- The sum of bytes by weights that depend on where they stand. -/
def weigh (weight : Nat → Nat) : Nat → List UInt8 → Nat
  | _, [] => 0
  | offset, byte :: rest => weight offset * byte.toNat + weigh weight (offset + 1) rest

/-- How much a byte counts within its word. -/
def wordWeight (index : Nat) : Nat := if index % 2 = 0 then 1 else 256

/-- How much a byte counts in a checksum: as within its word, unless the word starts in the field. -/
def sumWeight (field index : Nat) : Nat :=
  if field ≤ index - index % 2 ∧ index - index % 2 < field + 4 then 0 else wordWeight index

variable {weight weight' : Nat → Nat} {field offset : Nat} {bytes other : List UInt8}

/-- Sums are the same when every byte counts for as much in both. -/
theorem weigh_congr (hlength : bytes.length = other.length)
    (h : ∀ index byte byte', bytes[index]? = some byte → other[index]? = some byte' →
      weight (offset + index) * byte.toNat = weight' (offset + index) * byte'.toNat) :
    weigh weight offset bytes = weigh weight' offset other := by
  induction bytes generalizing offset other with
  | nil =>
    obtain rfl := List.length_eq_zero_iff.mp hlength.symm
    rfl
  | cons byte rest ih =>
    obtain ⟨head, tail, rfl⟩ := List.exists_cons_of_length_eq_add_one hlength.symm
    have hhead : weight offset * byte.toNat = weight' offset * head.toNat := h 0 byte head rfl rfl
    have htail : weigh weight (offset + 1) rest = weigh weight' (offset + 1) tail := by
      refine ih (Nat.add_right_cancel hlength) fun index byte byte' hbyte hbyte' => ?_
      have hshift : offset + 1 + index = offset + (index + 1) := by omega
      rw [hshift]
      exact h (index + 1) byte byte' hbyte hbyte'
    rw [weigh, weigh, htail, hhead]

/-- A byte that is replaced changes the sum by its weight. -/
theorem weigh_set (weight : Nat → Nat) (offset : Nat) {bytes : List UInt8} {index : Nat}
    (h : index < bytes.length) (byte : UInt8) :
    weigh weight offset (bytes.set index byte) + weight (offset + index) * bytes[index].toNat =
      weigh weight offset bytes + weight (offset + index) * byte.toNat := by
  induction bytes generalizing offset index with
  | nil => cases h
  | cons head tail ih =>
    cases index with
    | zero =>
      simp only [List.set_cons_zero, List.getElem_cons_zero, weigh, Nat.add_zero]
      omega
    | succ index =>
      have hnext := ih (offset + 1) (Nat.lt_of_succ_lt_succ h)
      rw [Nat.add_assoc, Nat.add_comm 1 index] at hnext
      simp only [List.set_cons_succ, List.getElem_cons_succ, weigh]
      omega

/-- The words of a checksum add up to what their bytes weigh. -/
theorem sumWords_eq (hoffset : offset % 2 = 0) (hsum : sum ≤ 0xFFFF) :
    sumWords field sum offset bytes = folded (sum + weigh (sumWeight field) offset bytes) := by
  fun_induction sumWords field sum offset bytes with
  | case1 sum offset => exact (folded_of_le hsum).symm
  | case2 sum offset last hfield =>
    simp only [weigh, sumWeight, hoffset, Nat.sub_zero, if_pos hfield]
    simpa using (folded_of_le hsum).symm
  | case3 sum offset last hfield =>
    have hlast := last.toNat_lt
    simp only [weigh, sumWeight, hoffset, Nat.sub_zero, if_neg hfield, wordWeight, if_true]
    rw [fold_eq (by omega), Nat.one_mul, Nat.add_zero]
  | case4 sum offset low high rest next ih =>
    have hlow := low.toNat_lt
    have hhigh := high.toNat_lt
    have hodd : (offset + 1) % 2 = 1 := by omega
    by_cases hfield : field ≤ offset ∧ offset < field + 4
    · have hnext : next = sum := if_pos hfield
      rw [ih (by omega) (by rw [hnext]; exact hsum), hnext]
      simp only [weigh, sumWeight, hoffset, hodd, Nat.sub_zero, Nat.add_sub_cancel, if_pos hfield,
        Nat.zero_mul, Nat.zero_add]
    · have hnext : next = folded (sum + low.toNat + 256 * high.toNat) := by
        rw [← fold_eq (by omega)]
        exact if_neg hfield
      rw [ih (by omega) (by rw [hnext]; exact folded_le _), hnext, folded_folded_add]
      simp only [weigh, sumWeight, hoffset, hodd, Nat.sub_zero, Nat.add_sub_cancel, if_neg hfield,
        wordWeight, if_true, Nat.one_ne_zero, if_false, Nat.one_mul]
      rw [Nat.add_assoc offset 1 1]
      congr 1
      omega

/-- A checksum is what the bytes weigh and how many there are, with all carries folded in. -/
theorem toNat_ofBytes (data : Bytes) (field : Nat) :
    (ofBytes data field).toNat = folded (weigh (sumWeight field) 0 data.toList + data.size) := by
  rw [ofBytes, foldAll_eq, sumWords_eq rfl (Nat.zero_le _), Nat.zero_add, folded_folded_add]
  exact UInt32.toNat_ofNat_of_lt' (Nat.lt_of_le_of_lt (folded_le _) (by decide))

/-! ## Bytes of the field -/

/-- The bytes that do not count are those of the field if it is at an even offset, and those one
further if it is at an odd one, since words that start in the field are left out as a whole. -/
theorem sumWeight_eq_zero_iff {index : Nat} : sumWeight field index = 0 ↔
    if field % 2 = 0 then field ≤ index ∧ index < field + 4
    else field < index ∧ index < field + 5 := by
  unfold sumWeight wordWeight
  split <;> split <;> try split
  all_goals omega

/-- Blocks that agree wherever bytes count weigh the same. -/
theorem weigh_eq_of_agree {data other : Bytes} (hsize : data.size = other.size)
    (h : ∀ index, sumWeight field index ≠ 0 → data[index]? = other[index]?) :
    weigh (sumWeight field) 0 data.toList = weigh (sumWeight field) 0 other.toList := by
  refine weigh_congr hsize fun index byte byte' hbyte hbyte' => ?_
  rw [Nat.zero_add]
  by_cases hzero : sumWeight field index = 0
  · rw [hzero, Nat.zero_mul, Nat.zero_mul]
  · rw [Array.getElem?_toList] at hbyte hbyte'
    rw [Option.some.inj (hbyte.symm.trans ((h index hzero).trans hbyte'))]

/-- A byte that counts 256 times cannot be exchanged for another one. -/
theorem folded_ne_of_byte {byte byte' : UInt8} (hne : byte ≠ byte') (hpos : 0 < first)
    (hpos' : 0 < second) (h : first + 256 * byte'.toNat = second + 256 * byte.toNat) :
    folded first ≠ folded second := by
  have hbyte := byte.toNat_lt
  have hbyte' := byte'.toNat_lt
  have hvalues : byte.toNat ≠ byte'.toNat := fun hsame => hne (UInt8.toNat_inj.mp hsame)
  rw [Ne, folded_eq_iff hpos hpos']
  omega

/-- Blocks of one size that agree in front of a field and behind it agree at every place outside. -/
theorem getElem?_eq_of_agree {data other : Bytes} (hsize : data.size = other.size)
    (hfront : Agree data other 0 field) (hback : Agree data other (field + 4) data.size)
    {index : Nat} (hindex : index < field ∨ field + 4 ≤ index) : data[index]? = other[index]? := by
  rcases hindex with hbefore | hbehind
  · exact hfront index (Nat.zero_le _) hbefore
  · by_cases hwithin : index < data.size
    · exact hback index hbehind hwithin
    · rw [Array.getElem?_eq_none_iff.mpr (by omega), Array.getElem?_eq_none_iff.mpr (by omega)]

/-- The first byte of a field at an odd offset counts, so the checksum changes with it. -/
theorem ofBytes_ne_of_odd {data other : Bytes} (hsize : data.size = other.size)
    (houtside : ∀ index, index < field ∨ field + 4 ≤ index → data[index]? = other[index]?)
    (hparity : ¬field % 2 = 0) (hfirst : data[field]? ≠ other[field]?) :
    ofBytes data field ≠ ofBytes other field := by
  rw [Ne, ← UInt32.toNat_inj, toNat_ofBytes, toNat_ofBytes, hsize]
  have hwithin : field < other.size := by
    by_contra hbeyond
    refine hfirst ?_
    rw [Array.getElem?_eq_none_iff.mpr (by omega), Array.getElem?_eq_none_iff.mpr (by omega)]
  have hwithin' : field < data.size := by omega
  rw [Array.getElem?_eq_getElem hwithin, Array.getElem?_eq_getElem hwithin'] at hfirst
  -- the other block with the first byte of the field exchanged weighs as much as the one block
  have hweight : sumWeight field field = 256 := by
    unfold sumWeight wordWeight
    rw [if_neg (by omega), if_neg hparity]
  have hset : weigh (sumWeight field) 0 data.toList =
      weigh (sumWeight field) 0 (other.set field data[field]).toList := by
    refine weigh_eq_of_agree (by rw [Array.size_set, hsize]) fun index hindex => ?_
    rw [Ne, sumWeight_eq_zero_iff, if_neg hparity] at hindex
    by_cases hsame : field = index
    · subst hsame
      rw [Array.getElem?_set_self, Array.getElem?_eq_getElem hwithin']
    · rw [Array.getElem?_set_ne hwithin hsame]
      exact houtside index (by omega)
  have hchange := @weigh_set (sumWeight field) 0 other.toList field hwithin data[field]
  have hlist : (other.set field data[field]).toList = other.toList.set field data[field] :=
    Array.toList_set ..
  rw [Nat.zero_add, hweight, Array.getElem_toList, ← hlist, ← hset] at hchange
  exact folded_ne_of_byte (fun hsame => hfirst (congrArg some hsame)) (by omega) (by omega)
    (by omega)

/-- Blocks that agree outside a field have the same checksum exactly if the field is at an even offset
or its first byte is the same in both. -/
theorem ofBytes_eq_iff_of_agree {data other : Bytes} {field : Nat} (hsize : data.size = other.size)
    (hfront : Agree data other 0 field) (hback : Agree data other (field + 4) data.size) :
    ofBytes data field = ofBytes other field ↔
      field % 2 = 0 ∨ data[field]? = other[field]? := by
  have houtside (index : Nat) (hindex : index < field ∨ field + 4 ≤ index) :=
    getElem?_eq_of_agree hsize hfront hback hindex
  constructor
  · intro h
    by_contra hodd
    obtain ⟨hparity, hfirst⟩ := not_or.mp hodd
    exact ofBytes_ne_of_odd hsize houtside hparity hfirst h
  · intro h
    rw [← UInt32.toNat_inj, toNat_ofBytes, toNat_ofBytes, hsize]
    congr 2
    refine weigh_eq_of_agree hsize fun index hindex => ?_
    rw [Ne, sumWeight_eq_zero_iff] at hindex
    split at hindex
    · exact houtside index (by omega)
    · next hparity =>
      by_cases hsame : index = field
      · rw [hsame]
        exact h.resolve_left hparity
      · exact houtside index (by omega)

/-! ## The standard checksum -/

/-- The words of sixteen bits that some bytes make, least significant byte first; an odd last byte is
a word whose high byte is zero. -/
def words : List UInt8 → List Nat
  | [] => []
  | [last] => [last.toNat]
  | low :: high :: rest => (low.toNat + 256 * high.toNat) :: words rest

/-- The sum of two words with an end-around carry. -/
def addWord (sum word : Nat) : Nat := (sum + word) % 0x10000 + (sum + word) / 0x10000

/-- A block with zeros for the four bytes of a field. -/
def blanked (data : Bytes) (field : Nat) : Bytes := overwrite data field (List.replicate 4 0)

/-- The words of a block, with zeros in the field, added with end-around carries. -/
def wordSum (data : Bytes) (field : Nat) : Nat :=
  (words (blanked data field).toList).foldl addWord 0

/-- The checksum of a portable executable: the sum of its words and, as a number of 32 bits, its
length. -/
def standard (data : Bytes) (field : Nat) : UInt32 :=
  UInt32.ofNat (wordSum data field + data.size)

/-- Words that are added with end-around carries make what their bytes weigh. -/
theorem foldl_addWord (hoffset : offset % 2 = 0) (hsum : sum ≤ 0xFFFF) :
    (words bytes).foldl addWord sum = folded (sum + weigh wordWeight offset bytes) := by
  fun_induction words bytes generalizing sum offset with
  | case1 => exact (folded_of_le hsum).symm
  | case2 last =>
    have hlast := last.toNat_lt
    simp only [List.foldl_cons, List.foldl_nil, weigh, wordWeight, hoffset, if_true, Nat.one_mul,
      Nat.add_zero]
    unfold addWord folded
    split <;> omega
  | case3 low high rest ih =>
    have hlow := low.toNat_lt
    have hhigh := high.toNat_lt
    have hodd : (offset + 1) % 2 = 1 := by omega
    have hnext : addWord sum (low.toNat + 256 * high.toNat) =
        folded (sum + (low.toNat + 256 * high.toNat)) := by
      unfold addWord folded
      split <;> omega
    have hrest : (words rest).foldl addWord (addWord sum (low.toNat + 256 * high.toNat)) =
        folded (addWord sum (low.toNat + 256 * high.toNat) +
          weigh wordWeight (offset + 2) rest) :=
      ih (by omega) (by rw [hnext]; exact folded_le _)
    rw [List.foldl_cons, hrest, hnext, folded_folded_add]
    simp only [weigh, wordWeight, hoffset, hodd, if_true, Nat.one_ne_zero, if_false, Nat.one_mul]
    rw [Nat.add_assoc offset 1 1]
    congr 1
    omega

/-- A block with zeros in a field has them there, and is otherwise as it was. -/
theorem getElem?_blanked {data : Bytes} (field : Nat) {index : Nat} (h : index < data.size) :
    (blanked data field)[index]? =
      if field ≤ index ∧ index < field + 4 then some 0 else data[index]? := by
  by_cases hwithin : field ≤ index ∧ index < field + 4
  · obtain ⟨delta, rfl⟩ := Nat.exists_eq_add_of_le hwithin.1
    have hdelta : delta < 4 := by omega
    rw [if_pos hwithin, blanked, getElem?_overwrite_add data field
      (by rwa [List.length_replicate]) h, List.getElem?_replicate_of_lt hdelta]
  · rw [if_neg hwithin]
    by_cases hbefore : index < field
    · exact getElem?_overwrite_of_lt data _ hbefore
    · exact getElem?_overwrite_of_le data _ (by rw [List.length_replicate]; omega)

/-- The words of a block with zeros in a field at an even offset add up to what its bytes weigh. -/
theorem wordSum_eq (data : Bytes) (hfield : field % 2 = 0) :
    wordSum data field = folded (weigh (sumWeight field) 0 data.toList) := by
  rw [wordSum, foldl_addWord (Nat.zero_mod 2) (Nat.zero_le _), Nat.zero_add]
  congr 1
  refine weigh_congr (size_overwrite ..) fun index byte byte' hblank hbyte => ?_
  rw [Array.getElem?_toList] at hblank hbyte
  rw [getElem?_blanked field (Array.getElem?_eq_some_iff.mp hbyte).1, hbyte] at hblank
  rw [Nat.zero_add]
  split at hblank
  · next hwithin =>
    -- a byte of the field is zero in the one block and does not count in the other
    have hweight : sumWeight field index = 0 := by
      rwa [sumWeight_eq_zero_iff, if_pos hfield]
    rw [← Option.some.inj hblank, hweight, Nat.zero_mul, UInt8.toNat_zero, Nat.mul_zero]
  · next hwithin =>
    have hweight : sumWeight field index = wordWeight index := if_neg (by omega)
    rw [← Option.some.inj hblank, hweight]

/-- A folded sum is the sum as a number of 32 bits if there is nothing to fold, and else only if the
sum has 48 bits or more and its high bits vanish by folding. -/
theorem folded_eq_mod_iff : folded sum = sum % UInt32.size ↔
    sum ≤ 0xFFFF ∨ 0xFFFF * UInt32.size ≤ sum ∧ 0xFFFF ∣ sum / UInt32.size ∧
      0 < sum % UInt32.size ∧ sum % UInt32.size ≤ 0xFFFF := by
  have hsplit := Nat.div_add_mod sum UInt32.size
  unfold folded
  simp only [UInt32.size] at *
  split <;> omega

/-- For a field at an even offset the sum of the words is the standard one, but the length is folded
into sixteen bits with it. So the checksum is the standard one exactly if sum and length together have
no carry (or more than 2 ^ 47 bytes make one that vanishes). -/
theorem ofBytes_eq_standard_iff (data : Bytes) {field : Nat} (hfield : field % 2 = 0) :
    (ofBytes data field).toNat = folded (wordSum data field + data.size) ∧
      (ofBytes data field = standard data field ↔
        wordSum data field + data.size ≤ 0xFFFF ∨
          0xFFFF * UInt32.size ≤ wordSum data field + data.size ∧
          0xFFFF ∣ (wordSum data field + data.size) / UInt32.size ∧
          0 < (wordSum data field + data.size) % UInt32.size ∧
          (wordSum data field + data.size) % UInt32.size ≤ 0xFFFF) := by
  have hfolded : (ofBytes data field).toNat = folded (wordSum data field + data.size) := by
    rw [toNat_ofBytes, wordSum_eq data hfield, folded_folded_add]
  have hstandard : (standard data field).toNat = (wordSum data field + data.size) % UInt32.size :=
    UInt32.toNat_ofNat'
  refine ⟨hfolded, ?_⟩
  rw [← UInt32.toNat_inj, hfolded, hstandard, folded_eq_mod_iff]

/-- The checksum of eight bytes with small words is the standard one. -/
theorem ofBytes_eq_standard_iff_short : 2 % 2 = 0 ∧
    ofBytes #[1, 0, 0xFF, 0xFF, 0xFF, 0xFF, 2, 0] 2 =
      standard #[1, 0, 0xFF, 0xFF, 0xFF, 0xFF, 2, 0] 2 :=
  ⟨rfl, (ofBytes_eq_standard_iff _ rfl).2.mpr (.inl (by decide))⟩

/-- Eight bytes whose words add up to 0xFFFF have the checksum 8, where the standard has 0x10007. -/
theorem carry_of_length_folded : 2 % 2 = 0 ∧
    ofBytes #[0xFF, 0xFF, 0, 0, 0, 0, 0, 0] 2 = 8 ∧
    standard #[0xFF, 0xFF, 0, 0, 0, 0, 0, 0] 2 = 0x10007 ∧
    ofBytes #[0xFF, 0xFF, 0, 0, 0, 0, 0, 0] 2 ≠ standard #[0xFF, 0xFF, 0, 0, 0, 0, 0, 0] 2 := by
  have hchecksum : ofBytes #[0xFF, 0xFF, 0, 0, 0, 0, 0, 0] 2 = 8 := by
    rw [← UInt32.toNat_inj, toNat_ofBytes]
    decide
  have hstandard : standard #[0xFF, 0xFF, 0, 0, 0, 0, 0, 0] 2 = 0x10007 := by decide
  refine ⟨rfl, hchecksum, hstandard, ?_⟩
  rw [hchecksum, hstandard]
  decide

end CilPatch.Checksum
