import CilPatch.Bytes.Compressed
import CilPatch.Proofs.Bytes.Cursor

/-!
# Reading compressed integers back

The first byte of a compressed integer tells how many bytes there are, so a written one is read as
the number that was written.
-/

namespace CilPatch

open Compressed

variable {before after : Cursor}

/-- A byte in front of others is passed first. -/
theorem Cursor.passes_cons_iff {byte : UInt8} {rest : List UInt8} :
    before.Passes (byte :: rest) after ↔
      ∃ middle, Read.u8.run before = (.ok byte, middle) ∧ middle.Passes rest after := by
  rw [← List.singleton_append, passes_append_iff]
  constructor
  · rintro ⟨middle, hbyte, hrest⟩
    exact ⟨middle, Read.run_u8_eq_ok_iff.mpr hbyte, hrest⟩
  · rintro ⟨middle, hbyte, hrest⟩
    exact ⟨middle, Read.run_u8_eq_ok_iff.mp hbyte, hrest⟩

/-- A number is compressed when it has a compressed form. -/
theorem Compressed.encode_eq_ok_iff {value : Nat} {bytes : List UInt8} :
    Compressed.encode value = .ok bytes ↔ Compressed.encode? value = some bytes := by
  unfold Compressed.encode
  cases Compressed.encode? value with
  | none => exact ⟨nofun, nofun⟩
  | some found => exact ⟨fun h => congrArg some (Except.ok.inj h),
      fun h => congrArg _ (Option.some.inj h)⟩

/-- A compressed number takes a byte at least. -/
theorem Compressed.length_pos_of_encode {value : Nat} {bytes : List UInt8}
    (h : Compressed.encode value = .ok bytes) : 0 < bytes.length := by
  rw [Compressed.encode_eq_ok_iff] at h
  unfold Compressed.encode? at h
  split at h
  · obtain rfl := Option.some.inj h
    exact Nat.succ_pos _
  split at h
  · obtain rfl := Option.some.inj h
    exact Nat.succ_pos _
  split at h
  · obtain rfl := Option.some.inj h
    exact Nat.succ_pos _
  · cases h

/-- Nothing is left to pass behind a byte that was read. -/
private theorem eq_of_passes_nil {byte : UInt8} {middle : Cursor}
    (hbyte : Read.u8.run before = (.ok byte, middle)) (h : middle.Passes [] after) :
    after = middle :=
  (Cursor.passes_nil_iff (Read.run_u8_eq_ok_iff.mp hbyte).bounded).mp h

namespace Read

variable {value : Nat}

/-- A number of one byte is read. -/
private theorem run_compressed_one (hvalue : value < 0x80)
    (hpasses : before.Passes [UInt8.ofNat value] after) :
    compressed.run before = (.ok (UInt32.ofNat value), after) := by
  obtain ⟨c1, hlead, hend⟩ := Cursor.passes_cons_iff.mp hpasses
  obtain rfl := eq_of_passes_nil hlead hend
  have hbyte : (UInt8.ofNat value).toNat = value :=
    UInt8.toNat_ofNat_of_lt' (by simp only [UInt8.size]; omega)
  have hsmall : UInt8.ofNat value < 0x80 := UInt8.lt_iff_toNat_lt.mpr (by rwa [hbyte])
  refine run_bind_eq_ok_iff.mpr ⟨_, _, hlead, ?_⟩
  rw [if_pos hsmall, step_pure]
  congr 2
  apply UInt32.toNat_inj.mp
  rw [UInt8.toNat_toUInt32, hbyte, UInt32.toNat_ofNat_of_lt' (by simp only [UInt32.size]; omega)]

/-- A number of two bytes is read. -/
private theorem run_compressed_two (hvalue : value < 0x4000)
    (hpasses : before.Passes [UInt8.ofNat (0x80 + value / 0x100), UInt8.ofNat value] after) :
    compressed.run before = (.ok (UInt32.ofNat value), after) := by
  obtain ⟨c1, hlead, hrest⟩ := Cursor.passes_cons_iff.mp hpasses
  obtain ⟨c2, hlow, hend⟩ := Cursor.passes_cons_iff.mp hrest
  obtain rfl := eq_of_passes_nil hlow hend
  have hbyte : (UInt8.ofNat (0x80 + value / 0x100)).toNat = 0x80 + value / 0x100 :=
    UInt8.toNat_ofNat_of_lt' (by simp only [UInt8.size]; omega)
  have hlarge : ¬UInt8.ofNat (0x80 + value / 0x100) < 0x80 := by
    rw [UInt8.lt_iff_toNat_lt, hbyte]
    exact Nat.not_lt.mpr (Nat.le_add_right _ _)
  have hmedium : UInt8.ofNat (0x80 + value / 0x100) < 0xC0 := by
    rw [UInt8.lt_iff_toNat_lt, hbyte]
    change 0x80 + value / 0x100 < 0xC0
    omega
  refine run_bind_eq_ok_iff.mpr ⟨_, _, hlead, ?_⟩
  rw [if_neg hlarge, if_pos hmedium]
  refine run_bind_eq_ok_iff.mpr ⟨_, _, hlow, ?_⟩
  rw [step_pure, hbyte, UInt8.toNat_ofNat']
  congr 3
  omega

/-- A number of four bytes is read. -/
private theorem run_compressed_four (hvalue : value < 0x20000000)
    (hpasses : before.Passes [UInt8.ofNat (0xC0 + value / 0x1000000), UInt8.ofNat (value / 0x10000),
      UInt8.ofNat (value / 0x100), UInt8.ofNat value] after) :
    compressed.run before = (.ok (UInt32.ofNat value), after) := by
  obtain ⟨c1, hlead, hrest⟩ := Cursor.passes_cons_iff.mp hpasses
  obtain ⟨c2, hsecond, hrest⟩ := Cursor.passes_cons_iff.mp hrest
  obtain ⟨c3, hthird, hrest⟩ := Cursor.passes_cons_iff.mp hrest
  obtain ⟨c4, hlast, hend⟩ := Cursor.passes_cons_iff.mp hrest
  obtain rfl := eq_of_passes_nil hlast hend
  have hbyte : (UInt8.ofNat (0xC0 + value / 0x1000000)).toNat = 0xC0 + value / 0x1000000 :=
    UInt8.toNat_ofNat_of_lt' (by simp only [UInt8.size]; omega)
  have hlarge : ¬UInt8.ofNat (0xC0 + value / 0x1000000) < 0x80 := by
    rw [UInt8.lt_iff_toNat_lt, hbyte]
    change ¬0xC0 + value / 0x1000000 < 0x80
    omega
  have hlarge' : ¬UInt8.ofNat (0xC0 + value / 0x1000000) < 0xC0 := by
    rw [UInt8.lt_iff_toNat_lt, hbyte]
    exact Nat.not_lt.mpr (Nat.le_add_right _ _)
  have hlimit : UInt8.ofNat (0xC0 + value / 0x1000000) < 0xE0 := by
    rw [UInt8.lt_iff_toNat_lt, hbyte]
    change 0xC0 + value / 0x1000000 < 0xE0
    omega
  refine run_bind_eq_ok_iff.mpr ⟨_, _, hlead, ?_⟩
  rw [if_neg hlarge, if_neg hlarge', if_pos hlimit]
  refine run_bind_eq_ok_iff.mpr ⟨_, _, hsecond, ?_⟩
  refine run_bind_eq_ok_iff.mpr ⟨_, _, hthird, ?_⟩
  refine run_bind_eq_ok_iff.mpr ⟨_, _, hlast, ?_⟩
  rw [step_pure, hbyte, UInt8.toNat_ofNat', UInt8.toNat_ofNat', UInt8.toNat_ofNat']
  congr 3
  omega

/-- A written number is read. -/
theorem run_compressed {bytes : List UInt8} (h : Compressed.encode value = .ok bytes)
    (hpasses : before.Passes bytes after) :
    compressed.run before = (.ok (UInt32.ofNat value), after) := by
  rw [Compressed.encode_eq_ok_iff] at h
  unfold Compressed.encode? at h
  split at h
  · next hvalue =>
    obtain rfl := Option.some.inj h
    exact run_compressed_one hvalue hpasses
  split at h
  · next hvalue =>
    obtain rfl := Option.some.inj h
    exact run_compressed_two hvalue hpasses
  split at h
  · next hvalue =>
    obtain rfl := Option.some.inj h
    exact run_compressed_four hvalue hpasses
  · cases h

/-- A compressed integer is below the limit of what can be compressed. -/
theorem toNat_lt_of_run_compressed {value : UInt32}
    (h : compressed.run before = (.ok value, after)) : value.toNat < Compressed.limit := by
  obtain ⟨lead, middle, -, h⟩ := run_bind_eq_ok_iff.mp h
  have hyields {number : Nat} {cursor : Cursor} (hnumber : number < Compressed.limit)
      (h : (pure (UInt32.ofNat number) : Read UInt32).run cursor = (.ok value, after)) :
      value.toNat < Compressed.limit := by
    obtain rfl := Except.ok.inj (Prod.mk.inj h).1
    rwa [UInt32.toNat_ofNat_of_lt' (Nat.lt_trans hnumber (by decide))]
  rw [Compressed.limit] at hyields ⊢
  split at h
  · obtain rfl := Except.ok.inj (Prod.mk.inj h).1
    have := lead.toNat_lt
    rw [UInt8.toNat_toUInt32]
    omega
  split at h
  · next hlead =>
    obtain ⟨low, last, -, h⟩ := run_bind_eq_ok_iff.mp h
    have := low.toNat_lt
    have hlead := UInt8.lt_iff_toNat_lt.mp hlead
    change lead.toNat < 0xC0 at hlead
    exact hyields (by omega) h
  split at h
  · next hlead =>
    obtain ⟨second, _, -, h⟩ := run_bind_eq_ok_iff.mp h
    obtain ⟨third, _, -, h⟩ := run_bind_eq_ok_iff.mp h
    obtain ⟨last, _, -, h⟩ := run_bind_eq_ok_iff.mp h
    have := second.toNat_lt
    have := third.toNat_lt
    have := last.toNat_lt
    have hlead := UInt8.lt_iff_toNat_lt.mp hlead
    change lead.toNat < 0xE0 at hlead
    exact hyields (by omega) h
  · cases h

end Read

end CilPatch
