import CilPatch.Assembly.PatchSection
import CilPatch.Proofs.Metadata.Root

/-!
# The metadata of an edited assembly

The new metadata has the streams of the old one behind new headers. Reading it finds the same root
with these headers, and under every name the content that was written for it.
-/

namespace CilPatch

/-- The bytes that a header describes. -/
structure StreamHeader.Describes (header : StreamHeader) (metadata : Bytes) (content : List UInt8) :
    Prop where
  within : header.offset.toNat + header.size.toNat ≤ metadata.size
  content : metadata.extract header.offset.toNat (header.offset.toNat + header.size.toNat) =
    content.toArray

namespace MetadataRoot

end MetadataRoot

namespace PatchSection

variable {assembly : Assembly} {draft : Draft}

/-- A size is a word when it fits one. -/
theorem word_eq_ok_iff {what : String} {value : Nat} {result : UInt32} :
    word what value = .ok result ↔ value < UInt32.size ∧ result = UInt32.ofNat value := by
  unfold word
  split
  · next hlt => exact ⟨fun h => ⟨hlt, (Except.ok.inj h).symm⟩, fun h => congrArg _ h.2.symm⟩
  · next hle => exact ⟨nofun, fun h => absurd h.1 hle⟩

/-- A word holds the size that it was made of. -/
theorem toNat_of_word {what : String} {value : Nat} {result : UInt32}
    (h : word what value = .ok result) : result.toNat = value := by
  obtain ⟨hlt, rfl⟩ := word_eq_ok_iff.mp h
  exact UInt32.toNat_ofNat_of_lt' hlt

/-- Headers describe the contents that are stored one after another. -/
theorem describes_of_streamHeaders {offset : Nat} {streams : List (String × List UInt8)}
    {headers : List StreamHeader} {metadata : Bytes}
    (h : streamHeaders offset streams = .ok headers)
    (hmetadata : metadata.toList.drop offset = (streams.map (·.2)).flatten)
    (hoffset : offset ≤ metadata.size) :
    List.Forall₂ (fun stream header => header.name = stream.1 ∧
      header.Describes metadata stream.2) streams headers := by
  induction streams generalizing offset headers with
  | nil =>
    obtain rfl := Except.ok.inj h
    exact .nil
  | cons stream rest ih =>
    obtain ⟨name, content⟩ := stream
    obtain ⟨start, hstart, h⟩ := bind_eq_ok_iff.mp h
    obtain ⟨size, hsize, h⟩ := bind_eq_ok_iff.mp h
    obtain ⟨others, hothers, h⟩ := bind_eq_ok_iff.mp h
    obtain rfl := Except.ok.inj h
    have hstart := toNat_of_word hstart
    have hsize := toNat_of_word hsize
    rw [List.map_cons, List.flatten_cons] at hmetadata
    have hlength : offset + content.length ≤ metadata.size := by
      have hlengths := congrArg List.length hmetadata
      rw [List.length_drop, Array.length_toList, List.length_append] at hlengths
      simp only at hlengths
      omega
    refine .cons ⟨rfl, ?_, ?_⟩ (ih hothers ?_ hlength)
    · simp only [hstart, hsize]
      exact hlength
    · simp only [hstart, hsize]
      apply Array.ext'
      rw [Array.toList_extract, List.extract_eq_take_drop, hmetadata, Nat.add_sub_cancel_left,
        List.take_left]
    · rw [← List.drop_drop, hmetadata, List.drop_left]

/-- New metadata is made from the old root and metadata, whatever image they are in. -/
theorem metadata_congr {other : Assembly} (hroot : other.root = assembly.root)
    (hmetadata : other.metadata = assembly.metadata) :
    metadata other draft = metadata assembly draft := by
  unfold metadata streamContent Assembly.stream
  rw [hroot, hmetadata]

/-- Headers are put behind what is there. -/
theorem foldl_append_ne_nil {headers : List StreamHeader} {start : List UInt8} (h : start ≠ []) :
    headers.foldl StreamHeader.append start ≠ [] := by
  induction headers generalizing start with
  | nil => exact h
  | cons header rest ih =>
    refine ih fun hnil => h ?_
    rw [StreamHeader.append, padTo, List.append_eq_nil_iff, List.append_eq_nil_iff] at hnil
    exact hnil.1.1

/-- New metadata starts with a root, so it is not empty. -/
theorem metadata_ne_nil {bytes : List UInt8} (h : metadata assembly draft = .ok bytes) :
    bytes ≠ [] := by
  obtain ⟨_, -, h⟩ := bind_eq_ok_iff.mp h
  obtain ⟨_, -, h⟩ := bind_eq_ok_iff.mp h
  obtain ⟨headers, -, h⟩ := bind_eq_ok_iff.mp h
  obtain ⟨start, hstart, h⟩ := bind_eq_ok_iff.mp h
  obtain rfl := Except.ok.inj h
  unfold MetadataRoot.encode at hstart
  split at hstart
  · cases hstart
  · obtain rfl := Except.ok.inj hstart
    exact List.append_ne_nil_of_left_ne_nil (foldl_append_ne_nil (List.cons_ne_nil _ _)) _

end PatchSection

end CilPatch
