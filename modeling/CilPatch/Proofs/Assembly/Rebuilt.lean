import CilPatch.Proofs.Assembly.Metadata

/-!
# Rebuilt roots

A root with new headers is padded to whole words as a whole, while its length is counted, and its
headers are looked for, as if each header was padded by itself. Both agree exactly when the version
text fills whole words. Otherwise the root does not take the bytes that are counted for it, and the
second header is looked for up to three bytes beside the place where it is stored. It is never found
there: zeros or a name would have to be at once where they are and a few bytes further.
-/

namespace CilPatch

open LittleEndian

/-- A list that stands in front of itself behind some copies of a value has only copies of it. -/
theorem eq_of_isPrefix_shifted {α : Type} {value : α} {list tail : List α} {shift : Nat}
    (hshift : 0 < shift) (h : list <+: List.replicate shift value ++ (list ++ tail)) :
    ∀ index, (hindex : index < list.length) → list[index] = value := by
  intro index
  induction index using Nat.strongRecOn with
  | ind index ih =>
    intro hindex
    have hsame := List.prefix_iff_getElem?.mp h index hindex
    by_cases hfront : index < shift
    · rw [List.getElem?_append_left (by rwa [List.length_replicate]),
        List.getElem?_replicate_of_lt hfront] at hsame
      exact (Option.some.inj hsame).symm
    · rw [List.getElem?_append_right (by rw [List.length_replicate]; omega),
        List.length_replicate, List.getElem?_append_left (by omega),
        List.getElem?_eq_getElem (by omega)] at hsame
      rw [← Option.some.inj hsame]
      exact ih (index - shift) (by omega) _

namespace StreamHeader

variable {header : StreamHeader}

/-- The character that every name starts with. -/
def mark : UInt8 := 0x23

/-- A name has its mark in front and nowhere else. -/
theorem mark_facts : ∀ name ∈ names, ∃ rest, name.toUTF8.toList = mark :: rest ∧ mark ∉ rest := by
  have hfacts : ∀ name ∈ names, name.toUTF8.toList.head? = some mark ∧
      mark ∉ name.toUTF8.toList.tail := by
    decide +kernel
  intro name hname
  obtain ⟨hhead, htail⟩ := hfacts name hname
  obtain ⟨rest, hrest⟩ := List.head?_eq_some_iff.mp hhead
  rw [hrest] at htail
  exact ⟨rest, hrest, htail⟩

/-- A header has the mark of its name behind two words. -/
theorem lead_eq_mark (hname : header.name ∈ names) : ∃ words rest,
    words.length = 8 ∧ header.lead = words ++ mark :: rest ∧ mark ∉ rest := by
  obtain ⟨rest, hrest, hmark⟩ := mark_facts _ hname
  refine ⟨LittleEndian.u32 header.offset ++ LittleEndian.u32 header.size, rest, ?_, ?_, hmark⟩
  · rw [List.length_append, LittleEndian.u32, LittleEndian.u32, length_encode, length_encode]
  · rw [lead, hrest, List.append_assoc]

/-- The mark of a name is the ninth byte of its header. -/
theorem getElem?_lead (hname : header.name ∈ names) : header.lead[8]? = some mark := by
  obtain ⟨words, rest, hwords, hlead, -⟩ := lead_eq_mark hname
  rw [hlead, List.getElem?_append_right (Nat.le_of_eq hwords), hwords]
  rfl

/-- A header is not found in front of itself among zeros. -/
theorem not_lead_isPrefix_zeros (hname : header.name ∈ names) {shift : Nat} (hshift : 0 < shift)
    (tail : List UInt8) : ¬header.lead <+: List.replicate shift 0 ++ (header.lead ++ tail) := by
  intro h
  obtain ⟨hindex, hmark⟩ := List.getElem?_eq_some_iff.mp (getElem?_lead hname)
  have hzero := eq_of_isPrefix_shifted hshift h 8 hindex
  rw [hmark] at hzero
  exact absurd hzero (by decide)

/-- No header is found up to three bytes behind the start of a stored one. -/
theorem not_lead_isPrefix_stored {other : StreamHeader} (hother : other.name ∈ names)
    (hname : header.name ∈ names) {shift : Nat} (hpos : 0 < shift) (hshift : shift < 4)
    (tail : List UInt8) : ¬other.lead <+: (header.stored ++ tail).drop shift := by
  intro h
  obtain ⟨words, rest, hwords, hlead, hrest⟩ := lead_eq_mark hname
  have hlength : 12 ≤ header.stored.length := by
    rw [length_stored hname]
    exact (encodedLength_mod hname).2
  obtain ⟨hindex, hmark⟩ := List.getElem?_eq_some_iff.mp (getElem?_lead hother)
  have hfound := List.prefix_iff_getElem?.mp h 8 hindex
  rw [hmark, List.getElem?_drop, List.getElem?_append_left (by omega), stored_eq_lead, hlead,
    List.append_assoc, List.getElem?_append_right (by omega), hwords] at hfound
  -- behind the first mark there are the rest of the name and zeros
  obtain ⟨index, rfl⟩ : ∃ index, shift = index + 1 := ⟨shift - 1, by omega⟩
  rw [show index + 1 + 8 - 8 = index + 1 by omega, List.cons_append, List.getElem?_cons_succ]
    at hfound
  have hmem := List.mem_of_getElem? hfound
  rw [padding, List.mem_append, List.mem_cons] at hmem
  rcases hmem with hmem | hzero | hzeros
  · exact hrest hmem
  · exact absurd hzero (by decide)
  · exact absurd (List.eq_of_mem_replicate hzeros) (by decide)

end StreamHeader

namespace MetadataRoot

variable {root : MetadataRoot} {first : StreamHeader} {rest : List StreamHeader}

/-- The root up to the end of its first header, without padding. -/
def opening (root : MetadataRoot) (first : StreamHeader) (rest : List StreamHeader) : List UInt8 :=
  root.start (rest.length + 1) ++ (first.lead ++ [0])

/-- How long the root is up to the end of its first header. -/
theorem length_opening (hname : first.name ∈ StreamHeader.names) :
    (root.opening first rest).length = root.versionRaw.length + first.name.utf8ByteSize + 29 := by
  rw [opening, List.length_append, List.length_append, length_start, StreamHeader.length_lead hname,
    List.length_singleton]
  omega

/-- The root with its headers, the first of which is padded with what is in front of it. -/
def written (root : MetadataRoot) (first : StreamHeader) (rest : List StreamHeader) : List UInt8 :=
  padTo (root.opening first rest) 4 ++ rest.flatMap StreamHeader.stored

/-- A root with headers that can be read: a version text that can be counted, and few headers, all
with names. -/
structure Headed (root : MetadataRoot) (headers : List StreamHeader) : Prop where
  version_lt : root.versionRaw.length < UInt32.size
  pos : 0 < headers.length
  le_streamLimit : headers.length ≤ streamLimit
  names : ∀ header ∈ headers, header.name ∈ StreamHeader.names
  ends : ∀ header ∈ headers, header.offset.toNat + header.size.toNat < UInt32.size

/-- All lengths are far below the size of an address space. -/
theorem Headed.room (h : root.Headed (first :: rest)) :
    (root.opening first rest).length + 40 * rest.length + 35 ≤ wordRange := by
  have hname := h.names first List.mem_cons_self
  obtain ⟨-, hshort, -, -⟩ := StreamHeader.name_facts _ hname
  have hversion := h.version_lt
  have hcount := h.le_streamLimit
  rw [List.length_cons, streamLimit] at hcount
  rw [length_opening hname]
  simp only [UInt32.size, wordRange, UInt64.size] at hversion ⊢
  omega

/-- A root is written as its opening, padding, and its other headers in their stored forms. -/
theorem Headed.encode_eq (h : root.Headed (first :: rest)) :
    root.encode (first :: rest) = .ok (root.written first rest) := by
  have hroom := h.room
  have hcount := h.le_streamLimit
  have hlength := @length_padTo_four (root.opening first rest) (by omega)
  have happend : StreamHeader.append (root.start (rest.length + 1)) first =
      padTo (root.opening first rest) 4 := by
    rw [StreamHeader.append, opening, StreamHeader.lead]
    simp only [List.append_assoc]
  unfold encode
  rw [if_neg (by rw [streamLimit] at hcount; simp only [UInt16.size]; omega), ← start]
  dsimp only
  rw [List.foldl_cons, List.length_cons, happend, written, foldl_append_eq]
  · rw [hlength]
    omega
  · rw [hlength]
    omega
  · exact fun other hother => h.names other (List.mem_cons_of_mem _ hother)

/-- A root takes the bytes that are counted for it when its version text fills whole words, and only
then. -/
theorem Headed.length_eq_iff (h : root.Headed (first :: rest)) :
    (root.written first rest).length = root.encodedLength (first :: rest) ↔
      root.versionRaw.length % 4 = 0 := by
  have hname := h.names first List.mem_cons_self
  have hroom := h.room
  rw [written, encodedLength_eq h.names, List.length_append, List.length_append, length_start,
    List.flatMap_cons, List.length_append, StreamHeader.length_stored hname,
    StreamHeader.encodedLength_eq hname, length_padTo_four (by omega), length_opening hname]
  omega

variable {data : Bytes} {tail : List UInt8}

/-- The bytes behind the opening of a written root. -/
theorem drop_opening
    (hdata : data.toList = root.written first rest ++ tail) :
    data.toList.drop (root.opening first rest).length =
      padding (root.opening first rest).length 4 ++
        (rest.flatMap StreamHeader.stored ++ tail) := by
  rw [hdata, written, padTo, List.append_assoc, List.append_assoc, List.drop_left]

/-- Where the version text does not fill whole words, the second header is not found. -/
theorem Headed.not_decode_second {second : StreamHeader} (h : root.Headed (first :: second :: rest))
    (hversion : root.versionRaw.length % 4 ≠ 0)
    (hdata : data.toList = root.written first (second :: rest) ++ tail) :
    ¬second.lead <+: data.toList.drop (20 + root.versionRaw.length + first.encodedLength) := by
  have hname := h.names first List.mem_cons_self
  have hsecond := h.names second (List.mem_cons_of_mem _ List.mem_cons_self)
  have hroom := h.room
  have hlength := @length_opening root first (second :: rest) hname
  have hbehind := drop_opening hdata
  -- the header is looked for behind the opening, but not behind its padding
  obtain ⟨step, hstep⟩ : ∃ step, 20 + root.versionRaw.length + first.encodedLength =
      (root.opening first (second :: rest)).length + step := by
    refine ⟨20 + root.versionRaw.length + first.encodedLength -
      (root.opening first (second :: rest)).length, ?_⟩
    rw [hlength, StreamHeader.encodedLength_eq hname]
    omega
  rw [hstep, ← List.drop_drop, hbehind, padding, List.flatMap_cons, List.append_assoc,
    alignUp_four (by omega)]
  rw [StreamHeader.encodedLength_eq hname] at hstep
  rw [hlength] at hstep ⊢
  generalize hzeros : (root.versionRaw.length + first.name.utf8ByteSize + 29 + 3) / 4 * 4 -
    (root.versionRaw.length + first.name.utf8ByteSize + 29) = zeros
  by_cases hbefore : step < zeros
  · rw [List.drop_append_of_le_length (by rw [List.length_replicate]; omega),
      List.drop_replicate, StreamHeader.stored_eq_lead, List.append_assoc]
    exact StreamHeader.not_lead_isPrefix_zeros hsecond (by omega) _
  · obtain ⟨shift, rfl⟩ : ∃ shift, step = zeros + shift := ⟨step - zeros, by omega⟩
    rw [← List.drop_drop, List.drop_left' List.length_replicate]
    exact StreamHeader.not_lead_isPrefix_stored hsecond hsecond (by omega) (by omega) _

/-- A written root starts with its own start and what its first header says. -/
theorem exists_toList_eq (hdata : data.toList = root.written first rest ++ tail) :
    ∃ more, data.toList = root.start (rest.length + 1) ++ (first.lead ++ [0] ++ more) := by
  rw [hdata, written, padTo, opening]
  simp only [List.append_assoc]
  exact ⟨_, rfl⟩

/-- The first header is found wherever the version text ends. -/
theorem Headed.decode_first (h : root.Headed (first :: rest))
    (hdata : data.toList = root.written first rest ++ tail) :
    StreamHeader.decode (data.extract (20 + root.versionRaw.length)
      (20 + root.versionRaw.length + 8 + StreamHeader.nameLimit)).toList = .ok first := by
  have hname := h.names first List.mem_cons_self
  obtain ⟨-, hshort, -, -⟩ := StreamHeader.name_facts _ hname
  have hlead := StreamHeader.length_lead hname
  obtain ⟨more, hmore⟩ := exists_toList_eq hdata
  rw [Array.toList_extract, List.extract_eq_take_drop, hmore, Nat.add_assoc,
    Nat.add_sub_cancel_left, List.drop_left' (root.length_start _), List.take_append,
    List.take_of_length_le, List.append_assoc]
  · exact StreamHeader.decode_lead hname _
  · rw [List.length_append, List.length_singleton, hlead, StreamHeader.nameLimit]
    omega

/-- The headers of a written root are found when its version text fills whole words or there is only
one. -/
theorem Headed.readHeaders_eq_ok_iff (h : root.Headed (first :: rest))
    (hdata : data.toList = root.written first rest ++ tail)
    (hwithin : ∀ header ∈ first :: rest, header.offset.toNat + header.size.toNat ≤ data.size) :
    readHeaders data (20 + root.versionRaw.length) (first :: rest).length = .ok (first :: rest) ↔
      root.versionRaw.length % 4 = 0 ∨ rest = [] := by
  have hname := h.names first List.mem_cons_self
  have hroom := h.room
  have hopening := @length_opening root first rest hname
  have hlength := @length_padTo_four (root.opening first rest) (by omega)
  have hsize : (padTo (root.opening first rest) 4).length ≤ data.size := by
    rw [← Array.length_toList, hdata, written, List.append_assoc]
    exact (List.prefix_append _ _).length_le
  rw [List.length_cons, readHeaders_succ_eq_ok_iff]
  constructor
  · rintro ⟨header, others, heq, -, -, -, -, hrest⟩
    obtain ⟨rfl, rfl⟩ := List.cons.inj heq
    by_contra hneither
    obtain ⟨hversion, hsome⟩ := not_or.mp hneither
    obtain ⟨second, others, rfl⟩ := List.exists_cons_of_ne_nil hsome
    rw [List.length_cons, readHeaders_succ_eq_ok_iff] at hrest
    obtain ⟨header, found, heq, -, hdecode, -⟩ := hrest
    obtain ⟨rfl, rfl⟩ := List.cons.inj heq
    have hlead := (StreamHeader.facts_of_decode hdecode).2
    rw [Array.toList_extract, List.extract_eq_take_drop] at hlead
    exact h.not_decode_second hversion hdata (hlead.trans ⟨_, List.take_append_drop _ _⟩)
  · intro hcase
    refine ⟨first, rest, rfl, by omega, h.decode_first hdata, h.ends first List.mem_cons_self,
      hwithin first List.mem_cons_self, ?_⟩
    rcases hcase with hversion | rfl
    · have hnext : 20 + root.versionRaw.length + first.encodedLength =
          (padTo (root.opening first rest) 4).length := by
        rw [hlength, hopening, StreamHeader.encodedLength_eq hname]
        omega
      rw [hnext]
      refine @readHeaders_stored data _ rest tail ?_ hsize
        (fun other hother => h.names other (List.mem_cons_of_mem _ hother)) fun other hother => ?_
      · rw [hdata, written, List.append_assoc, List.drop_left]
      · exact ⟨h.ends other (List.mem_cons_of_mem _ hother),
          hwithin other (List.mem_cons_of_mem _ hother)⟩
    · rfl

/-- What a root is worth that was written with other headers. It takes the bytes that are counted for
it exactly when its version text fills whole words. With enough bytes behind it, it is read with its
headers exactly when the block can hold a root, and its version text fills whole words or there is
one header only. Headers that were laid out behind the counted bytes describe what is stored
there. -/
structure Rebuilt (root : MetadataRoot) (headers : List StreamHeader) (bytes : List UInt8) :
    Prop where
  length : bytes.length = root.encodedLength headers ↔ root.versionRaw.length % 4 = 0
  read : ∀ more : List UInt8, (∀ header ∈ headers,
      header.offset.toNat + header.size.toNat ≤ (bytes ++ more).length) →
    (Cursor.parse MetadataRoot.read (bytes ++ more).toArray = .ok { root with headers } ↔
      leastSize ≤ (bytes ++ more).length ∧
        (root.versionRaw.length % 4 = 0 ∨ headers.length = 1))
  describes : root.versionRaw.length % 4 = 0 → ∀ streams : List (String × List UInt8),
    PatchSection.streamHeaders (root.encodedLength headers) streams = .ok headers →
      List.Forall₂ (fun stream header => header.name = stream.1 ∧
        header.Describes (bytes ++ (streams.map (·.2)).flatten).toArray stream.2) streams headers

/-- A root that was read can be written with up to six other headers. -/
theorem exists_rebuilt_of_read {data : Bytes} (hread : Cursor.parse read data = .ok root)
    {headers : List StreamHeader} (hpos : 0 < headers.length)
    (hmost : headers.length ≤ streamLimit)
    (hnames : ∀ header ∈ headers, header.name ∈ StreamHeader.names)
    (hends : ∀ header ∈ headers, header.offset.toNat + header.size.toNat < UInt32.size) :
    ∃ bytes, root.encode headers = .ok bytes ∧ root.Rebuilt headers bytes := by
  obtain ⟨first, rest, rfl⟩ := List.exists_cons_of_length_pos hpos
  have h : root.Headed (first :: rest) :=
    ⟨(facts_of_read hread).2.1, hpos, hmost, hnames, hends⟩
  refine ⟨_, h.encode_eq, h.length_eq_iff, fun more hwithin => ?_, fun hversion streams hstreams => ?_⟩
  · rw [← List.size_toArray] at hwithin ⊢
    generalize hdata : (root.written first rest ++ more).toArray = data at hwithin ⊢
    have hdata : data.toList = root.written first rest ++ more := by
      rw [← hdata]
    have hheaders := h.readHeaders_eq_ok_iff hdata hwithin
    have hone : (first :: rest).length = 1 ↔ rest = [] := by
      rw [List.length_cons, Nat.succ_inj, List.length_eq_zero_iff]
    rw [parse_read_eq_ok_iff, hone, ← hheaders]
    constructor
    · intro hstored
      exact ⟨hstored.leastSize_le, hstored.headers⟩
    · rintro ⟨hleast, hfound⟩
      obtain ⟨behind, hbehind⟩ := exists_toList_eq hdata
      exact ⟨hleast, ⟨_, hbehind.symm⟩, h.version_lt, hpos, hmost, hfound⟩
  · refine PatchSection.describes_of_streamHeaders hstreams ?_ ?_
    · rw [← h.length_eq_iff.mpr hversion, List.drop_left]
    · rw [← h.length_eq_iff.mpr hversion, List.size_toArray]
      exact (List.prefix_append _ _).length_le

/-- A root whose version text fills three words. -/
def wholeRoot : MetadataRoot :=
  ⟨1, 1, 0, [0x76, 0x34, 0x2E, 0x30, 0x2E, 0x33, 0x30, 0x33, 0x31, 0x39, 0, 0], 0,
    [⟨0x38, 0, "#~"⟩, ⟨0x38, 0, "#US"⟩]⟩

/-- The block from which the root is read. -/
def wholeData : Bytes := #[
  0x42, 0x53, 0x4A, 0x42, 1, 0, 1, 0, 0, 0, 0, 0, 12, 0, 0, 0,
  0x76, 0x34, 0x2E, 0x30, 0x2E, 0x33, 0x30, 0x33, 0x31, 0x39, 0, 0, 0, 0, 2, 0,
  0x38, 0, 0, 0, 0, 0, 0, 0, 0x23, 0x7E, 0, 0,
  0x38, 0, 0, 0, 0, 0, 0, 0, 0x23, 0x55, 0x53, 0]

/-- The root is written with one more header, takes the bytes that are counted for it and is read
again. -/
theorem exists_rebuilt_of_read_whole :
    Cursor.parse read wholeData = .ok wholeRoot ∧
      ∃ bytes, wholeRoot.encode (⟨0, 4, "#Blob"⟩ :: wholeRoot.headers) = .ok bytes ∧
        bytes.length = 72 ∧ Cursor.parse read bytes.toArray =
          .ok { wholeRoot with headers := ⟨0, 4, "#Blob"⟩ :: wholeRoot.headers } := by
  have hread : Cursor.parse read wholeData = .ok wholeRoot := eq_ok_of_toOption (by decide +kernel)
  obtain ⟨bytes, hencode, hbytes⟩ := @exists_rebuilt_of_read _ _ hread
    (⟨0, 4, "#Blob"⟩ :: wholeRoot.headers) (by decide) (by decide) (by decide +kernel) (by decide)
  have hlength : bytes.length = 72 := hbytes.length.mpr (by decide)
  have hagain := hbytes.read [] (by rw [List.append_nil, hlength]; decide)
  rw [List.append_nil, hlength] at hagain
  exact ⟨hread, bytes, hencode, hlength, hagain.mpr (by decide)⟩

/-- A root whose version text is one byte long. -/
def oddRoot : MetadataRoot := ⟨1, 1, 0, [0x76], 0, [⟨0, 0, "#~"⟩, ⟨0, 0, "#US"⟩]⟩

/-- The block from which the root is read. -/
def oddData : Bytes := #[
  0x42, 0x53, 0x4A, 0x42, 1, 0, 1, 0, 0, 0, 0, 0, 1, 0, 0, 0, 0x76, 0, 0, 2, 0,
  0, 0, 0, 0, 0, 0, 0, 0, 0x23, 0x7E, 0, 0,
  0, 0, 0, 0, 0, 0, 0, 0, 0x23, 0x55, 0x53, 0]

/-- The root is read. Written with its own headers it takes one byte less than is counted for it, and
it is not read again. -/
theorem oddRoot_not_read_again :
    Cursor.parse read oddData = .ok oddRoot ∧
      ∃ bytes, oddRoot.encode oddRoot.headers = .ok bytes ∧ bytes.length = 44 ∧
        oddRoot.encodedLength oddRoot.headers = 45 ∧
        Cursor.parse read bytes.toArray ≠ .ok oddRoot := by
  refine ⟨eq_ok_of_toOption (by decide +kernel),
    oddRoot.headers.foldl StreamHeader.append (oddRoot.start 2), rfl, by decide +kernel,
    by decide +kernel, fun hagain => ?_⟩
  have hsome := congrArg Except.toOption hagain
  revert hsome
  decide +kernel

end MetadataRoot

end CilPatch
