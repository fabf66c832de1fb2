import CilPatch.Metadata.Root
import CilPatch.Proofs.Bytes.Align
import CilPatch.Proofs.Bytes.Block
import CilPatch.Proofs.Bytes.Cursor

/-!
# Reading the metadata root back

A block is read as a root when it starts with that root and headers are found behind it. A root that
is written with other stream headers is read with those headers, as long as its version text ends at
a multiple of four: then every header is padded by itself.
-/

namespace CilPatch

open LittleEndian

namespace StreamHeader

/-- The stored form of a header. -/
def stored (header : StreamHeader) : List UInt8 :=
  padTo (LittleEndian.u32 header.offset ++ (LittleEndian.u32 header.size ++
    (header.name.toUTF8.toList ++ [0]))) 4

/-- What a header says: where the stream lies, and its name. -/
def lead (header : StreamHeader) : List UInt8 :=
  LittleEndian.u32 header.offset ++ (LittleEndian.u32 header.size ++ header.name.toUTF8.toList)

/-- The names of streams are short Latin texts. -/
theorem name_facts : ∀ name ∈ names, name.toUTF8.toList.length = name.utf8ByteSize ∧
    name.utf8ByteSize ≤ 8 ∧ latinText name.toUTF8.toList = name ∧
    ∀ byte ∈ name.toUTF8.toList, byte ≠ 0 := by
  decide +kernel

variable {header : StreamHeader}

/-- How many bytes a header with one of the names takes. -/
theorem encodedLength_eq (hname : header.name ∈ names) :
    header.encodedLength = 8 + (header.name.utf8ByteSize + 4) / 4 * 4 := by
  obtain ⟨-, hshort, -, -⟩ := name_facts _ hname
  rw [encodedLength, alignUp_four (by simp only [wordRange, UInt64.size]; omega)]

/-- What a header says takes two words and the name. -/
theorem length_lead (hname : header.name ∈ names) :
    header.lead.length = 8 + header.name.utf8ByteSize := by
  simp only [lead, List.length_append, LittleEndian.u32, LittleEndian.length_encode,
    (name_facts _ hname).1]
  omega

/-- A header is put behind bytes with a zero behind its name and padding behind all. -/
theorem append_eq_lead (before : List UInt8) (header : StreamHeader) :
    append before header = before ++ (header.lead ++
      0 :: padding (before.length + (header.lead.length + 1)) 4) := by
  simp only [append, lead, padTo, List.length_append, List.length_singleton, List.append_assoc,
    List.singleton_append, Nat.add_assoc]

/-- The stored form of a header is what it says, a zero and padding. -/
theorem stored_eq_lead (header : StreamHeader) :
    header.stored = header.lead ++ 0 :: padding (header.lead.length + 1) 4 := by
  simp only [stored, lead, padTo, List.length_append, List.length_singleton, List.append_assoc,
    List.singleton_append, Nat.add_assoc]

/-- A stored header takes the bytes that are counted for it. -/
theorem length_stored (hname : header.name ∈ names) :
    header.stored.length = header.encodedLength := by
  obtain ⟨-, hshort, -, -⟩ := name_facts _ hname
  have hlead := length_lead hname
  have hroom : header.lead.length + 1 + 4 ≤ wordRange := by
    simp only [wordRange, UInt64.size]
    omega
  rw [encodedLength_eq hname, stored_eq_lead, padding, alignUp_four hroom, List.length_append,
    List.length_cons, List.length_replicate]
  omega

/-- A header takes no more bytes than are looked at. -/
theorem encodedLength_le (hname : header.name ∈ names) :
    header.encodedLength ≤ 8 + nameLimit := by
  obtain ⟨-, hshort, -, -⟩ := name_facts _ hname
  rw [encodedLength_eq hname, nameLimit]
  omega

/-- A header takes whole words, three at least. -/
theorem encodedLength_mod (hname : header.name ∈ names) :
    header.encodedLength % 4 = 0 ∧ 12 ≤ header.encodedLength := by
  rw [encodedLength_eq hname]
  omega

/-- A header behind whole words is put there in its stored form. -/
theorem append_eq {before : List UInt8} (hname : header.name ∈ names)
    (hbefore : before.length % 4 = 0) (hroom : before.length + 32 ≤ wordRange) :
    append before header = before ++ header.stored := by
  obtain ⟨-, hshort, -, -⟩ := name_facts _ hname
  have hlead := length_lead hname
  rw [append_eq_lead, stored_eq_lead, padding_add hbefore (by omega)]

/-- A name is what stands in front of the first zero. -/
theorem takeWhile_name {name : String} (hname : name ∈ names) (tail : List UInt8) :
    ((name.toUTF8.toList ++ 0 :: tail).take nameLimit).takeWhile (· != 0) =
      name.toUTF8.toList := by
  obtain ⟨hlength, hshort, -, hzero⟩ := name_facts _ hname
  obtain ⟨room, hroom⟩ : ∃ room, nameLimit - name.toUTF8.toList.length = room + 1 :=
    ⟨nameLimit - name.toUTF8.toList.length - 1, by rw [hlength, nameLimit]; omega⟩
  rw [List.take_append, List.take_of_length_le (by rw [hlength, nameLimit]; omega), hroom,
    List.take_succ_cons, List.takeWhile_append_of_pos]
  · simp
  · intro byte hbyte
    simpa using hzero byte hbyte

/-- A header is read where it is stored, whatever follows the zero behind its name. -/
theorem decode_lead (hname : header.name ∈ names) (tail : List UInt8) :
    decode (header.lead ++ 0 :: tail) = .ok header := by
  obtain ⟨-, -, hlatin, -⟩ := name_facts _ hname
  have hoffset : (LittleEndian.u32 header.offset).length = 4 := length_encode 4 _
  have hsize : (LittleEndian.u32 header.size).length = 4 := length_encode 4 _
  have hfirst : (header.lead ++ 0 :: tail).drop 4 =
      LittleEndian.u32 header.size ++ (header.name.toUTF8.toList ++ 0 :: tail) := by
    rw [lead, List.append_assoc, List.drop_left' hoffset, List.append_assoc]
  have hsecond : (header.lead ++ 0 :: tail).drop 8 = header.name.toUTF8.toList ++ 0 :: tail := by
    rw [show 8 = 4 + 4 from rfl, ← List.drop_drop, hfirst, List.drop_left' hsize]
  have hstart : (header.lead ++ 0 :: tail).take 4 = LittleEndian.u32 header.offset := by
    rw [lead, List.append_assoc, List.take_left' hoffset]
  have hlength := length_lead hname
  unfold decode
  rw [if_neg (by simp only [List.length_append, List.length_cons]; omega)]
  simp only [hfirst, hsecond, hstart, takeWhile_name hname, hlatin, List.take_left' hsize,
    ofNat_decode_u32]
  rw [if_pos (by simpa using hname)]

/-- A stored header is read, whatever follows it. -/
theorem decode_stored (hname : header.name ∈ names) (tail : List UInt8) :
    decode (header.stored ++ tail) = .ok header := by
  rw [stored_eq_lead, List.append_assoc, List.cons_append, decode_lead hname]

/-- Texts of single bytes tell the bytes. -/
theorem latinText_inj {first second : List UInt8} :
    latinText first = latinText second ↔ first = second := by
  refine ⟨fun h => ?_, congrArg latinText⟩
  have hbyte : Function.Injective fun byte : UInt8 => Char.ofNat byte.toNat := by
    intro byte other hchar
    have hnumber (byte : UInt8) : (Char.ofNat byte.toNat).toNat = byte.toNat := by
      have hvalid : byte.toNat.isValidChar := .inl (Nat.lt_trans byte.toNat_lt (by decide))
      rw [Char.ofNat, dif_pos hvalid]
      rfl
    apply UInt8.toNat_inj.mp
    rw [← hnumber byte, ← hnumber other]
    exact congrArg Char.toNat hchar
  exact List.map_injective_iff.mpr hbyte (String.ofList_injective h)

/-- A header that was read has one of the names, and what it says is what stands there. -/
theorem facts_of_decode {bytes : List UInt8} (h : decode bytes = .ok header) :
    header.name ∈ names ∧ header.lead <+: bytes := by
  unfold decode at h
  split at h
  · cases h
  next hroom =>
  simp only at h
  split at h
  · next hfound =>
    obtain rfl := Except.ok.inj h
    have hname : latinText (((bytes.drop 8).take nameLimit).takeWhile (· != 0)) ∈ names := by
      simpa using hfound
    refine ⟨hname, ?_⟩
    have hbytes := latinText_inj.mp (name_facts _ hname).2.2.1
    have hword (part : List UInt8) (hpart : part.length = 4) :
        LittleEndian.u32 (UInt32.ofNat (LittleEndian.decode part)) = part := by
      have hlt := decode_lt part
      rw [hpart] at hlt
      rw [LittleEndian.u32, UInt32.toNat_ofNat_of_lt' hlt, ← hpart, encode_decode]
    have hparts : bytes.take 4 ++ ((bytes.drop 4).take 4 ++ bytes.drop 8) = bytes := by
      rw [show 8 = 4 + 4 from rfl, ← List.drop_drop, List.take_append_drop,
        List.take_append_drop]
    rw [lead, hbytes, hword _ (by rw [List.length_take]; omega),
      hword _ (by rw [List.length_take, List.length_drop]; omega)]
    have hname : ((bytes.drop 8).take nameLimit).takeWhile (· != 0) <+: bytes.drop 8 :=
      List.IsPrefix.trans ⟨_, List.takeWhile_append_dropWhile⟩ ⟨_, List.take_append_drop _ _⟩
    rw [← List.prefix_append_right_inj ((bytes.drop 4).take 4),
      ← List.prefix_append_right_inj (bytes.take 4), hparts] at hname
    exact hname
  · cases h

end StreamHeader

namespace MetadataRoot

/-- Headers are read one after another, each within the data. -/
theorem readHeaders_succ_eq_ok_iff {data : Bytes} {offset count : Nat}
    {headers : List StreamHeader} :
    readHeaders data offset (count + 1) = .ok headers ↔ ∃ header rest, headers = header :: rest ∧
      offset ≤ data.size ∧ StreamHeader.decode
        (data.extract offset (offset + 8 + StreamHeader.nameLimit)).toList = .ok header ∧
      header.offset.toNat + header.size.toNat < UInt32.size ∧
      header.offset.toNat + header.size.toNat ≤ data.size ∧
      readHeaders data (offset + header.encodedLength) count = .ok rest := by
  rw [readHeaders, check_eq_ok_iff, bind_eq_ok_iff]
  constructor
  · rintro ⟨hoffset, header, hheader, h⟩
    obtain ⟨hword, h⟩ := check_eq_ok_iff.mp h
    obtain ⟨hstop, h⟩ := check_eq_ok_iff.mp h
    obtain ⟨rest, hrest, h⟩ := bind_eq_ok_iff.mp h
    exact ⟨header, rest, (Except.ok.inj h).symm, Nat.not_lt.mp hoffset, hheader,
      Nat.not_le.mp hword, Nat.not_lt.mp hstop, hrest⟩
  · rintro ⟨header, rest, rfl, hoffset, hheader, hword, hstop, hrest⟩
    refine ⟨Nat.not_lt.mpr hoffset, header, hheader, ?_⟩
    refine check_eq_ok_iff.mpr ⟨Nat.not_le.mpr hword, ?_⟩
    refine check_eq_ok_iff.mpr ⟨Nat.not_lt.mpr hstop, ?_⟩
    exact bind_eq_ok_iff.mpr ⟨rest, hrest, rfl⟩

/-- As many headers are read as are asked for, and all have names. -/
theorem facts_of_readHeaders {data : Bytes} {offset count : Nat} {headers : List StreamHeader}
    (h : readHeaders data offset count = .ok headers) :
    headers.length = count ∧ ∀ header ∈ headers, header.name ∈ StreamHeader.names := by
  induction count generalizing offset headers with
  | zero =>
    obtain rfl := Except.ok.inj h
    exact ⟨rfl, nofun⟩
  | succ count ih =>
    obtain ⟨header, rest, rfl, -, hheader, -, -, hrest⟩ := readHeaders_succ_eq_ok_iff.mp h
    obtain ⟨hlength, hnames⟩ := ih hrest
    exact ⟨by rw [List.length_cons, hlength],
      List.forall_mem_cons.mpr ⟨(StreamHeader.facts_of_decode hheader).1, hnames⟩⟩

/-- Stored headers are read from where they stand. -/
theorem readHeaders_stored {data : Bytes} {offset : Nat} {headers : List StreamHeader}
    {tail : List UInt8} (hdata : data.toList.drop offset = headers.flatMap StreamHeader.stored ++ tail)
    (hoffset : offset ≤ data.size) (hnames : ∀ header ∈ headers, header.name ∈ StreamHeader.names)
    (hwithin : ∀ header ∈ headers, header.offset.toNat + header.size.toNat < UInt32.size ∧
      header.offset.toNat + header.size.toNat ≤ data.size) :
    readHeaders data offset headers.length = .ok headers := by
  induction headers generalizing offset with
  | nil => rfl
  | cons header rest ih =>
    have hname := hnames header List.mem_cons_self
    obtain ⟨hword, hstop⟩ := hwithin header List.mem_cons_self
    have hlength := StreamHeader.length_stored hname
    have hshort := StreamHeader.encodedLength_le hname
    rw [List.flatMap_cons, List.append_assoc] at hdata
    have hnext : data.toList.drop (offset + header.encodedLength) =
        rest.flatMap StreamHeader.stored ++ tail := by
      rw [← List.drop_drop, hdata, List.drop_left' hlength]
    have hbounded : offset + header.encodedLength ≤ data.size := by
      have hsizes := congrArg List.length hdata
      rw [List.length_drop, Array.length_toList, List.length_append, hlength] at hsizes
      omega
    have hextract : (data.extract offset (offset + 8 + StreamHeader.nameLimit)).toList =
        header.stored ++ (rest.flatMap StreamHeader.stored ++ tail).take
          (8 + StreamHeader.nameLimit - header.stored.length) := by
      rw [Array.toList_extract, List.extract_eq_take_drop, hdata, Nat.add_assoc,
        Nat.add_sub_cancel_left, List.take_append, List.take_of_length_le (hlength ▸ hshort)]
    have hread := ih hnext hbounded (fun other hother => hnames other (List.mem_cons_of_mem _ hother))
      fun other hother => hwithin other (List.mem_cons_of_mem _ hother)
    refine readHeaders_succ_eq_ok_iff.mpr ⟨header, rest, rfl, hoffset, ?_, hword, hstop, hread⟩
    rw [hextract]
    exact StreamHeader.decode_stored hname _

/-- The root up to its headers. -/
def start (root : MetadataRoot) (count : Nat) : List UInt8 :=
  LittleEndian.u32 magic ++ (LittleEndian.u16 root.major ++
    (LittleEndian.u16 root.minor ++ (LittleEndian.u32 root.reserved ++
    (LittleEndian.encode 4 root.versionRaw.length ++ (root.versionRaw ++
    (LittleEndian.u16 root.flags ++ LittleEndian.encode 2 count))))))

/-- The headers stand behind the version text. -/
theorem length_start (root : MetadataRoot) (count : Nat) :
    (root.start count).length = 20 + root.versionRaw.length := by
  simp only [start, List.length_append, LittleEndian.u32, LittleEndian.u16,
    LittleEndian.length_encode]
  omega

variable {root : MetadataRoot} {headers : List StreamHeader}

/-- Headers behind whole words are put there in their stored forms. -/
theorem foldl_append_eq {before : List UInt8} (hbefore : before.length % 4 = 0)
    (hroom : before.length + 40 * headers.length + 32 ≤ wordRange)
    (hnames : ∀ header ∈ headers, header.name ∈ StreamHeader.names) :
    headers.foldl StreamHeader.append before =
      before ++ headers.flatMap StreamHeader.stored := by
  induction headers generalizing before with
  | nil => rw [List.flatMap_nil, List.append_nil, List.foldl_nil]
  | cons header rest ih =>
    have hname := hnames header List.mem_cons_self
    have hlength := StreamHeader.length_stored hname
    have hshort : header.encodedLength ≤ 40 := StreamHeader.encodedLength_le hname
    have hmod := (StreamHeader.encodedLength_mod hname).1
    rw [List.length_cons] at hroom
    rw [List.foldl_cons, StreamHeader.append_eq hname hbefore (by omega), ih, List.flatMap_cons,
      List.append_assoc]
    · rw [List.length_append, hlength]
      omega
    · rw [List.length_append, hlength]
      omega
    · exact fun other hother => hnames other (List.mem_cons_of_mem _ hother)

/-- The bytes that are counted for a root are those of its start and its stored headers. -/
theorem encodedLength_eq (hnames : ∀ header ∈ headers, header.name ∈ StreamHeader.names) :
    root.encodedLength headers =
      (root.start headers.length ++ headers.flatMap StreamHeader.stored).length := by
  have hfold (length : Nat) :
      headers.foldl (fun length header => length + header.encodedLength) length =
        length + (headers.flatMap StreamHeader.stored).length := by
    induction headers generalizing length with
    | nil => rfl
    | cons header rest ih =>
      rw [List.foldl_cons, ih fun other hother => hnames other (List.mem_cons_of_mem _ hother),
        List.flatMap_cons, List.length_append,
        StreamHeader.length_stored (hnames header List.mem_cons_self), Nat.add_assoc]
  rw [encodedLength, hfold, List.length_append, length_start]

/-- A block is read as a root when it can hold one, starts with it, and has its headers behind
that. -/
structure Stored (root : MetadataRoot) (data : Bytes) : Prop where
  leastSize_le : leastSize ≤ data.size
  start : root.start root.headers.length <+: data.toList
  version_lt : root.versionRaw.length < UInt32.size
  pos : 0 < root.headers.length
  le_streamLimit : root.headers.length ≤ streamLimit
  headers : readHeaders data (20 + root.versionRaw.length) root.headers.length = .ok root.headers

/-- A block that was read as a root is what the root says. -/
theorem stored_of_parse {data : Bytes} (h : Cursor.parse read data = .ok root) :
    root.Stored data := by
  obtain ⟨last, h⟩ : ∃ last, read.run ⟨data, 0⟩ = (.ok root, last) := ⟨_, Prod.ext h rfl⟩
  unfold read at h
  obtain ⟨cursor, c0, hget, h⟩ := run_bind_eq_ok_iff.mp h
  obtain ⟨hcursor, rfl⟩ := Prod.mk.inj hget
  obtain rfl := Except.ok.inj hcursor
  obtain ⟨hleast, h⟩ := run_check_eq_ok_iff.mp h
  obtain ⟨word, c1, hword, h⟩ := run_bind_eq_ok_iff.mp h
  obtain ⟨hmagic, h⟩ := run_check_eq_ok_iff.mp h
  obtain ⟨major, c2, hmajor, h⟩ := run_bind_eq_ok_iff.mp h
  obtain ⟨minor, c3, hminor, h⟩ := run_bind_eq_ok_iff.mp h
  obtain ⟨reserved, c4, hreserved, h⟩ := run_bind_eq_ok_iff.mp h
  obtain ⟨length, c5, hlength, h⟩ := run_bind_eq_ok_iff.mp h
  obtain ⟨-, h⟩ := run_check_eq_ok_iff.mp h
  obtain ⟨raw, c6, hraw, h⟩ := run_bind_eq_ok_iff.mp h
  obtain ⟨flags, c7, hflags, h⟩ := run_bind_eq_ok_iff.mp h
  obtain ⟨count, c8, hcount, h⟩ := run_bind_eq_ok_iff.mp h
  obtain ⟨hlimit, h⟩ := run_check_eq_ok_iff.mp h
  obtain ⟨headers, c9, hheaders, h⟩ := run_bind_eq_ok_iff.mp h
  obtain rfl := Except.ok.inj (Prod.mk.inj h).1
  obtain rfl : word = magic := by simpa using hmagic
  have hheaders := congrArg Prod.fst hheaders
  obtain ⟨hsize, hraw⟩ := Read.run_bytes_eq_ok_iff.mp hraw
  have hnumber := (facts_of_readHeaders hheaders).1
  have hpasses : Cursor.Passes ⟨data, 0⟩
      (start ⟨major, minor, reserved, raw.toList, flags, headers⟩ headers.length) c8 := by
    have hlength := Read.run_u32_eq_ok_iff.mp hlength
    have hcount := Read.run_u16_eq_ok_iff.mp hcount
    rw [LittleEndian.u32, ← hsize, ← Array.length_toList] at hlength
    rw [LittleEndian.u16, ← hnumber] at hcount
    exact Cursor.passes_append_iff.mpr ⟨c1, Read.run_u32_eq_ok_iff.mp hword,
      Cursor.passes_append_iff.mpr ⟨c2, Read.run_u16_eq_ok_iff.mp hmajor,
      Cursor.passes_append_iff.mpr ⟨c3, Read.run_u16_eq_ok_iff.mp hminor,
      Cursor.passes_append_iff.mpr ⟨c4, Read.run_u32_eq_ok_iff.mp hreserved,
      Cursor.passes_append_iff.mpr ⟨c5, hlength, Cursor.passes_append_iff.mpr ⟨c6, hraw,
      Cursor.passes_append_iff.mpr ⟨c7, Read.run_u16_eq_ok_iff.mp hflags, hcount⟩⟩⟩⟩⟩⟩⟩
  obtain ⟨hzero, hmany⟩ := not_or.mp hlimit
  refine ⟨Nat.not_lt.mp hleast, ⟨c8.rest, hpasses.rest.symm⟩, ?_, ?_, ?_, ?_⟩
  · rw [Array.length_toList, hsize]
    exact length.toNat_lt
  · rw [hnumber]
    exact Nat.pos_of_ne_zero fun h => hzero (UInt16.toNat_inj.mp h)
  · rw [hnumber]
    exact Nat.not_lt.mp hmany
  · rw [hnumber, Array.length_toList, hsize, show 20 = 16 + 4 from rfl, Nat.add_right_comm]
    exact hheaders

/-- A block that is what a root says is read as it. -/
theorem Stored.parse_eq {data : Bytes} (h : root.Stored data) :
    Cursor.parse read data = .ok root := by
  obtain ⟨tail, hdata⟩ := h.start
  have hsize : 20 + root.versionRaw.length ≤ data.size := by
    rw [← root.length_start root.headers.length, ← Array.length_toList]
    exact h.start.length_le
  have hversion : (UInt32.ofNat root.versionRaw.length).toNat = root.versionRaw.length :=
    UInt32.toNat_ofNat_of_lt' h.version_lt
  have hcount : (UInt16.ofNat root.headers.length).toNat = root.headers.length :=
    UInt16.toNat_ofNat_of_lt' (Nat.lt_of_le_of_lt h.le_streamLimit (by decide))
  obtain ⟨last, hpasses⟩ :
      ∃ last, Cursor.Passes ⟨data, 0⟩ (root.start root.headers.length) last :=
    ⟨_, Cursor.passes_of_rest hdata.symm (Nat.zero_le _)⟩
  obtain ⟨c1, hmagic, hpasses⟩ := Cursor.passes_append_iff.mp hpasses
  obtain ⟨c2, hmajor, hpasses⟩ := Cursor.passes_append_iff.mp hpasses
  obtain ⟨c3, hminor, hpasses⟩ := Cursor.passes_append_iff.mp hpasses
  obtain ⟨c4, hreserved, hpasses⟩ := Cursor.passes_append_iff.mp hpasses
  obtain ⟨c5, hword, hpasses⟩ := Cursor.passes_append_iff.mp hpasses
  obtain ⟨c6, hraw, hpasses⟩ := Cursor.passes_append_iff.mp hpasses
  obtain ⟨c7, hflags, hnumber⟩ := Cursor.passes_append_iff.mp hpasses
  rw [← hversion] at hword
  rw [← hcount] at hnumber
  suffices hrun : read.run ⟨data, 0⟩ = (.ok root, last) from congrArg Prod.fst hrun
  unfold read
  refine run_bind_eq_ok_iff.mpr ⟨⟨data, 0⟩, ⟨data, 0⟩, rfl, ?_⟩
  refine run_check_eq_ok_iff.mpr ⟨Nat.not_lt.mpr h.leastSize_le, ?_⟩
  refine run_bind_eq_ok_iff.mpr ⟨_, c1, Read.run_u32_eq_ok_iff.mpr hmagic, ?_⟩
  refine run_check_eq_ok_iff.mpr ⟨by simp, ?_⟩
  refine run_bind_eq_ok_iff.mpr ⟨_, c2, Read.run_u16_eq_ok_iff.mpr hmajor, ?_⟩
  refine run_bind_eq_ok_iff.mpr ⟨_, c3, Read.run_u16_eq_ok_iff.mpr hminor, ?_⟩
  refine run_bind_eq_ok_iff.mpr ⟨_, c4, Read.run_u32_eq_ok_iff.mpr hreserved, ?_⟩
  refine run_bind_eq_ok_iff.mpr ⟨_, c5, Read.run_u32_eq_ok_iff.mpr hword, ?_⟩
  refine run_check_eq_ok_iff.mpr ⟨by rw [hversion]; simp only; omega, ?_⟩
  refine run_bind_eq_ok_iff.mpr ⟨root.versionRaw.toArray, c6,
    Read.run_bytes_eq_ok_iff.mpr ⟨by rw [hversion, List.size_toArray], hraw⟩, ?_⟩
  refine run_bind_eq_ok_iff.mpr ⟨_, c7, Read.run_u16_eq_ok_iff.mpr hflags, ?_⟩
  refine run_bind_eq_ok_iff.mpr ⟨_, last, Read.run_u16_eq_ok_iff.mpr hnumber, ?_⟩
  refine run_check_eq_ok_iff.mpr ⟨not_or.mpr ⟨?_, ?_⟩, ?_⟩
  · intro hzero
    rw [hzero] at hcount
    exact absurd hcount (Nat.ne_of_lt h.pos)
  · rw [hcount]
    exact Nat.not_lt.mpr h.le_streamLimit
  have hheaders := h.headers
  rw [show 20 = 16 + 4 from rfl, Nat.add_right_comm] at hheaders
  rw [hversion, hcount, hheaders]
  rfl

/-- A block is read as a root when it is what the root says. -/
theorem parse_read_eq_ok_iff {data : Bytes} : Cursor.parse read data = .ok root ↔ root.Stored data :=
  ⟨stored_of_parse, Stored.parse_eq⟩

/-- A root that was read has few headers, all with names, and a version text that can be counted. -/
theorem facts_of_read {data : Bytes} (h : Cursor.parse read data = .ok root) :
    root.headers.length ≤ streamLimit ∧ root.versionRaw.length < UInt32.size ∧
      ∀ header ∈ root.headers, header.name ∈ StreamHeader.names := by
  have hstored := stored_of_parse h
  exact ⟨hstored.le_streamLimit, hstored.version_lt, (facts_of_readHeaders hstored.headers).2⟩

end MetadataRoot

end CilPatch
