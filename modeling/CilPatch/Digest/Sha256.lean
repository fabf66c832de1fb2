import CilPatch.Bytes.LittleEndian
import CilPatch.Text.Hex

/-!
# SHA-256

The digest of FIPS 180-4. The message is padded to whole blocks of 64 bytes, each block is
spread out to 64 words, and one round a word mixes them into a state of eight words.
-/

namespace CilPatch.Sha256

/-- The eight words that the rounds work on. -/
structure State where
  /-- The first word. -/
  a : UInt32
  /-- The second word. -/
  b : UInt32
  /-- The third word. -/
  c : UInt32
  /-- The fourth word. -/
  d : UInt32
  /-- The fifth word. -/
  e : UInt32
  /-- The sixth word. -/
  f : UInt32
  /-- The seventh word. -/
  g : UInt32
  /-- The eighth word. -/
  h : UInt32

/-- The state before the first block. -/
def State.start : State where
  a := 0x6A09E667
  b := 0xBB67AE85
  c := 0x3C6EF372
  d := 0xA54FF53A
  e := 0x510E527F
  f := 0x9B05688C
  g := 0x1F83D9AB
  h := 0x5BE0CD19

/-- The words of two states added up. -/
def State.add (first second : State) : State where
  a := first.a + second.a
  b := first.b + second.b
  c := first.c + second.c
  d := first.d + second.d
  e := first.e + second.e
  f := first.f + second.f
  g := first.g + second.g
  h := first.h + second.h

/-- The words of a state, in order. -/
def State.words (state : State) : List UInt32 :=
  [state.a, state.b, state.c, state.d, state.e, state.f, state.g, state.h]

/-- The constants of the rounds. -/
def constants : List UInt32 :=
  [0x428A2F98, 0x71374491, 0xB5C0FBCF, 0xE9B5DBA5, 0x3956C25B, 0x59F111F1, 0x923F82A4,
    0xAB1C5ED5, 0xD807AA98, 0x12835B01, 0x243185BE, 0x550C7DC3, 0x72BE5D74, 0x80DEB1FE,
    0x9BDC06A7, 0xC19BF174, 0xE49B69C1, 0xEFBE4786, 0x0FC19DC6, 0x240CA1CC, 0x2DE92C6F,
    0x4A7484AA, 0x5CB0A9DC, 0x76F988DA, 0x983E5152, 0xA831C66D, 0xB00327C8, 0xBF597FC7,
    0xC6E00BF3, 0xD5A79147, 0x06CA6351, 0x14292967, 0x27B70A85, 0x2E1B2138, 0x4D2C6DFC,
    0x53380D13, 0x650A7354, 0x766A0ABB, 0x81C2C92E, 0x92722C85, 0xA2BFE8A1, 0xA81A664B,
    0xC24B8B70, 0xC76C51A3, 0xD192E819, 0xD6990624, 0xF40E3585, 0x106AA070, 0x19A4C116,
    0x1E376C08, 0x2748774C, 0x34B0BCB5, 0x391C0CB3, 0x4ED8AA4A, 0x5B9CCA4F, 0x682E6FF3,
    0x748F82EE, 0x78A5636F, 0x84C87814, 0x8CC70208, 0x90BEFFFA, 0xA4506CEB, 0xBEF9A3F7,
    0xC67178F2]

/-- A word with its bits turned to the right. -/
def rotate (word amount : UInt32) : UInt32 := word >>> amount ||| word <<< (32 - amount)

/-- Mixes one word with its constant into a state. -/
def round (state : State) (input : UInt32 × UInt32) : State :=
  let spread := rotate state.e 6 ^^^ rotate state.e 11 ^^^ rotate state.e 25
  let choice := (state.e &&& state.f) ^^^ (~~~state.e &&& state.g)
  let first := state.h + spread + choice + input.1 + input.2
  let spread := rotate state.a 2 ^^^ rotate state.a 13 ^^^ rotate state.a 22
  let majority := (state.a &&& state.b) ^^^ (state.a &&& state.c) ^^^ (state.b &&& state.c)
  {
    a := first + (spread + majority)
    b := state.a
    c := state.b
    d := state.c
    e := state.d + first
    f := state.e
    g := state.f
    h := state.g }

/-- Words with another one behind them that depends on the last sixteen. -/
def extend (words : Array UInt32) : Array UInt32 :=
  let back (count : Nat) : UInt32 := words.getD (words.size - count) 0
  let near := rotate (back 2) 17 ^^^ rotate (back 2) 19 ^^^ back 2 >>> 10
  let far := rotate (back 15) 7 ^^^ rotate (back 15) 18 ^^^ back 15 >>> 3
  words.push (back 16 + far + back 7 + near)

/-- The number in the four bytes at an offset, most significant first. -/
def wordAt (data : Bytes) (offset : Nat) : UInt32 :=
  (List.range 4).foldl (fun word index =>
    word <<< 8 ||| (data.getD (offset + index) 0).toUInt32) 0

/-- The words of a block, spread out to one for each round. -/
def schedule (data : Bytes) (block : Nat) : List UInt32 :=
  let words := (List.range 16).map fun index => wordAt data (64 * block + 4 * index)
  ((List.range 48).foldl (fun words _ => extend words) words.toArray).toList

/-- A block is spread out to one word for each round. -/
theorem length_schedule (data : Bytes) (block : Nat) : (schedule data block).length = 64 := by
  have hsize (steps : List Nat) (words : Array UInt32) :
      (steps.foldl (fun words _ => extend words) words).size = words.size + steps.length := by
    induction steps generalizing words with
    | nil => rfl
    | cons step rest ih =>
        rw [List.foldl_cons, ih]
        simp only [extend, Array.size_push, List.length_cons]
        omega
  simp [schedule, hsize]

/-- Mixes one block into a state. -/
def compress (data : Bytes) (state : State) (block : Nat) : State :=
  state.add ((constants.zip (schedule data block)).foldl round state)

/-- A message followed by a single bit, zeros and its length in bits, to whole blocks. -/
def pad (message : Bytes) : Bytes :=
  let zeros := (119 - message.size % 64) % 64
  message.push 0x80 ++ Array.replicate zeros 0 ++
    (LittleEndian.encode 8 (8 * message.size)).reverse

/-- A padded message consists of whole blocks. -/
theorem size_pad_mod (message : Bytes) : (pad message).size % 64 = 0 := by
  have hsize : (pad message).size = message.size + 1 + (119 - message.size % 64) % 64 + 8 := by
    rw [pad, ← Array.length_toList, Array.toList_appendList]
    simp only [List.length_append, Array.toList_append, Array.toList_push, Array.length_toList,
      List.length_cons, List.length_nil, Array.toList_replicate, List.length_replicate,
      List.length_reverse, LittleEndian.length_encode]
  omega

/-- The digest of a message. -/
def digest (message : Bytes) : List UInt8 :=
  let data := pad message
  let state := (List.range (data.size / 64)).foldl (compress data) State.start
  state.words.flatMap fun word => (LittleEndian.u32 word).reverse

/-- A digest has 32 bytes. -/
@[simp] theorem length_digest (message : Bytes) : (digest message).length = 32 := by
  simp [digest, State.words, LittleEndian.u32]

/-- The digest of a message in uppercase digits. -/
def text (message : Bytes) : String := Hex.bytesUpper (digest message)

end CilPatch.Sha256
