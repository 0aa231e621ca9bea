import CodeQuality.Text.Quoted

namespace CodeQuality
namespace Digest

/-!
SHA-256 of a text.

The text is taken as its UTF-8 bytes, padded to whole blocks of sixty-four bytes,
and folded block by block into eight words.  The result is shown in lower-case
hexadecimal digits.
-/

/-- The eight chaining words. -/
structure Chain where
  a : UInt32
  b : UInt32
  c : UInt32
  d : UInt32
  e : UInt32
  f : UInt32
  g : UInt32
  h : UInt32

/-- The chaining words before the first block. -/
def initial : Chain :=
  ⟨0x6a09e667, 0xbb67ae85, 0x3c6ef372, 0xa54ff53a, 0x510e527f, 0x9b05688c, 0x1f83d9ab, 0x5be0cd19⟩

/-- The constants of the sixty-four rounds. -/
def roundConstants : Array UInt32 := #[
  0x428a2f98, 0x71374491, 0xb5c0fbcf, 0xe9b5dba5, 0x3956c25b, 0x59f111f1, 0x923f82a4, 0xab1c5ed5,
  0xd807aa98, 0x12835b01, 0x243185be, 0x550c7dc3, 0x72be5d74, 0x80deb1fe, 0x9bdc06a7, 0xc19bf174,
  0xe49b69c1, 0xefbe4786, 0x0fc19dc6, 0x240ca1cc, 0x2de92c6f, 0x4a7484aa, 0x5cb0a9dc, 0x76f988da,
  0x983e5152, 0xa831c66d, 0xb00327c8, 0xbf597fc7, 0xc6e00bf3, 0xd5a79147, 0x06ca6351, 0x14292967,
  0x27b70a85, 0x2e1b2138, 0x4d2c6dfc, 0x53380d13, 0x650a7354, 0x766a0abb, 0x81c2c92e, 0x92722c85,
  0xa2bfe8a1, 0xa81a664b, 0xc24b8b70, 0xc76c51a3, 0xd192e819, 0xd6990624, 0xf40e3585, 0x106aa070,
  0x19a4c116, 0x1e376c08, 0x2748774c, 0x34b0bcb5, 0x391c0cb3, 0x4ed8aa4a, 0x5b9cca4f, 0x682e6ff3,
  0x748f82ee, 0x78a5636f, 0x84c87814, 0x8cc70208, 0x90befffa, 0xa4506ceb, 0xbef9a3f7, 0xc67178f2]

/-- Rotation of a word to the right. -/
def rotate (word : UInt32) (count : UInt32) : UInt32 :=
  (word >>> count) ||| (word <<< (32 - count))

/-- The padded message: the bytes, a set bit, zeros, and the length in bits. -/
def padded (bytes : List UInt8) : List UInt8 :=
  let size := bytes.length
  let zeros := (119 - size % 64) % 64
  let bits := 8 * size
  let lengthBytes := (List.range 8).map fun i => UInt8.ofNat (bits / Nat.pow 256 (7 - i))
  bytes ++ [0x80] ++ List.replicate zeros 0 ++ lengthBytes

/-- The bytes as big-endian words; a rest of fewer than four bytes is dropped. -/
def bigEndianWords : List UInt8 → List UInt32
  | p :: q :: r :: s :: rest =>
      ((p.toUInt32 <<< 24) ||| (q.toUInt32 <<< 16) ||| (r.toUInt32 <<< 8) ||| s.toUInt32) ::
        bigEndianWords rest
  | _ => []

/-- The message schedule after `count` words have been added to those of the block. -/
def extendSchedule : (count : Nat) → Array UInt32 → Array UInt32
  | 0, words => words
  | count + 1, words =>
      let at' := fun back => words.getD (words.size - back) 0
      let w15 := at' 15
      let w2 := at' 2
      let s0 := rotate w15 7 ^^^ rotate w15 18 ^^^ (w15 >>> 3)
      let s1 := rotate w2 17 ^^^ rotate w2 19 ^^^ (w2 >>> 10)
      extendSchedule count (words.push (at' 16 + s0 + at' 7 + s1))

/-- One round. -/
def round (state : Chain) (constant word : UInt32) : Chain :=
  let s1 := rotate state.e 6 ^^^ rotate state.e 11 ^^^ rotate state.e 25
  let choice := (state.e &&& state.f) ^^^ ((~~~ state.e) &&& state.g)
  let t1 := state.h + s1 + choice + constant + word
  let s0 := rotate state.a 2 ^^^ rotate state.a 13 ^^^ rotate state.a 22
  let majority := (state.a &&& state.b) ^^^ (state.a &&& state.c) ^^^ (state.b &&& state.c)
  ⟨t1 + (s0 + majority), state.a, state.b, state.c, state.d + t1, state.e, state.f, state.g⟩

/-- The sixty-four rounds over a schedule. -/
def rounds (state : Chain) (schedule : Array UInt32) : Chain :=
  (List.range 64).foldl
    (fun state i => round state (roundConstants.getD i 0) (schedule.getD i 0)) state

/-- Fold one block of sixteen words into the chaining words. -/
def compress (state : Chain) (block : List UInt32) : Chain :=
  let mixed := rounds state (extendSchedule 48 block.toArray)
  ⟨state.a + mixed.a, state.b + mixed.b, state.c + mixed.c, state.d + mixed.d,
    state.e + mixed.e, state.f + mixed.f, state.g + mixed.g, state.h + mixed.h⟩

/-- Fold all words, sixteen at a time; `blocks` is the number of blocks. -/
def compressAll : (blocks : Nat) → Chain → List UInt32 → Chain
  | 0, state, _ => state
  | blocks + 1, state, words => compressAll blocks (compress state (words.take 16)) (words.drop 16)

/-- The eight hexadecimal digits of a word. -/
def wordDigits (word : UInt32) : List Char := Text.hexDigits 8 word.toNat

/-- The hexadecimal digest of a list of bytes. -/
def ofBytes (bytes : List UInt8) : String :=
  let words := bigEndianWords (padded bytes)
  let final := compressAll (words.length / 16) initial words
  String.ofList <| [final.a, final.b, final.c, final.d, final.e, final.f, final.g, final.h].flatMap
    wordDigits

/-- The hexadecimal digest of a text. -/
def ofText (text : String) : String := ofBytes text.toUTF8.toList

/-- The first digits of the digest of a text. -/
def short (width : Nat) (text : String) : String :=
  String.ofList ((ofText text).toList.take width)

end Digest
end CodeQuality
