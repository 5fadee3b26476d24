import ChainClient.Bytes

/-!
# `ChainClient.Crypto.Sha256` — SHA-256 and the keyed hash built on it

Signing draws its secret numbers from a keyed SHA-256, so that the same key and digest always give
the same signature.

## Contents
- **Compression.** `schedule` stretches a block to 64 words, `compress` stirs them into the hash
  value.
- **Hash.** `sha256` is the hash of a byte string.
- **Keyed hash.** `hmac` is HMAC with SHA-256.
-/

namespace ChainClient.Crypto.Sha256

/-! ## Compression -/

/-- The constants of the 64 steps. -/
def stepConstants : List UInt32 := [
  0x428A2F98, 0x71374491, 0xB5C0FBCF, 0xE9B5DBA5, 0x3956C25B, 0x59F111F1, 0x923F82A4, 0xAB1C5ED5,
  0xD807AA98, 0x12835B01, 0x243185BE, 0x550C7DC3, 0x72BE5D74, 0x80DEB1FE, 0x9BDC06A7, 0xC19BF174,
  0xE49B69C1, 0xEFBE4786, 0x0FC19DC6, 0x240CA1CC, 0x2DE92C6F, 0x4A7484AA, 0x5CB0A9DC, 0x76F988DA,
  0x983E5152, 0xA831C66D, 0xB00327C8, 0xBF597FC7, 0xC6E00BF3, 0xD5A79147, 0x06CA6351, 0x14292967,
  0x27B70A85, 0x2E1B2138, 0x4D2C6DFC, 0x53380D13, 0x650A7354, 0x766A0ABB, 0x81C2C92E, 0x92722C85,
  0xA2BFE8A1, 0xA81A664B, 0xC24B8B70, 0xC76C51A3, 0xD192E819, 0xD6990624, 0xF40E3585, 0x106AA070,
  0x19A4C116, 0x1E376C08, 0x2748774C, 0x34B0BCB5, 0x391C0CB3, 0x4ED8AA4A, 0x5B9CCA4F, 0x682E6FF3,
  0x748F82EE, 0x78A5636F, 0x84C87814, 0x8CC70208, 0x90BEFFFA, 0xA4506CEB, 0xBEF9A3F7, 0xC67178F2]

/-- The hash value while it is being computed. -/
structure State where
  (a b c d e f g h : UInt32)

/-- The hash value of no block. -/
def State.initial : State :=
  ⟨0x6A09E667, 0xBB67AE85, 0x3C6EF372, 0xA54FF53A, 0x510E527F, 0x9B05688C, 0x1F83D9AB, 0x5BE0CD19⟩

/-- The words of a state. -/
def State.words (s : State) : List UInt32 := [s.a, s.b, s.c, s.d, s.e, s.f, s.g, s.h]

/-- A word turned towards its low end. -/
def rotate (w by_ : UInt32) : UInt32 := (w >>> by_) ||| (w <<< (32 - by_))

/-- The words spelled by groups of four bytes; what is left over does not count. -/
def wordsOf : Bytes → List UInt32
  | b0 :: b1 :: b2 :: b3 :: rest =>
    ((b0.toUInt32 <<< 24) ||| (b1.toUInt32 <<< 16) ||| (b2.toUInt32 <<< 8) ||| b3.toUInt32)
      :: wordsOf rest
  | _ => []

/-- The word that follows the ones in `recent`, which are held latest first. -/
def nextWord (recent : List UInt32) : UInt32 :=
  let w2 := recent.getD 1 0
  let w7 := recent.getD 6 0
  let w15 := recent.getD 14 0
  let w16 := recent.getD 15 0
  let s0 := rotate w15 7 ^^^ rotate w15 18 ^^^ (w15 >>> 3)
  let s1 := rotate w2 17 ^^^ rotate w2 19 ^^^ (w2 >>> 10)
  w16 + s0 + w7 + s1

/-- `count` more words in front of those held latest first. -/
def stretch : (count : Nat) → List UInt32 → List UInt32
  | 0, recent => recent
  | count + 1, recent => stretch count (nextWord recent :: recent)

/-- The 64 words of a block. -/
def schedule (block : Bytes) : List UInt32 := (stretch 48 (wordsOf block).reverse).reverse

/-- One step, with its constant and its word. -/
def step (s : State) (constant word : UInt32) : State :=
  let s1 := rotate s.e 6 ^^^ rotate s.e 11 ^^^ rotate s.e 25
  let choice := (s.e &&& s.f) ^^^ (~~~s.e &&& s.g)
  let t1 := s.h + s1 + choice + constant + word
  let s0 := rotate s.a 2 ^^^ rotate s.a 13 ^^^ rotate s.a 22
  let majority := (s.a &&& s.b) ^^^ (s.a &&& s.c) ^^^ (s.b &&& s.c)
  ⟨t1 + (s0 + majority), s.a, s.b, s.c, s.d + t1, s.e, s.f, s.g⟩

/-- The hash value after one more block. -/
def compress (s : State) (block : Bytes) : State :=
  let t := (stepConstants.zip (schedule block)).foldl (fun t kw => step t kw.1 kw.2) s
  ⟨s.a + t.a, s.b + t.b, s.c + t.c, s.d + t.d, s.e + t.e, s.f + t.f, s.g + t.g, s.h + t.h⟩

/-! ## Hash -/

/-- The message filled up to whole blocks, its length in bits at the end. -/
def pad (message : Bytes) : Bytes :=
  message ++ 0x80 :: List.replicate ((119 - message.length % 64) % 64) 0 ++
    Bytes.ofNat 8 (8 * message.length)

/-- The hash value after a number of blocks. -/
def compressBlocks : (blocks : Nat) → Bytes → State → State
  | 0, _, s => s
  | blocks + 1, bs, s => compressBlocks blocks (bs.drop 64) (compress s (bs.take 64))

/-- The SHA-256 hash of a byte string, 32 bytes. -/
def sha256 (message : Bytes) : Bytes :=
  let padded := pad message
  let final := compressBlocks (padded.length / 64) padded State.initial
  final.words.flatMap fun w => Bytes.ofNat 4 w.toNat

/-! ## Keyed hash -/

/-- HMAC with SHA-256. -/
def hmac (key message : Bytes) : Bytes :=
  let block := Bytes.padRight 64 (if 64 < key.length then sha256 key else key)
  let inner := sha256 (block.map (· ^^^ 0x36) ++ message)
  sha256 (block.map (· ^^^ 0x5C) ++ inner)

end ChainClient.Crypto.Sha256
