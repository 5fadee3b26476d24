import ChainClient.Digest

/-!
# `ChainClient.Crypto.Keccak` — the Keccak-256 hash

The sponge over the 1600-bit permutation with a rate of 136 bytes, in the padding that predates the
standardised SHA-3: a single one bit, zeros, and a last one bit.

## Contents
- **Permutation.** A `State` is 25 lanes of 64 bits, lane `x + 5 * y` in column `x` and row `y`;
  `permute` applies 24 rounds.
- **Sponge.** `pad` fills the last block, `absorb` feeds blocks to the state.
- **Hash.** `keccak256` is the hash of a byte string, `keccak256Parts` of several laid end to end.
-/

namespace ChainClient.Crypto.Keccak

/-! ## Permutation -/

/-- The lanes of the permutation, row after row. -/
abbrev State := Vector UInt64 25

/-- The constants added to the first lane, one a round. -/
def roundConstants : List UInt64 := [
  0x0000000000000001, 0x0000000000008082, 0x800000000000808A, 0x8000000080008000,
  0x000000000000808B, 0x0000000080000001, 0x8000000080008081, 0x8000000000008009,
  0x000000000000008A, 0x0000000000000088, 0x0000000080008009, 0x000000008000000A,
  0x000000008000808B, 0x800000000000008B, 0x8000000000008089, 0x8000000000008003,
  0x8000000000008002, 0x8000000000000080, 0x000000000000800A, 0x800000008000000A,
  0x8000000080008081, 0x8000000000008080, 0x0000000080000001, 0x8000000080008008]

/-- How far each lane turns, lane after lane. -/
def rotations : Vector UInt64 25 :=
  #v[0, 1, 62, 28, 27, 36, 44, 6, 55, 20, 3, 10, 43, 25, 39, 41, 45, 15, 21, 8, 18, 2, 61, 56, 14]

/-- A lane turned towards its high end. -/
def rotate (lane by_ : UInt64) : UInt64 :=
  if by_ = 0 then lane else (lane <<< by_) ||| (lane >>> (64 - by_))

/-- The lane of a state at a column and a row, both counted modulo five. -/
def State.lane (s : State) (x y : Nat) : UInt64 :=
  s.get ⟨x % 5 + 5 * (y % 5), by omega⟩

/-- The entry of five at an index counted modulo five. -/
def column (five : Vector UInt64 5) (x : Nat) : UInt64 := five.get ⟨x % 5, by omega⟩

/-- Adds to each lane the parities of two neighbouring columns. -/
def mixColumns (s : State) : State :=
  let parity : Vector UInt64 5 := Vector.ofFn fun x =>
    s.lane x 0 ^^^ s.lane x 1 ^^^ s.lane x 2 ^^^ s.lane x 3 ^^^ s.lane x 4
  let spread : Vector UInt64 5 := Vector.ofFn fun x =>
    column parity (x.val + 4) ^^^ rotate (column parity (x.val + 1)) 1
  Vector.ofFn fun i => s[i] ^^^ column spread i.val

/-- Turns the lanes and moves them to new places. -/
def scatter (s : State) : State :=
  Vector.ofFn fun i =>
    let x := i.val % 5
    let y := i.val / 5
    let source : Fin 25 := ⟨(x + 3 * y) % 5 + 5 * x, by omega⟩
    rotate s[source] rotations[source]

/-- Combines each lane with the next two of its row. -/
def mixRows (s : State) : State :=
  Vector.ofFn fun i =>
    let x := i.val % 5
    let y := i.val / 5
    s[i] ^^^ (~~~(s.lane (x + 1) y) &&& s.lane (x + 2) y)

/-- One round of the permutation. -/
def round (s : State) (constant : UInt64) : State :=
  let mixed := mixRows (scatter (mixColumns s))
  mixed.set 0 (mixed[0] ^^^ constant)

/-- The permutation. -/
def permute (s : State) : State := roundConstants.foldl round s

/-! ## Sponge -/

/-- The number of bytes that enter the state between two permutations. -/
def rate : Nat := 136

/-- The message filled up to whole blocks. -/
def pad (message : Bytes) : Bytes :=
  let missing := rate - message.length % rate
  message ++
    if missing = 1 then [0x81] else 0x01 :: List.replicate (missing - 2) 0 ++ [0x80]

/-- The lane spelled by the first eight bytes, least significant first. -/
def laneOf (bs : Bytes) : UInt64 :=
  (bs.take 8).reverse.foldl (fun acc b => acc * 256 + b.toUInt64) 0

/-- The state after adding one block and permuting. -/
def absorbBlock (s : State) (block : Bytes) : State :=
  permute (Vector.ofFn fun i =>
    if i.val < rate / 8 then s[i] ^^^ laneOf (block.drop (8 * i.val)) else s[i])

/-- The state after adding a number of blocks. -/
def absorb : (blocks : Nat) → Bytes → State → State
  | 0, _, s => s
  | blocks + 1, bs, s => absorb blocks (bs.drop rate) (absorbBlock s (bs.take rate))

/-- The bytes of a lane, least significant first. -/
def laneBytes (lane : UInt64) : Bytes := (Bytes.ofNat 8 lane.toNat).reverse

/-! ## Hash -/

/-- The Keccak-256 hash of a byte string. -/
def keccak256 (message : Bytes) : Digest :=
  let padded := pad message
  let final := absorb (padded.length / rate) padded (Vector.replicate 25 0)
  .fit ((final.toList.take 4).flatMap laneBytes)

/-- The Keccak-256 hash of byte strings laid end to end. -/
def keccak256Parts (parts : List Bytes) : Digest := keccak256 parts.flatten

end ChainClient.Crypto.Keccak
