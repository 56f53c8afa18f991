/-!
# Keccak-256

The hash function that Ethereum uses: the Keccak sponge with a rate of 136 bytes and
the padding byte 1, cut to 32 bytes. Sources are told apart by it, and the first four
bytes of the hash of a function signature select the function.

## The permutation

The state is 25 lanes of 64 bits; lane `x + 5 y` stands in column `x` and row `y`. A
round mixes columns, rotates and moves lanes, combines rows, and adds a constant.
-/

namespace AsmLens.Keccak

/-- The lanes of the state. -/
abbrev Lanes := Array UInt64

/-- A lane of the state. -/
def lane (s : Lanes) (i : Nat) : UInt64 := s.getD i 0

/-- A lane rotated to the left. -/
def rotate (w : UInt64) (n : Nat) : UInt64 :=
  if n % 64 = 0 then w else (w <<< (n % 64).toUInt64) ||| (w >>> (64 - n % 64).toUInt64)

/-- The state whose lane `i` is `f i`. -/
def tabulate (f : Nat → UInt64) : Lanes := (Array.range 25).map f

/-- By how much each lane is rotated. -/
def rotations : Array Nat :=
  #[0, 1, 62, 28, 27, 36, 44, 6, 55, 20, 3, 10, 43, 25, 39, 41, 45, 15, 21, 8, 18, 2, 61, 56, 14]

/-- What each round adds to the first lane. -/
def roundConstants : List UInt64 :=
  [0x0000000000000001, 0x0000000000008082, 0x800000000000808a, 0x8000000080008000,
   0x000000000000808b, 0x0000000080000001, 0x8000000080008081, 0x8000000000008009,
   0x000000000000008a, 0x0000000000000088, 0x0000000080008009, 0x000000008000000a,
   0x000000008000808b, 0x800000000000008b, 0x8000000000008089, 0x8000000000008003,
   0x8000000000008002, 0x8000000000000080, 0x000000000000800a, 0x800000008000000a,
   0x8000000080008081, 0x8000000000008080, 0x0000000080000001, 0x8000000080008008]

/-- Each lane with the parities of two columns added. -/
def mixColumns (s : Lanes) : Lanes :=
  let parity := (Array.range 5).map fun x =>
    lane s x ^^^ lane s (x + 5) ^^^ lane s (x + 10) ^^^ lane s (x + 15) ^^^ lane s (x + 20)
  tabulate fun i =>
    lane s i ^^^ lane parity ((i + 4) % 5) ^^^ rotate (lane parity ((i + 1) % 5)) 1

/-- Each lane rotated and moved: row `y` and column `x` receive what stood in column `x + 3 y`. -/
def moveLanes (s : Lanes) : Lanes :=
  tabulate fun i =>
    let j := (i % 5 + 3 * (i / 5)) % 5 + 5 * (i % 5)
    rotate (lane s j) (rotations.getD j 0)

/-- Each lane combined with the next two of its row. -/
def combineRows (s : Lanes) : Lanes :=
  tabulate fun i =>
    let row := i - i % 5
    lane s i ^^^ (~~~ lane s (row + (i + 1) % 5) &&& lane s (row + (i + 2) % 5))

/-- One round of the permutation. -/
def round (s : Lanes) (c : UInt64) : Lanes :=
  (combineRows (moveLanes (mixColumns s))).modify 0 (· ^^^ c)

/-- The permutation of the state. -/
def permute (s : Lanes) : Lanes := roundConstants.foldl round s

/-! ## The sponge -/

/-- The number of bytes taken in between two permutations. -/
def rate : Nat := 136

/-- The bytes filled up to a whole number of blocks. -/
def pad (bs : List UInt8) : List UInt8 :=
  let missing := rate - bs.length % rate
  if missing = 1 then bs ++ [0x81]
  else bs ++ 0x01 :: List.replicate (missing - 2) 0 ++ [0x80]

/-- Eight bytes as a lane, the lowest first. -/
def laneOfBytes (bs : List UInt8) : UInt64 := bs.foldr (fun b w => (w <<< 8) ||| b.toUInt64) 0

/-- A block added to the state. -/
def absorb (s : Lanes) (block : List UInt8) : Lanes :=
  tabulate fun i => lane s i ^^^ laneOfBytes ((block.drop (8 * i)).take 8)

/-- The state after all blocks of some bytes. -/
def absorbAll (s : Lanes) (bs : List UInt8) : Lanes :=
  if _h : bs.length < rate then s
  else absorbAll (permute (absorb s (bs.take rate))) (bs.drop rate)
termination_by bs.length
decreasing_by
  have : 0 < rate := by decide
  simp; omega

/-- A lane as eight bytes, the lowest first. -/
def bytesOfLane (w : UInt64) : List UInt8 :=
  (List.range 8).map fun i => (w >>> (8 * i).toUInt64).toUInt8

/-- The 32 bytes of the hash. -/
def hash (bs : List UInt8) : List UInt8 :=
  let s := absorbAll (tabulate fun _ => 0) (pad bs)
  (List.range 4).flatMap fun i => bytesOfLane (lane s i)

end AsmLens.Keccak
