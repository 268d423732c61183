/-!
# The ChaCha12 keystream

A keystream of 64-bit words that depends on a 256-bit key alone, as a function of the position: word
`n` is read from block `n / 8`, and the block number is the counter. The nonce is zero.

The counter has 64 bits, so the keystream is periodic.

`keyOfSeed` stretches a 64-bit seed to a key with a linear congruential generator whose state is
permuted by a shift and a rotation that it chooses itself.
-/

namespace RayTracer.Random

abbrev Key := Vector UInt32 8

abbrev Block := Vector UInt32 16

def rotateLeft (w : UInt32) (n : UInt32) : UInt32 := w <<< n ||| w >>> (32 - n)

def rotateRight (w : UInt32) (n : UInt32) : UInt32 := w >>> n ||| w <<< ((32 - n) % 32)

/-! ## Seeding -/

/-- One step of the seed generator. -/
def advanceSeed (state : UInt64) : UInt64 := state * 6364136223846793005 + 11634580027462260723

/-- The key word that a state of the seed generator gives. -/
def seedWord (state : UInt64) : UInt32 :=
  rotateRight (((state >>> 18) ^^^ state) >>> 27).toUInt32 (state >>> 59).toUInt32

/-- Word `i` of the key comes from the state after `i + 1` steps. -/
def keyOfSeed (seed : UInt64) : Key :=
  Vector.ofFn fun i => seedWord ((i.val + 1).repeat advanceSeed seed)

/-! ## Blocks -/

def quarterRound (a b c d : Fin 16) (s : Block) : Block :=
  let s := s.set a (s[a] + s[b])
  let s := s.set d (rotateLeft (s[d] ^^^ s[a]) 16)
  let s := s.set c (s[c] + s[d])
  let s := s.set b (rotateLeft (s[b] ^^^ s[c]) 12)
  let s := s.set a (s[a] + s[b])
  let s := s.set d (rotateLeft (s[d] ^^^ s[a]) 8)
  let s := s.set c (s[c] + s[d])
  s.set b (rotateLeft (s[b] ^^^ s[c]) 7)

/-- A round on the columns of the 4 × 4 block and one on its diagonals. -/
def doubleRound (s : Block) : Block :=
  let s := quarterRound 0 4 8 12 s
  let s := quarterRound 1 5 9 13 s
  let s := quarterRound 2 6 10 14 s
  let s := quarterRound 3 7 11 15 s
  let s := quarterRound 0 5 10 15 s
  let s := quarterRound 1 6 11 12 s
  let s := quarterRound 2 7 8 13 s
  quarterRound 3 4 9 14 s

/-- The constants "expand 32-byte k", the key, the block number in two words, and a zero nonce. -/
def initialBlock (key : Key) (counter : UInt64) : Block :=
  #v[0x61707865, 0x3320646e, 0x79622d32, 0x6b206574,
    key[0], key[1], key[2], key[3], key[4], key[5], key[6], key[7],
    counter.toUInt32, (counter >>> 32).toUInt32, 0, 0]

/-- Twelve rounds, added to the block that they started from. -/
def block (key : Key) (counter : UInt64) : Block :=
  let initial := initialBlock key counter
  Vector.zipWith (· + ·) initial (Nat.repeat doubleRound 6 initial)

/-- The 64-bit word at a position of the keystream, the lower half first. -/
def keystream (key : Key) (position : Nat) : UInt64 :=
  let b := block key (UInt64.ofNat (position / 8))
  let i := 2 * (position % 8)
  (b.get ⟨i + 1, by omega⟩).toUInt64 <<< 32 ||| (b.get ⟨i, by omega⟩).toUInt64

/-- The number of words after which the counter, and so the keystream, starts over: eight words in
each block. -/
def period : Nat := 8 * UInt64.size

end RayTracer.Random
