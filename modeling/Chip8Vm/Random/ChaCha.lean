import Chip8Vm.Nibble
import Chip8Vm.Random.Stream

/-!
# Chip8Vm.Random.ChaCha

The generator that the program runs with.

Its words are those of the ChaCha cipher with twelve rounds, block after block; the key is drawn
from the seed by a small congruential generator.  Every random byte is the low byte of the next
word, so the `k`-th byte of a seed is a function of the two: `ChaCha.byte`.
-/

namespace Chip8Vm.Random

namespace ChaCha

/-! ## The cipher -/

abbrev Block := Vector UInt32 16

def rotateLeft (w n : UInt32) : UInt32 := (w <<< n) ||| (w >>> (32 - n))

/-- One quarter round on four places of the state. -/
def quarterRound (s : Block) (a b c d : Nibble) : Block :=
  let s := s.set a.val (s[a.val] + s[b.val])
  let s := s.set d.val (rotateLeft (s[d.val] ^^^ s[a.val]) 16)
  let s := s.set c.val (s[c.val] + s[d.val])
  let s := s.set b.val (rotateLeft (s[b.val] ^^^ s[c.val]) 12)
  let s := s.set a.val (s[a.val] + s[b.val])
  let s := s.set d.val (rotateLeft (s[d.val] ^^^ s[a.val]) 8)
  let s := s.set c.val (s[c.val] + s[d.val])
  s.set b.val (rotateLeft (s[b.val] ^^^ s[c.val]) 7)

/-- Two rounds: the columns, then the diagonals. -/
def doubleRound (s : Block) : Block :=
  let s := quarterRound s 0 4 8 12
  let s := quarterRound s 1 5 9 13
  let s := quarterRound s 2 6 10 14
  let s := quarterRound s 3 7 11 15
  let s := quarterRound s 0 5 10 15
  let s := quarterRound s 1 6 11 12
  let s := quarterRound s 2 7 8 13
  quarterRound s 3 4 9 14

/-- Six double rounds. -/
def scramble (s : Block) : Block :=
  doubleRound (doubleRound (doubleRound (doubleRound (doubleRound (doubleRound s)))))

/-- The state before the rounds: four constants, the key, the number of the
block, and a stream number of zero. -/
def start (key : Vector UInt32 8) (block : UInt64) : Block :=
  #v[0x61707865, 0x3320646e, 0x79622d32, 0x6b206574,
    key[0], key[1], key[2], key[3], key[4], key[5], key[6], key[7],
    block.toUInt32, (block >>> 32).toUInt32, 0, 0]

/-- The words of a block: the scrambled state plus the state. -/
def words (key : Vector UInt32 8) (block : UInt64) : Block :=
  let s := start key block
  Vector.zipWith (· + ·) (scramble s) s

/-! ## The key -/

def advance (state : UInt64) : UInt64 := state * 6364136223846793005 + 11634580027462260723

/-- The word that a state of that generator gives. -/
def output (state : UInt64) : UInt32 :=
  let x := (((state >>> 18) ^^^ state) >>> 27).toUInt32
  let n := (state >>> 59).toUInt32
  (x >>> n) ||| (x <<< ((32 - n) % 32))

/-- The key of a seed. -/
def key (seed : UInt64) : Vector UInt32 8 :=
  let s1 := advance seed
  let s2 := advance s1
  let s3 := advance s2
  let s4 := advance s3
  let s5 := advance s4
  let s6 := advance s5
  let s7 := advance s6
  let s8 := advance s7
  #v[output s1, output s2, output s3, output s4, output s5, output s6, output s7, output s8]

/-! ## The bytes -/

/-- The `k`-th random byte of a seed, counted from zero. -/
def byte (seed : UInt64) (k : Nat) : UInt8 :=
  ((words (key seed) (UInt64.ofNat (k / 16))).get (Nibble.ofNat k)).toUInt8

end ChaCha

/-- The generator of the program, started from a seed. -/
def Stream.chacha (seed : UInt64) : Stream := .seeded ChaCha.byte seed

end Chip8Vm.Random
