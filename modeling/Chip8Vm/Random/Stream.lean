/-!
# Chip8Vm.Random.Stream

Random bytes that a seed fixes.

Which bytes belong to a seed is not said here: a stream carries the generator's answer for every
seed, the bytes that are in use, and how many of these were taken.  A new stream may use any
bytes, such as those of a seed that nobody knows; the bytes of a known seed are in use from the
moment that it is set.
-/

namespace Chip8Vm.Random

structure Stream where
  /-- The bytes of every seed, counted from zero. -/
  ofSeed : UInt64 → Nat → UInt8
  /-- The bytes in use. -/
  bytes : Nat → UInt8
  /-- How many of them were taken. -/
  taken : Nat := 0

namespace Stream

/-- The stream of a generator that was started from a seed. -/
def seeded (ofSeed : UInt64 → Nat → UInt8) (seed : UInt64) : Stream where
  ofSeed := ofSeed
  bytes := ofSeed seed

/-- Go on with the bytes of a seed, from the first one. -/
def reseed (s : Stream) (seed : UInt64) : Stream := .seeded s.ofSeed seed

def next (s : Stream) : UInt8 × Stream := (s.bytes s.taken, { s with taken := s.taken + 1 })

end Stream

end Chip8Vm.Random
