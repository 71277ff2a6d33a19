import MandatedVaultFactory.EncodingProofs

/-!
# Keccak-256

The hash function of the EVM, written so that it can be evaluated: the sponge state is
one number of 1600 bits, lane `(x, y)` standing at bit `64 * (x + 5 * y)`.  Whole planes
are combined by arithmetic on that number; only the rotations go lane by lane.

`withNat` passes a number on in evaluated form.  Without it a state would be evaluated
again at each of its uses. -/

namespace Keccak

open Encoding

/-- Evaluate a number before it is passed on. -/
def withNat {β : Type} (n : Nat) (k : Nat → β) : β :=
  Nat.casesOn n (k 0) (fun n => k (Nat.succ n))

@[simp] theorem withNat_eq {β : Type} (n : Nat) (k : Nat → β) : withNat n k = k n := by
  cases n <;> rfl

/-- The low 64 bits. -/
def laneMask : Nat := 2 ^ 64 - 1

/-- The five lanes of one plane. -/
def planeMask : Nat := 2 ^ 320 - 1

/-- A one in each of the five planes: multiplying copies a plane to all of them. -/
def planeOnes : Nat := 1 + 2 ^ 320 + 2 ^ 640 + 2 ^ 960 + 2 ^ 1280

/-- A one in each of the five lanes of a plane. -/
def laneOnes : Nat := 1 + 2 ^ 64 + 2 ^ 128 + 2 ^ 192 + 2 ^ 256

/-- Move every lane of a plane down by one place, cyclically. -/
def turnDown (plane : Nat) : Nat :=
  Nat.land (Nat.lor (Nat.shiftRight plane 64) (Nat.shiftLeft plane 256)) planeMask

/-- Move every lane of a plane up by one place, cyclically. -/
def turnUp (plane : Nat) : Nat :=
  Nat.land (Nat.lor (Nat.shiftLeft plane 64) (Nat.shiftRight plane 256)) planeMask

/-- Rotate each lane of a plane by one bit. -/
def rotateLanes (plane : Nat) : Nat :=
  Nat.lor (Nat.land (Nat.shiftLeft plane 1) (Nat.sub planeMask laneOnes))
    (Nat.land (Nat.shiftRight plane 63) laneOnes)

/-- θ: add to each lane the parities of two neighbouring columns. -/
def theta (a : Nat) : Nat :=
  withNat (Nat.land (Nat.xor a (Nat.xor (Nat.shiftRight a 320) (Nat.xor (Nat.shiftRight a 640)
    (Nat.xor (Nat.shiftRight a 960) (Nat.shiftRight a 1280))))) planeMask) fun parity =>
  withNat (turnDown parity) fun next =>
  Nat.xor a (Nat.mul (Nat.xor (turnUp parity) (rotateLanes next)) planeOnes)

/-- Rotation amounts, lane by lane. -/
def rotations : List Nat :=
  [0, 1, 62, 28, 27, 36, 44, 6, 55, 20, 3, 10, 43, 25, 39, 41, 45, 15, 21, 8, 18, 2, 61, 56, 14]

/-- The place lane `i` is moved to: `(x, y)` goes to `(y, 2 * x + 3 * y)`. -/
def destination (i : Nat) : Nat := i / 5 + 5 * ((2 * (i % 5) + 3 * (i / 5)) % 5)

/-- ρ and π: rotate each lane and move it. -/
def rhoPi (a : Nat) : List Nat → Nat → Nat → Nat
  | [], _, acc => acc
  | r :: rs, i, acc =>
      withNat (Nat.land (Nat.shiftRight a (Nat.mul 64 i)) laneMask) fun v =>
      withNat (Nat.land (Nat.lor (Nat.shiftLeft v r) (Nat.shiftRight v (Nat.sub 64 r)))
        laneMask) fun v =>
      withNat (Nat.lor acc (Nat.shiftLeft v (Nat.mul 64 (destination i)))) fun acc =>
      withNat (Nat.succ i) fun i => rhoPi a rs i acc

/-- Move the lanes of every plane of a state down by one place, cyclically. -/
def turnPlanes (a : Nat) : Nat :=
  Nat.lor (Nat.land (Nat.shiftRight a 64) (Nat.mul (2 ^ 256 - 1) planeOnes))
    (Nat.land (Nat.shiftLeft a 256) (Nat.mul (2 ^ 320 - 2 ^ 256) planeOnes))

/-- χ: the only step that is not linear. -/
def chi (a : Nat) : Nat :=
  withNat (turnPlanes a) fun next =>
  withNat (turnPlanes next) fun afterNext =>
  Nat.xor a (Nat.land (Nat.xor next (2 ^ 1600 - 1)) afterNext)

/-- ι: one constant for each of the 24 rounds. -/
def roundConstants : List Nat :=
  [0x0000000000000001, 0x0000000000008082, 0x800000000000808A, 0x8000000080008000,
   0x000000000000808B, 0x0000000080000001, 0x8000000080008081, 0x8000000000008009,
   0x000000000000008A, 0x0000000000000088, 0x0000000080008009, 0x000000008000000A,
   0x000000008000808B, 0x800000000000008B, 0x8000000000008089, 0x8000000000008003,
   0x8000000000008002, 0x8000000000000080, 0x000000000000800A, 0x800000008000000A,
   0x8000000080008081, 0x8000000000008080, 0x0000000080000001, 0x8000000080008008]

/-- The permutation of the sponge state. -/
def permute : List Nat → Nat → Nat
  | [], a => a
  | rc :: rcs, a =>
      withNat (theta a) fun a => withNat (rhoPi a rotations 0 0) fun a =>
      withNat (chi a) fun a => withNat (Nat.xor a rc) fun a => permute rcs a

/-- The number a little-endian byte string denotes. -/
def ofLittleEndian : Bytes → Nat
  | [] => 0
  | b :: bs => b.toNat + 256 * ofLittleEndian bs

/-- Keccak padding to whole blocks of 136 bytes. -/
def pad (m : Bytes) : Bytes :=
  if m.length % 136 = 135 then m ++ [0x81]
  else m ++ [0x01] ++ List.replicate (134 - m.length % 136) 0 ++ [0x80]

/-- Absorb `n` blocks of 1088 bits. -/
def absorb : Nat → Nat → Nat → Nat
  | 0, a, _ => a
  | n + 1, a, m =>
      withNat (permute roundConstants (Nat.xor a (Nat.mod m (2 ^ 1088)))) fun a =>
      withNat (Nat.shiftRight m 1088) fun m => absorb n a m

/-- `keccak256`: the first 32 bytes of the state, read as a big-endian word. -/
@[irreducible] def keccak256 (m : Bytes) : BitVec 256 :=
  let p := pad m
  BitVec.ofNat 256
    (ofBigEndian (bigEndian 32 (absorb (p.length / 136) 0 (ofLittleEndian p))).reverse)

example : keccak256 []
    = 0xc5d2460186f7233c927e7db2dcc703c0e500b653ca82273b7bfad8045d85a470#256 := by
  decide +kernel

end Keccak
