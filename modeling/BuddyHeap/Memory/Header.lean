import BuddyHeap.Memory.Order

/-! The word at the start of every block. From the lowest bit up it holds the
allocated bit, four bits of order, the padded bit, 26 unused bits and the
requested size. -/

namespace BuddyHeap

structure Header where
  allocated : Bool
  order : Nat
  padded : Bool
  /-- Bytes that the client asked for; without meaning in a free block. -/
  requested : UInt32
  deriving DecidableEq

namespace Header

def forRequest (order : Nat) (requested : UInt32) : Except Fault Header :=
  return ⟨true, order, (← requiredPadding order requested.toNat) != 0, requested⟩

def free (order : Nat) : Header := ⟨false, order, false, 0⟩

/-- Orders are kept modulo sixteen. -/
def encode (header : Header) : UInt64 :=
  UInt64.ofNat (header.allocated.toNat + header.order % 16 * 2 + header.padded.toNat * 2 ^ (5 : Nat) +
    header.requested.toNat * 2 ^ (32 : Nat))

def decode (word : UInt64) : Header where
  allocated := word.toNat % 2 == 1
  order := word.toNat / 2 % 16
  padded := word.toNat / 2 ^ (5 : Nat) % 2 == 1
  requested := UInt32.ofNat (word.toNat / 2 ^ (32 : Nat))

end Header

end BuddyHeap
