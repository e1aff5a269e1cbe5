import BuddyHeap.Foundation.Size

/-! Blocks come in sizes that are powers of two. The order of a block is the
exponent; its first word is a header and the rest is payload. -/

namespace BuddyHeap

/-- The least order of a block: room for a header and two links. -/
def minOrder : Nat := 5

def orderBound : Nat := 15

def topOrder : Nat := 14

def freeListCount : Nat := 10

def headerSize : Nat := 8

def minBlockSize : Nat := 32

def maxBlockSize : Nat := 16384

def maxPayload : Nat := 16376

def payloadAlignment : Nat := 8

def blockSize (order : Nat) : Except Fault Nat :=
  Size.powerOfTwo order

def payloadCapacity (order : Nat) : Except Fault Nat := do
  Size.sub (← blockSize order) headerSize

/-- The least order whose block holds a header and `request` bytes. -/
def requiredOrder (request : Nat) : Except Fault Nat := do
  let exponent ← Size.ceilingExponent (← Size.add request headerSize)
  return max exponent minOrder

/-- Payload bytes that a request leaves unused in a block of the given order;
none when it does not fit at all. -/
def requiredPadding (order request : Nat) : Except Fault Nat :=
  return (← payloadCapacity order) - request

end BuddyHeap
