import BuddyHeap.Memory.Arena
import BuddyHeap.Memory.Header

/-! What the first bytes of a block mean. An allocated block has a header and
then its payload, which belongs to the client. A free block has a header and
then two links, to its neighbours on the free list of its order. -/

namespace BuddyHeap

inductive Link where
  | unlinked
  /-- The end of the free list of the block's order. -/
  | sentinel
  | block (offset : Nat)
  deriving DecidableEq

namespace Link

/-- The two greatest words are codes of their own, so that no block may lie at
such an offset. -/
def encode : Link → UInt64
  | unlinked => UInt64.ofNat (2 ^ (64 : Nat) - 1)
  | sentinel => UInt64.ofNat (2 ^ (64 : Nat) - 2)
  | block offset => UInt64.ofNat offset

def decode (word : UInt64) : Link :=
  if word.toNat = 2 ^ (64 : Nat) - 1 then unlinked
  else if word.toNat = 2 ^ (64 : Nat) - 2 then sentinel
  else block word.toNat

end Link

inductive Block where
  | free (order : Nat) (previous following : Link)
  | allocated (header : Header)
  deriving DecidableEq

namespace Block

def order : Block → Nat
  | free order _ _ => order
  | allocated header => header.order

def isFree : Block → Bool
  | free .. => true
  | allocated _ => false

end Block

namespace Arena

def readBlock (arena : Arena) (offset : Nat) : Except Fault Block := do
  let header := Header.decode (← arena.readWord offset)
  if header.allocated then
    return .allocated header
  else
    let previous ← arena.readWord (← Size.add offset 8)
    let following ← arena.readWord (← Size.add offset 16)
    return .free header.order (Link.decode previous) (Link.decode following)

def writePrevious (arena : Arena) (offset : Nat) (link : Link) : Except Fault Arena := do
  arena.writeWord (← Size.add offset 8) link.encode

def writeFollowing (arena : Arena) (offset : Nat) (link : Link) : Except Fault Arena := do
  arena.writeWord (← Size.add offset 16) link.encode

/-- Format the bytes from `offset` on as the start of a block. The payload of
an allocated block stays as it is. -/
def writeBlock (arena : Arena) (offset : Nat) : Block → Except Fault Arena
  | .free order previous following => do
      let arena ← arena.writeWord offset (Header.free order).encode
      let arena ← arena.writePrevious offset previous
      arena.writeFollowing offset following
  | .allocated header => arena.writeWord offset header.encode

end Arena

end BuddyHeap
