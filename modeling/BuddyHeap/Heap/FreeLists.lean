import BuddyHeap.Memory.Block

/-! A heap is an arena together with its free lists, one for each order. Every
list is a ring of links: its nodes are the free blocks themselves, linked both
ways inside the arena, and its sentinel stands outside of it. -/

namespace BuddyHeap

/-- The node at which a free list's ring is closed: `following` leads to the
first block of the list and `previous` to the last. -/
structure Sentinel where
  previous : Link
  following : Link
  deriving DecidableEq

structure Heap where
  arena : Arena
  sentinels : Vector Sentinel freeListCount

def freeListIndex (order : Nat) : Except Fault (Fin freeListCount) :=
  if inRange : minOrder ≤ order ∧ order < orderBound then
    .ok ⟨order - minOrder, by simp only [minOrder, orderBound, freeListCount] at *; omega⟩
  else
    .error (.noFreeList order)

namespace Heap

def ofArena (arena : Arena) : Heap where
  arena
  sentinels := Vector.replicate freeListCount ⟨.sentinel, .sentinel⟩

def size (heap : Heap) : Nat := heap.arena.size

def writeBlock (heap : Heap) (offset : Nat) (block : Block) : Except Fault Heap :=
  return { heap with arena := ← heap.arena.writeBlock offset block }

/-! ## Looking at a list -/

def isListEmpty (heap : Heap) (order : Nat) : Except Fault Bool := do
  let sentinel := heap.sentinels[← freeListIndex order]
  return sentinel.following = .sentinel ∧ sentinel.previous = .sentinel

end Heap

namespace Arena

/-- Where the list goes on after the block at `offset`. An allocated block has
no links and ends it. -/
def followingLink (arena : Arena) (offset : Nat) : Except Fault Link :=
  return match ← arena.readBlock offset with
  | .free _ _ following => following
  | .allocated _ => .sentinel

def offsetsFrom (arena : Arena) : (steps : Nat) → (link : Link) → Except Fault (List Nat)
  | steps + 1, .block offset => do
      let following ← arena.followingLink offset
      return offset :: (← arena.offsetsFrom steps following)
  | 0, .block _ => .error .endlessList
  | _, _ => .ok []

/-- Whether the block at `target` is among those from `link` on, at most
`steps` many. Blocks after it are not looked at. -/
def isLinkedFrom (arena : Arena) (target : Nat) :
    (steps : Nat) → (link : Link) → Except Fault Bool
  | steps + 1, .block offset => do
      let following ← arena.followingLink offset
      if offset = target then return true
      arena.isLinkedFrom target steps following
  | 0, .block _ => .error .endlessList
  | _, _ => .ok false

/-- A walk of this many steps has been somewhere twice: a block has to lie
inside the arena to be read. -/
def walkBound (arena : Arena) : Nat := arena.size + 1

end Arena

namespace Heap

def freeList (heap : Heap) (order : Nat) : Except Fault (List Nat) := do
  let sentinel := heap.sentinels[← freeListIndex order]
  heap.arena.offsetsFrom heap.arena.walkBound sentinel.following

def isListed (heap : Heap) (order offset : Nat) : Except Fault Bool := do
  let sentinel := heap.sentinels[← freeListIndex order]
  heap.arena.isLinkedFrom offset heap.arena.walkBound sentinel.following

/-! ## Linking and unlinking -/

def setPrevious (heap : Heap) (index : Fin freeListCount) (node link : Link) :
    Except Fault Heap :=
  match node with
  | .sentinel =>
      let sentinel := heap.sentinels[index]
      .ok { heap with sentinels := heap.sentinels.set index { sentinel with previous := link } }
  | .block offset => return { heap with arena := ← heap.arena.writePrevious offset link }
  | .unlinked => .error (.danglingLink index)

def setFollowing (heap : Heap) (index : Fin freeListCount) (node link : Link) :
    Except Fault Heap :=
  match node with
  | .sentinel =>
      let sentinel := heap.sentinels[index]
      .ok { heap with sentinels := heap.sentinels.set index { sentinel with following := link } }
  | .block offset => return { heap with arena := ← heap.arena.writeFollowing offset link }
  | .unlinked => .error (.danglingLink index)

/-- Take the block at `offset` out of the ring that its links belong to, and
mark them as none. -/
def unlink (heap : Heap) (index : Fin freeListCount) (offset : Nat) : Except Fault Heap := do
  match ← heap.arena.readBlock offset with
  | .allocated _ => throw (.listedButAllocated offset)
  | .free _ previous following =>
      let heap ← heap.setFollowing index previous following
      let heap ← heap.setPrevious index following previous
      let arena ← heap.arena.writePrevious offset .unlinked
      let arena ← arena.writeFollowing offset .unlinked
      return { heap with arena }

def push (heap : Heap) (order offset : Nat) : Except Fault Heap := do
  let index ← freeListIndex order
  let first := heap.sentinels[index].following
  let heap ← heap.writeBlock offset (.free order .sentinel first)
  let heap ← heap.setPrevious index first (.block offset)
  heap.setFollowing index .sentinel (.block offset)

def pop (heap : Heap) (order : Nat) : Except Fault (Option Nat × Heap) := do
  let index ← freeListIndex order
  match heap.sentinels[index].following with
  | .block offset => return (some offset, ← heap.unlink index offset)
  | _ => return (none, heap)

/-- Unlink the block at `offset` if the list for `order` has it, and say
whether it has. -/
def remove (heap : Heap) (order offset : Nat) : Except Fault (Bool × Heap) := do
  let index ← freeListIndex order
  if ← heap.isListed order offset then
    return (true, ← heap.unlink index offset)
  else
    return (false, heap)

end Heap

end BuddyHeap
