import BuddyHeap.Journal.Traced
import BuddyHeap.Heap.FreeLists

/-! How blocks come and go in pairs. Halving a block leaves two buddies, whose
offsets differ in the one bit that is their size; two free buddies make one
block of the next order again. -/

namespace BuddyHeap

namespace Heap

/-- Halve the block at `offset` again and again until its order is `target`.
Every upper half becomes a free block, and the lowest half stays at `offset`;
its header is left for the caller to write. -/
def split (heap : Heap) (offset target : Nat) : (order : Nat) → Traced Heap
  | 0 => return heap
  | order + 1 =>
      if target ≤ order then do
        let upper ← Size.add offset (← blockSize order)
        let heap ← heap.push order upper
        .record (.split offset order upper)
        heap.split offset target order
      else
        return heap

/-- The buddy of a block of the given order, taken off its free list. There is
none unless the word at its place is the header of a block of that order whose
links are set, and the list does have it. -/
def takeBuddy (heap : Heap) (offset order : Nat) : Except Fault (Option Nat × Heap) := do
  let size ← blockSize order
  let buddy := offset ^^^ size
  if heap.size < (← Size.add buddy size) then
    return (none, heap)
  let .free buddyOrder previous following ← heap.arena.readBlock buddy | return (none, heap)
  if buddyOrder ≠ order ∨ previous = .unlinked ∨ following = .unlinked then
    return (none, heap)
  let (found, heap) ← heap.remove order buddy
  return (if found then some buddy else none, heap)

/-- Free the block at `offset`: merge it with its buddy for as long as that is
free as well, and put the result on its list. -/
def coalesce (heap : Heap) (offset order : Nat) : Traced Heap :=
  if order < topOrder then do
    let (buddy?, heap) ← heap.takeBuddy offset order
    match buddy? with
    | some buddy =>
        .record (.coalesced (order + 1) (min offset buddy))
        heap.coalesce (min offset buddy) (order + 1)
    | none => heap.push order offset
  else
    heap.push order offset
termination_by topOrder - order

def grow (heap : Heap) : Traced (Bool × Heap) := do
  match ← heap.arena.grow with
  | .grown offset arena =>
      let heap ← Heap.push { heap with arena } topOrder offset
      .record (.grown heap.size)
      return (true, heap)
  | .refused size cause =>
      .record (.growthRefused size cause)
      return (false, heap)
  | .atCapacity => return (false, heap)

def firstListed (heap : Heap) : List Nat → Except Fault (Option Nat)
  | [] => .ok none
  | order :: orders => do
      if ← heap.isListEmpty order then heap.firstListed orders else return some order

/-- Take a block of the given order off the free lists. Without one there, the
first block of the least greater order is split. -/
def takeListed (heap : Heap) (order : Nat) : Traced (Option Nat × Heap) := do
  let (listed?, heap) ← heap.pop order
  if let some offset := listed? then
    return (some offset, heap)
  let some larger ← heap.firstListed (List.range' (order + 1) (orderBound - (order + 1)))
    | return (none, heap)
  let (larger?, heap) ← heap.pop larger
  let some offset := larger? | return (none, heap)
  return (some offset, ← heap.split offset order larger)

/-- Take a block of the given order, growing the heap when the free lists have
none. Gives up after a number of attempts. -/
def takeBlock (heap : Heap) (order : Nat) : (attempts : Nat) → Traced (Option Nat × Heap)
  | 0 => return (none, heap)
  | attempts + 1 => do
      let (taken?, heap) ← heap.takeListed order
      if let some offset := taken? then
        return (some offset, heap)
      let (grown, heap) ← heap.grow
      if grown then heap.takeBlock order attempts else return (none, heap)

end Heap

end BuddyHeap
