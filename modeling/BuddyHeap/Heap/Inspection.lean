import BuddyHeap.Journal.Event
import BuddyHeap.Heap.FreeLists

/-! What can be seen of a heap from outside: its blocks in the order of their
addresses, its free lists, and a text that shows them. -/

namespace BuddyHeap

structure BlockEntry where
  offset : Nat
  order : Nat
  allocated : Bool
  deriving DecidableEq

/-- Where the block after one of the given order starts. Blocks shorter than
the least size are taken to have that size. -/
def offsetAfter (offset order : Nat) : Except Fault Nat := do
  Size.add offset (← blockSize (max order minOrder))

theorem lt_of_offsetAfter {offset order following : Nat}
    (advanced : offsetAfter offset order = .ok following) : offset < following := by
  unfold offsetAfter at advanced
  cases sized : blockSize (max order minOrder) with
  | error fault => simp [sized, bind, Except.bind] at advanced
  | ok size =>
      simp only [sized, bind, Except.bind] at advanced
      have positive : 0 < 2 ^ max order minOrder := Nat.two_pow_pos _
      have sum := Size.eq_add_of_add advanced
      have power := Size.eq_two_pow_of_powerOfTwo sized
      omega

namespace Arena

def blocksFrom (arena : Arena) (offset : Nat) : Except Fault (List BlockEntry) :=
  if offset < arena.size then do
    let block ← arena.readBlock offset
    match advanced : offsetAfter offset block.order with
    | .error fault => throw fault
    | .ok following =>
        have := lt_of_offsetAfter advanced
        return ⟨offset, block.order, !block.isFree⟩ :: (← arena.blocksFrom following)
  else
    return []
termination_by arena.size - offset

def blocks (arena : Arena) : Except Fault (List BlockEntry) := arena.blocksFrom 0

end Arena

namespace Heap

def orders : List Nat := List.range' minOrder freeListCount

def freeLists (heap : Heap) : Except Fault (List (Nat × List Nat)) := do
  let lists ← orders.mapM fun order => return (order, ← heap.freeList order)
  return lists.filter fun entry => !entry.2.isEmpty

def listText (heap : Heap) (order : Nat) : Except Fault String := do
  let padding := if order < 10 then " " else ""
  let head := s!"[{padding}{order}] HEAD"
  if ← heap.isListEmpty order then
    return head ++ " -> NONE\n"
  let offsets ← heap.freeList order
  return head ++ String.join (offsets.map fun offset => " -> " ++ hexadecimal offset) ++ "\n"

def text (heap : Heap) : Except Fault String := do
  let lines ← orders.mapM heap.listText
  let extent := s!"heap {addressText 0}..{addressText heap.size} ({heap.size} bytes)\n"
  return extent ++ String.join lines

end Heap

end BuddyHeap
