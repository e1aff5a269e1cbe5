import BuddyHeap.Foundation.Hexadecimal

/-! The reasons for which a computation on a heap stops for good. A fault is
never handled: it ends the run that meets it. -/

namespace BuddyHeap

inductive PointerFault where
  | outOfBounds
  | misaligned
  | badOrder (order : Nat)
  | notBlockStart (order : Nat)
  | notAllocated
  | paddingMismatch
  | orderMismatch (order expected : Nat)
  deriving DecidableEq

namespace PointerFault

def message : PointerFault → String
  | outOfBounds => "pointer lies outside the heap"
  | misaligned => "block header is misaligned"
  | badOrder order => s!"header order {order} is out of range"
  | notBlockStart order => s!"header is not at the start of an order {order} block"
  | notAllocated => "block is not allocated"
  | paddingMismatch => "padded bit disagrees with the requested size"
  | orderMismatch order expected =>
      s!"block has order {order} but its requested size needs order {expected}"

end PointerFault

inductive Fault where
  | additionOverflow
  | subtractionOverflow
  | shiftOverflow
  | rangeOutside (offset count arenaSize : Nat)
  | offsetOutside (offset : Nat)
  | overlappingCopy
  | noFreeList (order : Nat)
  | danglingLink (listIndex : Nat)
  | listedButAllocated (offset : Nat)
  /-- The links of a free list lead back into it, so that following them never
  ends. -/
  | endlessList
  | invalidPointer (reason : PointerFault)
  deriving DecidableEq

namespace Fault

def message : Fault → String
  | additionOverflow => "attempt to add with overflow"
  | subtractionOverflow => "attempt to subtract with overflow"
  | shiftOverflow => "attempt to shift left with overflow"
  | rangeOutside offset count arenaSize =>
      s!"range {hexadecimal offset}+{count} outside heap of {arenaSize} bytes"
  | offsetOutside offset => s!"offset {hexadecimal offset} outside heap"
  | overlappingCopy => "overlapping copy"
  | noFreeList order => s!"order {order} has no free list"
  | danglingLink listIndex => s!"free list {listIndex} has a dangling link"
  | listedButAllocated offset =>
      s!"block at {hexadecimal offset} is on a free list but marked allocated"
  | endlessList => "free list never ends"
  | invalidPointer reason => reason.message

end Fault

end BuddyHeap
