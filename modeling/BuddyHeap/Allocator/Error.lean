import BuddyHeap.Foundation.SystemError

/-! Errors that an allocator reports to its client and that leave it usable. -/

namespace BuddyHeap

inductive AllocatorError where
  /-- A request of no bytes, or of more than a block can hold. -/
  | invalidRequest (requested greatest : Nat)
  | outOfMemory (order heapSize : Nat)
  | invalidConfig (reason : String)
  | reservationFailed (cause : SystemError)
  deriving DecidableEq

namespace AllocatorError

def message : AllocatorError → String
  | invalidRequest requested greatest =>
      s!"Invalid request of {requested} bytes: size must be between 1 and {greatest}"
  | outOfMemory order heapSize =>
      s!"Out of memory: no block of order {order} available in a {heapSize} byte heap"
  | invalidConfig reason => s!"Invalid allocator configuration: {reason}"
  | reservationFailed cause => s!"Could not reserve heap region: {cause.message}"

/-- The number of the system error that a C interface would report. -/
def errorNumber : AllocatorError → Nat
  | invalidRequest .. | invalidConfig _ => 22
  | outOfMemory .. | reservationFailed _ => 12

def source? : AllocatorError → Option SystemError
  | reservationFailed cause => some cause
  | _ => none

end AllocatorError

end BuddyHeap
