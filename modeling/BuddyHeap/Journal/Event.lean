import BuddyHeap.Foundation.Hexadecimal
import BuddyHeap.Foundation.SystemError

/-! Records of what an allocator does. Blocks are named by their offset, and
addresses by their distance from the start of the heap. -/

namespace BuddyHeap

inductive Severity where
  | trace
  | debug
  | warning
  deriving DecidableEq

inductive Event where
  | reserved (ceiling : Nat)
  | grown (heapSize : Nat)
  /-- The system refused to let the heap grow to `heapSize` bytes. -/
  | growthRefused (heapSize : Nat) (cause : SystemError)
  /-- The block at `offset` gave up its upper half, a free block at `upper`. -/
  | split (offset order upper : Nat)
  | coalesced (order offset : Nat)
  | exhausted (order heapSize : Nat)
  | acquired (size order offset : Nat)
  | released (payload order offset : Nat)
  | resizedInPlace (payload size : Nat)
  | moved (payload size target : Nat)
  | shrunk (payload size fromOrder toOrder : Nat)
  deriving DecidableEq

namespace Severity

def label : Severity → String
  | trace => "TRACE"
  | debug => "DEBUG"
  | warning => "WARN"

end Severity

def addressText (distance : Nat) : String := "heap+" ++ hexadecimal distance

namespace Event

def severity : Event → Severity
  | reserved _ | grown _ | growthRefused .. => .debug
  | split .. | coalesced .. | acquired .. | released .. | resizedInPlace .. | moved .. |
    shrunk .. => .trace
  | exhausted .. => .warning

def message : Event → String
  | reserved ceiling => s!"reserved buddy heap at {addressText 0}, ceiling {ceiling} bytes"
  | grown heapSize => s!"heap grew to {heapSize} bytes"
  | growthRefused heapSize cause => s!"heap growth to {heapSize} bytes failed: {cause.message}"
  | split offset order upper =>
      s!"split {hexadecimal offset} -> free order {order} at {hexadecimal upper}"
  | coalesced order offset => s!"coalesced into order {order} at {hexadecimal offset}"
  | exhausted order heapSize => s!"out of memory for order {order} with a {heapSize} byte heap"
  | acquired size order offset => s!"acquire({size}) -> order {order} at {hexadecimal offset}"
  | released payload order offset =>
      s!"release({addressText payload}) order {order} at {hexadecimal offset}"
  | resizedInPlace payload size => s!"resize({addressText payload}, {size}) in place"
  | moved payload size target =>
      s!"resize({addressText payload}, {size}) moved to {addressText target}"
  | shrunk payload size fromOrder toOrder =>
      s!"resize({addressText payload}, {size}) shrunk from order {fromOrder} to {toOrder}"

def line (event : Event) : String := event.severity.label ++ " " ++ event.message

end Event

end BuddyHeap
