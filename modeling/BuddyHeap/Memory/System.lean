import BuddyHeap.Foundation.Power
import BuddyHeap.Foundation.SystemError

/-! The operating system, as far as a heap depends on it. It maps memory in
pages, and whether it does is its own decision. -/

namespace BuddyHeap

structure System where
  /-- Bytes of a page, as the system tells them; not positive when it cannot. -/
  reportedPageSize : Int
  /-- Where a mapping of so many bytes starts, or why there is none. -/
  map : Nat → Except SystemError Nat

namespace System

def pageSize (system : System) : Nat :=
  if system.reportedPageSize ≤ 0 then 4096 else system.reportedPageSize.toNat

/-- Address space for so many bytes. No heap can lie at address zero. -/
def reserve (system : System) (size : Nat) : Except SystemError Nat := do
  let start ← system.map size
  if start = 0 then .error (.other "mmap returned a null mapping") else .ok start

/-- A system with small pages that reserves `limit` bytes at most. -/
def limited (limit : Nat) : System where
  reportedPageSize := 4096
  map size :=
    if size = 0 then .error .invalidArgument
    else if size ≤ limit then .ok 65536
    else .error .outOfMemory

/-- A limit stands for the system that reserves as much. -/
instance : Coe Nat System := ⟨limited⟩

end System

/-- Bytes that systems let one process reserve, as a rule. -/
def addressSpaceSize : Nat := 2 ^ (47 : Nat)

end BuddyHeap
