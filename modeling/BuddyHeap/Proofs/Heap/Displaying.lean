import BuddyHeap.Heap.Inspection
import BuddyHeap.Proofs.Heap.Listed

/-! The text that shows a heap. It tells the extent of the heap and its free
lists, and nothing else has a part in it. -/

namespace BuddyHeap

namespace Listing

def line (listing : Listing) (order : Nat) : String :=
  let padding := if order < 10 then " " else ""
  let head := s!"[{padding}{order}] HEAD"
  match listing order with
  | [] => head ++ " -> NONE\n"
  | offsets => head ++ String.join (offsets.map fun offset => " -> " ++ hexadecimal offset) ++ "\n"

def text (listing : Listing) (size : Nat) : String :=
  s!"heap {addressText 0}..{addressText size} ({size} bytes)\n" ++
    String.join (Heap.orders.map listing.line)

end Listing

namespace Heap

variable {heap : Heap} {listing : Listing} {order : Nat}

theorem mem_orders : order ∈ orders ↔ minOrder ≤ order ∧ order < orderBound := by
  simp only [orders, List.mem_range'_1, minOrder, freeListCount, orderBound]

namespace Lists

theorem listText_eq (lists : heap.Lists listing)
    (inRange : minOrder ≤ order ∧ order < orderBound) :
    heap.listText order = .ok (listing.line order) := by
  simp only [listText, lists.isListEmpty_eq inRange, lists.freeList_eq inRange, ok_bind,
    Listing.line]
  cases listing order with
  | nil => rfl
  | cons first rest => rfl

theorem text_eq (lists : heap.Lists listing) : heap.text = .ok (listing.text heap.size) := by
  have lines : orders.mapM heap.listText = .ok (orders.map listing.line) :=
    mapM_eq_ok fun order member => lists.listText_eq (mem_orders.mp member)
  rw [text, lines, ok_bind]
  rfl

end Lists

end Heap

end BuddyHeap
