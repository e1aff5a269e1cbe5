import BuddyHeap.Proofs.Heap.Pairing
import BuddyHeap.Proofs.Heap.Visiting
import BuddyHeap.Proofs.Heap.Walking

/-! A heap while a block is being joined. The header of the block in hand and
the nodes of the buddies that it has taken in are out of date, but they lie
inside of it. Where its next buddy would start another block does start, and
what memory has to say there is up to date. -/

namespace BuddyHeap

/-! ## The block at the buddy -/

namespace Ledger.Tiled

variable {ledger : Ledger} {span : Span}

theorem exists_at_buddy (tiled : ledger.Tiled (some span)) (below : span.order < topOrder) :
    ∃ other use, ledger.Uses (some span) other use ∧ use ≠ .held ∧
      other.offset = span.buddy.offset ∧ other.order ≤ span.order := by
  have held : ledger.Uses (some span) span .held := rfl
  have aligned := tiled.aligned span .held held
  have start : span.buddy.offset < ledger.size :=
    Nat.lt_of_lt_of_le span.buddy.offset_lt_stop (tiled.buddy_inside below)
  rcases tiled.covered span.buddy.offset start with ⟨other, use, uses, covers⟩
  have otherAligned := tiled.aligned other use uses
  have notLonger : other.order ≤ span.order := by
    by_contra longer
    -- It would go around the parent, and so around the block in hand.
    have inParent := aligned.buddy_within_parent.covers_offset
    have meets : span.parent.Meets other :=
      ⟨Nat.lt_of_le_of_lt inParent.1 covers.2, Nat.lt_of_le_of_lt covers.1 inParent.2⟩
    have around := aligned.buddy_cases.1.within otherAligned (Nat.lt_of_not_le longer) meets
    have within := aligned.within_parent.trans around
    have equal := (tiled.unique span .held other use held uses within.meets).1
    exact longer (congrArg Span.order equal).ge
  have meets : other.Meets span.buddy :=
    ⟨Nat.lt_of_le_of_lt covers.1 span.buddy.offset_lt_stop, covers.2⟩
  have within := otherAligned.within aligned.buddy_aligned notLonger meets
  have offset_eq : other.offset = span.buddy.offset := Nat.le_antisymm covers.1 within.1
  refine ⟨other, use, uses, ?_, offset_eq, notLonger⟩
  intro use_eq
  subst use_eq
  cases uses
  exact span.buddy_offset_ne offset_eq.symm

end Ledger.Tiled

namespace Heap

/-! ## What memory says -/

/-- The word at `offset` passes for the header of a free block of the given
order whose links are set. -/
def ReadsFree (heap : Heap) (order offset : Nat) : Prop :=
  ∃ previous following, heap.arena.readBlock offset = .ok (.free order previous following) ∧
    previous ≠ .unlinked ∧ following ≠ .unlinked

namespace Follows

variable {heap after : Heap} {ledger : Ledger} {hand : Option Span} {span : Span} {use : Use}
  {place level buddy : Nat}

/-- Where a block starts that is not in hand, what passes for a free block is on
its list. -/
theorem readsFree_iff (follows : heap.Follows ledger hand) (uses : ledger.Uses hand span use)
    (different : use ≠ .held) :
    heap.ReadsFree level span.offset ↔ span.offset ∈ ledger.lists level := by
  constructor
  · intro reads
    rcases reads with ⟨previous, following, read, _⟩
    cases use with
    | free =>
        rcases follows.lists.readBlock_eq uses with ⟨_, _, listed, _⟩
        cases listed.symm.trans read
        exact uses
    | allocated requested => cases (follows.readBlock_of_live uses).symm.trans read
    | held => exact absurd rfl different
  · exact follows.lists.readBlock_eq

/-! ## One iteration and all of them -/

theorem of_takeBuddy (follows : heap.Follows ledger (some ⟨place, level⟩)) (below : level < topOrder)
    (taken : heap.takeBuddy place level = .ok (some buddy, after)) :
    after.Follows (ledger.unlist (Span.buddy ⟨place, level⟩)) (some ⟨min place buddy, level + 1⟩) := by
  by_cases listed : (Span.buddy ⟨place, level⟩).offset ∈ ledger.lists level
  · have holds := (follows.takeBuddy_of_mem below listed).post_of_eq taken
    cases holds.1
    exact holds.2.1
  · cases (follows.takeBuddy_of_not_mem below listed).symm.trans taken

end Follows

variable {first heap : Heap} {ledger : Ledger} {offset order place level : Nat}

/-- Wherever the joining has got to, nothing has changed for the blocks that it
has not come to. -/
theorem Visits.exists_follows (visits : first.Visits offset order heap place level)
    (follows : first.Follows ledger (some ⟨offset, order⟩)) :
    ∃ books, heap.Follows books (some ⟨place, level⟩) ∧ books.live = ledger.live ∧
      ∀ order offset, offset ∈ books.lists order → offset ∈ ledger.lists order := by
  induction visits with
  | start => exact ⟨ledger, follows, rfl, fun _ _ => id⟩
  | merged _ below taken induction =>
      rcases induction with ⟨books, bookFollows, live_eq, listed⟩
      exact ⟨_, bookFollows.of_takeBuddy below taken, live_eq,
        fun order offset member => listed order offset (Listing.mem_of_mem_erase member)⟩

end Heap

end BuddyHeap
