import BuddyHeap.Proofs.Ledger.Gathering
import BuddyHeap.Proofs.Ledger.Room

/-! The canonical form of a heap. Where no two buddies are both free, the free
blocks are the largest places that the client leaves empty. So they are known
from the blocks of the client and the size of the heap, whatever has happened
before. -/

namespace BuddyHeap

namespace Ledger

variable {ledger other : Ledger} {span : Span}

/-- A place that the client leaves empty, and that is no half of a larger
one. -/
structure IsGap (ledger : Ledger) (span : Span) : Prop where
  order_range : minOrder ≤ span.order ∧ span.order ≤ topOrder
  aligned : span.Aligned
  inside : span.stop ≤ ledger.size
  vacant : ledger.Vacant span
  largest : span.order < topOrder → ¬ledger.Vacant span.parent

/-- The client has the same blocks in both heaps, for whatever sizes. -/
def SameBlocks (ledger other : Ledger) : Prop :=
  ∀ offset order, (∃ requested, ledger.live offset = some ⟨order, requested⟩) ↔
    ∃ requested, other.live offset = some ⟨order, requested⟩

theorem SameBlocks.symm (same : ledger.SameBlocks other) : other.SameBlocks ledger :=
  fun offset order => (same offset order).symm

theorem SameBlocks.vacant (same : ledger.SameBlocks other) (vacant : ledger.Vacant span) :
    other.Vacant span := by
  intro index covers offset allocation live blockCovers
  rcases (same offset allocation.order).mpr ⟨_, live⟩ with ⟨requested, booked⟩
  exact vacant index covers offset _ booked blockCovers

theorem SameBlocks.isGap (same : ledger.SameBlocks other) (size_eq : ledger.size = other.size)
    (gap : ledger.IsGap span) : other.IsGap span where
  order_range := gap.order_range
  aligned := gap.aligned
  inside := size_eq ▸ gap.inside
  vacant := same.vacant gap.vacant
  largest below vacant := gap.largest below (same.symm.vacant vacant)

namespace Tiled

theorem parent_stop_le (tiled : ledger.Tiled none) (aligned : span.Aligned)
    (below : span.order < topOrder) (inside : span.stop ≤ ledger.size) :
    span.parent.stop ≤ ledger.size := by
  have within := aligned.within_parent
  have nonempty := span.offset_lt_stop
  have whole : 2 ^ span.parent.order ∣ ledger.size := (Nat.pow_dvd_pow 2 below).trans tiled.whole
  exact aligned.buddy_cases.1.stop_le whole (by simp only [Span.Within] at within; omega)

theorem isGap_of_free (tiled : ledger.Tiled none) (merged : ledger.lists.Merged)
    (free : ledger.Uses none span .free) : ledger.IsGap span where
  order_range := tiled.order_range _ _ free
  aligned := tiled.aligned _ _ free
  inside := tiled.inside _ _ free
  vacant := tiled.vacant_of_free free
  largest below vacant := by
    have range := tiled.order_range _ _ free
    have aligned := tiled.aligned _ _ free
    have inside := tiled.parent_stop_le aligned below (tiled.inside _ _ free)
    rcases tiled.exists_free_around merged span.parent.offset (Nat.le_succ_of_le range.1) below
      aligned.buddy_cases.1 inside vacant with ⟨block, blockFree, around, larger⟩
    have within : span.Within block := aligned.within_parent.trans around
    have equal := (tiled.unique _ _ _ _ free blockFree within.meets).1
    rw [← equal] at larger
    exact Nat.not_succ_le_self _ larger

theorem free_of_isGap (tiled : ledger.Tiled none) (merged : ledger.lists.Merged)
    (gap : ledger.IsGap span) : ledger.Uses none span .free := by
  rcases tiled.exists_free_around merged span.offset gap.order_range.1 gap.order_range.2 gap.aligned
    gap.inside gap.vacant with ⟨block, free, within, larger⟩
  have around : span.Within block := within
  have blockAligned := tiled.aligned _ _ free
  rcases Nat.eq_or_lt_of_le larger with equal | beyond
  · rwa [gap.aligned.eq_of_meets blockAligned equal around.meets]
  · have top := (tiled.order_range _ _ free).2
    have meets : span.parent.Meets block :=
      gap.aligned.within_parent.covers_offset.meets around.covers_offset
    have parentWithin := gap.aligned.buddy_cases.1.within blockAligned beyond meets
    exact absurd ((tiled.vacant_of_free free).of_within parentWithin)
      (gap.largest (Nat.lt_of_lt_of_le beyond top))

/-- The free blocks are the gaps that the client leaves. -/
theorem free_iff_isGap (tiled : ledger.Tiled none) (merged : ledger.lists.Merged) :
    span.offset ∈ ledger.lists span.order ↔ ledger.IsGap span :=
  ⟨tiled.isGap_of_free merged, tiled.free_of_isGap merged⟩

theorem free_iff_of_sameBlocks (tiled : ledger.Tiled none) (merged : ledger.lists.Merged)
    (otherTiled : other.Tiled none) (otherMerged : other.lists.Merged)
    (size_eq : ledger.size = other.size) (same : ledger.SameBlocks other) (span : Span) :
    span.offset ∈ ledger.lists span.order ↔ span.offset ∈ other.lists span.order := by
  rw [tiled.free_iff_isGap merged, otherTiled.free_iff_isGap otherMerged]
  exact ⟨same.isGap size_eq, same.symm.isGap size_eq.symm⟩

end Tiled

end Ledger

end BuddyHeap
