import BuddyHeap.Proofs.Heap.Occupying
import BuddyHeap.Proofs.Heap.Pairing
import BuddyHeap.Proofs.Heap.Shrinking
import BuddyHeap.Proofs.Ledger.Gathering
import BuddyHeap.Proofs.Ledger.Operations
import BuddyHeap.Proofs.Memory.Verdicts

/-! Giving a block back, or a part of it. The header of a block that is joined
with a lower one stays where it was, in the middle of the free block that
results. -/

namespace BuddyHeap

namespace Heap

def KeepsPlace (ledger : Ledger) (offset : Nat) (allocation : Allocation) : Prop :=
  ((ledger.reclaim offset).gathered ⟨offset, allocation.order⟩).offset = offset

instance (ledger : Ledger) (offset : Nat) (allocation : Allocation) :
    Decidable (KeepsPlace ledger offset allocation) := Nat.decEq _ _

/-- What validation says of the payload of a block that has been given up: it
is refused just if the block has kept its place. -/
def Stale (after : Heap) (ledger : Ledger) (offset : Nat) (allocation : Allocation) : Prop :=
  after.arena.check (offset + 8 : Nat) =
    .ok (if KeepsPlace ledger offset allocation then .error .notAllocated
      else .ok (offset, allocation.header))

namespace Follows

variable {heap after : Heap} {ledger : Ledger} {offset : Nat} {allocation : Allocation}

theorem check_eq_ok (follows : heap.Follows ledger none)
    (live : ledger.live offset = some allocation) :
    heap.arena.check (offset + 8 : Nat) = .ok (.ok (offset, allocation.header)) :=
  Arena.check_eq_ok (follows.payload_inside live) (follows.fits _ _ live)
    (follows.aligned_of_live live) (follows.word_eq _ _ live)

theorem coalesce_live (follows : heap.Follows ledger none)
    (live : ledger.live offset = some allocation) :
    Yields (heap.coalesce offset allocation.order).outcome fun after =>
      after.Follows (ledger.release offset) none ∧
        Rearranges (ledger.reclaim offset).live none heap after ∧
        after.Stale ledger offset allocation := by
  let span : Span := ⟨offset, allocation.order⟩
  have fits := follows.fits _ _ live
  have inside := follows.payload_inside live
  have aligned : span.Aligned := follows.aligned_of_live live
  have released : ledger.release offset = (ledger.reclaim offset).free span := by
    rw [Ledger.release, live]
  rw [released]
  apply Yields.mono ((follows.reclaim live).coalesce)
  intro after holds
  rcases holds with ⟨afterFollows, preserves, kept⟩
  have afterInside : offset + 8 < after.arena.size := by
    rw [afterFollows.size_eq, Ledger.size_free]
    exact follows.size_eq ▸ inside
  refine ⟨afterFollows, preserves, ?_⟩
  by_cases place : KeepsPlace ledger offset allocation
  · have listed := (ledger.reclaim offset).mem_free span
    have free : ((ledger.reclaim offset).free span).Uses none
        ((ledger.reclaim offset).gathered span) .free := listed
    have range := afterFollows.tiled.order_range _ _ free
    have start := afterFollows.tiled.aligned _ _ free
    have word_eq := afterFollows.lists.word_eq listed
    have same : ((ledger.reclaim offset).gathered span).offset = offset := place
    rw [Span.Aligned, same] at start
    rw [same] at word_eq
    rw [Stale, if_pos place]
    exact Arena.check_eq_notAllocated afterInside ⟨range.1, Nat.lt_succ_of_le range.2⟩ start word_eq
  · have below := Ledger.gathered_offset_add_le aligned place
    have length : 2 ^ minOrder ≤ 2 ^ allocation.order :=
      Nat.pow_le_pow_right (by decide) fits.minOrder_le
    simp only [span, minOrder] at below length
    have word_eq : after.arena.word offset = heap.arena.word offset := by
      refine Arena.word_congr fun index lower upper => kept index ⟨lower, ?_⟩ ?_
      · simp only [Span.stop]
        omega
      · simp only [nodeSize]
        omega
    rw [Stale, if_neg place]
    exact Arena.check_eq_ok afterInside fits aligned (word_eq.trans (follows.word_eq _ _ live))

/-! ## Moving -/

/-- The payload of a block is copied into a larger block, and the first one is
given back. -/
theorem transfer {target : Nat} {larger : Allocation} (follows : heap.Follows ledger none)
    (live : ledger.live offset = some allocation) (targetLive : ledger.live target = some larger)
    (different : offset ≠ target) (room : allocation.order ≤ larger.order)
    (longer : allocation.requested ≤ larger.requested) :
    Yields (do
      let arena ← heap.arena.copy (offset + 8) (target + 8) allocation.requested
      (Heap.coalesce { heap with arena } offset allocation.order).outcome) fun after =>
      after.Follows (ledger.release offset) none ∧
        Preserves ((ledger.reclaim target).reclaim offset).live none heap after ∧
        (∀ index, index < allocation.requested →
          after.arena.byte (target + 8 + index) = heap.arena.byte (offset + 8 + index)) ∧
        (∀ place, after.arena.Marked place →
          heap.arena.Carries offset target allocation.requested place ∨ heap.arena.Marked place) ∧
        after.Stale ledger offset allocation := by
  apply Yields.bind (follows.copy live targetLive different room)
  intro copied holds
  rcases holds with ⟨copiedFollows, copying, copied_eq⟩
  apply Yields.mono (copiedFollows.coalesce_live live)
  intro after holds
  rcases holds with ⟨afterFollows, freeing, stale⟩
  have targetKept : (ledger.reclaim offset).live target = some larger := by
    rw [Ledger.live_reclaim, Function.update_of_ne (Ne.symm different)]
    exact targetLive
  have fits := follows.fits _ _ targetLive
  refine ⟨afterFollows, ?_, ?_, ?_, stale⟩
  · have copyingKept : Preserves ((ledger.reclaim target).reclaim offset).live none heap
        { heap with arena := copied } := by
      apply copying.mono
      intro index range taken
      have capacity := fits.requested_le_capacity
      have header := fits.headerSize_le
      simp only [Allocation.capacity, headerSize] at capacity header
      have covers : Span.Covers ⟨target, larger.order⟩ index := by
        simp only [Span.Covers, Span.stop]
        omega
      exact follows.not_taken_of_live targetLive covers
        (taken.of_more fun other otherAllocation otherLive => (live_of_reclaim otherLive).2)
    apply copyingKept.trans
    apply freeing.preserves.of_fewer
    intro other otherAllocation otherLive
    rcases live_of_reclaim otherLive with ⟨notOffset, otherLive⟩
    rw [Ledger.live_reclaim, Function.update_of_ne notOffset]
    exact (live_of_reclaim otherLive).2
  · intro index below
    rw [← copied_eq index below]
    exact freeing.preserves.byte_eq_of_taken
      (.of_payload targetKept fits (Nat.lt_of_lt_of_le below longer))
  · intro place marked
    exact copying.marked_of_copy copied_eq (follows.minBlockSize_dvd_of_live live)
      (follows.minBlockSize_dvd_of_live targetLive) (freeing.marked place marked)

/-! ## Shrinking -/

theorem shrink {size : Nat} (follows : heap.Follows ledger none)
    (live : ledger.live offset = some allocation) (fits : (Allocation.ofRequest size).Fits)
    (smaller : requestOrder size ≤ allocation.order) :
    Yields (heap.shrink offset allocation.order size) fun after =>
      after.Follows (ledger.shrink offset allocation.order size) none ∧
        Preserves (ledger.reclaim offset).live none heap after ∧
        (∀ index, index < size →
          after.arena.byte (offset + 8 + index) = heap.arena.byte (offset + 8 + index)) ∧
        ∀ place, after.arena.Marked place → place = offset ∨ heap.arena.Marked place := by
  let lower : Span := ⟨offset, requestOrder size⟩
  have reclaimed := follows.reclaim live
  rw [Heap.shrink]
  apply Yields.bind (reclaimed.split fits.minOrder_le smaller)
  intro cut holds
  rcases holds with ⟨cutFollows, cutting⟩
  apply Yields.mono (cutFollows.writeBlock fits rfl)
  intro after holds
  rcases holds with ⟨afterFollows, writing, agree⟩
  rw [Ledger.live_split] at writing
  refine ⟨afterFollows, cutting.preserves.of_live.trans writing, ?_, ?_⟩
  · intro index below
    have room := fits.headerSize_le
    have served := fits.requested_le_capacity
    simp only [Allocation.capacity, Allocation.ofRequest, headerSize] at served room
    have covers : lower.Covers (offset + 8 + index) := by
      simp only [Span.Covers, Span.stop, lower]
      omega
    rw [agree.byte_eq _ (by simp only; omega)]
    exact cutting.preserves.byte_eq_of_taken (.inr ⟨lower, rfl, covers⟩)
  · intro place marked
    exact (agree.marked_of_word (follows.minBlockSize_dvd_of_live live) marked).imp_right
      (cutting.marked place)

end Follows

end Heap

end BuddyHeap
