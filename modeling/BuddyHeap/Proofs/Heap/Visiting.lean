import BuddyHeap.Heap.Buddies
import BuddyHeap.Proofs.Foundation.Yields
import BuddyHeap.Proofs.Ledger.Spans
import BuddyHeap.Proofs.Memory.Words

/-! The blocks that freeing one comes to, in memory that may hold anything. Each
is the aligned block of its order around the one that is freed. As the heap is
made of whole blocks of the top order, all of them and their buddies lie in it. -/

namespace BuddyHeap

/-! ## Sizes -/

namespace Arena

theorem whole_blocks (arena : Arena) : 2 ^ topOrder ∣ arena.size :=
  Nat.dvd_of_mod_eq_zero arena.whole_chunks

variable {arena after : Arena} {offset : Nat} {word : UInt64} {link : Link}

theorem size_of_writeWord (written : arena.writeWord offset word = .ok after) :
    after.size = arena.size := by
  rw [(eq_of_writeWord written).2, size_replaceWord]

theorem size_of_writeLink {distance : Nat}
    (written : (Size.add offset distance >>= fun place => arena.writeWord place word) = .ok after) :
    after.size = arena.size := by
  rcases exists_of_bind_eq_ok written with ⟨_, _, written⟩
  exact size_of_writeWord written

end Arena

namespace Heap

variable {heap after first : Heap} {index : Fin freeListCount} {node link : Link}
  {offset order place level : Nat}

theorem size_of_setPrevious (set : heap.setPrevious index node link = .ok after) :
    after.size = heap.size := by
  cases node with
  | unlinked => cases set
  | sentinel =>
      cases set
      rfl
  | block offset =>
      rcases exists_of_bind_eq_ok set with ⟨arena, written, equal⟩
      cases equal
      exact Arena.size_of_writeLink written

theorem size_of_setFollowing (set : heap.setFollowing index node link = .ok after) :
    after.size = heap.size := by
  cases node with
  | unlinked => cases set
  | sentinel =>
      cases set
      rfl
  | block offset =>
      rcases exists_of_bind_eq_ok set with ⟨arena, written, equal⟩
      cases equal
      exact Arena.size_of_writeLink written

theorem size_of_unlink (unlinked : heap.unlink index offset = .ok after) :
    after.size = heap.size := by
  rcases exists_of_bind_eq_ok unlinked with ⟨block, _, unlinked⟩
  cases block with
  | allocated header => cases unlinked
  | free order previous following =>
      rcases exists_of_bind_eq_ok unlinked with ⟨forward, set, unlinked⟩
      rcases exists_of_bind_eq_ok unlinked with ⟨both, setBack, unlinked⟩
      rcases exists_of_bind_eq_ok unlinked with ⟨half, written, unlinked⟩
      rcases exists_of_bind_eq_ok unlinked with ⟨arena, writtenToo, equal⟩
      cases equal
      calc
        arena.size = half.size := Arena.size_of_writeLink writtenToo
        _ = both.size := Arena.size_of_writeLink written
        _ = forward.size := size_of_setPrevious setBack
        _ = heap.size := size_of_setFollowing set

theorem size_of_remove {found : Bool} (removed : heap.remove order offset = .ok (found, after)) :
    after.size = heap.size := by
  rcases exists_of_bind_eq_ok removed with ⟨index, _, removed⟩
  rcases exists_of_bind_eq_ok removed with ⟨listed, _, removed⟩
  cases listed with
  | false =>
      cases removed
      rfl
  | true =>
      rcases exists_of_bind_eq_ok removed with ⟨unlinked, done, equal⟩
      cases equal
      exact size_of_unlink done

theorem takeBuddy_eq_some {buddy : Nat}
    (taken : heap.takeBuddy offset order = .ok (some buddy, after)) :
    buddy = offset ^^^ 2 ^ order ∧ after.size = heap.size := by
  rcases exists_of_bind_eq_ok taken with ⟨size, size_eq, taken⟩
  have size_eq := Size.eq_two_pow_of_powerOfTwo size_eq
  subst size_eq
  rcases exists_of_bind_eq_ok taken with ⟨stop, _, taken⟩
  split at taken
  · cases taken
  rcases exists_of_bind_eq_ok taken with ⟨block, _, taken⟩
  cases block with
  | allocated header => cases taken
  | free buddyOrder previous following =>
      simp only at taken
      split at taken
      · cases taken
      rcases exists_of_bind_eq_ok taken with ⟨result, removed, equal⟩
      rcases result with ⟨found, left⟩
      cases found with
      | false => cases equal
      | true =>
          cases equal
          exact ⟨rfl, size_of_remove removed⟩

/-! ## Visits -/

/-- Freeing the block of an order at `offset` comes to the block of order
`level` at `place`, when the heap has become `heap`. -/
inductive Visits (first : Heap) (offset order : Nat) : Heap → Nat → Nat → Prop where
  | start : Visits first offset order first offset order
  | merged {heap after : Heap} {place level buddy : Nat}
      (earlier : Visits first offset order heap place level) (below : level < topOrder)
      (taken : heap.takeBuddy place level = .ok (some buddy, after)) :
      Visits first offset order after (min place buddy) (level + 1)

namespace Visits

theorem size_eq (visits : first.Visits offset order heap place level) : heap.size = first.size := by
  induction visits with
  | start => rfl
  | merged _ _ taken induction => exact (takeBuddy_eq_some taken).2.trans induction

theorem coalesce_eq (visits : first.Visits offset order heap place level) :
    (first.coalesce offset order).outcome = (heap.coalesce place level).outcome := by
  induction visits with
  | start => rfl
  | merged _ below taken induction =>
      rw [induction, coalesce, if_pos below]
      simp only [Traced.outcome_bind, Traced.outcome_lift, Traced.outcome_record, taken, ok_bind]

/-- Each block on the way is the aligned one of its order around the block that
is freed. -/
theorem around (visits : first.Visits offset order heap place level)
    (aligned : Span.Aligned ⟨offset, order⟩) (order_le : order ≤ topOrder) :
    level ≤ topOrder ∧ Span.Aligned ⟨place, level⟩ ∧
      Span.Within ⟨offset, order⟩ ⟨place, level⟩ := by
  induction visits with
  | start => exact ⟨order_le, aligned, Nat.le_refl _, Nat.le_refl _⟩
  | merged _ below taken induction =>
      rcases induction with ⟨_, aligned, within⟩
      rw [(takeBuddy_eq_some taken).1]
      exact ⟨below, aligned.buddy_cases.1, within.trans aligned.within_parent⟩

end Visits

end Heap

end BuddyHeap
