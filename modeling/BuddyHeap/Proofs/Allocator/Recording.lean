import BuddyHeap.Proofs.Allocator.Resizing
import BuddyHeap.Proofs.Heap.Recording

/-! What the allocator records is known from its books and from whether the heap
may grow. Blocks and addresses appear in it, payload bytes do not. -/

namespace BuddyHeap

namespace Allocator.Follows

variable {allocator : Allocator} {ledger : Ledger} {offset size : Nat} {allocation : Allocation}

theorem events_acquire (follows : allocator.Follows ledger) (size : Nat) :
    (allocator.acquire size).events = ledger.acquireEvents allocator.heap.arena.extensible
      allocator.heap.arena.growEvents size := by
  by_cases invalid : size = 0 ∨ maxPayload < size
  · rw [Allocator.acquire, checkRequest_eq_error invalid, Ledger.acquireEvents, if_pos invalid]
    rfl
  · obtain ⟨heap, config⟩ := allocator
    rcases exists_attempts config with ⟨attempts, attempts_eq⟩
    have fits := fits_of_valid invalid
    have inRange : minOrder ≤ requestOrder size ∧ requestOrder size < orderBound := fits.inRange
    rcases follows.heap.takeBlock inRange attempts with ⟨⟨taken?, taken⟩, taken_eq, took⟩
    rw [Allocator.acquire, checkRequest_eq_ok invalid, Ledger.acquireEvents, if_neg invalid]
    simp only
    rw [Traced.events_bind (requiredOrder_of_valid invalid), attempts_eq, Traced.events_bind taken_eq,
      follows.heap.events_takeBlock inRange]
    refine congrArg _ ?_
    cases listed : ledger.take heap.arena.extensible (requestOrder size) with
    | none =>
        simp only [listed, Heap.Took] at took
        rcases took with ⟨rfl, rfl⟩
        simp only
        rw [Traced.events_bind rfl, Heap.size, follows.heap.size_eq]
        rfl
    | some result =>
        obtain ⟨offset, books⟩ := result
        simp only [listed, Heap.Took] at took
        rcases took with ⟨rfl, takenFollows, _⟩
        have header : Header.forRequest (requestOrder size) (UInt32.ofNat size) =
            .ok (Allocation.ofRequest size).header := fits.forRequest_eq_ok
        rcases takenFollows.writeBlock fits rfl with ⟨written, written_eq, writtenFollows, _⟩
        have live : (books.allocate offset (.ofRequest size)).live offset =
          some (.ofRequest size) := Function.update_self ..
        have inside := writtenFollows.payload_inside live
        have added : Size.add offset headerSize = .ok (offset + 8) :=
          written.arena.add_eq_ok_of_inside inside.le
        have located : written.arena.addressOf (offset + 8) = .ok (payloadAddress offset) :=
          if_pos inside
        simp only
        rw [Traced.events_bind header, Traced.events_bind written_eq, Traced.events_bind rfl,
          Traced.events_bind added, Traced.events_bind located]
        rfl

theorem events_release (follows : allocator.Follows ledger)
    (live : ledger.live offset = some allocation) :
    (allocator.release (payloadAddress offset)).events = ledger.releaseEvents offset allocation := by
  have validated := follows.validated_eq_ok live
  have returned := follows.heap.events_coalesce_live live
  rcases follows.heap.coalesce_live live with ⟨after, coalesce_eq, _⟩
  obtain ⟨heap, config⟩ := allocator
  have order_eq : allocation.header.order = allocation.order := rfl
  rw [Allocator.release, Traced.events_bind validated]
  simp only [order_eq] at coalesce_eq returned ⊢
  rw [Traced.events_bind rfl, Traced.events_bind coalesce_eq, returned]
  simp only [Traced.events_lift, Traced.events_record, Traced.events_pure, List.append_nil]
  rfl

theorem events_move (follows : allocator.Follows ledger) (live : ledger.live offset = some allocation)
    (larger : allocation.order < requestOrder size) :
    (allocator.move offset allocation.header size).events = ledger.moveEvents
      allocator.heap.arena.extensible allocator.heap.arena.growEvents offset allocation size := by
  rcases follows.acquire size with
    ⟨⟨acquired, after⟩, acquire_eq, acquired_eq, afterFollows, _, _, fresh⟩
  rw [Allocator.move, Allocator.moveBy, Traced.events_bind acquire_eq, follows.events_acquire,
    Ledger.moveEvents]
  refine congrArg _ ?_
  rcases books : ledger.acquire allocator.heap.arena.extensible size with ⟨result, books'⟩
  rw [books] at acquired_eq afterFollows fresh
  cases result with
  | error failure =>
      subst acquired_eq
      rfl
  | ok target =>
      subst acquired_eq
      have targetFresh := fresh target rfl
      have different := Ledger.ne_of_fresh live targetFresh
      have stillLive := Ledger.live_acquired_of_live live books targetFresh
      have targetLive := Ledger.live_acquired_self books
      have fits := follows.heap.fits _ _ live
      have added : Size.add offset headerSize = .ok (offset + 8) :=
        after.heap.arena.add_eq_ok_of_inside (afterFollows.heap.payload_inside stillLive).le
      have destination : (payloadAddress target).toNat = target + 8 := Int.toNat_natCast _
      have count : allocation.header.requested.toNat = allocation.requested :=
        fits.toNat_ofNat_requested
      rcases afterFollows.heap.copy stillLive targetLive different larger.le with
        ⟨copied, copy_eq, copiedFollows, _⟩
      rcases copiedFollows.coalesce_live stillLive with ⟨freed, coalesce_eq, _⟩
      have returned := copiedFollows.events_coalesce_live stillLive
      obtain ⟨⟨arena, sentinels⟩, config⟩ := after
      have order_eq : allocation.header.order = allocation.order := rfl
      simp only [Except.map, destination, count, order_eq] at copy_eq coalesce_eq returned ⊢
      rw [Traced.events_bind added, Traced.events_bind copy_eq, Traced.events_bind coalesce_eq,
        Traced.events_bind rfl, returned]
      simp only [Traced.events_lift, Traced.events_record, Traced.events_pure, List.append_nil]
      rfl

theorem events_shrink (follows : allocator.Follows ledger)
    (live : ledger.live offset = some allocation) (valid : ¬(size = 0 ∨ maxPayload < size))
    (smaller : requestOrder size ≤ allocation.order) :
    (allocator.resize (some (payloadAddress offset)) size).events =
      Ledger.shrinkEvents offset allocation.order size := by
  have fits := fits_of_valid valid
  have validated := follows.validated_eq_ok live
  have reclaimed := follows.heap.reclaim live
  rcases reclaimed.split fits.minOrder_le smaller with ⟨cut, split_eq, cutFollows, _⟩
  rcases cutFollows.writeBlock fits rfl with ⟨after, written_eq, _⟩
  have cut_eq : (allocator.heap.split offset (requestOrder size) allocation.header.order).outcome =
      .ok cut := split_eq
  have recorded : (allocator.heap.split offset (requestOrder size) allocation.header.order).events =
      Ledger.splitEvents offset (requestOrder size) allocation.order :=
    reclaimed.events_split fits.minOrder_le
  rw [resize_eq_shrink validated valid smaller, Traced.events_bind cut_eq, recorded,
    Ledger.shrinkEvents]
  refine congrArg _ ?_
  rw [Traced.events_bind written_eq]
  split
  · rename_i less
    exact (if_pos less).symm
  · rename_i same
    exact (if_neg same).symm

theorem events_resize (follows : allocator.Follows ledger)
    (live : ledger.live offset = some allocation) (size : Nat) :
    (allocator.resize (some (payloadAddress offset)) size).events = ledger.resizeEvents
      allocator.heap.arena.extensible allocator.heap.arena.growEvents offset allocation size := by
  by_cases zero : size = 0
  · subst zero
    rcases follows.release live with ⟨after, release_eq, _⟩
    rw [resize_eq_release, Ledger.resizeEvents, if_pos rfl, Traced.events_bind release_eq,
      follows.events_release live]
    exact List.append_nil _
  · by_cases large : maxPayload < size
    · rw [resize_eq_refusal _ _ large, Ledger.resizeEvents, if_neg zero, if_pos large]
      rfl
    · have valid : ¬(size = 0 ∨ maxPayload < size) := by omega
      rw [Ledger.resizeEvents, if_neg zero, if_neg large]
      by_cases larger : allocation.order < requestOrder size
      · rcases follows.move live larger with ⟨⟨moved, after⟩, move_eq, _⟩
        rw [resize_eq_move (follows.validated_eq_ok live) valid larger, if_pos larger,
          Traced.events_bind move_eq, follows.events_move live larger]
        exact List.append_nil _
      · rw [if_neg larger, follows.events_shrink live valid (Nat.le_of_not_lt larger)]

end Allocator.Follows

end BuddyHeap
