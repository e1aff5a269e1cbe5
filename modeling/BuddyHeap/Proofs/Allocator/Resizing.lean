import BuddyHeap.Proofs.Allocator.Acquiring

/-! Releasing and resizing a block do to the allocator what they do to its
books, and a payload takes along the bytes that both of its sizes have. -/

namespace BuddyHeap

namespace Allocator

variable {allocator : Allocator} {ledger : Ledger} {offset size : Nat} {allocation : Allocation}

def PayloadKept (before after : Allocator) (offset target count : Nat) : Prop :=
  ∀ index, index < count →
    after.heap.arena.byte (target + 8 + index) = before.heap.arena.byte (offset + 8 + index)

theorem validated_of_check {address : Int} {header : Header}
    (accepted : allocator.heap.arena.check address = .ok (.ok (offset, header))) :
    allocator.validated address = .ok (offset, header) := by
  simp only [validated, accepted, ok_bind]
  rfl

/-! ## What a resize consists of -/

theorem resize_eq_acquire (allocator : Allocator) (size : Nat) :
    allocator.resize none size =
      allocator.acquire size >>= fun result => pure (result.1.map some, result.2) := rfl

theorem resize_eq_release (allocator : Allocator) (address : Int) :
    allocator.resize (some address) 0 =
      allocator.release address >>= fun after => pure (.ok none, after) := rfl

theorem resize_eq_refusal (allocator : Allocator) (address : Int) (large : maxPayload < size) :
    allocator.resize (some address) size =
      pure (.error (.invalidRequest size maxPayload), allocator) := by
  have positive : size ≠ 0 := (Nat.zero_lt_of_lt large).ne'
  simp only [resize, resizeBy, if_neg positive, checkRequest_eq_error (.inr large)]

theorem resize_eq_fault {address : Int} {fault : Fault} (valid : ¬(size = 0 ∨ maxPayload < size))
    (failed : allocator.validated address = .error fault) :
    (allocator.resize (some address) size).outcome = .error fault := by
  have positive : size ≠ 0 := fun zero => valid (.inl zero)
  simp only [resize, resizeBy, if_neg positive, checkRequest_eq_ok valid, Traced.outcome_bind,
    Traced.outcome_lift, failed]
  rfl

theorem resize_eq_move {address : Int} {header : Header}
    (validated : allocator.validated address = .ok (offset, header))
    (valid : ¬(size = 0 ∨ maxPayload < size)) (larger : header.order < requestOrder size) :
    allocator.resize (some address) size =
      allocator.move offset header size >>= fun result => pure (result.1.map some, result.2) := by
  have positive : size ≠ 0 := fun zero => valid (.inl zero)
  simp only [resize, resizeBy, if_neg positive, checkRequest_eq_ok valid, validated,
    requiredOrder_of_valid valid, Traced.lift_ok, pure_bind, if_pos larger]
  rfl

theorem resize_eq_shrink {address : Int} {header : Header}
    (validated : allocator.validated address = .ok (offset, header))
    (valid : ¬(size = 0 ∨ maxPayload < size)) (smaller : requestOrder size ≤ header.order) :
    allocator.resize (some address) size =
      (allocator.heap.split offset (requestOrder size) header.order >>= fun cut =>
        (liftM (cut.writeBlock offset (.allocated (Allocation.ofRequest size).header)) :
          Traced Heap) >>= fun heap =>
          Traced.record (if requestOrder size < header.order then
              .shrunk (offset + headerSize) size header.order (requestOrder size)
            else .resizedInPlace (offset + headerSize) size) >>= fun _ =>
          pure (.ok (some address), { heap, config := allocator.config })) := by
  have positive : size ≠ 0 := fun zero => valid (.inl zero)
  have made : Header.forRequest (requestOrder size) (UInt32.ofNat size) =
      .ok (Allocation.ofRequest size).header := (fits_of_valid valid).forRequest_eq_ok
  simp only [resize, resizeBy, if_neg positive, checkRequest_eq_ok valid, validated,
    requiredOrder_of_valid valid, made, Traced.lift_ok, pure_bind, if_neg (Nat.not_lt_of_le smaller)]
  rw [allocator.heap.split_eq_ite smaller]
  split
  · rfl
  · rfl

theorem resize_of_smaller {address : Int} {header : Header}
    (validated : allocator.validated address = .ok (offset, header))
    (valid : ¬(size = 0 ∨ maxPayload < size)) (smaller : requestOrder size ≤ header.order) :
    (allocator.resize (some address) size).outcome =
      (allocator.heap.shrink offset header.order size).map fun heap =>
        (.ok (some address), { heap, config := allocator.config }) := by
  simp only [resize_eq_shrink validated valid smaller, Heap.shrink, Traced.outcome_bind,
    Traced.outcome_lift, Traced.outcome_record, Traced.outcome_pure, ok_bind, map_eq_bind, bind_assoc]

theorem resize_of_larger {address target : Int} {header : Header} {middle : Allocator}
    {arena : Arena}
    (validated : allocator.validated address = .ok (offset, header))
    (valid : ¬(size = 0 ∨ maxPayload < size)) (larger : header.order < requestOrder size)
    (acquired : (allocator.acquire size).outcome = .ok (.ok target, middle))
    (added : Size.add offset headerSize = .ok (offset + headerSize))
    (copied : middle.heap.arena.copy (offset + headerSize) target.toNat header.requested.toNat =
      .ok arena) :
    (allocator.resize (some address) size).outcome =
      (Heap.coalesce { middle.heap with arena } offset header.order).outcome.map fun heap =>
        (.ok (some target), { heap, config := middle.config }) := by
  obtain ⟨⟨before, sentinels⟩, config⟩ := middle
  simp only [resize_eq_move validated valid larger, move, moveBy, Traced.outcome_bind, acquired,
    Traced.outcome_lift, added, copied, Traced.outcome_record, ok_bind, map_eq_bind, bind_assoc]
  rfl

/-- The places that resizing a block marks: the start of the block, and if it
moves what its payload carries along. -/
def MarksResized (before : Allocator) (offset target count place : Nat) : Prop :=
  place = target ∨ (target ≠ offset ∧ before.heap.arena.Carries offset target count place)

structure Resized (before : Allocator) (ledger : Ledger) (offset : Nat) (allocation : Allocation)
    (size : Nat) (resized : Except AllocatorError (Option Int)) (after : Allocator) : Prop where
  result : resized = (ledger.resize before.heap.arena.extensible (some offset) size).1.map
    (Option.map payloadAddress)
  follows : after.Follows (ledger.resize before.heap.arena.extensible (some offset) size).2
  preserves : Preserves (ledger.reclaim offset).live before after
  unchanged : ∀ failure, resized = .error failure → after = before
  kept : ∀ target, (ledger.resize before.heap.arena.extensible (some offset) size).1 =
    .ok (some target) → PayloadKept before after offset target (min allocation.requested size) ∧
      (target = offset ∨ ledger.live target = none)
  live_eq : ∀ target, (ledger.resize before.heap.arena.extensible (some offset) size).1 =
    .ok (some target) → (ledger.resize before.heap.arena.extensible (some offset) size).2.live =
      Function.update (Function.update ledger.live offset none) target (some (.ofRequest size))
  released : resized = .ok none → after.heap.Stale ledger offset allocation
  moved : ∀ address, resized = .ok (some address) → address ≠ payloadAddress offset →
    ∃ target, address = payloadAddress target ∧
      (ledger.acquire before.heap.arena.extensible size).1 = .ok target ∧
      after.heap.Stale (ledger.acquire before.heap.arena.extensible size).2 offset allocation
  marked : ∀ place, after.heap.arena.Marked place → before.heap.arena.Marked place ∨
    ∃ target, (ledger.resize before.heap.arena.extensible (some offset) size).1 = .ok (some target) ∧
      before.MarksResized offset target allocation.requested place

theorem Resized.of_books {after : Allocator} {resized : Except AllocatorError (Option Int)}
    {result : Except AllocatorError (Option Nat)} {books : Ledger}
    (books_eq : ledger.resize allocator.heap.arena.extensible (some offset) size = (result, books))
    (resized_eq : resized = result.map (Option.map payloadAddress))
    (follows : after.Follows books) (preserves : Preserves (ledger.reclaim offset).live allocator after)
    (unchanged : ∀ failure, resized = .error failure → after = allocator)
    (placed : ∀ target, result = .ok (some target) →
      PayloadKept allocator after offset target (min allocation.requested size) ∧
        (target = offset ∨ ledger.live target = none) ∧
        books.live =
          Function.update (Function.update ledger.live offset none) target (some (.ofRequest size)))
    (released : resized = .ok none → after.heap.Stale ledger offset allocation)
    (moved : ∀ address, resized = .ok (some address) → address ≠ payloadAddress offset →
      ∃ target, address = payloadAddress target ∧
        (ledger.acquire allocator.heap.arena.extensible size).1 = .ok target ∧
        after.heap.Stale (ledger.acquire allocator.heap.arena.extensible size).2 offset allocation)
    (marked : ∀ place, after.heap.arena.Marked place → allocator.heap.arena.Marked place ∨
      ∃ target, result = .ok (some target) ∧
        allocator.MarksResized offset target allocation.requested place) :
    Resized allocator ledger offset allocation size resized after where
  result := by rw [books_eq, resized_eq]
  follows := by rwa [books_eq]
  preserves := preserves
  unchanged := unchanged
  kept := by
    rw [books_eq]
    exact fun target same => ⟨(placed target same).1, (placed target same).2.1⟩
  live_eq := by
    rw [books_eq]
    exact fun target same => (placed target same).2.2
  released := released
  moved := moved
  marked := by
    rw [books_eq]
    exact marked

theorem Resized.of_failure {failure : AllocatorError} (follows : allocator.Follows ledger)
    (books_eq : ledger.resize allocator.heap.arena.extensible (some offset) size =
      (.error failure, ledger)) :
    Resized allocator ledger offset allocation size (.error failure) allocator :=
  .of_books books_eq rfl follows (.refl ..) (fun _ _ => rfl) (by simp) (by simp) (by simp)
    fun _ marked => .inl marked

namespace Follows

theorem check_eq_ok (follows : allocator.Follows ledger)
    (live : ledger.live offset = some allocation) :
    allocator.heap.arena.check (payloadAddress offset) = .ok (.ok (offset, allocation.header)) :=
  follows.heap.check_eq_ok live

theorem validated_eq_ok (follows : allocator.Follows ledger)
    (live : ledger.live offset = some allocation) :
    allocator.validated (payloadAddress offset) = .ok (offset, allocation.header) :=
  validated_of_check (follows.check_eq_ok live)

/-! ## Releasing -/

theorem release (follows : allocator.Follows ledger)
    (live : ledger.live offset = some allocation) :
    Yields (allocator.release (payloadAddress offset)).outcome fun after =>
      after.Follows (ledger.release offset) ∧ Preserves (ledger.reclaim offset).live allocator after ∧
        (∀ place, after.heap.arena.Marked place → allocator.heap.arena.Marked place) ∧
        after.heap.Stale ledger offset allocation := by
  have validated := follows.validated_eq_ok live
  obtain ⟨heap, config⟩ := allocator
  simp only [Allocator.release, Traced.outcome_bind, Traced.outcome_lift, Traced.outcome_record,
    validated, ok_bind]
  apply Yields.bind (follows.heap.coalesce_live live)
  intro after holds
  rcases holds with ⟨afterFollows, rearranges, stale⟩
  have kept : Preserves (ledger.reclaim offset).live ⟨heap, config⟩ ⟨after, config⟩ :=
    ⟨rfl, rearranges.preserves⟩
  exact .ok ⟨kept.follows follows.capacity_eq afterFollows, kept, rearranges.marked, stale⟩

/-! ## Moving -/

theorem move (follows : allocator.Follows ledger) (live : ledger.live offset = some allocation)
    (larger : allocation.order < requestOrder size) :
    Yields (allocator.move offset allocation.header size).outcome fun (moved, after) =>
      match ledger.acquire allocator.heap.arena.extensible size with
      | (.error failure, _) => moved = .error failure ∧ after = allocator
      | (.ok target, acquired) => moved = .ok (payloadAddress target) ∧
          after.Follows (acquired.release offset) ∧
          Preserves (ledger.reclaim offset).live allocator after ∧
          PayloadKept allocator after offset target allocation.requested ∧
          ledger.live target = none ∧ after.heap.Stale acquired offset allocation ∧
          ∀ place, after.heap.arena.Marked place → allocator.heap.arena.Marked place ∨
            allocator.MarksResized offset target allocation.requested place := by
  rw [Allocator.move, Allocator.moveBy, Traced.outcome_bind]
  apply Yields.bind (follows.acquire size)
  intro result holds
  rcases result with ⟨acquired, after⟩
  obtain ⟨acquired_eq, afterFollows, preserves, unchanged, fresh, acquiredMarks, _⟩ := holds
  rcases books : ledger.acquire allocator.heap.arena.extensible size with ⟨result, books'⟩
  rw [books] at acquired_eq afterFollows fresh acquiredMarks
  cases result with
  | error failure =>
      subst acquired_eq
      exact .ok ⟨rfl, unchanged failure rfl⟩
  | ok target =>
      subst acquired_eq
      have targetFresh := fresh target rfl
      have different := Ledger.ne_of_fresh live targetFresh
      have stillLive := Ledger.live_acquired_of_live live books targetFresh
      have targetLive := Ledger.live_acquired_self books
      have fits := follows.heap.fits _ _ live
      have longer : allocation.requested ≤ size := by
        by_contra notLonger
        have orders := requestOrder_mono (Nat.le_of_not_le notLonger)
        rw [← fits.order_eq] at orders
        exact Nat.not_lt_of_le orders larger
      have added : Size.add offset headerSize = .ok (offset + 8) :=
        after.heap.arena.add_eq_ok_of_inside (afterFollows.heap.payload_inside stillLive).le
      have destination : (payloadAddress target).toNat = target + 8 := Int.toNat_natCast _
      have count : allocation.header.requested.toNat = allocation.requested :=
        fits.toNat_ofNat_requested
      obtain ⟨⟨arena, sentinels⟩, config⟩ := after
      simp only [Except.map, Traced.outcome_bind, Traced.outcome_lift, Traced.outcome_record, added,
        ok_bind, destination, count]
      rw [← bind_assoc]
      apply Yields.bind (afterFollows.heap.transfer stillLive targetLive different larger.le longer)
      intro freed holds
      rcases holds with ⟨freedFollows, moving, moved_eq, movedMarks, stale⟩
      have acquiring : Heap.Preserves (ledger.reclaim offset).live none allocator.heap
          ⟨arena, sentinels⟩ :=
        preserves.heap.of_fewer fun _ _ otherLive => (Heap.Follows.live_of_reclaim otherLive).2
      have moving : Heap.Preserves (ledger.reclaim offset).live none ⟨arena, sentinels⟩ freed := by
        apply moving.of_fewer
        intro other otherAllocation otherLive
        rcases Heap.Follows.live_of_reclaim otherLive with ⟨notOffset, otherLive⟩
        rw [Ledger.live_reclaim, Function.update_of_ne notOffset]
        exact Ledger.live_acquired_of_ne books targetFresh otherLive
      have kept : Preserves (ledger.reclaim offset).live allocator ⟨freed, config⟩ :=
        ⟨preserves.config_eq, acquiring.trans moving⟩
      have old : ∀ place, Arena.Marked arena place → place ≠ target →
          allocator.heap.arena.Marked place := by
        intro place marked elsewhere
        refine (acquiredMarks place marked).resolve_right fun same => ?_
        cases same
        exact elsewhere rfl
      refine .ok ⟨rfl, kept.follows follows.capacity_eq freedFollows, kept, ?_, targetFresh, stale, ?_⟩
      · intro index below
        rw [moved_eq index below]
        exact preserves.heap.byte_eq_of_taken (.of_payload live fits below)
      · intro place marked
        rcases movedMarks place marked with carried | marked
        · refine .inr (.inr ⟨different.symm, carried.imp fun distance positive below inside => ?_⟩)
          have apart := afterFollows.heap.apart_of_live stillLive targetLive different
          have capacity := fits.requested_le_capacity
          have header := fits.headerSize_le
          have length := Nat.two_pow_pos (Allocation.ofRequest size).order
          simp only [Allocation.capacity] at capacity
          exact old _ inside (by omega)
        · by_cases same : place = target
          · exact .inr (.inl same)
          · exact .inl (old place marked same)

/-! ## Resizing -/

theorem resize_zero (follows : allocator.Follows ledger)
    (live : ledger.live offset = some allocation) :
    Yields (allocator.resize (some (payloadAddress offset)) 0).outcome fun (resized, after) =>
      Resized allocator ledger offset allocation 0 resized after := by
  have books : ledger.resize allocator.heap.arena.extensible (some offset) 0 =
      (.ok none, ledger.release offset) := rfl
  rw [resize_eq_release, Traced.outcome_bind]
  apply Yields.bind (follows.release live)
  intro after holds
  rcases holds with ⟨afterFollows, preserves, marked, stale⟩
  exact .ok (.of_books books rfl afterFollows preserves (by simp) (by simp) (fun _ => stale)
    (by simp) fun place there => .inl (marked place there))

theorem resize_invalid (follows : allocator.Follows ledger) (large : maxPayload < size) :
    Yields (allocator.resize (some (payloadAddress offset)) size).outcome fun (resized, after) =>
      Resized allocator ledger offset allocation size resized after := by
  have positive : size ≠ 0 := (Nat.zero_lt_of_lt large).ne'
  have books : ledger.resize allocator.heap.arena.extensible (some offset) size =
      (.error (.invalidRequest size maxPayload), ledger) := by
    simp only [Ledger.resize, if_neg positive, if_pos large]
  rw [resize_eq_refusal _ _ large]
  exact .ok (.of_failure follows books)

theorem resize_larger (follows : allocator.Follows ledger)
    (live : ledger.live offset = some allocation) (valid : ¬(size = 0 ∨ maxPayload < size))
    (larger : allocation.order < requestOrder size) :
    Yields (allocator.resize (some (payloadAddress offset)) size).outcome fun (resized, after) =>
      Resized allocator ledger offset allocation size resized after := by
  have positive : size ≠ 0 := by omega
  have served : ¬maxPayload < size := by omega
  rw [resize_eq_move (follows.validated_eq_ok live) valid larger, Traced.outcome_bind]
  apply Yields.bind (follows.move live larger)
  intro result outcome
  rcases result with ⟨moved, after⟩
  rcases acquired : ledger.acquire allocator.heap.arena.extensible size with ⟨result, books'⟩
  have books : ledger.resize allocator.heap.arena.extensible (some offset) size =
      (match ledger.acquire allocator.heap.arena.extensible size with
      | (.error failure, after) => (.error failure, after)
      | (.ok target, after) => (.ok (some target), after.release offset)) := by
    simp only [Ledger.resize, if_neg positive, if_neg served, live, if_pos larger, Ledger.move,
      acquired]
    cases result <;> rfl
  rw [acquired] at outcome books
  cases result with
  | error failure =>
      rcases outcome with ⟨moved_eq, after_eq⟩
      subst moved_eq after_eq
      rw [Ledger.eq_of_acquire_error acquired] at books
      exact .ok (.of_failure follows books)
  | ok target =>
      rcases outcome with ⟨moved_eq, afterFollows, preserves, kept, fresh, stale, marked⟩
      subst moved_eq
      have different := Ledger.ne_of_fresh live fresh
      have stillLive := Ledger.live_acquired_of_live live acquired fresh
      apply Yields.ok
      apply Resized.of_books books rfl afterFollows preserves (by simp [Except.map])
      case placed =>
        intro other same
        cases same
        refine ⟨fun index below => kept index (Nat.lt_of_lt_of_le below (Nat.min_le_left ..)),
          .inr fresh, ?_⟩
        rw [Ledger.live_release stillLive, Ledger.live_of_acquire acquired,
          Function.update_comm different]
      case released => simp [Except.map]
      case moved =>
        intro address same _
        cases same
        rw [acquired]
        exact ⟨target, rfl, rfl, stale⟩
      case marked =>
        exact fun place there => (marked place there).imp_right fun new => ⟨target, rfl, new⟩

theorem resize_smaller (follows : allocator.Follows ledger)
    (live : ledger.live offset = some allocation) (valid : ¬(size = 0 ∨ maxPayload < size))
    (smaller : requestOrder size ≤ allocation.order) :
    Yields (allocator.resize (some (payloadAddress offset)) size).outcome fun (resized, after) =>
      Resized allocator ledger offset allocation size resized after := by
  have positive : size ≠ 0 := by omega
  have served : ¬maxPayload < size := by omega
  have books : ledger.resize allocator.heap.arena.extensible (some offset) size =
      (.ok (some offset), ledger.shrink offset allocation.order size) := by
    simp only [Ledger.resize, if_neg positive, if_neg served, live,
      if_neg (Nat.not_lt_of_le smaller)]
  rw [resize_of_smaller (follows.validated_eq_ok live) valid smaller]
  rcases follows.heap.shrink live (fits_of_valid valid) smaller with
    ⟨after, after_eq, afterFollows, preserves, bytes, marked⟩
  rw [show allocation.header.order = allocation.order from rfl, after_eq]
  have kept : Preserves (ledger.reclaim offset).live allocator ⟨after, allocator.config⟩ :=
    ⟨rfl, preserves⟩
  refine .ok (.of_books books rfl (kept.follows follows.capacity_eq afterFollows) kept
    (by simp) ?placed (by simp) ?moved ?marked)
  case placed =>
    intro other same
    cases same
    refine ⟨fun index below => bytes index (Nat.lt_of_lt_of_le below (Nat.min_le_right ..)),
      .inl rfl, ?_⟩
    rw [Ledger.live_shrink, Function.update_idem]
  case moved =>
    intro address same different
    cases same
    exact absurd rfl different
  case marked =>
    exact fun place there => (marked place there).symm.imp_right fun same => ⟨offset, rfl, .inl same⟩

theorem resize (follows : allocator.Follows ledger) (live : ledger.live offset = some allocation)
    (size : Nat) :
    Yields (allocator.resize (some (payloadAddress offset)) size).outcome fun (resized, after) =>
      Resized allocator ledger offset allocation size resized after := by
  by_cases zero : size = 0
  · subst zero
    exact follows.resize_zero live
  · by_cases large : maxPayload < size
    · exact follows.resize_invalid large
    · have valid : ¬(size = 0 ∨ maxPayload < size) := by omega
      by_cases larger : allocation.order < requestOrder size
      · exact follows.resize_larger live valid larger
      · exact follows.resize_smaller live valid (Nat.le_of_not_lt larger)

end Follows

end Allocator

end BuddyHeap
