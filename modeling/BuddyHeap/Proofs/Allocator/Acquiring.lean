import BuddyHeap.Allocator.Operations
import BuddyHeap.Proofs.Heap.Releasing
import BuddyHeap.Proofs.Heap.Taking

/-! Acquiring a block does to the allocator what it does to its books. -/

namespace BuddyHeap

def payloadAddress (offset : Nat) : Int := (offset + 8 : Nat)

namespace Allocator

/-- The allocator is as its books say, between two operations. -/
structure Follows (allocator : Allocator) (ledger : Ledger) : Prop where
  heap : allocator.heap.Follows ledger none
  capacity_eq : allocator.heap.arena.capacity = allocator.config.ceiling

structure Preserves (live : Nat → Option Allocation) (before after : Allocator) : Prop where
  config_eq : after.config = before.config
  heap : Heap.Preserves live none before.heap after.heap

variable {allocator before after : Allocator} {ledger : Ledger}
  {live : Nat → Option Allocation}

theorem Preserves.refl (live : Nat → Option Allocation) (allocator : Allocator) :
    Preserves live allocator allocator := ⟨rfl, .refl ..⟩

theorem Preserves.follows (preserves : Preserves live before after)
    (capacity_eq : before.heap.arena.capacity = before.config.ceiling)
    (heap : after.heap.Follows ledger none) : after.Follows ledger where
  heap := heap
  capacity_eq := by rw [preserves.heap.capacity_eq, capacity_eq, preserves.config_eq]

theorem checkRequest_eq_error {size : Nat} (invalid : size = 0 ∨ maxPayload < size) :
    checkRequest size = .error (.invalidRequest size maxPayload) := if_pos invalid

theorem checkRequest_eq_ok {size : Nat} (valid : ¬(size = 0 ∨ maxPayload < size)) :
    checkRequest size = .ok (UInt32.ofNat size) := if_neg valid

theorem requiredOrder_of_valid {size : Nat} (valid : ¬(size = 0 ∨ maxPayload < size)) :
    requiredOrder size = .ok (requestOrder size) := by
  apply requiredOrder_eq_ok
  simp only [maxPayload] at valid
  omega

theorem fits_of_valid {size : Nat} (valid : ¬(size = 0 ∨ maxPayload < size)) :
    (Allocation.ofRequest size).Fits :=
  Allocation.fits_ofRequest (by omega) (by omega)

theorem exists_attempts (config : Config) : ∃ attempts, config.maxChunks + 1 = attempts + 2 := by
  have positive := config.ceiling_pos
  have whole := config.ceiling_whole
  refine ⟨config.maxChunks - 1, ?_⟩
  simp only [Config.maxChunks, maxBlockSize] at whole ⊢
  omega

/-- What acquiring a block comes to. The bytes of its payload, but for those of
a node, are those that were there. -/
structure Acquired (before : Allocator) (ledger : Ledger) (size : Nat)
    (acquired : Except AllocatorError Int) (after : Allocator) : Prop where
  result : acquired = (ledger.acquire before.heap.arena.extensible size).1.map payloadAddress
  follows : after.Follows (ledger.acquire before.heap.arena.extensible size).2
  preserves : Preserves ledger.live before after
  unchanged : ∀ failure, acquired = .error failure → after = before
  fresh : ∀ offset, (ledger.acquire before.heap.arena.extensible size).1 = .ok offset →
    ledger.live offset = none
  marked : ∀ place, after.heap.arena.Marked place → before.heap.arena.Marked place ∨
    (ledger.acquire before.heap.arena.extensible size).1 = .ok place
  kept : ∀ offset, (ledger.acquire before.heap.arena.extensible size).1 = .ok offset →
    Heap.ContentKept ⟨offset, requestOrder size⟩ before.heap after.heap

theorem Acquired.of_failure {size : Nat} {failure : AllocatorError} (follows : allocator.Follows ledger)
    (books_eq : ledger.acquire allocator.heap.arena.extensible size = (.error failure, ledger)) :
    Acquired allocator ledger size (.error failure) allocator where
  result := by
    rw [books_eq]
    rfl
  follows := by rwa [books_eq]
  preserves := .refl ..
  unchanged _ _ := rfl
  fresh := by simp [books_eq]
  marked _ marked := .inl marked
  kept := by simp [books_eq]

namespace Follows

theorem acquire (follows : allocator.Follows ledger) (size : Nat) :
    Yields (allocator.acquire size).outcome fun (acquired, after) =>
      Acquired allocator ledger size acquired after := by
  by_cases invalid : size = 0 ∨ maxPayload < size
  · rw [Allocator.acquire, checkRequest_eq_error invalid]
    exact .ok (.of_failure follows (if_pos invalid))
  · obtain ⟨heap, config⟩ := allocator
    rcases exists_attempts config with ⟨attempts, attempts_eq⟩
    have fits := fits_of_valid invalid
    have inRange : minOrder ≤ requestOrder size ∧ requestOrder size < orderBound :=
      fits.inRange
    simp only [Allocator.acquire, checkRequest_eq_ok invalid, requiredOrder_of_valid invalid,
      Traced.outcome_bind, Traced.outcome_lift, ok_bind, attempts_eq]
    apply Yields.bind (follows.heap.takeBlock inRange attempts)
    intro result took
    rcases result with ⟨taken?, taken⟩
    cases listed : ledger.take heap.arena.extensible (requestOrder size) with
    | none =>
        simp only [listed, Heap.Took] at took
        rcases took with ⟨taken_eq, heap_eq⟩
        subst taken_eq heap_eq
        have size_eq : taken.size = ledger.size := follows.heap.size_eq
        simp only [size_eq]
        refine .ok (.of_failure follows ?_)
        simp only [Ledger.acquire, if_neg invalid, listed]
    | some result =>
        obtain ⟨offset, books⟩ := result
        simp only [listed, Heap.Took] at took
        rcases took with ⟨taken_eq, takenFollows, taking, takenKept⟩
        subst taken_eq
        have books_eq : ledger.acquire heap.arena.extensible size =
            (.ok offset, books.allocate offset (.ofRequest size)) := by
          simp only [Ledger.acquire, if_neg invalid, listed]
        have live_eq := Ledger.live_of_take listed
        have header : Header.forRequest (requestOrder size) (UInt32.ofNat size) =
            .ok (Allocation.ofRequest size).header := fits.forRequest_eq_ok
        simp only [Traced.outcome_bind, Traced.outcome_lift, header, ok_bind]
        apply Yields.bind (takenFollows.writeBlock fits rfl)
        intro written holds
        rcases holds with ⟨writtenFollows, writing, written_eq⟩
        have live : (books.allocate offset (.ofRequest size)).live offset =
          some (.ofRequest size) := Function.update_self ..
        have inside := writtenFollows.payload_inside live
        have added : Size.add offset headerSize = .ok (offset + 8) :=
          written.arena.add_eq_ok_of_inside inside.le
        have located : written.arena.addressOf (offset + 8) = .ok (payloadAddress offset) :=
          if_pos inside
        simp only [Traced.outcome_record, added, located, ok_bind]
        have fresh : ledger.live offset = none := by
          rw [← live_eq]
          exact takenFollows.tiled.live_eq_none_of_held
        have kept : Preserves ledger.live ⟨heap, config⟩ ⟨written, config⟩ :=
          ⟨rfl, taking.preserves.trans (live_eq ▸ writing)⟩
        apply Yields.ok
        constructor <;> simp only [books_eq]
        case result => rfl
        case follows => exact kept.follows follows.capacity_eq writtenFollows
        case preserves => exact kept
        case unchanged => simp
        case fresh =>
          intro other same
          cases same
          exact fresh
        case marked =>
          intro place marked
          rcases written_eq.marked_of_word (writtenFollows.minBlockSize_dvd_of_live live) marked with
            same | old
          · exact .inr (congrArg _ same.symm)
          · exact .inl (taking.marked place old)
        case kept =>
          intro other same index covers beyond
          cases same
          rw [written_eq.byte_eq index (by simp only [nodeSize] at beyond ⊢; omega)]
          exact takenKept index covers beyond

end Follows

end Allocator

end BuddyHeap
