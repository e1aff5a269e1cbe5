import BuddyHeap.Proofs.Client.Runs
import BuddyHeap.Proofs.Heap.Walking

/-! The account that memory gives of itself, whatever has happened to it: the
blocks that a walk meets fill the heap, the free ones are those on the free
lists, and the others are those of the client. -/

namespace BuddyHeap

structure Header.Serves (header : Header) (size : Nat) : Prop where
  allocated : header.allocated = true
  order_eq : requiredOrder size = .ok header.order
  padded_eq : ∃ capacity, payloadCapacity header.order = .ok capacity ∧
    header.padded = decide (capacity ≠ size)
  requested_eq : header.requested.toNat = size

theorem Allocation.Fits.serves {allocation : Allocation} (fits : allocation.Fits) :
    allocation.header.Serves allocation.requested where
  allocated := rfl
  order_eq := by
    have bound := fits.le_maxPayload
    simp only [maxPayload] at bound
    rw [requiredOrder_eq_ok (by omega), ← fits.order_eq]
    rfl
  padded_eq := by
    have small : allocation.order < 64 := fits.order_lt
    exact ⟨allocation.capacity, payloadCapacity_eq_ok fits.minOrder_le small, rfl⟩
  requested_eq := fits.toNat_ofNat_requested

namespace Ledger

variable {ledger : Ledger} {offset order : Nat}

theorem enters_free_iff : ledger.Enters ⟨offset, order, false⟩ ↔ offset ∈ ledger.lists order := by
  constructor
  · intro holds
    rcases holds with ⟨use, uses, free⟩
    have use_eq : use = .free := by simpa using free
    subst use_eq
    exact uses
  · intro listed
    exact ⟨.free, listed, rfl⟩

theorem enters_allocated_iff : ledger.Enters ⟨offset, order, true⟩ ↔
    ∃ requested, ledger.live offset = some ⟨order, requested⟩ := by
  constructor
  · intro holds
    rcases holds with ⟨use, uses, allocated⟩
    cases use with
    | free => cases allocated
    | allocated requested => exact ⟨requested, uses⟩
    | held => cases uses
  · intro holds
    rcases holds with ⟨requested, live⟩
    exact ⟨.allocated requested, live, rfl⟩

end Ledger

namespace Client

/-- What a walk over the memory of a client has met. -/
structure Accounts (client : Client) (entries : List BlockEntry) : Prop where
  chained : Chained 0 client.allocator.heap.size entries
  placed : ∀ entry, entry ∈ entries → minOrder ≤ entry.order ∧ entry.order < orderBound ∧
    2 ^ entry.order ∣ entry.offset
  whole : maxBlockSize ∣ client.allocator.heap.size
  bounded : client.allocator.heap.size ≤ client.allocator.config.ceiling
  listed : ∀ order, minOrder ≤ order → order < orderBound → ∃ offsets,
    client.allocator.heap.freeList order = .ok offsets ∧ offsets.Nodup ∧
      ∀ offset, offset ∈ offsets ↔ ⟨offset, order, false⟩ ∈ entries
  live_iff : ∀ address, (∃ size, client.live address = some size) ↔
    ∃ offset order, ⟨offset, order, true⟩ ∈ entries ∧ address = (offset + headerSize : Nat)
  accepted : ∀ address size, client.live address = some size → ∃ offset header,
    client.allocator.heap.arena.check address = .ok (.ok (offset, header)) ∧
      address = (offset + headerSize : Nat) ∧ header.Serves size

variable {client : Client} {ledger : Ledger}

theorem Follows.yields_accounts (follows : client.Follows ledger) :
    Yields client.allocator.heap.arena.blocks client.Accounts := by
  have heap := follows.allocator.heap
  have size_eq : client.allocator.heap.size = ledger.size := heap.size_eq
  apply Yields.mono heap.blocks
  intro entries holds
  rcases holds with ⟨chained, members⟩
  refine ⟨?_, ?_, ?_, follows.size_le_ceiling, ?_, ?_, ?_⟩
  · rw [size_eq]
    exact chained
  · intro entry member
    rcases (members entry).mp member with ⟨use, uses, _⟩
    have range := heap.tiled.order_range _ _ uses
    exact ⟨range.1, Nat.lt_succ_of_le range.2, heap.tiled.aligned _ _ uses⟩
  · rw [size_eq]
    exact heap.tiled.whole
  · intro order least bounded
    refine ⟨ledger.lists order, heap.lists.freeList_eq ⟨least, bounded⟩,
      heap.lists.separate.nodup order, ?_⟩
    intro offset
    rw [members, Ledger.enters_free_iff]
  · intro address
    constructor
    · intro holds
      rcases holds with ⟨size, live⟩
      rcases follows.booked_of_live live with ⟨offset, address_eq, booked⟩
      refine ⟨offset, requestOrder size, ?_, address_eq⟩
      rw [members, Ledger.enters_allocated_iff]
      exact ⟨size, booked⟩
    · intro holds
      rcases holds with ⟨offset, order, member, address_eq⟩
      rw [members, Ledger.enters_allocated_iff] at member
      rcases member with ⟨requested, booked⟩
      exact ⟨requested, address_eq ▸ follows.live_of_booked booked⟩
  · intro address size live
    rcases follows.booked_of_live live with ⟨offset, rfl, booked⟩
    exact ⟨offset, _, heap.check_eq_ok booked, rfl, (heap.fits _ _ booked).serves⟩

/-- Wherever the client gets, a walk over the memory succeeds, and its account
is right. -/
theorem Reachable.accounts (reachable : client.Reachable) :
    ∃ entries, client.allocator.heap.arena.blocks = .ok entries ∧ client.Accounts entries := by
  rcases reachable.exists_follows with ⟨ledger, follows⟩
  exact follows.yields_accounts

theorem accounts_of_released : ∃ client : Client, client.live 40 = some 24 ∧
    ∃ entries, client.allocator.heap.arena.blocks = .ok entries ∧ client.Accounts entries := by
  rcases exists_reaches .default (by decide) [.acquire 24, .acquire 24, .release 8] rfl with
    ⟨first, client, fresh, run, keeps⟩
  have reachable : client.Reachable := ⟨first, _, fresh, run⟩
  exact ⟨client, keeps.live_eq 40, reachable.accounts⟩

end Client

end BuddyHeap
