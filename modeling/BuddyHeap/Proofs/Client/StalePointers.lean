import BuddyHeap.Proofs.Client.Accounting

/-! What validation says of an address that the client has given up. It goes by
the word in front of the payload, and that word is written anew only if the free
block that results starts there. When the block is joined with a lower one, the
old header stays, and so does the address pass for one that is still in use. -/

namespace BuddyHeap

namespace Allocator

variable {allocator : Allocator} {address : Int} {reason : PointerFault} {size : Nat}

theorem validated_eq_error (refused : allocator.heap.arena.check address = .ok (.error reason)) :
    allocator.validated address = .error (.invalidPointer reason) := by
  simp only [validated, refused, ok_bind]
  rfl

theorem release_eq_error (refused : allocator.heap.arena.check address = .ok (.error reason)) :
    (allocator.release address).outcome = .error (.invalidPointer reason) := by
  simp only [release, Traced.outcome_bind, Traced.outcome_lift, validated_eq_error refused]
  rfl

theorem resize_eq_error (refused : allocator.heap.arena.check address = .ok (.error reason))
    (valid : ¬(size = 0 ∨ maxPayload < size)) :
    (allocator.resize (some address) size).outcome = .error (.invalidPointer reason) :=
  resize_eq_fault valid (validated_eq_error refused)

end Allocator

namespace Client

variable {client before after : Client} {ledger : Ledger} {offset size : Nat} {address : Int}
  {allocation : Allocation}

def HasFree (client : Client) (order offset : Nat) : Prop :=
  ∃ offsets, client.allocator.heap.freeList order = .ok offsets ∧ offset ∈ offsets

/-- The block of a payload, when it is given up, becomes part of a free block
that starts before it: from its own order up to another one the buddies are all
free, and the last of them lies below. -/
def Absorbs (client : Client) (address : Int) (size : Nat) : Prop :=
  ∃ offset order last, address = (offset + headerSize : Nat) ∧ requiredOrder size = .ok order ∧
    order ≤ last ∧ last < topOrder ∧ offset ^^^ 2 ^ last < offset ∧
    ∀ level, order ≤ level → level ≤ last → client.HasFree level (offset ^^^ 2 ^ level)

/-- The payload at `address`, of `size` bytes, has just been given up. What was
free `before` decides what can be done with the address `after`. -/
structure GivenUp (before after : Client) (address : Int) (size : Nat) : Prop where
  refused : ¬before.Absorbs address size →
    after.allocator.heap.arena.check address = .ok (.error .notAllocated) ∧
      after.perform (.release address) = .error (.invalidPointer .notAllocated) ∧
      ∀ newSize, 0 < newSize → newSize ≤ maxPayload →
        after.perform (.resize (some address) newSize) = .error (.invalidPointer .notAllocated)
  accepted : before.Absorbs address size → ∃ offset header,
    after.allocator.heap.arena.check address = .ok (.ok (offset, header)) ∧
      address = (offset + headerSize : Nat) ∧ header.Serves size

namespace Follows

theorem hasFree_iff (follows : client.Follows ledger) {order : Nat} (least : minOrder ≤ order)
    (bounded : order < orderBound) : client.HasFree order offset ↔ offset ∈ ledger.lists order :=
  follows.allocator.heap.lists.hasFree_iff ⟨least, bounded⟩

theorem absorbs_iff (follows : client.Follows ledger) (booked : ledger.live offset = some allocation) :
    client.Absorbs (payloadAddress offset) allocation.requested ↔
      ¬Heap.KeepsPlace ledger offset allocation := by
  have fits := follows.allocator.heap.fits _ _ booked
  have required : requiredOrder allocation.requested = .ok allocation.order := fits.serves.order_eq
  have aligned : Span.Aligned ⟨offset, allocation.order⟩ :=
    follows.allocator.heap.aligned_of_live booked
  have free_iff : ∀ last, last < topOrder → ∀ level, allocation.order ≤ level → level ≤ last →
      (client.HasFree level (offset ^^^ 2 ^ level) ↔ offset ^^^ 2 ^ level ∈ ledger.lists level) := by
    intro last bounded level least most
    have lower := fits.minOrder_le
    exact follows.hasFree_iff (by omega) (Nat.lt_succ_of_lt (Nat.lt_of_le_of_lt most bounded))
  rw [Heap.KeepsPlace, Ledger.gathered_offset_eq_iff _ _ aligned]
  constructor
  · intro holds all
    rcases holds with ⟨place, order, last, address_eq, order_eq, least, bounded, below, free⟩
    cases payloadAddress_injective address_eq
    cases order_eq.symm.trans required
    have above := all last least bounded fun level lower upper =>
      (free_iff last bounded level lower upper).mp (free level lower upper)
    exact Nat.lt_asymm above below
  · intro moved
    simp only [not_forall] at moved
    rcases moved with ⟨last, least, bounded, listed, notAbove⟩
    have different : offset ^^^ 2 ^ last ≠ offset := Span.buddy_offset_ne ⟨offset, last⟩
    refine ⟨offset, allocation.order, last, rfl, required, least, bounded,
      Nat.lt_of_le_of_ne (Nat.le_of_not_lt notAbove) different, ?_⟩
    intro level lower upper
    exact (free_iff last bounded level lower upper).mpr (listed level lower upper)

theorem givenUp (follows : before.Follows ledger) (booked : ledger.live offset = some allocation)
    (stale : after.allocator.heap.Stale ledger offset allocation) :
    GivenUp before after (payloadAddress offset) allocation.requested := by
  change after.allocator.heap.arena.check (payloadAddress offset) = _ at stale
  constructor
  case refused =>
    intro apart
    have place := Classical.not_not.mp (mt (follows.absorbs_iff booked).mpr apart)
    rw [if_pos place] at stale
    refine ⟨stale, ?_, ?_⟩
    · simp only [Client.perform, Allocator.release_eq_error stale]
      rfl
    · intro newSize positive served
      have valid : ¬(newSize = 0 ∨ maxPayload < newSize) := by omega
      simp only [Client.perform, Allocator.resize_eq_error stale valid]
      rfl
  case accepted =>
    intro absorbed
    rw [if_neg ((follows.absorbs_iff booked).mp absorbed)] at stale
    exact ⟨offset, _, stale, rfl, (follows.allocator.heap.fits _ _ booked).serves⟩

theorem release_givenUp (follows : client.Follows ledger) (live : client.live address = some size) :
    ∃ after, client.perform (.release address) = .ok (.ok none, after) ∧
      GivenUp client after address size := by
  rcases follows.booked_of_live live with ⟨offset, rfl, booked⟩
  rcases follows.allocator.release booked with ⟨allocator, released, _, _, _, stale⟩
  refine ⟨⟨allocator, settle client.live (some (payloadAddress offset)) 0 (.ok none)⟩, ?_,
    follows.givenUp booked stale⟩
  simp only [Client.perform, released, ok_bind]
  rfl

theorem resize_zero_givenUp (follows : client.Follows ledger)
    (live : client.live address = some size) :
    ∃ after, client.perform (.resize (some address) 0) = .ok (.ok none, after) ∧
      GivenUp client after address size := by
  rcases follows.booked_of_live live with ⟨offset, rfl, booked⟩
  rcases follows.allocator.resize booked 0 with ⟨⟨resized, allocator⟩, resized_eq, outcome⟩
  have result : resized = .ok none := outcome.result
  subst result
  refine ⟨⟨allocator, settle client.live (some (payloadAddress offset)) 0 (.ok none)⟩, ?_,
    follows.givenUp booked (outcome.released rfl)⟩
  simp only [Client.perform, resized_eq, ok_bind]
  rfl

theorem move_givenUp (follows : client.Follows ledger) (live : client.live address = some size)
    {newSize : Nat} {target : Int}
    (resized : client.perform (.resize (some address) newSize) = .ok (.ok (some target), after))
    (moved : target ≠ address) : ∃ middle,
      client.perform (.acquire newSize) = .ok (.ok (some target), middle) ∧
        GivenUp middle after address size := by
  rcases follows.booked_of_live live with ⟨offset, rfl, booked⟩
  rcases follows.allocator.resize booked newSize with ⟨⟨reply, allocator⟩, resized_eq, outcome⟩
  rcases follows.acquire newSize with ⟨⟨acquired, middle⟩, performed, middle_outcome⟩
  simp only [Client.perform, resized_eq, ok_bind] at resized
  cases resized
  rcases outcome.moved target rfl moved with ⟨place, rfl, acquires, stale⟩
  have elsewhere : place ≠ offset := fun equal => moved (congrArg payloadAddress equal)
  have acquired_eq : acquired = .ok (some (payloadAddress place)) := by
    have reply_eq : acquired = (ledger.acquire client.extensible newSize).1.map
      (some ∘ payloadAddress) := middle_outcome.reply_eq
    rw [reply_eq, extensible, acquires]
    rfl
  have middle_follows : middle.Follows (ledger.acquire client.extensible newSize).2 :=
    middle_outcome.follows
  have live_eq := Ledger.live_of_acquire (Prod.ext acquires rfl)
  have stillBooked : (ledger.acquire client.extensible newSize).2.live offset =
      some (.ofRequest size) := by
    rw [extensible, live_eq, Function.update_of_ne (Ne.symm elsewhere)]
    exact booked
  rw [acquired_eq] at performed
  exact ⟨middle, performed, middle_follows.givenUp stillBooked stale⟩

end Follows

/-- An address that the client gives up, in any of three ways, is refused from
then on just if the block of its payload is not absorbed by one below. -/
theorem Reachable.check_givenUp (reachable : client.Reachable)
    (live : client.live address = some size) :
    (∃ after, client.perform (.release address) = .ok (.ok none, after) ∧
      GivenUp client after address size) ∧
    (∃ after, client.perform (.resize (some address) 0) = .ok (.ok none, after) ∧
      GivenUp client after address size) ∧
    ∀ newSize target after,
      client.perform (.resize (some address) newSize) = .ok (.ok (some target), after) →
      target ≠ address → ∃ middle,
        client.perform (.acquire newSize) = .ok (.ok (some target), middle) ∧
          GivenUp middle after address size := by
  rcases reachable.exists_follows with ⟨ledger, follows⟩
  exact ⟨follows.release_givenUp live, follows.resize_zero_givenUp live,
    fun _ _ _ resized moved => follows.move_givenUp live resized moved⟩

/-- The payload behind a free block, released and moved. -/
theorem check_givenUp_behind_free : ∃ client : Client, client.live 40 = some 24 ∧
    (∃ after, client.perform (.release 40) = .ok (.ok none, after) ∧
      GivenUp client after 40 24) ∧
    ∃ middle after, client.perform (.resize (some 40) 100) = .ok (.ok (some 136), after) ∧
      GivenUp middle after 40 24 := by
  rcases exists_reaches .default (by decide) [.acquire 24, .acquire 24, .release 8] rfl with
    ⟨first, client, fresh, run, keeps⟩
  have reachable : client.Reachable := ⟨first, _, fresh, run⟩
  have live : client.live 40 = some 24 := keeps.live_eq 40
  have permitted : client.Permits (.resize (some 40) 100) := ⟨24, live⟩
  rcases keeps.perform permitted with ⟨after, resized, _⟩
  rcases reachable.check_givenUp live with ⟨released, _, moved⟩
  rcases moved 100 136 after resized (by decide) with ⟨middle, _, givenUp⟩
  exact ⟨client, live, released, middle, after, resized, givenUp⟩

/-- A released address may go on to be accepted. -/
theorem not_refused_after_release : ¬∀ (client after : Client) (address : Int) (size : Nat)
    (reply : Reply), client.Reachable → client.live address = some size →
    client.perform (.release address) = .ok (reply, after) →
    ∃ reason, after.allocator.heap.arena.check address = .ok (.error reason) := by
  intro refused
  rcases exists_reaches .default (by decide) [.acquire 24, .acquire 24, .release 8] rfl with
    ⟨first, client, fresh, run, keeps⟩
  have reachable : client.Reachable := ⟨first, _, fresh, run⟩
  have live : client.live 40 = some 24 := keeps.live_eq 40
  rcases keeps.follows.release_givenUp live with ⟨after, released, givenUp⟩
  have moved : ¬Heap.KeepsPlace ((Books.new .default 4096).after
      [.acquire 24, .acquire 24, .release 8]).ledger 32 ⟨5, 24⟩ := by decide
  have absorbed : client.Absorbs 40 24 := (keeps.follows.absorbs_iff rfl).mpr moved
  rcases givenUp.accepted absorbed with ⟨offset, header, accepted, _⟩
  rcases refused client after 40 24 _ reachable live released with ⟨reason, rejected⟩
  rw [accepted] at rejected
  cases rejected

end Client

end BuddyHeap
