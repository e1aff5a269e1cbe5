import BuddyHeap.Proofs.Client.Accounting
import BuddyHeap.Proofs.Ledger.Room

/-! Acquiring is complete: what a request comes to depends on nothing but
where the payloads of the client are, and whether a chunk can be had. -/

namespace BuddyHeap

namespace Client

variable {client : Client} {ledger : Ledger} {order : Nat}

/-- The byte at `index` belongs to the block of a payload that the client
has. -/
def Occupies (client : Client) (index : Nat) : Prop :=
  ∃ address size order, client.live address = some size ∧ requiredOrder size = .ok order ∧
    address - headerSize ≤ index ∧ index < address - headerSize + (2 ^ order : Nat)

/-- There is a place for a block of the given order in which no byte is the
client's. -/
def HasWindow (client : Client) (order : Nat) : Prop :=
  ∃ place, (place + 1) * 2 ^ order ≤ client.allocator.heap.size ∧
    ∀ index, place * 2 ^ order ≤ index → index < (place + 1) * 2 ^ order → ¬client.Occupies index

namespace Follows

theorem occupies_iff (follows : client.Follows ledger) {index : Nat} : client.Occupies index ↔
    ∃ offset allocation, ledger.live offset = some allocation ∧
      Span.Covers ⟨offset, allocation.order⟩ index := by
  have required : ∀ offset allocation, ledger.live offset = some allocation →
      requiredOrder allocation.requested = .ok allocation.order := by
    intro offset allocation booked
    have fits := follows.allocator.heap.fits _ _ booked
    exact fits.serves.order_eq
  have covers_iff : ∀ offset order : Nat, Span.Covers ⟨offset, order⟩ index ↔
      payloadAddress offset - headerSize ≤ index ∧
        index < payloadAddress offset - headerSize + (2 ^ order : Nat) := by
    intro offset order
    simp only [Span.Covers, Span.stop, payloadAddress, headerSize]
    omega
  constructor
  · intro holds
    rcases holds with ⟨address, size, order, live, required_eq, covers⟩
    rcases follows.booked_of_live live with ⟨offset, rfl, booked⟩
    cases required_eq.symm.trans (required _ _ booked)
    exact ⟨offset, _, booked, (covers_iff _ _).mpr covers⟩
  · intro holds
    rcases holds with ⟨offset, allocation, booked, covers⟩
    exact ⟨payloadAddress offset, allocation.requested, allocation.order,
      follows.live_of_booked booked, required _ _ booked, (covers_iff _ _).mp covers⟩

theorem hasWindow_iff (follows : client.Follows ledger) :
    client.HasWindow order ↔ ledger.HasRoom order := by
  have size_eq := follows.size_eq
  constructor
  · intro holds
    rcases holds with ⟨place, inside, empty⟩
    rw [Nat.succ_mul] at inside empty
    refine ⟨place * 2 ^ order, Nat.dvd_mul_left .., size_eq ▸ inside, ?_⟩
    intro index covers offset allocation booked blockCovers
    exact empty index covers.1 covers.2
      (follows.occupies_iff.mpr ⟨offset, allocation, booked, blockCovers⟩)
  · intro holds
    rcases holds with ⟨offset, ⟨place, aligned⟩, inside, vacant⟩
    simp only at aligned
    subst aligned
    refine ⟨place, ?_, ?_⟩
    · rw [size_eq, Nat.succ_mul, Nat.mul_comm]
      exact inside
    · intro index lower upper occupied
      rw [Nat.succ_mul] at upper
      rw [Nat.mul_comm] at lower upper
      rcases follows.occupies_iff.mp occupied with ⟨start, allocation, booked, covers⟩
      exact vacant index ⟨lower, upper⟩ start allocation booked covers

theorem extensible_iff (follows : client.Follows ledger) : client.extensible ↔
    client.allocator.heap.size + maxBlockSize ≤ client.allocator.config.ceiling ∧
      client.committing = true := by
  rw [extensible, Arena.extensible, Bool.and_eq_true, decide_eq_true_iff,
    follows.allocator.capacity_eq]
  rfl

end Follows

structure Acquires (client : Client) (size order : Nat) : Prop where
  within : client.HasWindow order → ∃ address after,
    client.perform (.acquire size) = .ok (.ok (some address), after) ∧
      after.allocator.heap.size = client.allocator.heap.size
  extended : ¬client.HasWindow order →
    client.allocator.heap.size + maxBlockSize ≤ client.allocator.config.ceiling →
    client.committing = true → ∃ after,
    client.perform (.acquire size) =
        .ok (.ok (some (client.allocator.heap.size + headerSize : Nat)), after) ∧
      after.allocator.heap.size = client.allocator.heap.size + maxBlockSize
  exhausted : ¬client.HasWindow order →
    ¬(client.allocator.heap.size + maxBlockSize ≤ client.allocator.config.ceiling ∧
      client.committing = true) →
    client.perform (.acquire size) =
      .ok (.error (.outOfMemory order client.allocator.heap.size), client)
  /-- The number of attempts at taking a block is never what decides. -/
  attempts : ∀ attempts, client.allocator.config.maxChunks + 1 ≤ attempts →
    (client.allocator.heap.takeBlock order attempts).outcome =
      (client.allocator.heap.takeBlock order (client.allocator.config.maxChunks + 1)).outcome

theorem Follows.acquires_of_valid (follows : client.Follows ledger) {size : Nat}
    (valid : ¬(size = 0 ∨ maxPayload < size)) : client.Acquires size (requestOrder size) := by
  have heap := follows.allocator.heap
  have size_eq := follows.size_eq
  have fits := Allocator.fits_of_valid valid
  rcases follows.acquire size with ⟨⟨reply, after⟩, performed, outcome⟩
  have reply_eq : reply = (ledger.acquire client.extensible size).1.map (some ∘ payloadAddress) :=
    outcome.reply_eq
  have after_size : after.allocator.heap.size = (ledger.acquire client.extensible size).2.size :=
    outcome.follows.size_eq
  constructor
  case within =>
    intro window
    rcases Ledger.acquire_of_hasRoom heap.tiled heap.merged valid (follows.hasWindow_iff.mp window)
      client.extensible with ⟨offset, acquired, unchanged⟩
    rw [acquired] at reply_eq
    rw [unchanged, ← size_eq] at after_size
    rw [reply_eq] at performed
    exact ⟨payloadAddress offset, after, performed, after_size⟩
  case extended =>
    intro full below granted
    have extensible : client.extensible = true := follows.extensible_iff.mpr ⟨below, granted⟩
    rcases Ledger.acquire_of_not_hasRoom heap.tiled heap.merged valid
      (mt follows.hasWindow_iff.mpr full) with ⟨acquired, grown⟩
    rw [extensible, acquired, ← size_eq] at reply_eq
    rw [extensible, grown, ← size_eq] at after_size
    rw [reply_eq] at performed
    exact ⟨after, performed, after_size⟩
  case exhausted =>
    intro full blocked
    have extensible : client.extensible = false :=
      Bool.eq_false_iff.mpr (mt follows.extensible_iff.mp blocked)
    rw [extensible, Ledger.acquire_of_exhausted heap.tiled heap.merged valid
      (mt follows.hasWindow_iff.mpr full), ← size_eq] at reply_eq
    have unchanged : after = client := outcome.unchanged _ reply_eq
    rw [unchanged, reply_eq] at performed
    exact performed
  case attempts =>
    intro attempts enough
    have inRange : minOrder ≤ requestOrder size ∧ requestOrder size < orderBound :=
      fits.inRange
    rcases Allocator.exists_attempts client.allocator.config with ⟨fewest, fewest_eq⟩
    rcases heap.takeBlock_eq inRange with ⟨offset?, taken, taken_eq, _⟩
    obtain ⟨more, rfl⟩ : ∃ more, attempts = more + 2 := ⟨attempts - 2, by omega⟩
    rw [fewest_eq, taken_eq, taken_eq]

/-- What a request comes to depends on where the payloads of the client are:
with a window for it the heap serves it as it is, and else in a new chunk if
one can be had. -/
theorem Reachable.acquires (reachable : client.Reachable) {size : Nat} (positive : 0 < size)
    (served : size ≤ maxPayload) :
    ∃ order, requiredOrder size = .ok order ∧ client.Acquires size order := by
  have valid : ¬(size = 0 ∨ maxPayload < size) := by omega
  rcases reachable.exists_follows with ⟨ledger, follows⟩
  exact ⟨_, Allocator.requiredOrder_of_valid valid, follows.acquires_of_valid valid⟩

theorem acquires_after_acquired : ∃ client : Client, client.live 8 = some 24 ∧
    ∃ order, requiredOrder 100 = .ok order ∧ client.Acquires 100 order := by
  rcases exists_reaches .default (by decide) [.acquire 24] rfl with
    ⟨first, client, fresh, run, keeps⟩
  have reachable : client.Reachable := ⟨first, _, fresh, run⟩
  exact ⟨client, keeps.live_eq 8, reachable.acquires (by decide) (by decide)⟩

end Client

end BuddyHeap
