import BuddyHeap.Proofs.Client.StalePointers
import BuddyHeap.Proofs.Heap.Entries

/-! Buddies that are free are one block, whatever has happened. That is why the
blocks of a heap can be told from those of the client: two heaps of one size in
which clients have the same blocks look the same, and a heap of which the client
has nothing is one free block for each chunk. -/

namespace BuddyHeap

namespace Ledger

variable {ledger other : Ledger} {entry : BlockEntry} {node : Nat}

theorem Tiled.enters_iff_of_sameBlocks (tiled : ledger.Tiled none) (merged : ledger.lists.Merged)
    (otherTiled : other.Tiled none) (otherMerged : other.lists.Merged)
    (size_eq : ledger.size = other.size) (same : ledger.SameBlocks other) :
    ledger.Enters entry ↔ other.Enters entry := by
  rcases entry with ⟨offset, order, allocated⟩
  cases allocated with
  | false =>
      have free_iff := tiled.free_iff_of_sameBlocks merged otherTiled otherMerged size_eq same
        ⟨offset, order⟩
      rw [enters_free_iff, enters_free_iff]
      exact free_iff
  | true =>
      rw [enters_allocated_iff, enters_allocated_iff]
      exact same offset order

theorem Tiled.enters_iff_of_released (tiled : ledger.Tiled none) (merged : ledger.lists.Merged)
    (released : ∀ offset, ledger.live offset = none) :
    entry ∈ (chunkStarts 0 (ledger.size / maxBlockSize)).map (⟨·, topOrder, false⟩) ↔
      ledger.Enters entry := by
  rcases entry with ⟨offset, order, allocated⟩
  simp only [List.mem_map, BlockEntry.mk.injEq]
  cases allocated with
  | false =>
      rw [enters_free_iff, tiled.free_iff_chunk merged released]
      constructor
      · intro holds
        rcases holds with ⟨start, member, rfl, rfl, _⟩
        exact ⟨rfl, member⟩
      · intro holds
        exact ⟨offset, holds.2, rfl, holds.1.symm, rfl⟩
  | true =>
      rw [enters_allocated_iff]
      simp [released]

theorem mem_top_perform (extensible : Bool) (action : Action) (listed : node ∈ ledger.lists topOrder) :
    node ∈ (ledger.perform extensible action).2.lists topOrder ∨
      (ledger.perform extensible action).1 = .ok (some (payloadAddress node)) := by
  cases action with
  | acquire size =>
      exact (mem_top_acquire extensible size listed).imp id
        fun same => by simp [perform, same, Except.map]
  | release address => exact .inl (mem_top_release _ listed)
  | resize address? size =>
      exact (mem_top_resize extensible _ size listed).imp id
        fun same => by simp [perform, same, Except.map]
  | write address distance content => exact .inl listed
  | setRefusal cause? => exact .inl listed

end Ledger

namespace Client

variable {client other : Client} {ledger otherLedger : Ledger} {offset order : Nat}

def HasBlock (client : Client) (offset order : Nat) : Prop :=
  ∃ size, client.live (offset + headerSize : Nat) = some size ∧ requiredOrder size = .ok order

/-- The blocks that a walk over the client's heap meets have the one form that
the client's own blocks leave them. -/
structure Canonical (client : Client) (entries : List BlockEntry) : Prop where
  apart : ∀ offset order, order < topOrder → ⟨offset, order, false⟩ ∈ entries →
    ⟨offset ^^^ 2 ^ order, order, false⟩ ∉ entries
  determined : ∀ other : Client, other.Reachable →
    other.allocator.heap.size = client.allocator.heap.size →
    (∀ offset order, other.HasBlock offset order ↔ client.HasBlock offset order) →
    other.allocator.heap.arena.blocks = .ok entries ∧
      ∀ order, minOrder ≤ order → order < orderBound → ∃ offsets otherOffsets,
        client.allocator.heap.freeList order = .ok offsets ∧
          other.allocator.heap.freeList order = .ok otherOffsets ∧ offsets.Perm otherOffsets
  released : (∀ address, client.live address = none) → ∃ count,
    client.allocator.heap.size = maxBlockSize * count ∧
      entries = (chunkStarts 0 count).map fun offset => ⟨offset, topOrder, false⟩
  /-- A free block of the top order is there until a payload starts in it. -/
  unmerged : ∀ offset action reply after, client.HasFree topOrder offset → client.Permits action →
    client.perform action = .ok (reply, after) →
    after.HasFree topOrder offset ∨ reply = .ok (some (offset + headerSize : Nat))
  /-- A block of the top order becomes such a free block when it is given up. -/
  whole : ∀ offset action, client.HasBlock offset topOrder →
    action = .release (offset + headerSize : Nat) ∨
      action = .resize (some (offset + headerSize : Nat)) 0 →
    ∃ after, client.perform action = .ok (.ok none, after) ∧ after.HasFree topOrder offset

namespace Follows

theorem hasBlock_iff (follows : client.Follows ledger) :
    client.HasBlock offset order ↔ ∃ requested, ledger.live offset = some ⟨order, requested⟩ := by
  constructor
  · intro holds
    rcases holds with ⟨size, live, order_eq⟩
    rcases follows.booked_of_live live with ⟨place, address_eq, booked⟩
    cases payloadAddress_injective address_eq
    have fits := follows.allocator.heap.fits _ _ booked
    cases order_eq.symm.trans fits.serves.order_eq
    exact ⟨size, booked⟩
  · intro holds
    rcases holds with ⟨requested, booked⟩
    exact ⟨requested, follows.live_of_booked booked,
      (follows.allocator.heap.fits _ _ booked).serves.order_eq⟩

theorem hasFree_top_iff (follows : client.Follows ledger) :
    client.HasFree topOrder offset ↔ offset ∈ ledger.lists topOrder :=
  follows.hasFree_iff (by decide) (by decide)

theorem sameBlocks (follows : client.Follows ledger) (otherFollows : other.Follows otherLedger)
    (same : ∀ offset order, other.HasBlock offset order ↔ client.HasBlock offset order) :
    otherLedger.SameBlocks ledger := by
  intro offset order
  rw [← otherFollows.hasBlock_iff, ← follows.hasBlock_iff]
  exact same offset order

theorem blocks_eq_of_sameBlocks (follows : client.Follows ledger)
    (otherFollows : other.Follows otherLedger) (size_eq : otherLedger.size = ledger.size)
    (same : otherLedger.SameBlocks ledger) {entries : List BlockEntry}
    (chained : Chained 0 ledger.size entries)
    (members : ∀ entry, entry ∈ entries ↔ ledger.Enters entry) :
    other.allocator.heap.arena.blocks = .ok entries ∧
      ∀ order, (ledger.lists order).Perm (otherLedger.lists order) := by
  have heap := follows.allocator.heap
  have otherHeap := otherFollows.allocator.heap
  constructor
  · apply otherHeap.blocks_eq_ok (size_eq ▸ chained)
    intro entry
    rw [members, otherHeap.tiled.enters_iff_of_sameBlocks otherHeap.merged heap.tiled heap.merged
      size_eq same]
  · intro order
    rw [List.perm_ext_iff_of_nodup (heap.lists.separate.nodup order)
      (otherHeap.lists.separate.nodup order)]
    intro offset
    exact (otherHeap.tiled.free_iff_of_sameBlocks otherHeap.merged heap.tiled heap.merged size_eq same
      ⟨offset, order⟩).symm

theorem canonical_of_enters (follows : client.Follows ledger) {entries : List BlockEntry}
    (chained : Chained 0 ledger.size entries)
    (members : ∀ entry, entry ∈ entries ↔ ledger.Enters entry) : client.Canonical entries where
  apart offset order below := by
    rw [members, members, Ledger.enters_free_iff, Ledger.enters_free_iff]
    exact follows.allocator.heap.merged ⟨offset, order⟩ below
  determined other reachable size_eq same := by
    rcases reachable.exists_follows with ⟨otherLedger, otherFollows⟩
    rw [otherFollows.size_eq, follows.size_eq] at size_eq
    have alike := follows.blocks_eq_of_sameBlocks otherFollows size_eq
      (follows.sameBlocks otherFollows same) chained members
    refine ⟨alike.1, fun order least bounded => ?_⟩
    exact ⟨_, _, follows.allocator.heap.lists.freeList_eq ⟨least, bounded⟩,
      otherFollows.allocator.heap.lists.freeList_eq ⟨least, bounded⟩, alike.2 order⟩
  released nothing := by
    have heap := follows.allocator.heap
    have whole : maxBlockSize * (ledger.size / maxBlockSize) = ledger.size :=
      Nat.mul_div_cancel' heap.tiled.whole
    have unbooked : ∀ offset, ledger.live offset = none := by
      intro offset
      have absent := nothing (payloadAddress offset)
      rwa [follows.matching.live_eq, Option.map_eq_none_iff] at absent
    refine ⟨ledger.size / maxBlockSize, follows.size_eq.trans whole.symm, ?_⟩
    have chunks := Chained.chunks 0 (ledger.size / maxBlockSize)
    rw [Nat.zero_add, whole] at chunks
    apply chained.eq_of_mem_iff chunks
    intro entry
    rw [members, heap.tiled.enters_iff_of_released heap.merged unbooked]
  unmerged offset action reply after free permitted performed := by
    have outcome := (follows.perform permitted).post_of_eq performed
    rw [follows.hasFree_top_iff] at free
    rw [outcome.follows.hasFree_top_iff, outcome.reply_eq]
    exact Ledger.mem_top_perform _ action free
  whole offset action block given := by
    rcases follows.hasBlock_iff.mp block with ⟨requested, booked⟩
    have live := follows.live_of_booked booked
    have permitted : client.Permits action := by
      rcases given with rfl | rfl <;> exact ⟨requested, live⟩
    have books : ledger.perform client.extensible action = (.ok none, ledger.release offset) := by
      rcases given with rfl | rfl <;>
        simp only [Ledger.perform, Ledger.resize] <;>
        rfl
    rcases follows.perform permitted with ⟨⟨reply, after⟩, performed, outcome⟩
    have reply_eq := outcome.reply_eq
    have afterFollows := outcome.follows
    rw [books] at reply_eq afterFollows
    subst reply_eq
    refine ⟨after, performed, ?_⟩
    rw [afterFollows.hasFree_top_iff]
    exact Ledger.mem_release_of_top booked

end Follows

theorem Reachable.canonical (reachable : client.Reachable) :
    ∃ entries, client.allocator.heap.arena.blocks = .ok entries ∧ client.Canonical entries := by
  rcases reachable.exists_follows with ⟨ledger, follows⟩
  rcases follows.allocator.heap.blocks with ⟨entries, walked, chained, members⟩
  exact ⟨entries, walked, follows.canonical_of_enters chained members⟩

/-- Two clients that have one block each, in the same place, after different
histories. -/
theorem canonical_of_two_histories : ∃ client other : Client,
    client.live 40 = some 24 ∧ other.live 40 = some 20 ∧ ∃ entries,
      client.allocator.heap.arena.blocks = .ok entries ∧ client.Canonical entries ∧
        other.allocator.heap.arena.blocks = .ok entries := by
  rcases exists_reaches .default (by decide)
    [.acquire 24, .acquire 24, .acquire 24, .release 8, .release 72] rfl with
    ⟨first, client, fresh, run, keeps⟩
  rcases exists_reaches .default (by decide) [.acquire 24, .acquire 20, .release 8] rfl with
    ⟨otherFirst, other, otherFresh, otherRun, otherKeeps⟩
  have reachable : client.Reachable := ⟨first, _, fresh, run⟩
  have otherReachable : other.Reachable := ⟨otherFirst, _, otherFresh, otherRun⟩
  have size_eq : other.allocator.heap.size = client.allocator.heap.size :=
    otherKeeps.follows.size_eq.trans keeps.follows.size_eq.symm
  have same : ∀ offset order, other.HasBlock offset order ↔ client.HasBlock offset order := by
    intro offset order
    let block (requested : Nat) : Option Allocation := some ⟨5, requested⟩
    rw [keeps.follows.hasBlock_iff, otherKeeps.follows.hasBlock_iff]
    change (∃ requested, Function.update (Function.update (Function.update (fun _ => none) 0
        (block 24)) 32 (block 20)) 0 none offset = some ⟨order, requested⟩) ↔
      ∃ requested, Function.update (Function.update (Function.update (Function.update
        (Function.update (fun _ => none) 0 (block 24)) 32 (block 24)) 64 (block 24)) 0
        none) 64 none offset = some ⟨order, requested⟩
    simp only [Function.update_apply]
    split_ifs <;> simp_all [block]
  rcases reachable.canonical with ⟨entries, walked, canonical⟩
  exact ⟨client, other, keeps.live_eq 40, otherKeeps.live_eq 40, entries, walked, canonical,
    (canonical.determined other otherReachable size_eq same).1⟩

end Client

end BuddyHeap
