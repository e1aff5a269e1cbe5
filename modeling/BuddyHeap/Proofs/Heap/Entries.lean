import BuddyHeap.Proofs.Heap.Walking
import BuddyHeap.Proofs.Ledger.Chunks

/-! The account of a walk is known from what it tells: two chains of entries
that have the same members are the same list. -/

namespace BuddyHeap

namespace Chained

variable {start stop : Nat} {entry : BlockEntry} {entries others : List BlockEntry}

theorem start_le (chained : Chained start stop entries) (member : entry ∈ entries) :
    start ≤ entry.offset := by
  induction entries generalizing start with
  | nil => cases member
  | cons first rest induction =>
      rcases chained with ⟨offset_eq, chained⟩
      rcases List.mem_cons.mp member with rfl | later
      · exact offset_eq.ge
      · exact Nat.le_trans (Nat.le_add_right ..) (induction chained later)

theorem offset_ne_start (chained : Chained (start + 2 ^ entry.order) stop entries)
    {later : BlockEntry} (member : later ∈ entries) : later.offset ≠ start := by
  have reached := chained.start_le member
  have positive := Nat.two_pow_pos entry.order
  omega

theorem eq_of_mem_iff (chained : Chained start stop entries) (otherChained : Chained start stop others)
    (same : ∀ entry, entry ∈ entries ↔ entry ∈ others) : entries = others := by
  induction entries generalizing start others with
  | nil =>
      cases others with
      | nil => rfl
      | cons first rest => cases (same first).mpr (List.mem_cons_self ..)
  | cons entry rest induction =>
      cases others with
      | nil => cases (same entry).mp (List.mem_cons_self ..)
      | cons first others =>
          rcases chained with ⟨offset_eq, chained⟩
          rcases otherChained with ⟨first_eq, otherChained⟩
          have head : entry = first := by
            rcases List.mem_cons.mp ((same entry).mp (List.mem_cons_self ..)) with equal | later
            · exact equal
            · exact absurd offset_eq (otherChained.offset_ne_start later)
          subst head
          have tails : ∀ other, other ∈ rest ↔ other ∈ others := by
            intro other
            have both := same other
            simp only [List.mem_cons] at both
            constructor
            · intro later
              have different : other ≠ entry :=
                fun equal => chained.offset_ne_start later (equal ▸ offset_eq)
              exact (both.mp (.inr later)).resolve_left different
            · intro later
              have different : other ≠ entry :=
                fun equal => otherChained.offset_ne_start later (equal ▸ offset_eq)
              exact (both.mpr (.inr later)).resolve_left different
          rw [induction chained otherChained tails]

theorem chunks (start count : Nat) : Chained start (start + maxBlockSize * count)
    ((chunkStarts start count).map fun offset => ⟨offset, topOrder, false⟩) := by
  induction count generalizing start with
  | zero => exact (Nat.add_zero start).symm
  | succ count induction =>
      have stop_eq : start + maxBlockSize * (count + 1) =
          start + maxBlockSize + maxBlockSize * count := by
        rw [Nat.mul_succ, Nat.add_assoc, Nat.add_comm maxBlockSize]
      rw [stop_eq, chunkStarts, List.range'_succ, List.map_cons]
      exact ⟨rfl, induction (start + maxBlockSize)⟩

end Chained

namespace Heap.Follows

variable {heap : Heap} {ledger : Ledger} {entries : List BlockEntry}

theorem blocks_eq_ok (follows : heap.Follows ledger none) (chained : Chained 0 ledger.size entries)
    (members : ∀ entry, entry ∈ entries ↔ ledger.Enters entry) :
    heap.arena.blocks = .ok entries := by
  rcases follows.blocks with ⟨walked, walked_eq, walkedChained, walkedMembers⟩
  have same : ∀ entry, entry ∈ walked ↔ entry ∈ entries :=
    fun entry => (walkedMembers entry).trans (members entry).symm
  rw [walked_eq, walkedChained.eq_of_mem_iff chained same]

end Heap.Follows

end BuddyHeap
