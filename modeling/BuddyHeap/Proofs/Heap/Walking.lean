import BuddyHeap.Proofs.Heap.Following
import BuddyHeap.Proofs.Heap.Scanning

/-! What a look at the memory finds. Walking from block to block meets exactly
the blocks of the ledger. -/

namespace BuddyHeap

/-- Each block starts where the one before ends, from `start` on, and the last
one ends at `stop`. -/
def Chained (start stop : Nat) : List BlockEntry → Prop
  | [] => start = stop
  | entry :: rest => entry.offset = start ∧ Chained (start + 2 ^ entry.order) stop rest

/-! ## Boundaries -/

namespace Tiling

variable {size offset : Nat} {Uses : Span → Use → Prop} {span : Span} {use : Use}

def Boundary (size : Nat) (Uses : Span → Use → Prop) (offset : Nat) : Prop :=
  offset = size ∨ ∃ span use, Uses span use ∧ span.offset = offset

theorem boundary_zero (tiling : Tiling size Uses) : Boundary size Uses 0 := by
  rcases Nat.eq_zero_or_pos size with empty | positive
  · exact .inl empty.symm
  · rcases tiling.covered 0 positive with ⟨span, use, uses, covers⟩
    exact .inr ⟨span, use, uses, Nat.le_zero.mp covers.1⟩

theorem boundary_stop (tiling : Tiling size Uses) (uses : Uses span use) :
    Boundary size Uses span.stop := by
  rcases Nat.lt_or_ge span.stop size with below | past
  · rcases tiling.covered span.stop below with ⟨next, nextUse, nextUses, covers⟩
    refine .inr ⟨next, nextUse, nextUses, ?_⟩
    by_contra different
    have nonempty := span.offset_lt_stop
    have meets : span.Meets next :=
      ⟨Nat.lt_trans nonempty covers.2, Nat.lt_of_le_of_ne covers.1 different⟩
    have equal := (tiling.unique span use next nextUse uses nextUses meets).1
    subst equal
    exact Nat.lt_irrefl _ covers.2
  · exact .inl (Nat.le_antisymm (tiling.inside span use uses) past)

end Tiling

namespace Ledger

def Enters (ledger : Ledger) (entry : BlockEntry) : Prop :=
  ∃ use, ledger.Uses none ⟨entry.offset, entry.order⟩ use ∧ entry.allocated = decide (use ≠ .free)

end Ledger

namespace Heap.Follows

variable {heap : Heap} {ledger : Ledger} {hand : Option Span} {span : Span} {use : Use}
  {offset : Nat}

theorem readBlock_eq (follows : heap.Follows ledger none) (uses : ledger.Uses none span use) :
    ∃ block, heap.arena.readBlock span.offset = .ok block ∧ block.order = span.order ∧
      (!block.isFree) = decide (use ≠ .free) := by
  cases use with
  | free =>
      rcases follows.lists.readBlock_eq uses with ⟨previous, following, read, _, _⟩
      exact ⟨_, read, rfl, rfl⟩
  | allocated requested =>
      have live : ledger.live span.offset = some ⟨span.order, requested⟩ := uses
      exact ⟨_, follows.readBlock_of_live live, rfl, rfl⟩
  | held => cases uses

theorem blocksFrom (follows : heap.Follows ledger none)
    (boundary : Tiling.Boundary ledger.size (ledger.Uses none) offset) :
    Yields (heap.arena.blocksFrom offset) fun entries => Chained offset ledger.size entries ∧
      ∀ entry, entry ∈ entries ↔ ledger.Enters entry ∧ offset ≤ entry.offset := by
  induction remaining : ledger.size - offset using Nat.strong_induction_on generalizing offset with
  | _ remaining induction =>
      rcases boundary with rfl | ⟨span, use, uses, rfl⟩
      · refine .of_eq (Arena.blocksFrom_of_end follows.size_eq.le) ⟨rfl, ?_⟩
        intro entry
        simp only [List.not_mem_nil, false_iff, not_and, Nat.not_le]
        intro holds
        rcases holds with ⟨use, uses, _⟩
        have nonempty := Span.offset_lt_stop ⟨entry.offset, entry.order⟩
        exact Nat.lt_of_lt_of_le nonempty (follows.tiled.inside _ _ uses)
      · have range := follows.tiled.order_range span use uses
        have inside := follows.tiled.inside span use uses
        have nonempty := span.offset_lt_stop
        have below : span.offset < heap.arena.size := by
          rw [follows.size_eq]
          omega
        have aligned := Arena.minBlockSize_dvd range.1 (follows.tiled.aligned span use uses)
        have advanced : offsetAfter span.offset span.order = .ok span.stop := by
          have small : span.order < 16 := Nat.lt_of_le_of_lt range.2 (by decide)
          rw [Arena.offsetAfter_eq_ok follows.mapped.size_add_chunk_lt aligned below small,
            Nat.max_eq_left range.1, Span.stop]
        rcases follows.readBlock_eq uses with ⟨block, read, order_eq, free_eq⟩
        have rest := induction (ledger.size - span.stop) (by omega)
          (follows.tiled.boundary_stop uses) rfl
        rcases rest with ⟨entries, walked, chained, members⟩
        have unfolded : heap.arena.blocksFrom span.offset =
            .ok (⟨span.offset, span.order, decide (use ≠ .free)⟩ :: entries) := by
          rw [Arena.blocksFrom_of_read below read (order_eq ▸ advanced), walked, order_eq, free_eq]
          rfl
        refine .of_eq unfolded ⟨⟨rfl, chained⟩, ?_⟩
        intro entry
        rw [List.mem_cons, members]
        constructor
        · intro either
          rcases either with equal | ⟨enters, later⟩
          · subst equal
            exact ⟨⟨use, uses, rfl⟩, Nat.le_refl _⟩
          · exact ⟨enters, Nat.le_trans nonempty.le later⟩
        · intro holds
          rcases holds with ⟨⟨otherUse, otherUses, allocated_eq⟩, later⟩
          rcases Nat.eq_or_lt_of_le later with same | after
          · have equal := follows.tiled.span_unique uses otherUses same
            subst equal
            cases follows.tiled.use_unique uses otherUses
            refine .inl ?_
            cases entry
            simp only at allocated_eq
            rw [allocated_eq]
          · exact .inr ⟨⟨otherUse, otherUses, allocated_eq⟩,
              follows.tiled.stop_le_of_lt uses otherUses after⟩

theorem blocks (follows : heap.Follows ledger none) :
    Yields heap.arena.blocks fun entries => Chained 0 ledger.size entries ∧
      ∀ entry, entry ∈ entries ↔ ledger.Enters entry := by
  apply Yields.mono (follows.blocksFrom follows.tiled.boundary_zero)
  intro entries holds
  rcases holds with ⟨chained, members⟩
  refine ⟨chained, ?_⟩
  intro entry
  rw [members]
  exact and_iff_left (Nat.zero_le _)

end Heap.Follows

end BuddyHeap
