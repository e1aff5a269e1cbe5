import BuddyHeap.Proofs.Ledger.Gathering
import BuddyHeap.Proofs.Ledger.Room

/-! What splitting and joining do to the lists, order by order. Giving up the
lower part of a block that has been split joins all of its parts again, and no
block of the top order is joined with another one. -/

namespace BuddyHeap

namespace Ledger

variable {ledger : Ledger} {span : Span} {offset order target other : Nat}

/-! ## Splitting -/

theorem lists_split (ledger : Ledger) (offset target order other : Nat) :
    (ledger.split offset target order).lists other =
      if target ≤ other ∧ other < order then (offset + 2 ^ other) :: ledger.lists other
      else ledger.lists other := by
  induction order generalizing ledger with
  | zero => rw [split, if_neg (by omega)]
  | succ order induction =>
      rw [split]
      by_cases below : target ≤ order
      · rw [if_pos below, induction]
        rcases Nat.lt_trichotomy other order with less | equal | greater
        · have unchanged : (ledger.list ⟨offset + 2 ^ order, order⟩).lists other =
              ledger.lists other := Listing.push_other _ _ less.ne
          simp only [unchanged, less, Nat.lt_succ_of_lt less]
        · subst equal
          rw [if_neg (by omega), if_pos ⟨below, Nat.lt_succ_self _⟩]
          exact Listing.push_same ..
        · rw [if_neg (by omega), if_neg (by omega)]
          exact Listing.push_other _ _ greater.ne'
      · rw [if_neg below, if_neg (by omega)]

theorem unlist_list (ledger : Ledger) (span : Span) : (ledger.list span).unlist span = ledger := by
  have lists : (ledger.list span).lists.erase span.order span.offset = ledger.lists := by
    funext other
    by_cases same : other = span.order
    · subst same
      simp [list]
    · rw [Listing.erase_other _ _ same]
      exact Listing.push_other _ _ same
  simp only [unlist, lists]
  rfl

/-- Giving up the lower part of a block that has been split gives up the whole
block. -/
theorem free_split (ledger : Ledger) (target_le : target ≤ order) (order_le : order ≤ topOrder)
    (aligned : Span.Aligned ⟨offset, order⟩) :
    (ledger.split offset target order).free ⟨offset, target⟩ = ledger.free ⟨offset, order⟩ := by
  induction order generalizing ledger with
  | zero =>
      cases Nat.le_zero.mp target_le
      rfl
  | succ order induction =>
      rcases Nat.eq_or_lt_of_le target_le with equal | less
      · subst equal
        rw [split_self]
      · have below : target ≤ order := Nat.le_of_lt_succ less
        have lowerAligned : Span.Aligned ⟨offset, order⟩ :=
          (Nat.pow_dvd_pow 2 (Nat.le_succ order)).trans aligned
        have buddy : Span.buddy ⟨offset, order⟩ = ⟨offset + 2 ^ order, order⟩ := aligned.buddy_lower
        have parent : Span.parent ⟨offset, order⟩ = ⟨offset, order + 1⟩ := by
          rw [Span.parent, buddy]
          exact Span.ext (Nat.min_eq_left (Nat.le_add_right ..)) rfl
        have short : Span.order ⟨offset, order⟩ < topOrder := order_le
        have listed : (Span.buddy ⟨offset, order⟩).offset ∈
            (ledger.list (Span.buddy ⟨offset, order⟩)).lists order := by
          exact Listing.mem_push.mpr (.inl ⟨rfl, rfl⟩)
        rw [split, if_pos below, induction _ below (Nat.le_of_succ_le order_le) lowerAligned, ← buddy,
          (free_of_mem short listed).1, parent, unlist_list]

end Ledger

end BuddyHeap
