import BuddyHeap.Heap.Buddies
import BuddyHeap.Proofs.Heap.Following

/-! Splitting and coalescing do to the heap what they do to its books. -/

namespace BuddyHeap

/-! ## Inside the block in hand -/

namespace Ledger.Tiled

variable {ledger : Ledger} {hand : Option Span} {span whole : Span}

theorem not_listed_within (tiled : ledger.Tiled (some whole)) (within : span.Within whole) :
    span.offset ∉ ledger.lists span.order := by
  intro listed
  have held : ledger.Uses (some whole) whole .held := rfl
  cases (tiled.unique span .free whole .held listed held within.meets).2

/-- The heap is made of whole blocks of the top order, so the buddy of a smaller
block lies in it too. -/
theorem buddy_inside (tiled : ledger.Tiled (some span)) (below : span.order < topOrder) :
    span.buddy.stop ≤ ledger.size := by
  have held : ledger.Uses (some span) span .held := rfl
  have inside := tiled.inside span .held held
  exact (tiled.aligned span .held held).buddy_stop_le below tiled.whole
    (Nat.lt_of_lt_of_le span.offset_lt_stop inside)

end Ledger.Tiled

theorem Span.Aligned.upper_within {offset order : Nat}
    (aligned : Span.Aligned ⟨offset, order + 1⟩) :
    Span.Within ⟨offset + 2 ^ order, order⟩ ⟨offset, order + 1⟩ ∧
      (Span.buddy ⟨offset + 2 ^ order, order⟩).Within ⟨offset, order + 1⟩ := by
  let upper : Span := ⟨offset + 2 ^ order, order⟩
  let whole : Span := ⟨offset, order + 1⟩
  have positive := Nat.two_pow_pos order
  have within : upper.Within whole := by
    simp only [Within, upper, whole, stop, Nat.pow_succ]
    omega
  have upperAligned : upper.Aligned :=
    Nat.dvd_add ((Nat.pow_dvd_pow 2 (Nat.le_succ order)).trans aligned) (Nat.dvd_refl _)
  have inParent := upperAligned.within_parent
  have buddyInParent := upperAligned.buddy_within_parent
  have meets : upper.parent.Meets whole := by
    have nonempty := upper.offset_lt_stop
    simp only [Within] at within inParent
    simp only [Meets]
    omega
  have equal : upper.parent = whole :=
    upperAligned.buddy_cases.1.eq_of_meets aligned rfl meets
  rw [equal] at buddyInParent
  exact ⟨within, buddyInParent⟩

namespace Heap.Follows

variable {heap : Heap} {ledger : Ledger} {span : Span} {offset order target : Nat}

/-! ## Splitting -/

theorem upper_eq_ok (follows : heap.Follows ledger (some ⟨offset, order + 1⟩)) :
    Size.add offset (2 ^ order) = .ok (offset + 2 ^ order) ∧ blockSize order = .ok (2 ^ order) := by
  let whole : Span := ⟨offset, order + 1⟩
  have held : ledger.Uses (some whole) whole .held := rfl
  have inside := follows.tiled.inside whole .held held
  have range := follows.tiled.order_range whole .held held
  simp only [whole, Span.stop, Nat.pow_succ, topOrder] at inside range
  refine ⟨heap.arena.add_eq_ok_of_inside ?_, blockSize_eq_ok (by omega)⟩
  rw [follows.size_eq]
  omega

theorem push_upper (follows : heap.Follows ledger (some ⟨offset, order + 1⟩))
    (least : minOrder ≤ order) :
    Yields (heap.push order (offset + 2 ^ order)) fun after =>
      after.Follows (ledger.list ⟨offset + 2 ^ order, order⟩) (some ⟨offset, order⟩) ∧
        Rearranges ledger.live (some ⟨offset, order⟩) heap after := by
  let whole : Span := ⟨offset, order + 1⟩
  have held : ledger.Uses (some whole) whole .held := rfl
  have halves := (follows.tiled.aligned whole .held held).upper_within
  apply Yields.mono (follows.push (follows.tiled.halve least)
    (follows.tiled.not_listed_within halves.1)
    fun _ => follows.tiled.not_listed_within halves.2)
  intro after holds
  exact ⟨holds.1, holds.2.1⟩

theorem split (follows : heap.Follows ledger (some ⟨offset, order⟩)) (least : minOrder ≤ target)
    (reached : target ≤ order) :
    Yields (heap.split offset target order).outcome fun after =>
      after.Follows (ledger.split offset target order) (some ⟨offset, target⟩) ∧
        Rearranges ledger.live (some ⟨offset, target⟩) heap after := by
  induction order generalizing heap ledger with
  | zero =>
      cases Nat.le_zero.mp reached
      exact .ok ⟨follows, .refl ..⟩
  | succ order induction =>
      by_cases further : target ≤ order
      · have upper := follows.upper_eq_ok
        simp only [Heap.split, Ledger.split, if_pos further, Traced.outcome_bind,
          Traced.outcome_lift, Traced.outcome_record, upper.1, upper.2, ok_bind]
        apply Yields.bind (follows.push_upper (Nat.le_trans least further))
        intro halved holds
        rcases holds with ⟨halvedFollows, pushed⟩
        apply Yields.mono (induction halvedFollows further)
        intro after holds
        rcases holds with ⟨afterFollows, rest⟩
        have shorter : Span.Within ⟨offset, target⟩ ⟨offset, order⟩ :=
          ⟨Nat.le_refl _, Nat.add_le_add_left (Nat.pow_le_pow_right (by decide) further) _⟩
        exact ⟨afterFollows, (pushed.of_within shorter).trans rest⟩
      · have equal : target = order + 1 := by omega
        subst equal
        simp only [Heap.split, Ledger.split, if_neg further]
        exact .ok ⟨follows, .refl ..⟩

/-! ## Coalescing -/

theorem buddy_inside (follows : heap.Follows ledger (some span)) (below : span.order < topOrder) :
    span.buddy.offset + 2 ^ span.order ≤ heap.arena.size :=
  follows.size_eq ▸ follows.tiled.buddy_inside below

theorem takeBuddy_of_mem (follows : heap.Follows ledger (some span)) (below : span.order < topOrder)
    (listed : span.buddy.offset ∈ ledger.lists span.order) :
    Yields (heap.takeBuddy span.offset span.order) fun (taken?, after) =>
      taken? = some span.buddy.offset ∧
        after.Follows (ledger.unlist span.buddy) (some span.parent) ∧
        Rearranges ledger.live (some span) heap after := by
  have free : ledger.Uses (some span) span.buddy .free := listed
  have range := follows.tiled.order_range span.buddy .free free
  have inside := follows.buddy_inside below
  have small : span.order < 64 := Nat.lt_trans below (by decide)
  rcases follows.lists.readBlock_eq listed with ⟨previous, following, read, previousSet, followingSet⟩
  have unfolded : heap.takeBuddy span.offset span.order =
      heap.remove span.order span.buddy.offset >>= fun removed =>
        .ok (if removed.1 then some span.buddy.offset else none, removed.2) := by
    have unset : ¬(span.order ≠ span.order ∨ previous = .unlinked ∨ following = .unlinked) := by
      simp [previousSet, followingSet]
    have added : Size.add span.buddy.offset (2 ^ span.order) =
        .ok (span.buddy.offset + 2 ^ span.order) := heap.arena.add_eq_ok_of_inside inside
    have within : ¬heap.size < span.buddy.offset + 2 ^ span.order := Nat.not_lt_of_le inside
    simp only [Span.buddy] at added within read
    simp only [takeBuddy, blockSize_eq_ok small, ok_bind, added, if_neg within, read, if_neg unset]
    rfl
  rw [unfolded]
  apply Yields.bind (follows.lists.remove_of_mem ⟨range.1, Nat.lt_succ_of_le range.2⟩ listed)
  intro result holds
  rcases result with ⟨found, after⟩
  rcases holds with ⟨found_eq, lists, edited, node⟩
  have joined := follows.tiled.join follows.lists.separate below listed
  have done : after.Follows (ledger.unlist span.buddy) (some span.parent) ∧
      Rearranges ledger.live (some span) heap after := follows.unlisted lists edited node joined
  exact .ok ⟨if_pos found_eq, done⟩

theorem takeBuddy_of_not_mem (follows : heap.Follows ledger (some span))
    (below : span.order < topOrder) (absent : span.buddy.offset ∉ ledger.lists span.order) :
    heap.takeBuddy span.offset span.order = .ok (none, heap) := by
  have held : ledger.Uses (some span) span .held := rfl
  have least := (follows.tiled.order_range span .held held).1
  have small : span.order < 64 := Nat.lt_trans below (by decide)
  have inside := follows.buddy_inside below
  have added : Size.add span.buddy.offset (2 ^ span.order) =
      .ok (span.buddy.offset + 2 ^ span.order) := heap.arena.add_eq_ok_of_inside inside
  have within : ¬heap.size < span.buddy.offset + 2 ^ span.order := Nat.not_lt_of_le inside
  have length : nodeSize ≤ 2 ^ span.order :=
    Nat.le_trans (by decide) (Nat.pow_le_pow_right (by decide : 0 < 2) least)
  have removed := follows.lists.remove_of_not_mem ⟨least, Nat.lt_trans below (by decide)⟩ absent
  have read := Arena.readBlock_eq_ok (Nat.le_trans (Nat.add_le_add_left length _) inside)
  generalize heap.arena.blockAt span.buddy.offset = block at read
  simp only [Span.buddy] at added within read removed
  simp only [takeBuddy, blockSize_eq_ok small, ok_bind, added, if_neg within, read]
  cases block with
  | allocated header => rfl
  | free order previous following =>
      by_cases skipped : order ≠ span.order ∨ previous = .unlinked ∨ following = .unlinked
      · simp only [if_pos skipped]
        rfl
      · simp only [if_neg skipped, removed, ok_bind]
        rfl

theorem push_held (follows : heap.Follows ledger (some span))
    (single : span.order < topOrder → span.buddy.offset ∉ ledger.lists span.order) :
    Yields (heap.push span.order span.offset) fun after =>
      after.Follows (ledger.free span) none ∧ Rearranges ledger.live none heap after ∧
        ∀ index, span.Covers index → (ledger.gathered span).offset + nodeSize ≤ index →
          after.arena.byte index = heap.arena.byte index := by
  have tiled := follows.tiled.list
  have within : span.Within span := ⟨Nat.le_refl _, Nat.le_refl _⟩
  have fresh := follows.tiled.not_listed_within within
  have listed := Ledger.free_of_not_mem single
  rw [listed.1, listed.2]
  apply Yields.mono (follows.push tiled fresh single)
  intro after holds
  rcases holds with ⟨afterFollows, rearranges, edited⟩
  refine ⟨afterFollows, rearranges, ?_⟩
  intro index covers beyond
  exact edited.agree.byte_eq index
    (tiled.not_nodeBytes_of_covers (ledger.uses_list none span) covers fun _ => beyond)

theorem coalesce (follows : heap.Follows ledger (some span)) :
    Yields (heap.coalesce span.offset span.order).outcome fun after =>
      after.Follows (ledger.free span) none ∧ Rearranges ledger.live none heap after ∧
        ∀ index, span.Covers index → (ledger.gathered span).offset + nodeSize ≤ index →
          after.arena.byte index = heap.arena.byte index := by
  induction depth : topOrder - span.order generalizing heap ledger span with
  | zero =>
      have top : ¬span.order < topOrder := by omega
      rw [Heap.coalesce, if_neg top]
      exact follows.push_held fun below => absurd below top
  | succ levels induction =>
      have below : span.order < topOrder := by omega
      rw [Heap.coalesce, if_pos below]
      simp only [Traced.outcome_bind, Traced.outcome_lift]
      by_cases listed : span.buddy.offset ∈ ledger.lists span.order
      · have step := Ledger.free_of_mem below listed
        have held : ledger.Uses (some span) span .held := rfl
        have within := (follows.tiled.aligned span .held held).within_parent
        have fewer : topOrder - span.parent.order = levels := by
          simp only [Span.parent]
          omega
        rw [step.1, step.2]
        apply Yields.bind (follows.takeBuddy_of_mem below listed)
        intro result holds
        rcases result with ⟨taken?, joined⟩
        rcases holds with ⟨taken_eq, joinedFollows, taken⟩
        subst taken_eq
        apply Yields.mono (induction joinedFollows fewer)
        intro after holds
        rcases holds with ⟨afterFollows, rearranges, kept⟩
        refine ⟨afterFollows, taken.of_live.trans rearranges, ?_⟩
        intro index covers beyond
        have inParent : span.parent.Covers index :=
          ⟨Nat.le_trans within.1 covers.1, Nat.lt_of_lt_of_le covers.2 within.2⟩
        rw [kept index inParent beyond]
        exact taken.preserves.byte_eq_of_taken (.inr ⟨span, rfl, covers⟩)
      · rw [follows.takeBuddy_of_not_mem below listed]
        exact follows.push_held fun _ => listed

end Heap.Follows

end BuddyHeap
