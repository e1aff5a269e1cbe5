import BuddyHeap.Proofs.Heap.Occupying
import BuddyHeap.Proofs.Heap.Taking
import BuddyHeap.Proofs.Ledger.Recording

/-! Taking a block and giving one back record what the books say. The memory
has no other part in it. -/

namespace BuddyHeap

def Arena.growEvents (arena : Arena) : List Event :=
  BuddyHeap.growEvents arena.size arena.capacity (arena.paging.chunkFailure? arena.size)

namespace Heap.Follows

variable {heap : Heap} {ledger : Ledger} {span : Span} {offset order target : Nat}

theorem events_split (follows : heap.Follows ledger (some ⟨offset, order⟩))
    (least : minOrder ≤ target) :
    (heap.split offset target order).events = Ledger.splitEvents offset target order := by
  induction order generalizing heap ledger with
  | zero => rfl
  | succ order induction =>
      by_cases further : target ≤ order
      · have upper := follows.upper_eq_ok
        rcases follows.push_upper (Nat.le_trans least further) with
          ⟨halved, pushed_eq, halvedFollows, _⟩
        have rest := induction halvedFollows
        rw [Heap.split, if_pos further, Ledger.splitEvents, if_pos further,
          Traced.events_bind upper.2, Traced.events_bind upper.1, Traced.events_bind pushed_eq,
          Traced.events_bind rfl, rest]
        rfl
      · rw [Heap.split, if_neg further, Ledger.splitEvents, if_neg further]
        rfl

theorem events_coalesce (follows : heap.Follows ledger (some span)) :
    (heap.coalesce span.offset span.order).events = ledger.freeEvents span := by
  induction depth : topOrder - span.order generalizing heap ledger span with
  | zero =>
      have top : ¬span.order < topOrder := by omega
      rw [Heap.coalesce, if_neg top, Ledger.freeEvents_of_not_mem fun below => absurd below top]
      rfl
  | succ levels induction =>
      have below : span.order < topOrder := by omega
      rw [Heap.coalesce, if_pos below]
      by_cases listed : span.buddy.offset ∈ ledger.lists span.order
      · have fewer : topOrder - span.parent.order = levels := by
          simp only [Span.parent]
          omega
        rcases follows.takeBuddy_of_mem below listed with
          ⟨⟨taken?, joined⟩, taken_eq, rfl, joinedFollows, _⟩
        rw [Traced.events_bind taken_eq, Ledger.freeEvents_of_mem below listed,
          ← induction joinedFollows fewer]
        exact Traced.events_bind rfl _
      · rw [Traced.events_bind (follows.takeBuddy_of_not_mem below listed),
          Ledger.freeEvents_of_not_mem fun _ => listed]
        rfl

theorem events_coalesce_live {allocation : Allocation} (follows : heap.Follows ledger none)
    (live : ledger.live offset = some allocation) :
    (heap.coalesce offset allocation.order).events = ledger.returnEvents offset allocation :=
  (follows.reclaim live).events_coalesce

theorem events_takeListed (follows : heap.Follows ledger none)
    (inRange : minOrder ≤ order ∧ order < orderBound) :
    (heap.takeListed order).events = ledger.takeListedEvents order := by
  have first := ledger.first?_eq inRange.2
  rw [Heap.takeListed, Ledger.takeListedEvents]
  cases listed : ledger.lists order with
  | cons offset rest =>
      have cons : ∃ rest, ledger.lists (Span.order ⟨offset, order⟩) = offset :: rest := ⟨rest, listed⟩
      rcases follows.pop ⟨offset, order⟩ inRange cons with ⟨⟨popped?, after⟩, pop_eq, rfl, _⟩
      rw [first, listed, Traced.events_bind pop_eq]
      exact (Ledger.splitEvents_self ..).symm
  | nil =>
      have larger : ∀ other ∈ List.range' (order + 1) (orderBound - (order + 1)),
          minOrder ≤ other ∧ other < orderBound := by
        intro other member
        rw [List.mem_range'_1] at member
        omega
      have looked := follows.lists.firstListed_eq larger
      rw [first, listed, Traced.events_bind (follows.lists.pop_of_nil inRange listed)]
      simp only
      rw [Traced.events_bind looked]
      cases found : ledger.firstOf (List.range' (order + 1) (orderBound - (order + 1))) with
      | none => rfl
      | some span =>
          rcases Ledger.cons_of_firstOf found with ⟨member, cons⟩
          rcases follows.pop span (larger span.order member) cons with
            ⟨⟨popped?, popped⟩, pop_eq, rfl, poppedFollows, _⟩
          have above := List.mem_range'_1.mp member
          have reached : order ≤ span.order := by omega
          rcases poppedFollows.split inRange.1 reached with ⟨after, split_eq, _⟩
          simp only [Option.map_some]
          rw [Traced.events_bind pop_eq, Traced.events_bind split_eq,
            poppedFollows.events_split inRange.1]
          simp

theorem events_grow (follows : heap.Follows ledger none) :
    heap.grow.events = heap.arena.growEvents := by
  unfold Heap.grow Arena.growEvents BuddyHeap.growEvents
  by_cases fits : heap.arena.size + maxBlockSize ≤ heap.arena.capacity
  · rw [if_pos fits]
    cases refusal : heap.arena.paging.chunkFailure? heap.arena.size with
    | none =>
        have extensible := Arena.extensible_iff.mpr ⟨fits, refusal⟩
        rcases follows.mapped.grow_of_extensible extensible with
          ⟨_, grow_eq, arena, rfl, size_eq, agree⟩
        rcases follows.push_chunk size_eq agree with ⟨after, push_eq, afterFollows, _⟩
        have after_size : after.size = heap.arena.size + maxBlockSize := by
          rw [Heap.size, afterFollows.size_eq, follows.size_eq]
          rfl
        rw [← follows.size_eq] at push_eq
        rw [Traced.events_bind grow_eq]
        simp only
        rw [Traced.events_bind push_eq, Traced.events_bind rfl, after_size]
        rfl
    | some cause =>
        rw [Traced.events_bind (follows.mapped.grow_of_refused fits refusal)]
        simp only
        rw [Traced.events_bind rfl]
        rfl
  · rw [if_neg fits, Traced.events_bind (follows.mapped.grow_of_full fits)]
    rfl

theorem events_takeBlock (follows : heap.Follows ledger none)
    (inRange : minOrder ≤ order ∧ order < orderBound) (attempts : Nat) :
    (heap.takeBlock order (attempts + 2)).events =
      ledger.takeEvents heap.arena.extensible heap.arena.growEvents order := by
  rcases follows.takeListed inRange with ⟨⟨offset?, taken⟩, taken_eq, took⟩
  rw [Heap.takeBlock, Traced.events_bind taken_eq, follows.events_takeListed inRange, Ledger.takeEvents]
  cases found : ledger.first? order with
  | some span =>
      simp only [Ledger.takeListed_of_first? found, Took] at took
      rcases took with ⟨rfl, _⟩
      exact List.append_nil _
  | none =>
      have listed : ledger.takeListed order = none := by
        rw [Ledger.takeListed, found]
        rfl
      simp only [listed, Took] at took
      rcases took with ⟨rfl, rfl⟩
      have nothing : ledger.takeListedEvents order = [] := by
        rw [Ledger.takeListedEvents, found]
      rw [nothing, List.nil_append]
      by_cases extensible : taken.arena.extensible
      · rcases follows.grow_of_extensible extensible with
          ⟨⟨grown, extended⟩, grow_eq, rfl, extendedFollows, _⟩
        rcases extendedFollows.takeListed inRange with ⟨⟨offset?, after⟩, after_eq, took⟩
        have chunk := Ledger.first?_extend (Nat.le_of_lt_succ inRange.2) found
        simp only [Ledger.takeListed_of_first? chunk, Took] at took
        rcases took with ⟨rfl, _⟩
        simp only
        rw [Traced.events_bind grow_eq, follows.events_grow, if_pos extensible]
        simp only [if_true]
        rw [Heap.takeBlock, Traced.events_bind after_eq, extendedFollows.events_takeListed inRange]
        exact congrArg _ (List.append_nil _)
      · rcases follows.grow_of_not_extensible extensible with ⟨⟨grown, after⟩, grow_eq, rfl, rfl⟩
        simp only
        rw [Traced.events_bind grow_eq, follows.events_grow, if_neg extensible]
        rfl

end Heap.Follows

end BuddyHeap
