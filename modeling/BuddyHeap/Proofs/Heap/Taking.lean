import BuddyHeap.Proofs.Heap.Pairing
import BuddyHeap.Proofs.Memory.Growth

/-! Taking a block, from the free lists or from a new chunk, does to the heap
what it does to its books. The number of attempts makes no difference from two
on: a chunk that has just been added serves every order. -/

namespace BuddyHeap

namespace Heap

/-- A block has the bytes that it had, but for the node at its start. -/
def ContentKept (span : Span) (before after : Heap) : Prop :=
  ∀ index, span.Covers index → span.offset + nodeSize ≤ index →
    after.arena.byte index = before.arena.byte index

theorem Preserves.contentKept {live : Nat → Option Allocation} {span : Span} {before after : Heap}
    (preserves : Preserves live (some span) before after) : ContentKept span before after :=
  fun _ covers _ => preserves.byte_eq_of_taken (.inr ⟨span, rfl, covers⟩)

theorem ContentKept.cut {outer : Span} {order : Nat} {before middle after : Heap}
    (kept : ContentKept outer before middle) (shorter : order ≤ outer.order)
    (rest : ContentKept ⟨outer.offset, order⟩ middle after) :
    ContentKept ⟨outer.offset, order⟩ before after := by
  intro index covers beyond
  have length : 2 ^ order ≤ 2 ^ outer.order := Nat.pow_le_pow_right (by decide) shorter
  have outerCovers : outer.Covers index :=
    ⟨covers.1, Nat.lt_of_lt_of_le covers.2 (Nat.add_le_add_left length _)⟩
  rw [rest index covers beyond]
  exact kept index outerCovers beyond

/-- What taking a block of the given order comes to, when it comes to `taken?`
in the books. -/
def Took (before : Heap) (live : Nat → Option Allocation) (order : Nat)
    (taken? : Option (Nat × Ledger)) (offset? : Option Nat) (after : Heap) : Prop :=
  match taken? with
  | some (offset, taken) => offset? = some offset ∧
      after.Follows taken (some ⟨offset, order⟩) ∧ Rearranges live none before after ∧
      ContentKept ⟨offset, order⟩ before after
  | none => offset? = none ∧ after = before

variable {heap : Heap} {ledger : Ledger} {span : Span} {order offset : Nat}

theorem Lists.firstListed_eq (lists : heap.Lists ledger.lists) {orders : List Nat}
    (inRange : ∀ order ∈ orders, minOrder ≤ order ∧ order < orderBound) :
    heap.firstListed orders = .ok ((ledger.firstOf orders).map Span.order) := by
  induction orders with
  | nil => rfl
  | cons order orders induction =>
      have looked := lists.isListEmpty_eq (inRange order (List.mem_cons_self ..))
      have rest := induction fun other member => inRange other (List.mem_cons_of_mem order member)
      rw [Ledger.firstOf_cons]
      cases listed : ledger.lists order with
      | nil => simp only [firstListed, looked, listed, ok_bind, List.isEmpty_nil, if_true, rest]
      | cons first others =>
          simp only [firstListed, looked, listed, ok_bind, List.isEmpty_cons, Bool.false_eq_true,
            if_false]
          rfl

namespace Follows

theorem pop (follows : heap.Follows ledger none) (span : Span)
    (inRange : minOrder ≤ span.order ∧ span.order < orderBound)
    (cons : ∃ rest, ledger.lists span.order = span.offset :: rest) :
    Yields (heap.pop span.order) fun (popped?, after) =>
      popped? = some span.offset ∧ after.Follows (ledger.unlist span) (some span) ∧
        Rearranges ledger.live none heap after ∧ ContentKept span heap after := by
  rcases cons with ⟨rest, cons⟩
  have listed : span.offset ∈ ledger.lists span.order := by
    rw [cons]
    exact List.mem_cons_self ..
  apply Yields.mono (follows.lists.pop_of_cons inRange cons)
  intro result holds
  rcases result with ⟨popped?, after⟩
  rcases holds with ⟨popped_eq, lists, edited, node⟩
  rcases follows.unlisted lists edited node (follows.tiled.unlist follows.lists.separate listed) with
    ⟨afterFollows, rearranges⟩
  refine ⟨popped_eq, afterFollows, rearranges, ?_⟩
  intro index covers beyond
  have free : ledger.Uses none span .free := listed
  exact edited.agree.byte_eq index
    (follows.tiled.not_nodeBytes_of_covers free covers fun _ => beyond)

theorem takeListed (follows : heap.Follows ledger none)
    (inRange : minOrder ≤ order ∧ order < orderBound) :
    Yields (heap.takeListed order).outcome fun (offset?, after) =>
      heap.Took ledger.live order (ledger.takeListed order) offset? after := by
  have first := ledger.first?_eq inRange.2
  simp only [Heap.takeListed, Ledger.takeListed, Traced.outcome_bind, Traced.outcome_lift]
  cases listed : ledger.lists order with
  | cons offset rest =>
      have cons : ∃ rest, ledger.lists (Span.order ⟨offset, order⟩) = offset :: rest := ⟨rest, listed⟩
      rw [first, listed]
      apply Yields.bind (follows.pop ⟨offset, order⟩ inRange cons)
      intro result holds
      rcases result with ⟨popped?, after⟩
      rcases holds with ⟨popped_eq, done⟩
      simp only at popped_eq
      subst popped_eq
      refine .ok ⟨rfl, ?_⟩
      simp only [Ledger.split_self]
      exact done
  | nil =>
      have larger : ∀ other ∈ List.range' (order + 1) (orderBound - (order + 1)),
          minOrder ≤ other ∧ other < orderBound := by
        intro other member
        rw [List.mem_range'_1] at member
        omega
      rw [first, listed, follows.lists.pop_of_nil inRange listed, ok_bind]
      simp only [Traced.outcome_bind, Traced.outcome_lift, follows.lists.firstListed_eq larger, ok_bind]
      cases found : ledger.firstOf (List.range' (order + 1) (orderBound - (order + 1))) with
      | none => exact .ok ⟨rfl, rfl⟩
      | some span =>
          rcases Ledger.cons_of_firstOf found with ⟨member, cons⟩
          have above := List.mem_range'_1.mp member
          simp only [Option.map_some, Traced.outcome_bind, Traced.outcome_lift]
          apply Yields.bind (follows.pop span (larger span.order member) cons)
          intro result holds
          rcases result with ⟨popped?, popped⟩
          rcases holds with ⟨popped_eq, poppedFollows, popping, kept⟩
          subst popped_eq
          have reached : order ≤ span.order := by omega
          simp only [Traced.outcome_bind]
          apply Yields.bind (poppedFollows.split inRange.1 reached)
          intro after holds
          rcases holds with ⟨afterFollows, splitting⟩
          exact .ok ⟨rfl, afterFollows, popping.trans splitting.of_live,
            kept.cut reached splitting.preserves.contentKept⟩

/-! ## Growing -/

theorem widen (follows : heap.Follows ledger none) {arena : Arena}
    (size_eq : arena.size = heap.arena.size + maxBlockSize)
    (agree : Arena.AgreeOutside (fun _ => False) heap.arena arena) :
    Follows { heap with arena } ledger.widen (some ⟨ledger.size, topOrder⟩) where
  mapped := agree.mapped follows.mapped
  size_eq := by
    simp only [size_eq, follows.size_eq, Ledger.widen]
  lists := follows.lists.of_byte_eq rfl (by simp [size_eq]) fun index _ => agree.byte_eq index id
  tiled := follows.tiled.widen
  merged := follows.merged
  fits := follows.fits
  word_eq offset allocation live :=
    (agree.word_eq fun _ _ _ => id).trans (follows.word_eq offset allocation live)

theorem push_chunk (follows : heap.Follows ledger none) {arena : Arena}
    (size_eq : arena.size = heap.arena.size + maxBlockSize)
    (agree : Arena.AgreeOutside (fun _ => False) heap.arena arena) :
    Yields (Heap.push { heap with arena } topOrder ledger.size) fun after =>
      after.Follows ledger.extend none ∧ Rearranges ledger.live none heap after ∧
        ContentKept ⟨ledger.size, topOrder⟩ heap after := by
  let chunk : Span := ⟨ledger.size, topOrder⟩
  have widened := follows.widen size_eq agree
  have within : chunk.Within chunk := ⟨Nat.le_refl _, Nat.le_refl _⟩
  have fresh := widened.tiled.not_listed_within within
  have widening : Rearranges ledger.live none heap { heap with arena } :=
    ⟨agree.mono fun _ => False.elim, fun place marked =>
      marked.of_byte_eq (agree.byte_eq place id)⟩
  have tiled := widened.tiled.list
  apply Yields.mono (widened.push tiled fresh fun below => absurd below (Nat.lt_irrefl _))
  intro after holds
  rcases holds with ⟨afterFollows, pushing, edited⟩
  refine ⟨afterFollows, widening.trans pushing, ?_⟩
  intro index covers beyond
  have free := ledger.widen.uses_list none chunk
  rw [edited.agree.byte_eq index (tiled.not_nodeBytes_of_covers free covers fun _ => beyond)]
  exact agree.byte_eq index id

theorem grow_of_extensible (follows : heap.Follows ledger none)
    (extensible : heap.arena.extensible) :
    Yields heap.grow.outcome fun (grown, after) =>
      grown = true ∧ after.Follows ledger.extend none ∧ Rearranges ledger.live none heap after ∧
        ContentKept ⟨ledger.size, topOrder⟩ heap after := by
  unfold Heap.grow
  rw [Traced.outcome_bind, Traced.outcome_lift heap.arena.grow]
  apply Yields.bind (follows.mapped.grow_of_extensible extensible)
  intro _ holds
  rcases holds with ⟨arena, growth_eq, size_eq, agree⟩
  subst growth_eq
  simp only [Traced.outcome_bind, Traced.outcome_lift, Traced.outcome_record, follows.size_eq]
  apply Yields.bind (follows.push_chunk size_eq agree)
  intro after done
  exact .ok ⟨rfl, done⟩

theorem grow_of_not_extensible (follows : heap.Follows ledger none)
    (blocked : ¬heap.arena.extensible) :
    Yields heap.grow.outcome fun (grown, after) => grown = false ∧ after = heap := by
  unfold Heap.grow
  rw [Traced.outcome_bind, Traced.outcome_lift heap.arena.grow]
  apply Yields.bind (follows.mapped.grow_of_not_extensible blocked)
  intro growth refused
  cases growth with
  | grown offset arena => exact absurd rfl (refused offset arena)
  | atCapacity => exact .ok ⟨rfl, rfl⟩
  | refused size cause => exact .ok ⟨rfl, rfl⟩

end Follows

theorem outcome_takeBlock_succ (heap : Heap) (order attempts : Nat) :
    (heap.takeBlock order (attempts + 1)).outcome =
      (heap.takeListed order).outcome >>= fun (taken?, taken) =>
        match taken? with
        | some offset => .ok (some offset, taken)
        | none => taken.grow.outcome >>= fun (grown, extended) =>
            if grown then (extended.takeBlock order attempts).outcome else .ok (none, extended) := by
  rw [Heap.takeBlock, Traced.outcome_bind]
  refine congrArg _ (funext fun result => ?_)
  rcases result with ⟨taken?, taken⟩
  cases taken? with
  | some offset => rfl
  | none =>
      simp only [Traced.outcome_bind]
      refine congrArg _ (funext fun result => ?_)
      rcases result with ⟨grown, extended⟩
      cases grown <;> rfl

namespace Follows

/-- Two attempts come to what any greater number of them comes to. -/
theorem takeBlock_eq (follows : heap.Follows ledger none)
    (inRange : minOrder ≤ order ∧ order < orderBound) :
    ∃ offset? after, (∀ attempts, (heap.takeBlock order (attempts + 2)).outcome =
        .ok (offset?, after)) ∧
      heap.Took ledger.live order (ledger.take heap.arena.extensible order) offset? after := by
  rcases follows.takeListed inRange with ⟨⟨offset?, taken⟩, taken_eq, took⟩
  rw [Ledger.take]
  cases listed : ledger.takeListed order with
  | some result =>
      simp only [listed] at took ⊢
      rcases took with ⟨rfl, done⟩
      refine ⟨some result.1, taken, fun attempts => ?_, rfl, done⟩
      rw [outcome_takeBlock_succ, taken_eq, ok_bind]
  | none =>
      simp only [listed] at took ⊢
      rcases took with ⟨rfl, rfl⟩
      by_cases extensible : taken.arena.extensible
      · simp only [extensible, if_true]
        rcases follows.grow_of_extensible extensible with
          ⟨⟨grown, extended⟩, grow_eq, rfl, extendedFollows, growing, grownKept⟩
        rcases extendedFollows.takeListed inRange with ⟨⟨offset?, after⟩, after_eq, took⟩
        have chunk := Ledger.first?_extend (Nat.le_of_lt_succ inRange.2)
          (Option.map_eq_none_iff.mp listed)
        rw [Ledger.takeListed, chunk] at took ⊢
        rcases took with ⟨rfl, afterFollows, taking, takenKept⟩
        refine ⟨_, after, fun attempts => ?_, rfl, afterFollows, growing.trans taking,
          grownKept.cut (Nat.le_of_lt_succ inRange.2) takenKept⟩
        simp only [outcome_takeBlock_succ, taken_eq, grow_eq, after_eq, ok_bind, if_true]
      · rcases follows.grow_of_not_extensible extensible with ⟨⟨grown, after⟩, grow_eq, rfl, rfl⟩
        simp only [extensible]
        refine ⟨none, after, fun attempts => ?_, rfl, rfl⟩
        simp only [outcome_takeBlock_succ, taken_eq, grow_eq, ok_bind]
        rfl

theorem takeBlock (follows : heap.Follows ledger none)
    (inRange : minOrder ≤ order ∧ order < orderBound) (attempts : Nat) :
    Yields (heap.takeBlock order (attempts + 2)).outcome fun (offset?, after) =>
      heap.Took ledger.live order (ledger.take heap.arena.extensible order) offset? after := by
  rcases follows.takeBlock_eq inRange with ⟨offset?, after, taken_eq, took⟩
  exact .of_eq (taken_eq attempts) took

end Follows

end Heap

end BuddyHeap
