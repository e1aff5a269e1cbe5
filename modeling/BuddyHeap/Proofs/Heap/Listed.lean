import Mathlib.Data.List.Perm.Subperm
import BuddyHeap.Proofs.Heap.Relinking
import BuddyHeap.Proofs.Ledger.Listing

/-! The free lists of a heap as a table of plain lists. Pushing, removing and
walking along the links do to the rings in memory what the same does to the
table. -/

namespace BuddyHeap

/-! ## Walking -/

namespace Arena.Linked

variable {arena : Arena} {order target steps : Nat} {offsets : List Nat} {previous : Link}

theorem followingLink_eq {offset : Nat} {following : Link}
    (node : arena.NodeAt offset order previous following) (bounded : order < 16) :
    arena.followingLink offset = .ok following := by
  rw [followingLink, node.readBlock_eq bounded]
  rfl

theorem offsetsFrom_eq (linked : arena.Linked order .sentinel previous offsets)
    (bounded : order < 16) (enough : offsets.length ≤ steps) :
    arena.offsetsFrom steps (firstLink .sentinel offsets) = .ok offsets := by
  induction offsets generalizing previous steps with
  | nil => cases steps <;> rfl
  | cons first rest induction =>
      cases steps with
      | zero => simp at enough
      | succ steps =>
          have walked := induction linked.2 (Nat.le_of_succ_le_succ enough)
          simp only [firstLink_cons, offsetsFrom, followingLink_eq linked.1 bounded, bind, Except.bind,
            walked]
          rfl

theorem isLinkedFrom_eq (linked : arena.Linked order .sentinel previous offsets)
    (bounded : order < 16) (enough : offsets.length ≤ steps) :
    arena.isLinkedFrom target steps (firstLink .sentinel offsets) =
      .ok (decide (target ∈ offsets)) := by
  induction offsets generalizing previous steps with
  | nil => cases steps <;> rfl
  | cons first rest induction =>
      cases steps with
      | zero => simp at enough
      | succ steps =>
          have walked := induction linked.2 (Nat.le_of_succ_le_succ enough)
          simp only [firstLink_cons, isLinkedFrom, followingLink_eq linked.1 bounded, bind, Except.bind,
            walked]
          by_cases found : first = target
          · subst found
            simp [pure, Except.pure]
          · simp [found, Ne.symm found]

end Arena.Linked

namespace Heap

variable {heap : Heap} {listing : Listing} {index : Fin freeListCount} {order offset : Nat}

theorem exists_freeListIndex (inRange : minOrder ≤ order ∧ order < orderBound) :
    ∃ index, freeListIndex order = .ok index := ⟨_, dif_pos inRange⟩

theorem freeListIndex_injective {other : Nat} (first : freeListIndex order = .ok index)
    (second : freeListIndex other = .ok index) : order = other := by
  unfold freeListIndex at first second
  split at first
  · split at second
    · cases first
      have equal := congrArg Fin.val (Except.ok.inj second)
      simp only at equal
      omega
    · cases second
  · cases first

structure Lists (heap : Heap) (listing : Listing) : Prop where
  ring : ∀ order index, freeListIndex order = .ok index → heap.Ring index order (listing order)
  separate : listing.Separate

def HasFree (heap : Heap) (order offset : Nat) : Prop :=
  ∃ offsets, heap.freeList order = .ok offsets ∧ offset ∈ offsets

theorem lists_ofArena (arena : Arena) : (ofArena arena).Lists .empty where
  separate := .empty
  ring order index _ := by
    have sentinel : (ofArena arena).sentinels[index] = ⟨.sentinel, .sentinel⟩ := by
      simp [ofArena]
    exact ⟨congrArg Sentinel.following sentinel, congrArg Sentinel.previous sentinel, trivial⟩

namespace Lists

theorem bounded (lists : heap.Lists listing) (member : offset ∈ listing order) : order < 16 :=
  Nat.lt_of_lt_of_le (lists.separate.in_range order offset member).2 (by decide)

theorem inside (lists : heap.Lists listing) (member : offset ∈ listing order) :
    offset + nodeSize ≤ heap.arena.size := by
  rcases exists_freeListIndex (lists.separate.in_range order offset member) with ⟨index, index_eq⟩
  exact (lists.ring order index index_eq).linked.inside_of_mem member

theorem readBlock_eq (lists : heap.Lists listing) (member : offset ∈ listing order) :
    ∃ previous following, heap.arena.readBlock offset = .ok (.free order previous following) ∧
      previous ≠ .unlinked ∧ following ≠ .unlinked := by
  rcases exists_freeListIndex (lists.separate.in_range order offset member) with ⟨index, index_eq⟩
  have linked := (lists.ring order index index_eq).linked
  rcases linked.links_of_mem (by simp) (by simp) member with
    ⟨previous, following, node, previousSet, followingSet⟩
  exact ⟨previous, following, node.readBlock_eq (lists.bounded member), previousSet, followingSet⟩

theorem word_eq (lists : heap.Lists listing) (member : offset ∈ listing order) :
    heap.arena.word offset = (Header.free order).encode := by
  rcases exists_freeListIndex (lists.separate.in_range order offset member) with ⟨index, index_eq⟩
  rcases (lists.ring order index index_eq).linked.nodeAt_of_mem member with ⟨_, _, node⟩
  exact node.header_eq

theorem of_byte_eq {before after : Heap} (lists : before.Lists listing)
    (sentinels_eq : after.sentinels = before.sentinels)
    (size_le : before.arena.size ≤ after.arena.size)
    (equal : ∀ index, NodeBytes listing.IsNode index →
      after.arena.byte index = before.arena.byte index) : after.Lists listing where
  separate := lists.separate
  ring order index index_eq := by
    have ring := lists.ring order index index_eq
    refine ⟨?_, ?_, ring.linked.of_byte_eq size_le ?_⟩
    · rw [sentinel, sentinels_eq]
      exact ring.following_eq
    · rw [sentinel, sentinels_eq]
      exact ring.previous_eq
    · intro offset member index lower upper
      exact equal index ⟨offset, ⟨order, member⟩, lower, upper⟩

/-- A walk has enough steps, because the nodes of a list are different places
inside the arena. -/
theorem length_le_walkBound (lists : heap.Lists listing) (order : Nat) :
    (listing order).length ≤ heap.arena.walkBound := by
  have subset : listing order ⊆ List.range heap.arena.size := by
    intro node member
    have room := lists.inside member
    simp only [nodeSize] at room
    exact List.mem_range.mpr (by omega)
  have length := ((lists.separate.nodup order).subperm subset).length_le
  rw [List.length_range] at length
  exact Nat.le_succ_of_le length

variable (inRange : minOrder ≤ order ∧ order < orderBound)
include inRange

theorem isListEmpty_eq (lists : heap.Lists listing) :
    heap.isListEmpty order = .ok (listing order).isEmpty := by
  rcases exists_freeListIndex inRange with ⟨index, index_eq⟩
  have ring := lists.ring order index index_eq
  simp only [isListEmpty, index_eq, bind, Except.bind, Fin.getElem_fin, getElem_sentinels,
    ring.following_eq, ring.previous_eq]
  cases listing order with
  | nil => rfl
  | cons first rest => rfl

theorem freeList_eq (lists : heap.Lists listing) : heap.freeList order = .ok (listing order) := by
  rcases exists_freeListIndex inRange with ⟨index, index_eq⟩
  have ring := lists.ring order index index_eq
  simp only [freeList, index_eq, bind, Except.bind, Fin.getElem_fin, getElem_sentinels,
    ring.following_eq]
  exact ring.linked.offsetsFrom_eq (Nat.lt_of_lt_of_le inRange.2 (by decide))
    (lists.length_le_walkBound order)

theorem hasFree_iff (lists : heap.Lists listing) :
    heap.HasFree order offset ↔ offset ∈ listing order := by
  simp only [HasFree, lists.freeList_eq inRange, Except.ok.injEq, exists_eq_left']

theorem isListed_eq (lists : heap.Lists listing) (offset : Nat) :
    heap.isListed order offset = .ok (decide (offset ∈ listing order)) := by
  rcases exists_freeListIndex inRange with ⟨index, index_eq⟩
  have ring := lists.ring order index index_eq
  simp only [isListed, index_eq, bind, Except.bind, Fin.getElem_fin, getElem_sentinels,
    ring.following_eq]
  exact ring.linked.isLinkedFrom_eq (Nat.lt_of_lt_of_le inRange.2 (by decide))
    (lists.length_le_walkBound order)

/-! ## Changing the table -/

theorem push (lists : heap.Lists listing) (inside : offset + nodeSize ≤ heap.arena.size)
    (fresh : ∀ node, listing.IsNode node → Apart node offset) :
    Yields (heap.push order offset) fun after =>
      after.Lists (listing.push order offset) ∧
        Edited (listing.push order offset).IsNode heap after := by
  rcases exists_freeListIndex inRange with ⟨index, index_eq⟩
  have separate := lists.separate.push inRange fresh
  have apart := separate.within order
  rw [Listing.push_same] at apart
  apply Yields.mono ((lists.ring order index index_eq).push index_eq apart inside)
  intro after holds
  rcases holds with ⟨ring, relinked⟩
  refine ⟨⟨?_, separate⟩, relinked.toEdited.mono fun node member => ⟨order, ?_⟩⟩
  · intro other otherIndex otherIndex_eq
    by_cases same : other = order
    · subst same
      cases index_eq.symm.trans otherIndex_eq
      rwa [Listing.push_same]
    · rw [Listing.push_other listing offset same]
      have different : otherIndex ≠ index := by
        intro equal
        subst equal
        exact same (freeListIndex_injective otherIndex_eq index_eq)
      apply relinked.ring_of_ne (lists.ring other otherIndex otherIndex_eq) different
      intro second secondMember first firstMember
      rw [← Listing.push_same] at firstMember
      exact separate.across order other (Ne.symm same) first firstMember second
        (Listing.mem_push.mpr (.inr secondMember))
  · rwa [Listing.push_same]

theorem unlink (lists : heap.Lists listing) (index_eq : freeListIndex order = .ok index)
    (member : offset ∈ listing order) :
    Yields (heap.unlink index offset) fun after =>
      after.Lists (listing.erase order offset) ∧ Edited listing.IsNode heap after ∧
        after.arena.NodeAt offset order .unlinked .unlinked := by
  have nodup := lists.separate.nodup order
  have ring := lists.ring order index index_eq
  have apart := lists.separate.within order
  rcases List.append_of_mem member with ⟨left, right, cut⟩
  have fresh : offset ∉ left := by
    rw [cut] at nodup
    exact fun inLeft => (List.nodup_append.mp nodup).2.2 offset inLeft offset
      (List.mem_cons_self ..) rfl
  have erased : listing.erase order offset order = left ++ right := by
    rw [Listing.erase_same, cut, List.erase_append_right _ fresh, List.erase_cons_head]
  rw [cut] at ring apart
  apply Yields.mono (ring.unlink apart (lists.bounded member))
  intro after holds
  rcases holds with ⟨afterRing, relinked, node⟩
  refine ⟨⟨?_, lists.separate.erase order offset⟩,
    relinked.toEdited.mono fun node member => ⟨order, cut ▸ member⟩, node⟩
  intro other otherIndex otherIndex_eq
  by_cases same : other = order
  · subst same
    cases index_eq.symm.trans otherIndex_eq
    rwa [erased]
  · rw [Listing.erase_other listing offset same]
    have different : otherIndex ≠ index := by
      intro equal
      subst equal
      exact same (freeListIndex_injective otherIndex_eq index_eq)
    apply relinked.ring_of_ne (lists.ring other otherIndex otherIndex_eq) different
    intro second secondMember first firstMember
    exact lists.separate.across order other (Ne.symm same) first (cut ▸ firstMember) second
      secondMember

theorem remove_of_mem (lists : heap.Lists listing) (member : offset ∈ listing order) :
    Yields (heap.remove order offset) fun (found, after) =>
      found = true ∧ after.Lists (listing.erase order offset) ∧ Edited listing.IsNode heap after ∧
        after.arena.NodeAt offset order .unlinked .unlinked := by
  rcases exists_freeListIndex inRange with ⟨index, index_eq⟩
  have listed : heap.isListed order offset = .ok true := by
    rw [lists.isListed_eq inRange, decide_eq_true member]
  have unfolded : heap.remove order offset = (do
      let after ← heap.unlink index offset
      return (true, after)) := by
    simp only [Heap.remove, index_eq, bind, Except.bind, listed]
    rfl
  rw [unfolded]
  apply Yields.bind (lists.unlink inRange index_eq member)
  intro after done
  exact .ok ⟨rfl, done⟩

theorem remove_of_not_mem (lists : heap.Lists listing) (absent : offset ∉ listing order) :
    heap.remove order offset = .ok (false, heap) := by
  rcases exists_freeListIndex inRange with ⟨index, index_eq⟩
  have listed : heap.isListed order offset = .ok false := by
    rw [lists.isListed_eq inRange, decide_eq_false absent]
  simp only [Heap.remove, index_eq, bind, Except.bind, listed]
  rfl

theorem pop_of_nil (lists : heap.Lists listing) (empty : listing order = []) :
    heap.pop order = .ok (none, heap) := by
  rcases exists_freeListIndex inRange with ⟨index, index_eq⟩
  have first := (lists.ring order index index_eq).following_eq
  rw [empty] at first
  simp only [Heap.pop, index_eq, bind, Except.bind, Fin.getElem_fin, getElem_sentinels, first]
  rfl

theorem pop_of_cons {rest : List Nat} (lists : heap.Lists listing)
    (cons : listing order = offset :: rest) :
    Yields (heap.pop order) fun (popped, after) =>
      popped = some offset ∧ after.Lists (listing.erase order offset) ∧
        Edited listing.IsNode heap after ∧
        after.arena.NodeAt offset order .unlinked .unlinked := by
  rcases exists_freeListIndex inRange with ⟨index, index_eq⟩
  have first := (lists.ring order index index_eq).following_eq
  rw [cons] at first
  have unfolded : heap.pop order = (do
      let after ← heap.unlink index offset
      return (some offset, after)) := by
    simp only [Heap.pop, index_eq, bind, Except.bind, Fin.getElem_fin, getElem_sentinels, first]
    rfl
  rw [unfolded]
  apply Yields.bind (lists.unlink inRange index_eq (by rw [cons]; exact List.mem_cons_self ..))
  intro after done
  exact .ok ⟨rfl, done⟩

end Lists

end Heap

end BuddyHeap
