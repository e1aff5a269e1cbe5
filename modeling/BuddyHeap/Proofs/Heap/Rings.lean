import BuddyHeap.Heap.FreeLists
import BuddyHeap.Proofs.Foundation.Yields
import BuddyHeap.Proofs.Memory.Nodes

/-! Free lists as rings. A stretch of a list is a row of nodes that are linked
both ways; the whole list is the stretch from the sentinel to the sentinel. A
ring is changed at one place by cutting it there: the front stretch ends in a
link to what follows the cut, and the back stretch starts with a link to what
precedes it. -/

namespace BuddyHeap

variable {arena before after : Arena} {order offset : Nat} {offsets left right : List Nat}
  {previous following link : Link}

/-- The first block of a row, or what follows the row when it is empty. -/
def firstLink (following : Link) : List Nat → Link
  | [] => following
  | offset :: _ => .block offset

theorem firstLink_cons (following : Link) (offset : Nat) (rest : List Nat) :
    firstLink following (offset :: rest) = .block offset := rfl

def lastLink (previous : Link) : List Nat → Link
  | [] => previous
  | offset :: rest => lastLink (.block offset) rest

@[simp] theorem lastLink_append_singleton (previous : Link) (offsets : List Nat) (offset : Nat) :
    lastLink previous (offsets ++ [offset]) = .block offset := by
  induction offsets generalizing previous with
  | nil => rfl
  | cons first rest induction => exact induction (.block first)

theorem firstLink_append (following : Link) (left right : List Nat) :
    firstLink following (left ++ right) = firstLink (firstLink following right) left := by
  cases left <;> rfl

theorem lastLink_append (previous : Link) (left right : List Nat) :
    lastLink previous (left ++ right) = lastLink (lastLink previous left) right := by
  induction left generalizing previous with
  | nil => rfl
  | cons first rest induction => exact induction (.block first)

namespace Arena

/-- The nodes of a row are linked to each other both ways, the first one to
`previous` and the last one to `following`. -/
def Linked (arena : Arena) (order : Nat) (following : Link) : Link → List Nat → Prop
  | _, [] => True
  | previous, offset :: rest =>
      arena.NodeAt offset order previous (firstLink following rest) ∧
        arena.Linked order following (.block offset) rest

namespace Linked

theorem append_iff : arena.Linked order following previous (left ++ right) ↔
    arena.Linked order (firstLink following right) previous left ∧
      arena.Linked order following (lastLink previous left) right := by
  induction left generalizing previous with
  | nil => simp [Linked, lastLink]
  | cons first rest induction =>
      simp only [List.cons_append, Linked, induction, firstLink_append, lastLink, and_assoc]

theorem nodeAt_of_mem (linked : arena.Linked order following previous offsets)
    (member : offset ∈ offsets) :
    ∃ before after, arena.NodeAt offset order before after := by
  induction offsets generalizing previous with
  | nil => cases member
  | cons first rest induction =>
      rcases List.mem_cons.mp member with equal | member
      · subst equal
        exact ⟨_, _, linked.1⟩
      · exact induction linked.2 member

theorem links_of_mem (linked : arena.Linked order following previous offsets)
    (previousSet : previous ≠ .unlinked) (followingSet : following ≠ .unlinked)
    (member : offset ∈ offsets) :
    ∃ before after, arena.NodeAt offset order before after ∧ before ≠ .unlinked ∧
      after ≠ .unlinked := by
  induction offsets generalizing previous with
  | nil => cases member
  | cons first rest induction =>
      rcases List.mem_cons.mp member with equal | member
      · subst equal
        refine ⟨_, _, linked.1, previousSet, ?_⟩
        cases rest with
        | nil => exact followingSet
        | cons => simp [firstLink_cons]
      · exact induction linked.2 (by simp) member

theorem inside_of_mem (linked : arena.Linked order following previous offsets)
    (member : offset ∈ offsets) : offset + nodeSize ≤ arena.size := by
  rcases linked.nodeAt_of_mem member with ⟨_, _, node⟩
  exact node.inside

theorem of_byte_eq (linked : before.Linked order following previous offsets)
    (size_le : before.size ≤ after.size)
    (equal : ∀ offset, offset ∈ offsets → ∀ index, offset ≤ index → index < offset + nodeSize →
      after.byte index = before.byte index) :
    after.Linked order following previous offsets := by
  induction offsets generalizing previous with
  | nil => trivial
  | cons first rest induction =>
      constructor
      · exact linked.1.of_byte_eq size_le (equal first (List.mem_cons_self ..))
      · exact induction linked.2 fun offset member =>
          equal offset (List.mem_cons_of_mem first member)

theorem of_agreeOutside {IsNode : Nat → Prop}
    (linked : before.Linked order following previous offsets) (size_le : before.size ≤ after.size)
    (agree : AgreeOutside (NodeBytes IsNode) before after)
    (apart : ∀ offset, offset ∈ offsets → ∀ node, IsNode node → Apart node offset) :
    after.Linked order following previous offsets :=
  linked.of_byte_eq size_le fun offset member index lower upper =>
    agree.byte_eq index (not_nodeBytes_of_apart (apart offset member) lower upper)

theorem encodable_firstLink (linked : arena.Linked order following previous offsets)
    (encodable : link.Encodable) : (firstLink link offsets).Encodable := by
  cases offsets with
  | nil => exact encodable
  | cons first rest => exact arena.encodable_of_inside linked.1.inside

theorem encodable_lastLink (linked : arena.Linked order following previous offsets)
    (encodable : link.Encodable) : (lastLink link offsets).Encodable := by
  rcases List.eq_nil_or_concat offsets with rfl | ⟨rest, last, rfl⟩
  · exact encodable
  · rw [List.concat_eq_append, lastLink_append_singleton]
    exact arena.encodable_of_inside (linked.inside_of_mem (by simp))

end Linked

end Arena

/-! ## The two stretches of a cut ring -/

namespace Heap

variable {heap heap' : Heap} {index other : Fin freeListCount}

def sentinel (heap : Heap) (index : Fin freeListCount) : Sentinel := heap.sentinels.get index

theorem getElem_sentinels (heap : Heap) (index : Fin freeListCount)
    (inside : index.val < freeListCount) : heap.sentinels[index.val] = heap.sentinel index := rfl

/-- The nodes from the sentinel on, and a link to what comes after them. -/
structure Front (heap : Heap) (index : Fin freeListCount) (order : Nat) (offsets : List Nat)
    (following : Link) : Prop where
  sentinel_eq : (heap.sentinel index).following = firstLink following offsets
  linked : heap.arena.Linked order following .sentinel offsets

structure Back (heap : Heap) (index : Fin freeListCount) (order : Nat) (offsets : List Nat)
    (previous : Link) : Prop where
  sentinel_eq : (heap.sentinel index).previous = lastLink previous offsets
  linked : heap.arena.Linked order .sentinel previous offsets

/-- The free list at `index` consists of the blocks at `offsets`. -/
structure Ring (heap : Heap) (index : Fin freeListCount) (order : Nat) (offsets : List Nat) :
    Prop where
  following_eq : (heap.sentinel index).following = firstLink .sentinel offsets
  previous_eq : (heap.sentinel index).previous = lastLink .sentinel offsets
  linked : heap.arena.Linked order .sentinel .sentinel offsets

theorem ring_append_iff : heap.Ring index order (left ++ right) ↔
    heap.Front index order left (firstLink .sentinel right) ∧
      heap.Back index order right (lastLink .sentinel left) := by
  constructor
  · intro ring
    have parts := Arena.Linked.append_iff.mp ring.linked
    exact ⟨⟨ring.following_eq.trans (firstLink_append ..), parts.1⟩,
      ⟨ring.previous_eq.trans (lastLink_append ..), parts.2⟩⟩
  · intro holds
    rcases holds with ⟨front, back⟩
    exact ⟨front.sentinel_eq.trans (firstLink_append ..).symm,
      back.sentinel_eq.trans (lastLink_append ..).symm,
      Arena.Linked.append_iff.mpr ⟨front.linked, back.linked⟩⟩

structure Edited (IsNode : Nat → Prop) (before after : Heap) : Prop where
  size_eq : after.arena.size = before.arena.size
  agree : Arena.AgreeOutside (NodeBytes IsNode) before.arena after.arena

namespace Edited

variable {IsNode Larger : Nat → Prop} {before after : Heap}

theorem mono (edited : Edited IsNode before after) (larger : ∀ node, IsNode node → Larger node) :
    Edited Larger before after :=
  ⟨edited.size_eq, edited.agree.mono fun _ bytes => bytes.mono larger⟩

theorem linked (edited : Edited IsNode before after)
    (linked : before.arena.Linked order following previous offsets)
    (apart : ∀ offset, offset ∈ offsets → ∀ node, IsNode node → Apart node offset) :
    after.arena.Linked order following previous offsets :=
  linked.of_agreeOutside (Nat.le_of_eq edited.size_eq.symm) edited.agree apart

theorem ring (edited : Edited IsNode before after) (ring : before.Ring index order offsets)
    (sentinel_eq : after.sentinel index = before.sentinel index)
    (apart : ∀ offset, offset ∈ offsets → ∀ node, IsNode node → Apart node offset) :
    after.Ring index order offsets where
  following_eq := by rw [sentinel_eq]; exact ring.following_eq
  previous_eq := by rw [sentinel_eq]; exact ring.previous_eq
  linked := edited.linked ring.linked apart

end Edited

structure Relinked (index : Fin freeListCount) (IsNode : Nat → Prop) (before after : Heap) : Prop
    extends Edited IsNode before after where
  sentinel_eq : ∀ other, other ≠ index → after.sentinel other = before.sentinel other

namespace Relinked

variable {IsNode Larger : Nat → Prop} {first middle last : Heap}

theorem trans (earlier : Relinked index IsNode first middle)
    (later : Relinked index IsNode middle last) : Relinked index IsNode first last where
  size_eq := later.size_eq.trans earlier.size_eq
  agree := earlier.agree.trans later.agree
  sentinel_eq other different :=
    (later.sentinel_eq other different).trans (earlier.sentinel_eq other different)

theorem mono (relinked : Relinked index IsNode first last)
    (larger : ∀ node, IsNode node → Larger node) : Relinked index Larger first last where
  toEdited := relinked.toEdited.mono larger
  sentinel_eq := relinked.sentinel_eq

theorem ring_of_ne (relinked : Relinked index IsNode first last)
    (ring : first.Ring other order offsets) (different : other ≠ index)
    (apart : ∀ offset, offset ∈ offsets → ∀ node, IsNode node → Apart node offset) :
    last.Ring other order offsets :=
  relinked.toEdited.ring ring (relinked.sentinel_eq other different) apart

end Relinked

def replaceSentinel (heap : Heap) (index : Fin freeListCount) (sentinel : Sentinel) : Heap :=
  { heap with sentinels := heap.sentinels.set index.val sentinel index.isLt }

theorem sentinel_replaceSentinel (heap : Heap) (index : Fin freeListCount) (sentinel : Sentinel) :
    (heap.replaceSentinel index sentinel).sentinel index = sentinel :=
  Vector.getElem_set_self index.isLt

theorem relinked_replaceSentinel (heap : Heap) (IsNode : Nat → Prop) (sentinel : Sentinel) :
    Relinked index IsNode heap (heap.replaceSentinel index sentinel) where
  size_eq := rfl
  agree := .refl ..
  sentinel_eq other different := by
    have distinct : index.val ≠ other.val := fun equal => different (Fin.ext equal.symm)
    exact Vector.getElem_set_ne index.isLt other.isLt distinct

theorem relinked_replaceWord (heap : Heap) (IsNode : Nat → Prop) (isNode : IsNode offset)
    (distance : Nat) (within : distance + 8 ≤ nodeSize) (word : UInt64) :
    Relinked index IsNode heap
      { heap with arena := heap.arena.replaceWord (offset + distance) word } where
  size_eq := heap.arena.size_replaceWord ..
  agree := heap.arena.agreeOutside_replaceLink IsNode isNode distance within word
  sentinel_eq _ _ := rfl

/-! ## Changing the link across a cut -/

/-- What the front stretch leads to can be set to anything; the sentinel's
other link is left alone. -/
theorem Front.setFollowing (front : heap.Front index order offsets following)
    (apart : offsets.Pairwise Apart) (encodable : link.Encodable) :
    Yields (heap.setFollowing index (lastLink .sentinel offsets) link) fun after =>
      after.Front index order offsets link ∧ Relinked index (· ∈ offsets) heap after ∧
        (after.sentinel index).previous = (heap.sentinel index).previous := by
  rcases List.eq_nil_or_concat offsets with rfl | ⟨rest, last, rfl⟩
  · have written := heap.sentinel_replaceSentinel index ⟨(heap.sentinel index).previous, link⟩
    have changed := congrArg Sentinel.following written
    have kept := congrArg Sentinel.previous written
    exact .of_eq rfl ⟨⟨changed, trivial⟩, heap.relinked_replaceSentinel .., kept⟩
  · rw [List.concat_eq_append] at *
    have parts := Arena.Linked.append_iff.mp front.linked
    have node := parts.2.1
    have relinked : Relinked index (· = last) heap
        { heap with arena := heap.arena.replaceWord (last + 16) link.encode } :=
      heap.relinked_replaceWord (· = last) rfl 16 (by decide) _
    rw [lastLink_append_singleton]
    refine .of_eq ?_ ⟨⟨?_, ?_⟩, relinked.mono (by simp), rfl⟩
    · rw [Heap.setFollowing, Arena.writeFollowing, Arena.writeLink_eq_ok node.inside (by decide)]
      rfl
    · have same : firstLink following (rest ++ [last]) = firstLink link (rest ++ [last]) := by
        cases rest <;> rfl
      exact front.sentinel_eq.trans same
    · rw [Arena.Linked.append_iff]
      refine ⟨relinked.linked parts.1 ?_, node.replaceLink encodable (.inr rfl), trivial⟩
      intro offset member _ equal
      subst equal
      exact ((List.pairwise_append.mp apart).2.2 offset member _ (by simp)).symm

theorem Back.setPrevious (back : heap.Back index order offsets previous)
    (apart : offsets.Pairwise Apart) (encodable : link.Encodable) :
    Yields (heap.setPrevious index (firstLink .sentinel offsets) link) fun after =>
      after.Back index order offsets link ∧ Relinked index (· ∈ offsets) heap after ∧
        (after.sentinel index).following = (heap.sentinel index).following := by
  cases offsets with
  | nil =>
      have written := heap.sentinel_replaceSentinel index ⟨link, (heap.sentinel index).following⟩
      have changed := congrArg Sentinel.previous written
      have kept := congrArg Sentinel.following written
      exact .of_eq rfl ⟨⟨changed, trivial⟩, heap.relinked_replaceSentinel .., kept⟩
  | cons first rest =>
      have node := back.linked.1
      have relinked : Relinked index (· = first) heap
          { heap with arena := heap.arena.replaceWord (first + 8) link.encode } :=
        heap.relinked_replaceWord (· = first) rfl 8 (by decide) _
      refine .of_eq ?_ ⟨⟨?_, ?_⟩, relinked.mono (by simp), rfl⟩
      · rw [firstLink_cons, Heap.setPrevious, Arena.writePrevious,
          Arena.writeLink_eq_ok node.inside (by decide)]
        rfl
      · exact back.sentinel_eq
      · refine ⟨node.replaceLink encodable (.inl rfl), relinked.linked back.linked.2 ?_⟩
        intro offset member _ equal
        subst equal
        exact (List.pairwise_cons.mp apart).1 offset member

end Heap

end BuddyHeap
