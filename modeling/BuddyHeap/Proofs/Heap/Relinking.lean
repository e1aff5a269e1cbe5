import BuddyHeap.Proofs.Heap.Rings

/-! Pushing a block onto a ring and taking one out of it. -/

namespace BuddyHeap

namespace Heap

variable {heap : Heap} {index : Fin freeListCount} {order offset : Nat}
  {offsets left right : List Nat}

/-! ## Pushing -/

def formatNode (heap : Heap) (offset order : Nat) (previous following : Link) : Heap :=
  { heap with arena := heap.arena.formatNode offset order previous following }

theorem writeBlock_free_eq_ok (inside : offset + nodeSize ≤ heap.arena.size) (order : Nat)
    (previous following : Link) :
    heap.writeBlock offset (.free order previous following) =
      .ok (heap.formatNode offset order previous following) := by
  rw [writeBlock, heap.arena.writeBlock_free_eq_ok inside]
  rfl

theorem relinked_formatNode (heap : Heap) (index : Fin freeListCount) (offset order : Nat)
    (previous following : Link) :
    Relinked index (· = offset) heap (heap.formatNode offset order previous following) where
  size_eq := heap.arena.size_formatNode ..
  agree := heap.arena.agreeOutside_formatNode (· = offset) rfl order previous following
  sentinel_eq _ _ := rfl

theorem Ring.push (ring : heap.Ring index order offsets) (index_eq : freeListIndex order = .ok index)
    (apart : (offset :: offsets).Pairwise Apart) (inside : offset + nodeSize ≤ heap.arena.size) :
    Yields (heap.push order offset) fun after =>
      after.Ring index order (offset :: offsets) ∧
        Relinked index (· ∈ offset :: offsets) heap after := by
  have parts := List.pairwise_cons.mp apart
  have firstEncodable : (firstLink .sentinel offsets).Encodable :=
    ring.linked.encodable_firstLink trivial
  let first := firstLink .sentinel offsets
  have formatting := heap.relinked_formatNode index offset order .sentinel first
  have node : (heap.formatNode offset order .sentinel first).arena.NodeAt offset order .sentinel
      first := Arena.nodeAt_formatNode inside trivial firstEncodable
  have back : (heap.formatNode offset order .sentinel first).Back index order offsets .sentinel :=
    ⟨ring.previous_eq, formatting.linked ring.linked fun node member _ equal =>
      equal ▸ parts.1 node member⟩
  have unfolded : heap.push order offset = (do
      let formatted ← heap.writeBlock offset (.free order .sentinel first)
      let linked ← formatted.setPrevious index first (.block offset)
      linked.setFollowing index .sentinel (.block offset)) := by
    rw [Heap.push, index_eq]
    show _ = _
    rw [show first = (heap.sentinel index).following from ring.following_eq.symm]
    rfl
  rw [unfolded]
  apply Yields.bind (.of_eq (writeBlock_free_eq_ok inside ..) rfl)
  intro _ equal
  subst equal
  apply Yields.bind (back.setPrevious parts.2 (heap.arena.encodable_of_inside inside))
  intro linked holds
  rcases holds with ⟨linkedBack, linking, _⟩
  have front : linked.Front index order [] (linked.sentinel index).following := ⟨rfl, trivial⟩
  apply Yields.mono (front.setFollowing .nil (heap.arena.encodable_of_inside inside))
  intro after holds
  rcases holds with ⟨afterFront, closing, previous_eq⟩
  have afterNode : after.arena.Linked order first .sentinel [offset] :=
    closing.linked (linking.linked ⟨node, trivial⟩ (by simpa using fun node member =>
      (parts.1 node member).symm)) (by simp)
  constructor
  · rw [← List.singleton_append, ring_append_iff]
    exact ⟨⟨afterFront.sentinel_eq, afterNode⟩,
      ⟨previous_eq.trans linkedBack.sentinel_eq, closing.linked linkedBack.linked (by simp)⟩⟩
  · exact ((formatting.mono (by simp)).trans (linking.mono fun _ => List.mem_cons_of_mem _)).trans
      (closing.mono (by simp))

/-! ## Taking out -/

theorem Ring.bypass (ring : heap.Ring index order (left ++ offset :: right))
    (apart : (left ++ offset :: right).Pairwise Apart) :
    Yields (do
      let forward ← heap.setFollowing index (lastLink .sentinel left) (firstLink .sentinel right)
      forward.setPrevious index (firstLink .sentinel right) (lastLink .sentinel left)) fun after =>
      after.Ring index order (left ++ right) ∧ Relinked index (· ∈ left ++ right) heap after ∧
        after.arena.NodeAt offset order (lastLink .sentinel left) (firstLink .sentinel right) := by
  rcases List.pairwise_append.mp apart with ⟨leftApart, restApart, acrossApart⟩
  rcases List.pairwise_cons.mp restApart with ⟨offsetApart, rightApart⟩
  have leftOffset : ∀ node ∈ left, Apart node offset := fun node member =>
    acrossApart node member offset (List.mem_cons_self ..)
  have leftRight : ∀ first ∈ left, ∀ second ∈ right, Apart first second := fun first member second
    other => acrossApart first member second (List.mem_cons_of_mem _ other)
  rcases ring_append_iff.mp ring with ⟨front, back⟩
  have previousEncodable : (lastLink .sentinel left).Encodable :=
    front.linked.encodable_lastLink trivial
  have followingEncodable : (firstLink .sentinel right).Encodable :=
    back.linked.2.encodable_firstLink trivial
  apply Yields.bind (front.setFollowing leftApart followingEncodable)
  intro forward holds
  rcases holds with ⟨forwardFront, forwardEdit, forwardPrevious⟩
  have forwardBack : forward.Back index order right (.block offset) :=
    ⟨forwardPrevious.trans back.sentinel_eq, forwardEdit.linked back.linked.2
      fun second other first member => leftRight first member second other⟩
  apply Yields.mono (forwardBack.setPrevious rightApart previousEncodable)
  intro after holds
  rcases holds with ⟨afterBack, backwardEdit, afterFollowing⟩
  have afterFront : after.Front index order left (firstLink .sentinel right) :=
    ⟨afterFollowing.trans forwardFront.sentinel_eq, backwardEdit.linked forwardFront.linked
      fun first member second other => (leftRight first member second other).symm⟩
  have afterNode : after.arena.Linked order (firstLink .sentinel right) (lastLink .sentinel left)
      [offset] :=
    backwardEdit.linked (forwardEdit.linked ⟨back.linked.1, trivial⟩ (by simpa using leftOffset))
      (by simpa using fun second member => (offsetApart second member).symm)
  exact ⟨ring_append_iff.mpr ⟨afterFront, afterBack⟩,
    (forwardEdit.mono (by simp +contextual)).trans (backwardEdit.mono (by simp +contextual)),
    afterNode.1⟩

theorem clearNode {previous following : Link}
    (node : heap.arena.NodeAt offset order previous following) (index : Fin freeListCount) :
    Yields (do
      let arena ← heap.arena.writePrevious offset .unlinked
      let arena ← arena.writeFollowing offset .unlinked
      return { heap with arena }) fun after =>
      Relinked index (· = offset) heap after ∧ after.sentinels = heap.sentinels ∧
        after.arena.NodeAt offset order .unlinked .unlinked := by
  let halfway : Heap :=
    { heap with arena := heap.arena.replaceWord (offset + 8) Link.unlinked.encode }
  have halfwayNode : halfway.arena.NodeAt offset order .unlinked following :=
    node.replaceLink trivial (.inl rfl)
  apply Yields.bind (.of_eq (Arena.writeLink_eq_ok node.inside (by decide) _) rfl)
  intro _ equal
  subst equal
  apply Yields.bind (.of_eq (Arena.writeLink_eq_ok halfwayNode.inside (by decide) _) rfl)
  intro _ equal
  subst equal
  exact .ok ⟨(heap.relinked_replaceWord (· = offset) rfl 8 (by decide) _).trans
    (halfway.relinked_replaceWord (· = offset) rfl 16 (by decide) _), rfl,
    halfwayNode.replaceLink trivial (.inr rfl)⟩

theorem Ring.unlink (ring : heap.Ring index order (left ++ offset :: right))
    (apart : (left ++ offset :: right).Pairwise Apart) (bounded : order < 16) :
    Yields (heap.unlink index offset) fun after =>
      after.Ring index order (left ++ right) ∧
        Relinked index (· ∈ left ++ offset :: right) heap after ∧
        after.arena.NodeAt offset order .unlinked .unlinked := by
  have node : heap.arena.NodeAt offset order (lastLink .sentinel left) (firstLink .sentinel right) :=
    (ring_append_iff.mp ring).2.linked.1
  have unfolded : heap.unlink index offset = (do
      let forward ← heap.setFollowing index (lastLink .sentinel left) (firstLink .sentinel right)
      let backward ← forward.setPrevious index (firstLink .sentinel right) (lastLink .sentinel left)
      let arena ← backward.arena.writePrevious offset .unlinked
      let arena ← arena.writeFollowing offset .unlinked
      return { backward with arena }) := by
    rw [Heap.unlink, node.readBlock_eq bounded]
    rfl
  rw [unfolded, ← bind_assoc]
  apply Yields.bind (ring.bypass apart)
  intro bypassed holds
  rcases holds with ⟨bypassedRing, bypassing, bypassedNode⟩
  apply Yields.mono (clearNode bypassedNode index)
  intro after holds
  rcases holds with ⟨clearing, sentinels_eq, afterNode⟩
  have elsewhere : ∀ other, other ∈ left ++ right → Apart offset other :=
    (List.pairwise_cons.mp ((List.pairwise_middle Apart.symm).mp apart)).1
  refine ⟨clearing.toEdited.ring bypassedRing (congrArg (·.get index) sentinels_eq) ?_,
    (bypassing.mono ?_).trans (clearing.mono (by simp)), afterNode⟩
  · intro other member _ equal
    subst equal
    exact elsewhere other member
  · intro other member
    rcases List.mem_append.mp member with before | behind
    · exact List.mem_append_left _ before
    · exact List.mem_append_right _ (List.mem_cons_of_mem _ behind)

end Heap

end BuddyHeap
