import BuddyHeap.Proofs.Heap.Listed
import BuddyHeap.Proofs.Memory.Growth

/-! Runs of actions on the free lists alone. Whoever pushes only nodes that lie
apart from those on the lists, and writes to none of these, is answered as by a
table of plain lists. -/

namespace BuddyHeap

inductive ListAction where
  | push (order offset : Nat)
  | pop (order : Nat)
  | remove (order offset : Nat)
  | isEmpty (order : Nat)
  | walk (order : Nat)
  | write (offset : Nat) (content : List UInt8)

inductive ListAnswer where
  | done
  | popped (offset? : Option Nat)
  | removed (found : Bool)
  | empty (holds : Bool)
  | walked (offsets : List Nat)
  deriving DecidableEq

def ListAction.Writes : ListAction → Nat → Prop
  | .write offset content, index => offset ≤ index ∧ index < offset + content.length
  | .push .., _ | .pop _, _ | .remove .., _ | .isEmpty _, _ | .walk _, _ => False

def ListAction.Takes (order offset : Nat) (action : ListAction) (answer : ListAnswer) : Prop :=
  (action = .pop order ∧ answer = .popped (some offset)) ∨
    (action = .remove order offset ∧ answer = .removed true)

/-! ## In memory -/

namespace Heap

def act (heap : Heap) : ListAction → Except Fault (ListAnswer × Heap)
  | .push order offset => return (.done, ← heap.push order offset)
  | .pop order => do
      let (popped?, after) ← heap.pop order
      return (.popped popped?, after)
  | .remove order offset => do
      let (found, after) ← heap.remove order offset
      return (.removed found, after)
  | .isEmpty order => return (.empty (← heap.isListEmpty order), heap)
  | .walk order => return (.walked (← heap.freeList order), heap)
  | .write offset content => return (.done, { heap with arena := heap.arena.overwrite offset content })

def actAll (heap : Heap) : List ListAction → Except Fault (List ListAnswer × Heap)
  | [] => return ([], heap)
  | action :: actions => do
      let (answer, heap) ← heap.act action
      let (answers, heap) ← heap.actAll actions
      return (answer :: answers, heap)

end Heap

/-! ## In the table -/

namespace Listing

def act (listing : Listing) : ListAction → ListAnswer × Listing
  | .push order offset => (.done, listing.push order offset)
  | .pop order =>
      (.popped (listing order).head?, Function.update listing order (listing order).tail)
  | .remove order offset => (.removed (offset ∈ listing order), listing.erase order offset)
  | .isEmpty order => (.empty (listing order).isEmpty, listing)
  | .walk order => (.walked (listing order), listing)
  | .write .. => (.done, listing)

def answers (listing : Listing) : List ListAction → List ListAnswer
  | [] => []
  | action :: actions => (listing.act action).1 :: (listing.act action).2.answers actions

def after (listing : Listing) (actions : List ListAction) : Listing :=
  actions.foldl (fun listing action => (listing.act action).2) listing

/-- The action may be taken in a heap of `size` bytes. What is pushed is a node
inside of it that shares no byte with those on the lists, and neither does what
is written. -/
def Admits (listing : Listing) (size : Nat) : ListAction → Prop
  | .push order offset => (minOrder ≤ order ∧ order < orderBound) ∧ offset + nodeSize ≤ size ∧
      ∀ node, listing.IsNode node → Apart node offset
  | .pop order | .remove order _ | .isEmpty order | .walk order =>
      minOrder ≤ order ∧ order < orderBound
  | .write offset content => ∀ index, offset ≤ index → index < offset + content.length →
      ¬NodeBytes listing.IsNode index

def AdmitsAll (listing : Listing) (size : Nat) : List ListAction → Prop
  | [] => True
  | action :: actions => listing.Admits size action ∧ (listing.act action).2.AdmitsAll size actions

variable {listing : Listing} {order offset : Nat} {rest : List Nat}

theorem erase_first (cons : listing order = offset :: rest) :
    listing.erase order offset = Function.update listing order (listing order).tail := by
  rw [erase, cons, List.erase_cons_head, List.tail_cons]

theorem not_isNode_empty (node : Nat) : ¬Listing.empty.IsNode node := by
  simp [IsNode, empty]

theorem isNode_push (node : Nat) :
    (listing.push order offset).IsNode node ↔ node = offset ∨ listing.IsNode node := by
  simp [IsNode, mem_push, exists_or]

theorem erase_absent (absent : offset ∉ listing order) : listing.erase order offset = listing := by
  rw [erase, List.erase_of_not_mem absent, Function.update_eq_self]

end Listing

namespace Heap

variable {heap : Heap} {listing : Listing} {action : ListAction}

/-- What can be seen of the free lists of the heap is the table. -/
structure Tabulates (heap : Heap) (listing : Listing) : Prop where
  freeList_eq : ∀ order, minOrder ≤ order → order < orderBound →
    heap.freeList order = .ok (listing order)
  isListEmpty_eq : ∀ order, minOrder ≤ order → order < orderBound →
    heap.isListEmpty order = .ok (decide (listing order = []))
  pop_none_iff : ∀ order, minOrder ≤ order → order < orderBound →
    ((∃ after, heap.pop order = .ok (none, after)) ↔ listing order = [])

structure Acted (before : Heap) (listing : Listing) (action : ListAction) (answer : ListAnswer)
    (after : Heap) : Prop where
  answer_eq : answer = (listing.act action).1
  lists : after.Lists (listing.act action).2
  size_eq : after.size = before.size
  cleared : ∀ order offset, action.Takes order offset answer →
    after.arena.readBlock offset = .ok (.free order .unlinked .unlinked)
  unchanged : answer = .removed false → after = before
  /-- No byte has changed but those of nodes and those that were written. -/
  kept : ∀ index, ¬NodeBytes listing.IsNode index →
    ¬NodeBytes (listing.act action).2.IsNode index → ¬action.Writes index →
    after.arena.byte index = before.arena.byte index

namespace Lists

theorem tabulates (lists : heap.Lists listing) : heap.Tabulates listing where
  freeList_eq _ least bounded := lists.freeList_eq ⟨least, bounded⟩
  isListEmpty_eq order least bounded := by
    rw [lists.isListEmpty_eq ⟨least, bounded⟩]
    cases listing order <;> rfl
  pop_none_iff order least bounded := by
    constructor
    · intro holds
      rcases holds with ⟨after, popped⟩
      cases listed : listing order with
      | nil => rfl
      | cons offset rest =>
          cases ((lists.pop_of_cons ⟨least, bounded⟩ listed).post_of_eq popped).1
    · intro empty
      exact ⟨heap, lists.pop_of_nil ⟨least, bounded⟩ empty⟩

theorem acted_of_same {answer : ListAnswer} (lists : heap.Lists listing)
    (answer_eq : answer = (listing.act action).1) (same : (listing.act action).2 = listing)
    (untaken : ∀ order offset, ¬action.Takes order offset answer) :
    Acted heap listing action answer heap where
  answer_eq := answer_eq
  lists := by rwa [same]
  size_eq := rfl
  cleared order offset taken := absurd taken (untaken order offset)
  unchanged _ := rfl
  kept _ _ _ _ := rfl

theorem act_push {order offset : Nat} (lists : heap.Lists listing)
    (admitted : listing.Admits heap.size (.push order offset)) :
    Yields (heap.act (.push order offset)) fun (answer, after) =>
      Acted heap listing (.push order offset) answer after := by
  rcases admitted with ⟨inRange, inside, fresh⟩
  apply Yields.bind (lists.push inRange inside fresh)
  intro after holds
  rcases holds with ⟨afterLists, edited⟩
  exact .ok {
    answer_eq := rfl
    lists := afterLists
    size_eq := edited.size_eq
    cleared := by simp [ListAction.Takes]
    unchanged := by simp
    kept := fun index _ outside _ => edited.agree.byte_eq index outside }

theorem acted_of_taken {answer : ListAnswer} {after : Heap} {order offset : Nat}
    (lists : heap.Lists listing) (member : offset ∈ listing order)
    (answer_eq : answer = (listing.act action).1)
    (erased : (listing.act action).2 = listing.erase order offset)
    (taken : ∀ other place, action.Takes other place answer → other = order ∧ place = offset)
    (found : answer ≠ .removed false) (afterLists : after.Lists (listing.erase order offset))
    (edited : Edited listing.IsNode heap after)
    (node : after.arena.NodeAt offset order .unlinked .unlinked) :
    Acted heap listing action answer after where
  answer_eq := answer_eq
  lists := by rwa [erased]
  size_eq := edited.size_eq
  cleared other place takes := by
    rcases taken other place takes with ⟨rfl, rfl⟩
    exact node.readBlock_eq (lists.bounded member)
  unchanged missed := absurd missed found
  kept index outside _ _ := edited.agree.byte_eq index outside

theorem act_pop {order : Nat} (lists : heap.Lists listing)
    (inRange : minOrder ≤ order ∧ order < orderBound) :
    Yields (heap.act (.pop order)) fun (answer, after) =>
      Acted heap listing (.pop order) answer after := by
  cases listed : listing order with
  | nil =>
      simp only [act, lists.pop_of_nil inRange listed, ok_bind]
      refine .ok (lists.acted_of_same ?_ ?_ ?_)
      · rw [Listing.act, listed]
        rfl
      · rw [Listing.act, listed, List.tail_nil, ← listed, Function.update_eq_self]
      · simp [ListAction.Takes]
  | cons offset rest =>
      have member : offset ∈ listing order := by
        rw [listed]
        exact List.mem_cons_self ..
      apply Yields.bind (lists.pop_of_cons inRange listed)
      intro result holds
      rcases result with ⟨popped?, after⟩
      rcases holds with ⟨popped_eq, afterLists, edited, node⟩
      subst popped_eq
      refine .ok (lists.acted_of_taken member ?_ (Listing.erase_first listed).symm ?_ (by simp)
        afterLists edited node)
      · rw [Listing.act, listed]
        rfl
      · simp +contextual [ListAction.Takes]

theorem act_remove {order offset : Nat} (lists : heap.Lists listing)
    (inRange : minOrder ≤ order ∧ order < orderBound) :
    Yields (heap.act (.remove order offset)) fun (answer, after) =>
      Acted heap listing (.remove order offset) answer after := by
  by_cases member : offset ∈ listing order
  · apply Yields.bind (lists.remove_of_mem inRange member)
    intro result holds
    rcases result with ⟨found, after⟩
    rcases holds with ⟨found_eq, afterLists, edited, node⟩
    subst found_eq
    refine .ok (lists.acted_of_taken member ?_ rfl ?_ (by simp) afterLists edited node)
    · simp [Listing.act, member]
    · simp +contextual [ListAction.Takes]
  · simp only [act, lists.remove_of_not_mem inRange member, ok_bind]
    refine .ok (lists.acted_of_same ?_ (Listing.erase_absent member) ?_)
    · simp [Listing.act, member]
    · simp [ListAction.Takes]

theorem act_write {offset : Nat} {content : List UInt8} (lists : heap.Lists listing)
    (admitted : listing.Admits heap.size (.write offset content)) :
    Yields (heap.act (.write offset content)) fun (answer, after) =>
      Acted heap listing (.write offset content) answer after := by
  have agree := heap.arena.agreeOutside_overwrite content fun index lower upper =>
    (⟨lower, upper⟩ : ListAction.Writes (.write offset content) index)
  refine .ok {
    answer_eq := rfl
    lists := lists.of_byte_eq rfl (Nat.le_of_eq (heap.arena.size_overwrite ..).symm) ?_
    size_eq := heap.arena.size_overwrite ..
    cleared := by simp [ListAction.Takes]
    unchanged := by simp
    kept := fun index _ _ outside => agree.byte_eq index outside }
  intro index bytes
  exact agree.byte_eq index fun writes => admitted index writes.1 writes.2 bytes

theorem act (lists : heap.Lists listing) (admitted : listing.Admits heap.size action) :
    Yields (heap.act action) fun (answer, after) => Acted heap listing action answer after := by
  cases action with
  | push order offset => exact lists.act_push admitted
  | pop order => exact lists.act_pop admitted
  | remove order offset => exact lists.act_remove admitted
  | isEmpty order =>
      simp only [Heap.act, lists.isListEmpty_eq admitted, ok_bind]
      exact .ok (lists.acted_of_same rfl rfl (by simp [ListAction.Takes]))
  | walk order =>
      simp only [Heap.act, lists.freeList_eq admitted, ok_bind]
      exact .ok (lists.acted_of_same rfl rfl (by simp [ListAction.Takes]))
  | write offset content => exact lists.act_write admitted

theorem actAll (lists : heap.Lists listing) (actions : List ListAction)
    (admitted : listing.AdmitsAll heap.size actions) :
    Yields (heap.actAll actions) fun (answers, after) =>
      answers = listing.answers actions ∧ after.Lists (listing.after actions) ∧
        after.size = heap.size := by
  induction actions generalizing heap listing with
  | nil => exact .ok ⟨rfl, lists, rfl⟩
  | cons action actions induction =>
      apply Yields.bind (lists.act admitted.1)
      intro result acted
      rcases result with ⟨answer, middle⟩
      have later : (listing.act action).2.AdmitsAll middle.size actions := by
        rw [acted.size_eq]
        exact admitted.2
      apply Yields.bind (induction acted.lists later)
      intro result holds
      rcases result with ⟨answers, after⟩
      rcases holds with ⟨answers_eq, afterLists, size_eq⟩
      refine .ok ⟨?_, afterLists, size_eq.trans acted.size_eq⟩
      simp only [answers_eq, acted.answer_eq, Listing.answers]

end Lists

/-- The free lists of a new heap, whatever its memory holds, are a table of
lists: every run of actions is answered as by the table, without a fault, and
ends in memory that shows the table and can take any further action. -/
theorem acts_as_listing (arena : Arena) (actions : List ListAction)
    (admitted : Listing.empty.AdmitsAll arena.size actions) :
    ∃ after, (ofArena arena).actAll actions = .ok (Listing.empty.answers actions, after) ∧
      after.Tabulates (Listing.empty.after actions) ∧
      ∀ action, (Listing.empty.after actions).Admits arena.size action →
        ∃ answer next, after.act action = .ok (answer, next) ∧
          Acted after (Listing.empty.after actions) action answer next := by
  rcases (lists_ofArena arena).actAll actions admitted with
    ⟨⟨answers, after⟩, acted, answers_eq, lists, size_eq⟩
  subst answers_eq
  refine ⟨after, acted, lists.tabulates, ?_⟩
  intro action admitted
  have size_eq : after.size = arena.size := size_eq
  rw [← size_eq] at admitted
  rcases lists.act admitted with ⟨⟨answer, next⟩, next_eq, outcome⟩
  exact ⟨answer, next, next_eq, outcome⟩

/-- A list that is cut in its middle, with bytes written between its nodes. -/
theorem acts_as_listing_of_middle :
    Listing.empty.AdmitsAll Arena.chunk.size [.push 6 0, .push 6 128, .push 6 256,
      .write 24 [1, 2], .remove 6 128, .pop 6, .walk 6] ∧
    ∃ after, (ofArena .chunk).actAll [.push 6 0, .push 6 128, .push 6 256, .write 24 [1, 2],
        .remove 6 128, .pop 6, .walk 6] =
      .ok ([.done, .done, .done, .done, .removed true, .popped (some 256), .walked [0]], after) ∧
      after.freeList 6 = .ok [0] := by
  have admitted : Listing.empty.AdmitsAll Arena.chunk.size [.push 6 0, .push 6 128, .push 6 256,
      .write 24 [1, 2], .remove 6 128, .pop 6, .walk 6] := by
    have inside (offset : Nat) (small : offset ≤ 256) : offset + nodeSize ≤ Arena.chunk.size := by
      rw [Arena.size_chunk]
      simp only [nodeSize, maxBlockSize]
      omega
    refine ⟨⟨by decide, inside 0 (by decide), ?_⟩, ⟨by decide, inside 128 (by decide), ?_⟩,
      ⟨by decide, inside 256 (by decide), ?_⟩, ?_, (by decide : minOrder ≤ 6 ∧ 6 < orderBound),
      (by decide : minOrder ≤ 6 ∧ 6 < orderBound), (by decide : minOrder ≤ 6 ∧ 6 < orderBound),
      trivial⟩
    · simp [Listing.not_isNode_empty]
    · simp [Listing.act, Listing.isNode_push, Listing.not_isNode_empty, Apart, nodeSize]
    · simp [Listing.act, Listing.isNode_push, Listing.not_isNode_empty, Apart, nodeSize]
    · intro index lower upper bytes
      rcases bytes with ⟨node, isNode, above, below⟩
      simp [Listing.act, Listing.isNode_push, Listing.not_isNode_empty] at isNode
      simp only [List.length_cons, List.length_nil, nodeSize] at upper below
      omega
  rcases acts_as_listing .chunk _ admitted with ⟨after, acted, tabulates, _⟩
  exact ⟨admitted, after, acted, tabulates.freeList_eq 6 (by decide) (by decide)⟩

end Heap

end BuddyHeap
