import BuddyHeap.Heap.Buddies
import BuddyHeap.Proofs.Foundation.Yields
import BuddyHeap.Proofs.Memory.Requests
import BuddyHeap.Proofs.Memory.Words

/-! Shrinking a block where it is. Cutting it in two steps frees the same halves
as cutting it at once. The header that is written in between is seen by nobody,
since pushing a block asks the sentinels only, and is overwritten in the end. -/

namespace BuddyHeap

/-! ## Memory that differs in places -/

structure Arena.SameBut (Changed : Nat → Prop) (left right : Arena) : Prop where
  size_eq : right.size = left.size
  agree : AgreeOutside Changed left right

structure Heap.SameBut (Changed : Nat → Prop) (left right : Heap) : Prop where
  arena : Arena.SameBut Changed left.arena right.arena
  sentinels_eq : right.sentinels = left.sentinels

namespace Arena.SameBut

variable {Changed Larger : Nat → Prop} {left right : Arena} {offset : Nat} {word : UInt64}

theorem mono (same : SameBut Changed left right)
    (larger : ∀ index, Changed index → Larger index) : SameBut Larger left right :=
  ⟨same.size_eq, same.agree.mono larger⟩

theorem writeWord_covering (same : SameBut Changed left right) :
    Simulates (SameBut fun index => Changed index ∧ ¬(offset ≤ index ∧ index < offset + 8))
      (left.writeWord offset word) (right.writeWord offset word) := by
  intro after written
  rcases eq_of_writeWord written with ⟨inside, rfl⟩
  have otherInside : offset + 8 ≤ right.size := by rwa [same.size_eq]
  refine .of_eq (writeWord_eq_ok otherInside word) ⟨?_, same.agree.replaceWord same.size_eq inside word⟩
  rw [size_replaceWord, size_replaceWord, same.size_eq]

theorem writeWord (same : SameBut Changed left right) :
    Simulates (SameBut Changed) (left.writeWord offset word) (right.writeWord offset word) :=
  fun after written => (same.writeWord_covering after written).mono fun _ covering =>
    covering.mono fun _ changed => changed.1

theorem writePrevious (same : SameBut Changed left right) (link : Link) :
    Simulates (SameBut Changed) (left.writePrevious offset link)
      (right.writePrevious offset link) :=
  .bind_same fun _ => same.writeWord

theorem writeFollowing (same : SameBut Changed left right) (link : Link) :
    Simulates (SameBut Changed) (left.writeFollowing offset link)
      (right.writeFollowing offset link) :=
  .bind_same fun _ => same.writeWord

theorem writeBlock (same : SameBut Changed left right) (block : Block) :
    Simulates (SameBut Changed) (left.writeBlock offset block) (right.writeBlock offset block) := by
  cases block with
  | allocated header => exact same.writeWord
  | free order previous following =>
      apply Simulates.bind same.writeWord
      intro left right same
      apply Simulates.bind (same.writePrevious previous)
      intro left right same
      exact same.writeFollowing following

end Arena.SameBut

namespace Heap

namespace SameBut

variable {Changed : Nat → Prop} {left right : Heap} {index : Fin freeListCount} {node link : Link}
  {order offset target : Nat}

theorem eq_of_none (same : SameBut Changed left right) (none : ∀ index, ¬Changed index) :
    right = left := by
  have arena_eq := same.arena.agree.eq_of_none same.arena.size_eq none
  have sentinels_eq := same.sentinels_eq
  cases left
  cases right
  subst arena_eq sentinels_eq
  rfl

theorem replaceArena {leftArena rightArena : Arena} (same : SameBut Changed left right)
    (arena : Arena.SameBut Changed leftArena rightArena) :
    SameBut Changed { left with arena := leftArena } { right with arena := rightArena } :=
  ⟨arena, same.sentinels_eq⟩

theorem writeBlock (same : SameBut Changed left right) (block : Block) :
    Simulates (SameBut Changed) (left.writeBlock offset block) (right.writeBlock offset block) := by
  apply Simulates.bind (same.arena.writeBlock block)
  intro leftArena rightArena arena
  exact .ok (same.replaceArena arena)

theorem writeHeader (same : SameBut Changed left right) (header : Header) :
    Simulates (SameBut fun index => Changed index ∧ ¬(offset ≤ index ∧ index < offset + 8))
      (left.writeBlock offset (.allocated header)) (right.writeBlock offset (.allocated header)) := by
  apply Simulates.bind same.arena.writeWord_covering
  intro leftArena rightArena arena
  exact .ok ⟨arena, same.sentinels_eq⟩

theorem of_writeHeader {heap after : Heap} {header : Header}
    (written : heap.writeBlock offset (.allocated header) = .ok after) :
    SameBut (fun index => offset ≤ index ∧ index < offset + 8) after heap := by
  rcases exists_of_bind_eq_ok written with ⟨arena, arena_eq, equal⟩
  cases equal
  rcases Arena.eq_of_writeWord arena_eq with ⟨_, rfl⟩
  have agree := heap.arena.agreeOutside_replaceWord header.encode fun index lower upper =>
    (⟨lower, upper⟩ : offset ≤ index ∧ index < offset + 8)
  exact ⟨⟨(Arena.size_replaceWord ..).symm, agree.symm⟩, rfl⟩

theorem setPrevious (same : SameBut Changed left right) :
    Simulates (SameBut Changed) (left.setPrevious index node link)
      (right.setPrevious index node link) := by
  cases node with
  | unlinked => exact .error _ _
  | sentinel =>
      simp only [Heap.setPrevious, same.sentinels_eq]
      exact .ok ⟨same.arena, rfl⟩
  | block offset =>
      apply Simulates.bind (same.arena.writePrevious link)
      intro leftArena rightArena arena
      exact .ok (same.replaceArena arena)

theorem setFollowing (same : SameBut Changed left right) :
    Simulates (SameBut Changed) (left.setFollowing index node link)
      (right.setFollowing index node link) := by
  cases node with
  | unlinked => exact .error _ _
  | sentinel =>
      simp only [Heap.setFollowing, same.sentinels_eq]
      exact .ok ⟨same.arena, rfl⟩
  | block offset =>
      apply Simulates.bind (same.arena.writeFollowing link)
      intro leftArena rightArena arena
      exact .ok (same.replaceArena arena)

theorem push (same : SameBut Changed left right) :
    Simulates (SameBut Changed) (left.push order offset) (right.push order offset) := by
  simp only [Heap.push, same.sentinels_eq]
  apply Simulates.bind_same
  intro index
  apply Simulates.bind (same.writeBlock _)
  intro left right same
  apply Simulates.bind same.setPrevious
  intro left right same
  exact same.setFollowing

theorem split (same : SameBut Changed left right) :
    Simulates (SameBut Changed) (left.split offset target order).outcome
      (right.split offset target order).outcome := by
  induction order generalizing left right with
  | zero => exact .ok same
  | succ order induction =>
      by_cases further : target ≤ order
      · simp only [Heap.split, if_pos further, Traced.outcome_bind, Traced.outcome_lift,
          Traced.outcome_record]
        apply Simulates.bind_same
        intro size
        apply Simulates.bind_same
        intro upper
        apply Simulates.bind same.push
        intro left right same
        exact induction same
      · simp only [Heap.split, if_neg further]
        exact .ok same

end SameBut

/-! ## Cutting in steps -/

theorem split_self (heap : Heap) (offset order : Nat) : heap.split offset order order = pure heap := by
  cases order with
  | zero => rfl
  | succ order => exact if_neg (Nat.not_succ_le_self order)

/-- A block is cut to an order by way of any order in between. -/
theorem split_eq_bind (heap : Heap) (offset : Nat) {target middle order : Nat}
    (upper : target ≤ middle) (reached : middle ≤ order) :
    heap.split offset target order =
      heap.split offset middle order >>= fun heap => heap.split offset target middle := by
  induction order generalizing heap with
  | zero =>
      cases Nat.le_zero.mp reached
      rw [split_self, pure_bind]
  | succ order induction =>
      rcases Nat.eq_or_lt_of_le reached with rfl | less
      · rw [split_self, pure_bind]
      · have further : middle ≤ order := Nat.le_of_lt_succ less
        simp only [split, if_pos further, if_pos (Nat.le_trans upper further), bind_assoc,
          induction _ further]

theorem split_eq_ite {offset order target : Nat} (heap : Heap) (reached : target ≤ order) :
    heap.split offset target order =
      if target < order then heap.split offset target order else pure heap := by
  rcases Nat.eq_or_lt_of_le reached with rfl | less
  · rw [if_neg (Nat.lt_irrefl _), split_self]
  · rw [if_pos less]

/-! ## Shrinking -/

def shrink (heap : Heap) (offset order size : Nat) : Except Fault Heap := do
  let heap ← (heap.split offset (requestOrder size) order).outcome
  heap.writeBlock offset (.allocated (Allocation.ofRequest size).header)

/-- Of two steps the first leaves nothing behind. -/
theorem shrink_shrink {heap middle after : Heap} {offset order size smaller : Nat}
    (reached : requestOrder size ≤ order) (further : requestOrder smaller ≤ requestOrder size)
    (first : heap.shrink offset order size = .ok middle)
    (second : middle.shrink offset (requestOrder size) smaller = .ok after) :
    heap.shrink offset order smaller = .ok after := by
  rcases exists_of_bind_eq_ok first with ⟨cut, cut_eq, written⟩
  rcases exists_of_bind_eq_ok second with ⟨cutAgain, cutAgain_eq, writtenAgain⟩
  rcases (SameBut.of_writeHeader written).split cutAgain cutAgain_eq with ⟨direct, direct_eq, same⟩
  rcases same.writeHeader _ after writtenAgain with ⟨other, other_eq, equal⟩
  have whole : (heap.split offset (requestOrder smaller) order).outcome = .ok direct := by
    rw [split_eq_bind heap offset further reached, Traced.outcome_bind, cut_eq, ok_bind, direct_eq]
  rw [shrink, whole, ok_bind, other_eq, equal.eq_of_none fun index changed => changed.2 changed.1]

end Heap

end BuddyHeap
