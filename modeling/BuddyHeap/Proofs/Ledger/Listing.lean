import Mathlib.Logic.Function.Basic
import BuddyHeap.Memory.Order
import BuddyHeap.Proofs.Memory.Nodes

/-! Which blocks are on which free list, without the memory that links them. -/

namespace BuddyHeap

/-- For every order the offsets of the blocks on its list, from the first on. -/
abbrev Listing := Nat → List Nat

namespace Listing

def empty : Listing := fun _ => []

def push (listing : Listing) (order offset : Nat) : Listing :=
  Function.update listing order (offset :: listing order)

def erase (listing : Listing) (order offset : Nat) : Listing :=
  Function.update listing order ((listing order).erase offset)

def IsNode (listing : Listing) (offset : Nat) : Prop := ∃ order, offset ∈ listing order

variable {listing : Listing} {order other offset node : Nat}

@[simp] theorem push_same (listing : Listing) (order offset : Nat) :
    listing.push order offset order = offset :: listing order := Function.update_self ..

theorem push_other (listing : Listing) (offset : Nat) (different : other ≠ order) :
    listing.push order offset other = listing other := Function.update_of_ne different ..

@[simp] theorem erase_same (listing : Listing) (order offset : Nat) :
    listing.erase order offset order = (listing order).erase offset := Function.update_self ..

theorem erase_other (listing : Listing) (offset : Nat) (different : other ≠ order) :
    listing.erase order offset other = listing other := Function.update_of_ne different ..

theorem mem_push : node ∈ listing.push order offset other ↔
    (other = order ∧ node = offset) ∨ node ∈ listing other := by
  by_cases same : other = order
  · subst same
    simp
  · simp [push_other listing offset same, same]

theorem mem_of_mem_erase (member : node ∈ listing.erase order offset other) :
    node ∈ listing other := by
  by_cases same : other = order
  · subst same
    rw [erase_same] at member
    exact List.mem_of_mem_erase member
  · rwa [erase_other listing offset same] at member

theorem mem_erase (nodup : (listing order).Nodup) : node ∈ listing.erase order offset other ↔
    node ∈ listing other ∧ ¬(other = order ∧ node = offset) := by
  by_cases same : other = order
  · subst same
    rw [erase_same, nodup.mem_erase_iff]
    simp only [true_and]
    exact and_comm
  · simp [erase_other listing offset same, same]

structure Separate (listing : Listing) : Prop where
  within : ∀ order, (listing order).Pairwise Apart
  across : ∀ left right, left ≠ right → ∀ first ∈ listing left, ∀ second ∈ listing right,
    Apart first second
  in_range : ∀ order, ∀ offset ∈ listing order, minOrder ≤ order ∧ order < orderBound

namespace Separate

theorem nodup (separate : listing.Separate) (order : Nat) : (listing order).Nodup :=
  (separate.within order).imp fun apart => apart.ne

theorem push (separate : listing.Separate) (inRange : minOrder ≤ order ∧ order < orderBound)
    (fresh : ∀ node, listing.IsNode node → Apart node offset) :
    (listing.push order offset).Separate where
  within other := by
    by_cases same : other = order
    · subst same
      rw [push_same, List.pairwise_cons]
      exact ⟨fun node member => (fresh node ⟨other, member⟩).symm, separate.within other⟩
    · rw [push_other listing offset same]
      exact separate.within other
  across left right different first firstMember second secondMember := by
    rcases mem_push.mp firstMember with ⟨rfl, rfl⟩ | firstOld
    · rcases mem_push.mp secondMember with ⟨rfl, rfl⟩ | secondOld
      · exact absurd rfl different
      · exact (fresh second ⟨right, secondOld⟩).symm
    · rcases mem_push.mp secondMember with ⟨rfl, rfl⟩ | secondOld
      · exact fresh first ⟨left, firstOld⟩
      · exact separate.across left right different first firstOld second secondOld
  in_range other node member := by
    rcases mem_push.mp member with ⟨rfl, rfl⟩ | member
    · exact inRange
    · exact separate.in_range other node member

theorem erase (separate : listing.Separate) (order offset : Nat) :
    (listing.erase order offset).Separate where
  within other := by
    by_cases same : other = order
    · subst same
      rw [erase_same]
      exact (separate.within other).sublist List.erase_sublist
    · rw [erase_other listing offset same]
      exact separate.within other
  across left right different first firstMember second secondMember :=
    separate.across left right different first (mem_of_mem_erase firstMember) second
      (mem_of_mem_erase secondMember)
  in_range other node member := separate.in_range other node (mem_of_mem_erase member)

theorem empty : Listing.empty.Separate where
  within _ := .nil
  across _ _ _ _ member := absurd member List.not_mem_nil
  in_range _ _ member := absurd member List.not_mem_nil

end Separate

end Listing

end BuddyHeap
