import BuddyHeap.Proofs.Allocator.Resizing
import BuddyHeap.Proofs.Heap.Visiting
import BuddyHeap.Proofs.Memory.Acceptance
import BuddyHeap.Proofs.Memory.Growth

/-! What an address that validation accepts can lead to. The memory may hold
anything: the block that the header claims lies in the heap, with every buddy
that its release may come to, and resizing it copies nothing from elsewhere. -/

namespace BuddyHeap

namespace Allocator

variable {allocator : Allocator} {address : Int} {offset : Nat} {header : Header}

/-! ## Another way to copy -/

variable {copy : Arena → Nat → Nat → Nat → Except Fault Arena}

/-- Which way bytes are copied matters for the payload alone. -/
theorem moveBy_eq_move (added : Size.add offset headerSize = .ok (offset + headerSize))
    (same : ∀ arena target, copy arena (offset + headerSize) target header.requested.toNat =
      arena.copy (offset + headerSize) target header.requested.toNat) (size : Nat) :
    allocator.moveBy copy offset header size = allocator.move offset header size := by
  simp only [move, moveBy]
  congr 1
  funext result
  rcases result with ⟨acquired, after⟩
  cases acquired with
  | error failure => rfl
  | ok address => simp only [added, Traced.lift_ok, pure_bind, same]

theorem resizeBy_eq_resize (validated : allocator.validated address = .ok (offset, header))
    (same : ∀ size, allocator.moveBy copy offset header size = allocator.move offset header size)
    (size : Nat) :
    allocator.resizeBy copy (some address) size = allocator.resize (some address) size := by
  by_cases zero : size = 0
  · simp only [resize, resizeBy, if_pos zero]
  · cases request : checkRequest size with
    | error failure => simp only [resize, resizeBy, if_neg zero, request]
    | ok requested =>
        simp only [resize, resizeBy, moveBy_copy, if_neg zero, request, validated, Traced.lift_ok,
          pure_bind, same]

/-! ## What is accepted -/

/-- The block that an address was accepted for stays to itself. -/
structure Confined (allocator : Allocator) (address : Int) (offset : Nat) (header : Header) :
    Prop where
  served : ∃ capacity, payloadCapacity header.order = .ok capacity ∧
    header.requested.toNat ≤ capacity
  inside : offset + 2 ^ header.order ≤ allocator.heap.size
  buddy_inside : ∀ level, header.order ≤ level → level < topOrder →
    (offset / 2 ^ level * 2 ^ level ^^^ 2 ^ level) + 2 ^ level ≤ allocator.heap.size
  /-- Every buddy that the release of the block asks for lies in the heap. -/
  visited_inside : ∀ heap place level, allocator.heap.Visits offset header.order heap place level →
    place = offset / 2 ^ level * 2 ^ level ∧
      (level < topOrder → (place ^^^ 2 ^ level) + 2 ^ level ≤ heap.size) ∧
      (allocator.release address).outcome = (heap.coalesce place level).outcome.map fun freed =>
        { heap := freed, config := allocator.config }
  /-- Resizing the block does not depend on what copying from elsewhere does. -/
  copies_payload : ∀ copy : Arena → Nat → Nat → Nat → Except Fault Arena,
    (∀ arena source target count, offset + headerSize ≤ source →
      source + count ≤ offset + 2 ^ header.order →
      copy arena source target count = arena.copy source target count) →
    ∀ size, allocator.resizeBy copy (some address) size = allocator.resize (some address) size

theorem release_outcome (validated : allocator.validated address = .ok (offset, header)) :
    (allocator.release address).outcome = (allocator.heap.coalesce offset header.order).outcome.map
      fun freed => { heap := freed, config := allocator.config } := by
  simp only [release, Traced.outcome_bind, Traced.outcome_lift, Traced.outcome_record, validated,
    ok_bind, map_eq_bind]
  rfl

theorem confined (accepted : allocator.heap.arena.check address = .ok (.ok (offset, header))) :
    allocator.Confined address offset header := by
  have endorses := (Arena.check_eq_ok_iff.mp accepted).2
  have validated := validated_of_check accepted
  have range := endorses.order_range
  have order_le : header.order ≤ topOrder := Nat.le_of_lt_succ range.2
  have small : header.order < 64 := Nat.lt_trans range.2 (by decide)
  have start : offset < allocator.heap.size := Nat.lt_of_add_right_lt endorses.inside
  have whole := allocator.heap.arena.whole_blocks
  have aligned : Span.Aligned ⟨offset, header.order⟩ := endorses.aligned
  have room := endorses.room
  have inside : offset + 2 ^ header.order ≤ allocator.heap.size :=
    aligned.stop_le ((Nat.pow_dvd_pow 2 order_le).trans whole) start
  refine ⟨⟨_, payloadCapacity_eq_ok range.1 small, by omega⟩, inside, ?_, ?_, ?_⟩
  · intro level _ below
    have around : Span.Aligned ⟨offset / 2 ^ level * 2 ^ level, level⟩ := Nat.dvd_mul_left ..
    have aroundStart : offset / 2 ^ level * 2 ^ level < allocator.heap.size :=
      Nat.lt_of_le_of_lt (Nat.div_mul_le_self ..) start
    exact around.buddy_stop_le below whole aroundStart
  · intro heap place level visits
    rcases visits.around aligned order_le with ⟨_, placeAligned, within⟩
    refine ⟨placeAligned.offset_eq within.covers_offset, ?_, ?_⟩
    · intro below
      rw [visits.size_eq]
      exact placeAligned.buddy_stop_le below whole (Nat.lt_of_le_of_lt within.1 start)
    · rw [release_outcome validated, visits.coalesce_eq]
  · intro copy same
    have added : Size.add offset headerSize = .ok (offset + headerSize) :=
      allocator.heap.arena.add_eq_ok_of_inside endorses.inside.le
    refine resizeBy_eq_resize validated (moveBy_eq_move added ?_)
    intro arena target
    exact same arena _ target _ (Nat.le_refl _) (by omega)

/-- Validation never meets a fault, and accepts what it documents and nothing
else, in whatever memory. What it accepts stays to itself. -/
theorem check_decides_accepts (allocator : Allocator) (address : Int) :
    (∃ verdict, allocator.heap.arena.check address = .ok verdict) ∧
      ∀ offset header,
        (allocator.heap.arena.check address = .ok (.ok (offset, header)) ↔
          allocator.heap.arena.Accepts address offset header) ∧
        (allocator.heap.arena.Accepts address offset header →
          allocator.Confined address offset header) := by
  refine ⟨allocator.heap.arena.exists_verdict address, ?_⟩
  intro offset header
  refine ⟨Arena.check_eq_ok_iff_accepts, ?_⟩
  intro accepts
  exact confined (Arena.check_eq_ok_iff_accepts.mpr accepts)

/-- A header amid memory that is empty otherwise, with free lists that lead
nowhere. -/
theorem check_decides_accepts_of_header :
    ∃ allocator : Allocator, allocator.heap.sentinels = Vector.replicate _ ⟨.unlinked, .block 1⟩ ∧
      allocator.heap.arena.Accepts 72 64 (Allocation.ofRequest 40).header ∧
      allocator.Confined 72 64 (Allocation.ofRequest 40).header := by
  let arena := Arena.chunk.replaceWord 64 (Allocation.ofRequest 40).header.encode
  let allocator : Allocator := ⟨⟨arena, Vector.replicate _ ⟨.unlinked, .block 1⟩⟩, .default⟩
  have fits : (Allocation.ofRequest 40).Fits :=
    Allocation.fits_ofRequest (by decide) (by decide)
  have size_eq : Arena.chunk.size = 16384 := Arena.size_chunk
  have inside : 64 + 8 < arena.size := by
    simp only [arena, Arena.size_replaceWord, size_eq]
    decide
  have accepted : allocator.heap.arena.check 72 =
      .ok (.ok (64, (Allocation.ofRequest 40).header)) :=
    Arena.check_eq_ok inside fits (by decide) (Arena.word_replaceWord_self (by omega) _)
  rcases check_decides_accepts allocator 72 with ⟨_, holds⟩
  rcases holds 64 (Allocation.ofRequest 40).header with ⟨iff, confined⟩
  exact ⟨allocator, rfl, iff.mp accepted, confined (iff.mp accepted)⟩

end Allocator

end BuddyHeap
