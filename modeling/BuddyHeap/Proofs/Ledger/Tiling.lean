import BuddyHeap.Proofs.Ledger.Spans

/-! Tilings of a heap by aligned spans, each of which has one use. They arise
from each other by replacing what lies in one stretch of the heap. -/

namespace BuddyHeap

inductive Use where
  | free
  | allocated (requested : Nat)
  /-- An operation under way has taken it and not yet placed it. -/
  | held
  deriving DecidableEq

structure Tiling (size : Nat) (Uses : Span → Use → Prop) : Prop where
  whole : 2 ^ topOrder ∣ size
  order_range : ∀ span use, Uses span use → minOrder ≤ span.order ∧ span.order ≤ topOrder
  aligned : ∀ span use, Uses span use → span.Aligned
  inside : ∀ span use, Uses span use → span.stop ≤ size
  unique : ∀ span use other otherUse, Uses span use → Uses other otherUse → span.Meets other →
    span = other ∧ use = otherUse
  covered : ∀ index, index < size → ∃ span use, Uses span use ∧ span.Covers index

namespace Tiling

variable {size : Nat} {Uses Uses' : Span → Use → Prop} {span other : Span} {use otherUse : Use}

theorem empty (unused : ∀ span use, ¬Uses span use) : Tiling 0 Uses where
  whole := Nat.dvd_zero _
  order_range span use uses := absurd uses (unused span use)
  aligned span use uses := absurd uses (unused span use)
  inside span use uses := absurd uses (unused span use)
  unique span use _ _ uses := absurd uses (unused span use)
  covered index impossible := absurd impossible (Nat.not_lt_zero index)

theorem use_unique (tiling : Tiling size Uses) (first : Uses span use)
    (second : Uses span otherUse) : use = otherUse :=
  (tiling.unique span use span otherUse first second span.meets_self).2

theorem span_unique (tiling : Tiling size Uses) (first : Uses span use)
    (second : Uses other otherUse) (offset_eq : span.offset = other.offset) : span = other := by
  have below := span.offset_lt_stop
  have otherBelow := other.offset_lt_stop
  have meets : span.Meets other := ⟨by omega, by omega⟩
  exact (tiling.unique span use other otherUse first second meets).1

theorem stop_le_of_lt (tiling : Tiling size Uses) (first : Uses span use)
    (second : Uses other otherUse) (before : span.offset < other.offset) :
    span.stop ≤ other.offset := by
  by_contra overlap
  have otherBelow := other.offset_lt_stop
  have meets : span.Meets other := ⟨by omega, by omega⟩
  have equal := (tiling.unique span use other otherUse first second meets).1
  rw [equal] at before
  exact Nat.lt_irrefl _ before

/-! ## Replacing -/

/-- Put the spans `New` in place of all those in the stretch from `start` to
`stop`, which may go on past the end of the heap. -/
theorem replace {size' : Nat} (tiling : Tiling size Uses) (start stop : Nat)
    (New : Span → Use → Prop) (whole : 2 ^ topOrder ∣ size')
    (extent : ∀ index, index < size' ↔ index < size ∨ (start ≤ index ∧ index < stop))
    (uses_iff : ∀ span use, Uses' span use ↔
      (Uses span use ∧ (span.stop ≤ start ∨ stop ≤ span.offset)) ∨ New span use)
    (cut : ∀ span use, Uses span use →
      (start ≤ span.offset ∧ span.stop ≤ stop) ∨ span.stop ≤ start ∨ stop ≤ span.offset)
    (within : ∀ span use, New span use → minOrder ≤ span.order ∧ span.order ≤ topOrder ∧
      span.Aligned ∧ start ≤ span.offset ∧ span.stop ≤ stop)
    (unique : ∀ span use other otherUse, New span use → New other otherUse → span.Meets other →
      span = other ∧ use = otherUse)
    (covered : ∀ index, start ≤ index → index < stop → ∃ span use, New span use ∧
      span.Covers index) :
    Tiling size' Uses' where
  whole := whole
  order_range span use uses := by
    rcases (uses_iff span use).mp uses with ⟨old, _⟩ | new
    · exact tiling.order_range span use old
    · exact ⟨(within span use new).1, (within span use new).2.1⟩
  aligned span use uses := by
    rcases (uses_iff span use).mp uses with ⟨old, _⟩ | new
    · exact tiling.aligned span use old
    · exact (within span use new).2.2.1
  inside span use uses := by
    have positive := span.offset_lt_stop
    have lastInside : span.stop - 1 < size' := by
      rw [extent]
      rcases (uses_iff span use).mp uses with ⟨old, _⟩ | new
      · have := tiling.inside span use old
        omega
      · have := (within span use new).2.2.2
        omega
    omega
  unique span use other otherUse uses otherUses meets := by
    have disjoint := meets
    simp only [Span.Meets] at disjoint
    have positive := span.offset_lt_stop
    have otherPositive := other.offset_lt_stop
    rcases (uses_iff span use).mp uses with ⟨old, outside⟩ | new <;>
      rcases (uses_iff other otherUse).mp otherUses with ⟨otherOld, otherOutside⟩ | otherNew
    · exact tiling.unique span use other otherUse old otherOld meets
    · have := (within other otherUse otherNew).2.2.2
      omega
    · have := (within span use new).2.2.2
      omega
    · exact unique span use other otherUse new otherNew meets
  covered index below := by
    by_cases inStretch : start ≤ index ∧ index < stop
    · rcases covered index inStretch.1 inStretch.2 with ⟨span, use, new, covers⟩
      exact ⟨span, use, (uses_iff span use).mpr (.inr new), covers⟩
    · have belowOld : index < size := ((extent index).mp below).resolve_right inStretch
      rcases tiling.covered index belowOld with ⟨span, use, old, covers⟩
      have outside : span.stop ≤ start ∨ stop ≤ span.offset := by
        have := cut span use old
        simp only [Span.Covers] at covers
        omega
      exact ⟨span, use, (uses_iff span use).mpr (.inl ⟨old, outside⟩), covers⟩

theorem replace_one {size' : Nat} (tiling : Tiling size Uses) (one : Span) (new : Use)
    (whole : 2 ^ topOrder ∣ size') (range : minOrder ≤ one.order ∧ one.order ≤ topOrder)
    (aligned : one.Aligned)
    (extent : ∀ index, index < size' ↔ index < size ∨ one.Covers index)
    (uses_iff : ∀ span use, Uses' span use ↔
      (Uses span use ∧ (span.stop ≤ one.offset ∨ one.stop ≤ span.offset)) ∨
        (span = one ∧ use = new))
    (cut : ∀ span use, Uses span use →
      span.Within one ∨ span.stop ≤ one.offset ∨ one.stop ≤ span.offset) :
    Tiling size' Uses' := by
  apply tiling.replace one.offset one.stop (fun span use => span = one ∧ use = new) whole extent
    uses_iff cut
  case within =>
    intro _ _ holds
    rcases holds with ⟨rfl, rfl⟩
    exact ⟨range.1, range.2, aligned, Nat.le_refl _, Nat.le_refl _⟩
  case unique =>
    intro _ _ _ _ first second _
    rcases first with ⟨rfl, rfl⟩
    rcases second with ⟨rfl, rfl⟩
    exact ⟨rfl, rfl⟩
  case covered => exact fun index start stop => ⟨one, new, ⟨rfl, rfl⟩, start, stop⟩

theorem cut_at (tiling : Tiling size Uses) (used : Uses span use) (old : Uses other otherUse) :
    other.Within span ∨ other.stop ≤ span.offset ∨ span.stop ≤ other.offset := by
  by_cases meets : other.Meets span
  · rw [(tiling.unique other otherUse span use old used meets).1]
    exact .inl ⟨Nat.le_refl _, Nat.le_refl _⟩
  · simp only [Span.Meets] at meets
    omega

theorem ne_iff_apart (tiling : Tiling size Uses) (used : Uses span use)
    (old : Uses other otherUse) :
    other ≠ span ↔ other.stop ≤ span.offset ∨ span.stop ≤ other.offset := by
  have positive := span.offset_lt_stop
  constructor
  · intro different
    by_contra meets
    exact different (tiling.unique other otherUse span use old used ⟨by omega, by omega⟩).1
  · intro apart equal
    rw [equal] at apart
    omega

theorem relabel (new : Use) (tiling : Tiling size Uses) (used : Uses span use)
    (same : ∀ use, Uses' span use ↔ use = new)
    (others : ∀ other use, other ≠ span → (Uses' other use ↔ Uses other use)) :
    Tiling size Uses' := by
  have inside := tiling.inside span use used
  apply tiling.replace_one span new tiling.whole (tiling.order_range span use used)
    (tiling.aligned span use used)
  case extent =>
    intro index
    simp only [Span.Covers]
    omega
  case uses_iff =>
    intro other otherUse
    by_cases equal : other = span
    · subst equal
      have positive := other.offset_lt_stop
      have meets : ¬(other.stop ≤ other.offset ∨ other.stop ≤ other.offset) := by omega
      simp only [same, meets, and_false, false_or, true_and]
    · simp only [equal, false_and, or_false, others other otherUse equal]
      exact ⟨fun old => ⟨old, (tiling.ne_iff_apart used old).mp equal⟩, fun old => old.1⟩
  case cut => exact fun other use old => tiling.cut_at used old

end Tiling

end BuddyHeap
