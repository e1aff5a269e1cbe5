import Mathlib.Data.Nat.Bitwise
import BuddyHeap.Memory.Order

/-! Spans of bytes whose length is a power of two. Where such spans start at
multiples of their length, two of them that meet are nested, and each one is
half of the span that it makes with its buddy. -/

namespace BuddyHeap

@[ext] structure Span where
  offset : Nat
  order : Nat
  deriving DecidableEq

namespace Span

def stop (span : Span) : Nat := span.offset + 2 ^ span.order

def Aligned (span : Span) : Prop := 2 ^ span.order ∣ span.offset

def Covers (span : Span) (index : Nat) : Prop := span.offset ≤ index ∧ index < span.stop

def Within (inner outer : Span) : Prop := outer.offset ≤ inner.offset ∧ inner.stop ≤ outer.stop

def Meets (left right : Span) : Prop := left.offset < right.stop ∧ right.offset < left.stop

def buddy (span : Span) : Span := ⟨span.offset ^^^ 2 ^ span.order, span.order⟩

/-- The span of which this one and its buddy are the halves. -/
def parent (span : Span) : Span := ⟨min span.offset span.buddy.offset, span.order + 1⟩

variable {span other : Span}

theorem offset_lt_stop (span : Span) : span.offset < span.stop :=
  Nat.lt_add_of_pos_right (Nat.two_pow_pos _)

theorem meets_self (span : Span) : span.Meets span := ⟨span.offset_lt_stop, span.offset_lt_stop⟩

theorem Meets.symm (meets : span.Meets other) : other.Meets span := ⟨meets.2, meets.1⟩

theorem Within.trans {outer : Span} (within : span.Within other) (otherWithin : other.Within outer) :
    span.Within outer :=
  ⟨Nat.le_trans otherWithin.1 within.1, Nat.le_trans within.2 otherWithin.2⟩

theorem Within.meets (within : span.Within other) : span.Meets other := by
  have := span.offset_lt_stop
  simp only [Within] at within
  simp only [Meets]
  omega

theorem Within.covers_offset (within : span.Within other) : other.Covers span.offset :=
  ⟨within.1, Nat.lt_of_lt_of_le span.offset_lt_stop within.2⟩

theorem Aligned.within (aligned : span.Aligned) (otherAligned : other.Aligned)
    (order_le : span.order ≤ other.order) (meets : span.Meets other) : span.Within other := by
  rcases span with ⟨offset, order⟩
  rcases other with ⟨otherOffset, otherOrder⟩
  rcases aligned with ⟨place, place_eq⟩
  rcases otherAligned with ⟨otherPlace, otherPlace_eq⟩
  rcases Nat.pow_dvd_pow 2 order_le with ⟨ratio, ratio_eq⟩
  simp only at place_eq otherPlace_eq ratio_eq
  have otherOffset_eq : otherOffset = 2 ^ order * (ratio * otherPlace) := by
    rw [otherPlace_eq, ratio_eq, Nat.mul_assoc]
  have stop_eq : offset + 2 ^ order = 2 ^ order * (place + 1) := by
    rw [place_eq, Nat.mul_succ]
  have otherStop_eq : otherOffset + 2 ^ otherOrder = 2 ^ order * (ratio * otherPlace + ratio) := by
    rw [otherOffset_eq, ratio_eq, ← Nat.mul_add]
  simp only [Meets, Within, stop, stop_eq, otherStop_eq] at meets ⊢
  rw [place_eq, otherOffset_eq] at *
  have lower : ratio * otherPlace < place + 1 := Nat.lt_of_mul_lt_mul_left meets.2
  have upper : place < ratio * otherPlace + ratio := Nat.lt_of_mul_lt_mul_left meets.1
  exact ⟨Nat.mul_le_mul_left _ (by omega), Nat.mul_le_mul_left _ (by omega)⟩

theorem Aligned.eq_of_meets (aligned : span.Aligned) (otherAligned : other.Aligned)
    (order_eq : span.order = other.order) (meets : span.Meets other) : span = other := by
  have forward := aligned.within otherAligned order_eq.le meets
  have backward := otherAligned.within aligned order_eq.ge meets.symm
  exact Span.ext (Nat.le_antisymm backward.1 forward.1) order_eq

theorem Aligned.stop_le {size : Nat} (aligned : span.Aligned) (whole : 2 ^ span.order ∣ size)
    (start : span.offset < size) : span.stop ≤ size := by
  have distance := Nat.le_of_dvd (by omega) (Nat.dvd_sub whole aligned)
  simp only [stop]
  omega

/-- The aligned span of some length around an index starts at the last multiple
of that length. -/
theorem Aligned.offset_eq {index : Nat} (aligned : span.Aligned) (covers : span.Covers index) :
    span.offset = index / 2 ^ span.order * 2 ^ span.order := by
  rcases aligned with ⟨place, place_eq⟩
  have positive := Nat.two_pow_pos span.order
  simp only [Covers, stop, place_eq, ← Nat.mul_succ] at covers
  have quotient : index / 2 ^ span.order = place :=
    Nat.div_eq_of_lt_le (Nat.mul_comm .. ▸ covers.1) (Nat.mul_comm .. ▸ covers.2)
  rw [quotient, place_eq, Nat.mul_comm]

theorem Aligned.div_eq_div {first second order : Nat} (aligned : span.Aligned)
    (order_le : span.order ≤ order) (covers : span.Covers first) (alsoCovers : span.Covers second) :
    first / 2 ^ order = second / 2 ^ order := by
  have same : first / 2 ^ span.order = second / 2 ^ span.order :=
    Nat.eq_of_mul_eq_mul_right (Nat.two_pow_pos span.order)
      ((aligned.offset_eq covers).symm.trans (aligned.offset_eq alsoCovers))
  rw [← Nat.sub_add_cancel order_le, Nat.add_comm, Nat.pow_add, ← Nat.div_div_eq_div_mul, same,
    Nat.div_div_eq_div_mul]

/-! ## Buddies -/

/-- A span and its buddy are the lower and the upper half of their parent. -/
theorem Aligned.buddy_cases (aligned : span.Aligned) :
    span.parent.Aligned ∧
      ((span.offset = span.parent.offset ∧
          span.buddy.offset = span.parent.offset + 2 ^ span.order) ∨
        (span.buddy.offset = span.parent.offset ∧
          span.offset = span.parent.offset + 2 ^ span.order)) := by
  rcases span with ⟨offset, order⟩
  rcases aligned with ⟨place, place_eq⟩
  simp only at place_eq
  have flipped : offset ^^^ 2 ^ order = 2 ^ order * (place ^^^ 1) := by
    have shifted := Nat.shiftLeft_xor_distrib (a := place) (b := 1) (i := order)
    simp only [Nat.shiftLeft_eq, Nat.one_mul] at shifted
    rw [place_eq, Nat.mul_comm, Nat.mul_comm (2 ^ order), shifted]
  have positive := Nat.two_pow_pos order
  simp only [parent, buddy, Aligned, flipped]
  rcases Nat.even_or_odd' place with ⟨half, even | odd⟩
  · have buddy_eq : 2 ^ order * (place ^^^ 1) = offset + 2 ^ order := by
      rw [Nat.xor_one_of_even ⟨half, by omega⟩, place_eq, Nat.mul_succ]
    rw [buddy_eq, Nat.min_eq_left (Nat.le_add_right ..)]
    refine ⟨⟨half, ?_⟩, .inl ⟨rfl, rfl⟩⟩
    rw [place_eq, even, Nat.pow_succ, Nat.mul_assoc]
  · have offset_eq : offset = 2 ^ order * (2 * half) + 2 ^ order := by
      rw [place_eq, odd, Nat.mul_succ]
    have buddy_eq : 2 ^ order * (place ^^^ 1) = 2 ^ order * (2 * half) := by
      rw [Nat.xor_one_of_odd ⟨half, odd⟩, odd, Nat.add_sub_cancel]
    rw [buddy_eq, Nat.min_eq_right (by omega)]
    refine ⟨⟨half, ?_⟩, .inr ⟨rfl, offset_eq⟩⟩
    rw [Nat.pow_succ, Nat.mul_assoc]

theorem Aligned.buddy_aligned (aligned : span.Aligned) : span.buddy.Aligned := by
  have start : 2 ^ span.order ∣ span.parent.offset :=
    (Nat.pow_dvd_pow 2 (Nat.le_succ span.order)).trans aligned.buddy_cases.1
  change 2 ^ span.order ∣ span.buddy.offset
  rcases aligned.buddy_cases.2 with ⟨_, upper⟩ | ⟨lower, _⟩
  · rw [upper]
    exact Nat.dvd_add start (Nat.dvd_refl _)
  · rw [lower]
    exact start

theorem stop_parent (span : Span) :
    span.parent.stop = span.parent.offset + 2 ^ span.order + 2 ^ span.order := by
  simp only [stop, parent, Nat.pow_succ]
  omega

theorem Aligned.within_parent (aligned : span.Aligned) : span.Within span.parent := by
  have stop_eq := span.stop_parent
  have positive := Nat.two_pow_pos span.order
  simp only [Within, stop_eq]
  rcases aligned.buddy_cases.2 with ⟨lower, _⟩ | ⟨_, upper⟩ <;>
    simp only [stop] <;>
    omega

theorem Aligned.buddy_within_parent (aligned : span.Aligned) :
    span.buddy.Within span.parent := by
  have stop_eq := span.stop_parent
  have positive := Nat.two_pow_pos span.order
  have order_eq : span.buddy.order = span.order := rfl
  simp only [Within, stop_eq]
  rcases aligned.buddy_cases.2 with ⟨_, upper⟩ | ⟨lower, _⟩ <;>
    simp only [stop, order_eq] <;>
    omega

/-- The buddy of a span that starts inside of whole blocks of a greater order
ends inside of them as well. -/
theorem Aligned.buddy_stop_le {size order : Nat} (aligned : span.Aligned)
    (below : span.order < order) (whole : 2 ^ order ∣ size) (start : span.offset < size) :
    span.buddy.stop ≤ size := by
  have parentWhole : 2 ^ span.parent.order ∣ size := (Nat.pow_dvd_pow 2 below).trans whole
  have parentStart : span.parent.offset < size :=
    Nat.lt_of_le_of_lt aligned.within_parent.1 start
  exact Nat.le_trans aligned.buddy_within_parent.2
    (aligned.buddy_cases.1.stop_le parentWhole parentStart)

theorem Aligned.buddy_div_eq {order : Nat} (aligned : span.Aligned) (below : span.order < order) :
    span.buddy.offset / 2 ^ order = span.offset / 2 ^ order :=
  aligned.buddy_cases.1.div_eq_div below aligned.buddy_within_parent.covers_offset
    aligned.within_parent.covers_offset

theorem buddy_offset_ne (span : Span) : span.buddy.offset ≠ span.offset := by
  intro equal
  have flipped := congrArg (Nat.testBit · span.order) equal
  simp [buddy] at flipped

theorem buddy_buddy (span : Span) : span.buddy.buddy = span := by
  simp only [buddy, Nat.xor_xor_cancel_right]

end Span

end BuddyHeap
