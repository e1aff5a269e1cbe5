import BuddyHeap.Memory.Arena
import BuddyHeap.Proofs.Foundation.Yields

/-! Masking the low bits off a word rounds it down. In two's complement this
holds below zero as well, where rounding down goes away from zero. Pages are
counted with it: a number of bytes is rounded up, unless adding a page to it is
already too much. -/

namespace BuddyHeap

theorem toNat_and_not_mask {width : Nat} (word : BitVec width) (exponent : Nat) :
    (word &&& ~~~BitVec.ofNat width (2 ^ exponent - 1)).toNat =
      word.toNat / 2 ^ exponent * 2 ^ exponent := by
  apply Nat.eq_of_testBit_eq
  intro place
  rw [← BitVec.getLsbD, BitVec.getLsbD_and, BitVec.getLsbD_not, BitVec.getLsbD_ofNat,
    Nat.testBit_two_pow_sub_one, Nat.testBit_mul_two_pow, Nat.testBit_div_two_pow]
  by_cases below : place < width
  · by_cases low : place < exponent
    · simp [low, Nat.not_le_of_lt low]
    · simp [below, low, Nat.le_of_not_lt low, BitVec.getLsbD]
  · have beyond : word.getLsbD place = false := BitVec.getLsbD_of_ge word place (by omega)
    by_cases low : exponent ≤ place
    · simp only [BitVec.getLsbD] at beyond
      simp [beyond, low, BitVec.getLsbD]
    · simp [beyond, low]

theorem and_eq_zero_iff {width : Nat} (word mask : BitVec width) :
    word &&& mask = 0 ↔ word &&& ~~~mask = word := by
  constructor
  · intro clear
    ext place bound
    have bit := congrArg (BitVec.getLsbD · place) clear
    simpa [bound] using bit
  · intro kept
    ext place bound
    have bit := congrArg (BitVec.getLsbD · place) kept
    simpa [bound] using bit

theorem ediv_mul_emod {alignment modulus : Int} (alignment_pos : 0 < alignment)
    (modulus_pos : 0 < modulus) (divides : alignment ∣ modulus) (value : Int) :
    value / alignment * alignment % modulus = value % modulus / alignment * alignment := by
  rcases divides with ⟨count, modulus_eq⟩
  let rest := value % modulus
  have rest_nonneg : 0 ≤ rest := Int.emod_nonneg _ (Int.ne_of_gt modulus_pos)
  have rest_lt : rest < modulus := Int.emod_lt_of_pos _ modulus_pos
  have parts : value = rest + alignment * (count * (value / modulus)) := by
    rw [← Int.mul_assoc, ← modulus_eq]
    exact (Int.emod_add_mul_ediv value modulus).symm
  have quotient : value / alignment = rest / alignment + count * (value / modulus) := by
    conv => lhs; rw [parts]
    exact Int.add_mul_ediv_left _ _ (Int.ne_of_gt alignment_pos)
  have floor : value / alignment * alignment =
      rest / alignment * alignment + modulus * (value / modulus) := by
    rw [quotient, Int.add_mul, Int.mul_comm (count * _), ← Int.mul_assoc, ← modulus_eq]
  have floor_nonneg : 0 ≤ rest / alignment * alignment :=
    Int.mul_nonneg (Int.ediv_nonneg rest_nonneg (Int.le_of_lt alignment_pos))
      (Int.le_of_lt alignment_pos)
  have floor_le : rest / alignment * alignment ≤ rest :=
    Int.ediv_mul_le rest (Int.ne_of_gt alignment_pos)
  rw [floor, Int.add_mul_emod_self_left]
  exact Int.emod_eq_of_lt floor_nonneg (Int.lt_of_le_of_lt floor_le rest_lt)

namespace IntegerFormat

variable {format : IntegerFormat} {value alignment : Int}

def magnitudeBits (format : IntegerFormat) : Nat :=
  if format.signed then format.width - 1 else format.width

theorem magnitudeBits_le (format : IntegerFormat) : format.magnitudeBits ≤ format.width := by
  unfold magnitudeBits
  split <;> omega

theorem greatest_eq (format : IntegerFormat) :
    format.greatest = (2 ^ format.magnitudeBits : Nat) - 1 := by
  unfold greatest magnitudeBits
  split <;> simp

theorem least_eq (format : IntegerFormat) :
    format.least = if format.signed then -((2 ^ format.magnitudeBits : Nat) : Int) else 0 := by
  unfold least magnitudeBits
  split <;> simp

theorem least_le_zero (format : IntegerFormat) : format.least ≤ 0 := by
  have positive := Nat.two_pow_pos format.magnitudeBits
  rw [least_eq]
  split <;> omega

theorem represents_natCast {count : Nat} (unsigned : format.signed = false)
    (fits : count < 2 ^ format.width) : format.Represents count := by
  rw [Represents, least_eq, greatest_eq, magnitudeBits, unsigned]
  simp only [Bool.false_eq_true, if_false]
  omega

theorem number_bits (wide : 0 < format.width) (represented : format.Represents value) :
    format.number (format.bits value) = value := by
  rcases represented with ⟨atLeast, atMost⟩
  rw [least_eq] at atLeast
  rw [greatest_eq] at atMost
  cases signed : format.signed with
  | false =>
      simp only [magnitudeBits, signed, Bool.false_eq_true, if_false] at atLeast atMost
      rw [number, signed, if_neg Bool.false_ne_true, bits, BitVec.toNat_ofInt,
        Int.emod_eq_of_lt atLeast (by omega), Int.toNat_of_nonneg atLeast]
  | true =>
      simp only [magnitudeBits, signed, if_true] at atLeast atMost
      have power : (2 : Int) ^ (format.width - 1) = (2 ^ (format.width - 1) : Nat) := by simp
      rw [number, signed, if_pos rfl, bits]
      exact BitVec.toInt_ofInt_eq_self wide (by omega) (by omega)

theorem bits_mask (format : IntegerFormat) (exponent : Nat) :
    format.bits ((2 ^ exponent : Nat) - 1) = BitVec.ofNat format.width (2 ^ exponent - 1) := by
  rw [← BitVec.ofInt_natCast, bits, Int.natCast_sub (Nat.two_pow_pos exponent)]
  rfl

structure Aligns (format : IntegerFormat) (alignment : Int) : Prop where
  represented : format.Represents alignment
  power : ∃ exponent : Nat, alignment = (2 ^ exponent : Nat)

namespace Aligns

theorem positive (aligns : format.Aligns alignment) : 0 < alignment := by
  rcases aligns.power with ⟨exponent, rfl⟩
  exact Int.natCast_pos.mpr (Nat.two_pow_pos exponent)

theorem exists_exponent (aligns : format.Aligns alignment) :
    ∃ exponent, exponent < format.magnitudeBits ∧ alignment = (2 ^ exponent : Nat) := by
  rcases aligns.power with ⟨exponent, rfl⟩
  have atMost := aligns.represented.2
  rw [greatest_eq] at atMost
  have below : 2 ^ exponent < 2 ^ format.magnitudeBits := by omega
  exact ⟨exponent, (Nat.pow_lt_pow_iff_right (by decide)).mp below, rfl⟩

theorem width_pos (aligns : format.Aligns alignment) : 0 < format.width := by
  rcases aligns.exists_exponent with ⟨exponent, bounded, _⟩
  exact Nat.lt_of_lt_of_le (Nat.zero_lt_of_lt bounded) format.magnitudeBits_le

theorem dvd_magnitude (aligns : format.Aligns alignment) :
    alignment ∣ (2 ^ format.magnitudeBits : Nat) := by
  rcases aligns.exists_exponent with ⟨exponent, bounded, rfl⟩
  exact Int.natCast_dvd_natCast.mpr (Nat.pow_dvd_pow 2 (Nat.le_of_lt bounded))

theorem dvd_least (aligns : format.Aligns alignment) : alignment ∣ format.least := by
  rw [least_eq]
  split
  · exact Int.dvd_neg.mpr aligns.dvd_magnitude
  · exact Int.dvd_zero alignment

theorem represents_floor (aligns : format.Aligns alignment) (represented : format.Represents value) :
    format.Represents (value / alignment * alignment) := by
  refine ⟨?_, Int.le_trans (Int.ediv_mul_le value (Int.ne_of_gt aligns.positive)) represented.2⟩
  calc
    format.least = format.least / alignment * alignment :=
      (Int.ediv_mul_cancel aligns.dvd_least).symm
    _ ≤ value / alignment * alignment :=
      Int.mul_le_mul_of_nonneg_right (Int.ediv_le_ediv aligns.positive represented.1)
        (Int.le_of_lt aligns.positive)

theorem dvd_range (aligns : format.Aligns alignment) : alignment ∣ (2 ^ format.width : Nat) :=
  Int.dvd_trans aligns.dvd_magnitude
    (Int.natCast_dvd_natCast.mpr (Nat.pow_dvd_pow 2 format.magnitudeBits_le))

theorem bits_floor (aligns : format.Aligns alignment) (value : Int) :
    format.bits (value / alignment * alignment) =
      format.bits value &&& ~~~format.bits (alignment - 1) := by
  have range_pos : (0 : Int) < (2 ^ format.width : Nat) :=
    Int.natCast_pos.mpr (Nat.two_pow_pos format.width)
  have lowered := ediv_mul_emod aligns.positive range_pos aligns.dvd_range value
  rcases Int.eq_ofNat_of_zero_le (Int.emod_nonneg value (Int.ne_of_gt range_pos)) with
    ⟨rest, rest_eq⟩
  rcases aligns.power with ⟨exponent, rfl⟩
  rw [rest_eq] at lowered
  apply BitVec.eq_of_toNat_eq
  rw [bits_mask, toNat_and_not_mask, bits, bits, BitVec.toNat_ofInt, BitVec.toNat_ofInt, lowered,
    rest_eq]
  rfl

theorem number_masked (aligns : format.Aligns alignment) (represented : format.Represents value) :
    format.number (format.bits value &&& ~~~format.bits (alignment - 1)) =
      value / alignment * alignment := by
  rw [← aligns.bits_floor, number_bits aligns.width_pos (aligns.represents_floor represented)]

theorem masked_eq_zero_iff (aligns : format.Aligns alignment)
    (represented : format.Represents value) :
    format.bits value &&& format.bits (alignment - 1) = 0 ↔ alignment ∣ value := by
  rw [and_eq_zero_iff, ← aligns.bits_floor]
  constructor
  · intro same
    have equal := congrArg format.number same
    rw [number_bits aligns.width_pos (aligns.represents_floor represented),
      number_bits aligns.width_pos represented] at equal
    exact ⟨value / alignment, by rw [Int.mul_comm, equal]⟩
  · intro multiple
    rw [Int.ediv_mul_cancel multiple]

end Aligns

theorem sub_one_eq_ok (represented : format.Represents value) (positive : 0 < value) :
    format.sub value 1 = .ok (value - 1) := by
  have nonpositive := format.least_le_zero
  exact if_pos ⟨by omega, Int.le_trans (by omega) represented.2⟩

theorem Aligns.isAligned_yields (aligns : format.Aligns alignment)
    (represented : format.Represents value) :
    Yields (format.isAligned value alignment) fun aligned => aligned = true ↔ alignment ∣ value := by
  rw [isAligned, sub_one_eq_ok aligns.represented aligns.positive, ok_bind]
  apply Yields.ok
  rw [beq_iff_eq]
  exact aligns.masked_eq_zero_iff represented

/-- The sum of value and alignment is formed before one is taken off, so it has
to fit the format as well. -/
theorem Aligns.roundUp_eq (aligns : format.Aligns alignment)
    (represented : format.Represents value) :
    format.roundUp value alignment =
      if value + alignment ≤ format.greatest then
        .ok ((value + alignment - 1) / alignment * alignment)
      else .error .additionOverflow := by
  have positive := aligns.positive
  have nonpositive := format.least_le_zero
  have atLeast := represented.1
  by_cases fits : value + alignment ≤ format.greatest
  · have sum : format.Represents (alignment + value) := ⟨by omega, by omega⟩
    have raised : format.Represents (value + alignment - 1) := ⟨by omega, by omega⟩
    have lowered : format.sub (alignment + value) 1 = .ok (value + alignment - 1) := by
      rw [Int.add_comm]
      exact if_pos raised
    rw [if_pos fits, roundUp, add, if_pos sum, ok_bind, lowered, ok_bind,
      sub_one_eq_ok aligns.represented positive, ok_bind, aligns.number_masked raised]
    rfl
  · have overflow : ¬format.Represents (alignment + value) := by
      intro sum
      exact fits (Int.add_comm value alignment ▸ sum.2)
    rw [if_neg fits, roundUp, add, if_neg overflow]
    rfl

end IntegerFormat

def pageCeiling (pageSize count : Nat) : Nat :=
  (count + pageSize - 1) / pageSize * pageSize

theorem le_pageCeiling {pageSize : Nat} (positive : 0 < pageSize) (count : Nat) :
    count ≤ pageCeiling pageSize count := by
  have quotient := Nat.div_add_mod (count + pageSize - 1) pageSize
  have rest := Nat.mod_lt (count + pageSize - 1) positive
  rw [pageCeiling, Nat.mul_comm]
  omega

theorem wholePages_eq {pageSize count : Nat} (aligns : IntegerFormat.size.Aligns pageSize)
    (bounded : count < Size.bound) :
    wholePages pageSize count =
      if count + pageSize < Size.bound then .ok (pageCeiling pageSize count)
      else .error .additionOverflow := by
  have positive : 0 < pageSize := Int.natCast_pos.mp aligns.positive
  have represented : IntegerFormat.size.Represents count :=
    IntegerFormat.represents_natCast rfl bounded
  have rounded : ((count : Int) + pageSize - 1) / pageSize * pageSize =
      pageCeiling pageSize count := by
    have nonzero : 1 ≤ count + pageSize := by omega
    simp only [pageCeiling, Int.natCast_mul, Int.natCast_ediv, Int.natCast_sub nonzero,
      Int.natCast_add, Int.natCast_one]
  rw [wholePages, aligns.roundUp_eq represented, rounded]
  by_cases fits : count + pageSize < Size.bound
  · have sum : IntegerFormat.size.Represents (count + pageSize : Nat) :=
      IntegerFormat.represents_natCast rfl fits
    rw [if_pos fits, if_pos (Int.natCast_add .. ▸ sum.2)]
    rfl
  · have overflow : ¬(count : Int) + pageSize ≤ IntegerFormat.size.greatest := by
      have greatest : IntegerFormat.size.greatest = 2 ^ (64 : Nat) - 1 := rfl
      simp only [Size.bound] at fits
      omega
    rw [if_neg fits, if_neg overflow]
    rfl

end BuddyHeap
