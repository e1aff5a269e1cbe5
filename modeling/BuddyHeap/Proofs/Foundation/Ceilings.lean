import Mathlib.Order.Bounds.Basic
import BuddyHeap.Proofs.Foundation.Rounding

/-! Rounding up against what it is for: the least multiple of an alignment that
is not below a value. All values that have such a multiple in the format are
rounded to it but one. The greatest multiple in the format is its own ceiling,
and adding the alignment to it leads out of the format. -/

namespace BuddyHeap

namespace IntegerFormat

variable {format : IntegerFormat} {value multiple alignment : Int}

def IsCeiling (alignment value multiple : Int) : Prop :=
  IsLeast {other | alignment ∣ other ∧ value ≤ other} multiple

namespace IsCeiling

theorem of_floor (positive : 0 < alignment) (value : Int) :
    IsCeiling alignment value ((value + alignment - 1) / alignment * alignment) := by
  have above := Int.lt_ediv_add_one_mul_self (value + alignment - 1) positive
  rw [Int.add_mul, Int.one_mul] at above
  refine ⟨⟨Int.dvd_mul_left .., by omega⟩, ?_⟩
  intro other bounds
  rcases bounds with ⟨⟨count, rfl⟩, atLeast⟩
  have below : value + alignment - 1 < (count + 1) * alignment := by
    rw [Int.add_mul, Int.one_mul, Int.mul_comm]
    omega
  have quotient := Int.lt_add_one_iff.mp (Int.ediv_lt_of_lt_mul positive below)
  rw [Int.mul_comm alignment]
  exact Int.mul_le_mul_of_nonneg_right quotient (Int.le_of_lt positive)

theorem self_iff : IsCeiling alignment value value ↔ alignment ∣ value :=
  ⟨fun ceiling => ceiling.1.1, fun divides => ⟨⟨divides, Int.le_refl value⟩, fun _ other => other.2⟩⟩

end IsCeiling

def greatestMultiple (format : IntegerFormat) (alignment : Int) : Int :=
  format.greatest + 1 - alignment

namespace Aligns

theorem isGreatest_greatestMultiple (aligns : format.Aligns alignment) :
    IsGreatest {multiple | alignment ∣ multiple ∧ format.Represents multiple}
      (format.greatestMultiple alignment) := by
  have positive := aligns.positive
  have atMost := aligns.represented.2
  have nonpositive := format.least_le_zero
  have divides : alignment ∣ format.greatest + 1 := by
    rw [greatest_eq, Int.sub_add_cancel]
    exact aligns.dvd_magnitude
  refine ⟨⟨Int.dvd_sub divides (Int.dvd_refl alignment), ?_⟩, ?_⟩
  · rw [greatestMultiple]
    exact ⟨by omega, by omega⟩
  · intro multiple member
    rcases member with ⟨multiple_dvd, represented⟩
    have apart : 0 < format.greatest + 1 - multiple := by
      have bound := represented.2
      omega
    have alignment_le := Int.le_of_dvd apart (Int.dvd_sub divides multiple_dvd)
    rw [greatestMultiple]
    omega

/-- Just the values before the last multiple have room for the alignment. -/
theorem represents_ceiling_iff (aligns : format.Aligns alignment)
    (represented : format.Represents value) (ceiling : IsCeiling alignment value multiple) :
    format.Represents multiple ∧ value ≠ format.greatestMultiple alignment ↔
      value < format.greatestMultiple alignment := by
  have last := aligns.isGreatest_greatestMultiple
  have value_le : value ≤ multiple := ceiling.1.2
  constructor
  · intro holds
    have multiple_le := last.2 ⟨ceiling.1.1, holds.1⟩
    have different := holds.2
    omega
  · intro below
    have multiple_le := ceiling.2 ⟨last.1.1, Int.le_of_lt below⟩
    have last_le := last.1.2.2
    have atLeast := represented.1
    exact ⟨⟨by omega, by omega⟩, Int.ne_of_lt below⟩

theorem roundUp_eq_ok_iff (aligns : format.Aligns alignment)
    (represented : format.Represents value) : format.roundUp value alignment = .ok multiple ↔
      IsCeiling alignment value multiple ∧ value < format.greatestMultiple alignment := by
  have ceiling := IsCeiling.of_floor aligns.positive value
  rw [aligns.roundUp_eq represented, greatestMultiple]
  by_cases fits : value + alignment ≤ format.greatest
  · rw [if_pos fits, Except.ok.injEq]
    constructor
    · intro equal
      exact ⟨equal ▸ ceiling, by omega⟩
    · intro holds
      exact IsLeast.unique ceiling holds.1
  · rw [if_neg fits]
    exact iff_of_false (by simp) fun holds => fits (by omega)

theorem roundUp_eq_ceiling_iff (aligns : format.Aligns alignment)
    (represented : format.Represents value) : format.roundUp value alignment = .ok multiple ↔
      IsCeiling alignment value multiple ∧ format.Represents multiple ∧
        value ≠ format.greatestMultiple alignment := by
  rw [aligns.roundUp_eq_ok_iff represented]
  exact and_congr_right fun ceiling => (aligns.represents_ceiling_iff represented ceiling).symm

theorem roundUp_eq_self_iff (aligns : format.Aligns alignment)
    (represented : format.Represents value) : format.roundUp value alignment = .ok value ↔
      alignment ∣ value ∧ value ≠ format.greatestMultiple alignment := by
  rw [aligns.roundUp_eq_ceiling_iff represented, IsCeiling.self_iff]
  exact and_congr_right fun _ => and_iff_right represented

theorem roundUp_eq_error_iff {fault : Fault} (aligns : format.Aligns alignment)
    (represented : format.Represents value) : format.roundUp value alignment = .error fault ↔
      format.greatestMultiple alignment ≤ value ∧ fault = .additionOverflow := by
  rw [aligns.roundUp_eq represented, greatestMultiple]
  by_cases fits : value + alignment ≤ format.greatest
  · rw [if_pos fits]
    exact iff_of_false (by simp) fun holds => by omega
  · rw [if_neg fits, Except.error.injEq, eq_comm]
    exact (and_iff_right (by omega)).symm

end Aligns

/-- How the values of a format are rounded up to multiples of an alignment. -/
structure RoundsUp (format : IntegerFormat) (alignment : Int) : Prop where
  tells : ∀ value, format.Represents value →
    Yields (format.isAligned value alignment) fun aligned => aligned = true ↔ alignment ∣ value
  rounds : ∀ value multiple, format.Represents value →
    (format.roundUp value alignment = .ok multiple ↔ IsCeiling alignment value multiple ∧
      format.Represents multiple ∧ value ≠ format.greatestMultiple alignment)
  /-- The exception is a multiple itself, and no value after it has a ceiling. -/
  last : IsGreatest {multiple | alignment ∣ multiple ∧ format.Represents multiple}
    (format.greatestMultiple alignment)
  overflows : ∀ value fault, format.Represents value →
    (format.roundUp value alignment = .error fault ↔
      format.greatestMultiple alignment ≤ value ∧ fault = .additionOverflow)
  fixes : ∀ value, format.Represents value →
    (format.roundUp value alignment = .ok value ↔
      format.isAligned value alignment = .ok true ∧ value ≠ format.greatestMultiple alignment)
  idempotent : ∀ value multiple, format.Represents value →
    format.roundUp value alignment = .ok multiple → multiple ≠ format.greatestMultiple alignment →
    format.roundUp multiple alignment = .ok multiple
  monotone : ∀ lower upper first second, format.Represents lower → format.Represents upper →
    lower ≤ upper → format.roundUp lower alignment = .ok first →
    format.roundUp upper alignment = .ok second → first ≤ second

/-- A value is rounded to its ceiling whenever the format has one, unless the
value is the greatest multiple in the format. -/
theorem roundsUp_of_aligns (aligns : format.Aligns alignment) : format.RoundsUp alignment := by
  constructor
  case tells => exact fun value represented => aligns.isAligned_yields represented
  case rounds => exact fun value multiple represented => aligns.roundUp_eq_ceiling_iff represented
  case last => exact aligns.isGreatest_greatestMultiple
  case overflows => exact fun value fault represented => aligns.roundUp_eq_error_iff represented
  case fixes =>
    intro value represented
    rcases aligns.isAligned_yields represented with ⟨aligned, aligned_eq, tells⟩
    rw [aligns.roundUp_eq_self_iff represented, aligned_eq, Except.ok.injEq, tells]
  case idempotent =>
    intro value multiple represented rounded different
    have rounds := (aligns.roundUp_eq_ceiling_iff represented).mp rounded
    exact (aligns.roundUp_eq_self_iff rounds.2.1).mpr ⟨rounds.1.1.1, different⟩
  case monotone =>
    intro lower upper first second lower_represented upper_represented le lower_eq upper_eq
    have lowerCeiling := ((aligns.roundUp_eq_ceiling_iff lower_represented).mp lower_eq).1
    have upperCeiling := ((aligns.roundUp_eq_ceiling_iff upper_represented).mp upper_eq).1
    exact lowerCeiling.2 ⟨upperCeiling.1.1, Int.le_trans le upperCeiling.1.2⟩

/-- Below zero, a ceiling is nearer to zero than the value. -/
theorem roundsUp_of_aligns_of_negative :
    signedLong.Aligns 8 ∧ signedLong.roundUp (-13) 8 = .ok (-8) ∧
      signedLong.roundUp (-8) 8 = .ok (-8) := by
  have aligns : signedLong.Aligns 8 := ⟨by decide, 3, rfl⟩
  have roundsUp := roundsUp_of_aligns aligns
  have ceiling : IsCeiling 8 (-13) (-8) := IsCeiling.of_floor (by decide) (-13)
  have rounded := (roundsUp.rounds (-13) (-8) (by decide)).mpr ⟨ceiling, by decide, by decide⟩
  exact ⟨aligns, rounded, roundsUp.idempotent (-13) (-8) (by decide) rounded (by decide)⟩

/-- The greatest multiple of eight in a byte is its own ceiling, and a smaller
value is rounded up to it, yet to round it is an overflow. -/
theorem overflows_at_greatestMultiple :
    byte.Aligns 8 ∧ byte.Represents 248 ∧ IsCeiling 8 248 248 ∧
      byte.isAligned 248 8 = .ok true ∧ byte.roundUp 241 8 = .ok 248 ∧
      byte.roundUp 248 8 = .error .additionOverflow :=
  ⟨⟨by decide, 3, rfl⟩, by decide, IsCeiling.self_iff.mpr (by decide), rfl, rfl, rfl⟩

end IntegerFormat

end BuddyHeap
