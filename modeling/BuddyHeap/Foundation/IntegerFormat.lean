import BuddyHeap.Foundation.Fault
import BuddyHeap.Foundation.Power

/-! Rounding to a multiple of an alignment with bit masks, in any fixed-width
integer format. The sums are formed from the left, and each of them has to fit
the format. The mask gives a multiple of the alignment when that is a power of
two; other alignments mask whatever bits they have. -/

namespace BuddyHeap

/-- A binary integer format. Signed ones are in two's complement. -/
structure IntegerFormat where
  width : Nat
  signed : Bool

namespace IntegerFormat

def byte : IntegerFormat := ⟨8, false⟩
def word : IntegerFormat := ⟨32, false⟩
def size : IntegerFormat := ⟨64, false⟩
def signedLong : IntegerFormat := ⟨64, true⟩

def least (format : IntegerFormat) : Int :=
  if format.signed then -2 ^ (format.width - 1) else 0

def greatest (format : IntegerFormat) : Int :=
  if format.signed then 2 ^ (format.width - 1) - 1 else 2 ^ format.width - 1

def Represents (format : IntegerFormat) (number : Int) : Prop :=
  format.least ≤ number ∧ number ≤ format.greatest

instance (format : IntegerFormat) (number : Int) : Decidable (format.Represents number) :=
  inferInstanceAs (Decidable (_ ∧ _))

def bits (format : IntegerFormat) (number : Int) : BitVec format.width :=
  BitVec.ofInt format.width number

def number (format : IntegerFormat) (bits : BitVec format.width) : Int :=
  if format.signed then bits.toInt else bits.toNat

def add (format : IntegerFormat) (left right : Int) : Except Fault Int :=
  if format.Represents (left + right) then .ok (left + right) else .error .additionOverflow

def sub (format : IntegerFormat) (left right : Int) : Except Fault Int :=
  if format.Represents (left - right) then .ok (left - right) else .error .subtractionOverflow

/-- The least multiple of `alignment` that is not below `value`. -/
def roundUp (format : IntegerFormat) (value alignment : Int) : Except Fault Int := do
  let sum ← format.add alignment value
  let raised ← format.sub sum 1
  let mask ← format.sub alignment 1
  return format.number (format.bits raised &&& ~~~format.bits mask)

def isAligned (format : IntegerFormat) (value alignment : Int) : Except Fault Bool := do
  let mask ← format.sub alignment 1
  return format.bits value &&& format.bits mask == 0

end IntegerFormat

end BuddyHeap
