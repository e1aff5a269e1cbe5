import BuddyHeap.Foundation.Fault
import BuddyHeap.Foundation.Power

/-! Sizes and offsets are natural numbers below `2 ^ 64`. The operations here
give the exact result, or a fault when it does not fit. -/

namespace BuddyHeap

namespace Size

def bound : Nat := 2 ^ (64 : Nat)

def add (left right : Nat) : Except Fault Nat :=
  if left + right < bound then .ok (left + right) else .error .additionOverflow

def sub (left right : Nat) : Except Fault Nat :=
  if right ≤ left then .ok (left - right) else .error .subtractionOverflow

def powerOfTwo (exponent : Nat) : Except Fault Nat :=
  if exponent < 64 then .ok (2 ^ exponent) else .error .shiftOverflow

theorem add_eq_ok {left right : Nat} (fits : left + right < bound) :
    add left right = .ok (left + right) := if_pos fits

theorem eq_add_of_add {left right sum : Nat} (added : add left right = .ok sum) :
    sum = left + right := by
  unfold add at added
  split at added
  · exact (Except.ok.inj added).symm
  · cases added

theorem eq_two_pow_of_powerOfTwo {exponent power : Nat}
    (raised : powerOfTwo exponent = .ok power) : power = 2 ^ exponent := by
  unfold powerOfTwo at raised
  split at raised
  · exact (Except.ok.inj raised).symm
  · cases raised

/-- The least exponent whose power of two is at least `size`. That power has to
fit as well. -/
def ceilingExponent (size : Nat) : Except Fault Nat :=
  if size ≤ 2 ^ (63 : Nat) then .ok (if size ≤ 1 then 0 else (size - 1).log2 + 1)
  else .error .additionOverflow

end Size

end BuddyHeap
