import BuddyHeap.Foundation.Power

/-! Numbers as byte sequences, the lowest byte first. -/

namespace BuddyHeap

namespace LittleEndian

def bytes : (count number : Nat) → List UInt8
  | 0, _ => []
  | count + 1, number => UInt8.ofNat number :: bytes count (number / 256)

def number : List UInt8 → Nat
  | [] => 0
  | lowest :: rest => lowest.toNat + 256 * number rest

theorem length_bytes (count number : Nat) : (bytes count number).length = count := by
  induction count generalizing number with
  | zero => rfl
  | succ count induction => simp [bytes, induction]

theorem number_bytes (count value : Nat) : number (bytes count value) = value % 256 ^ count := by
  induction count generalizing value with
  | zero => simp [bytes, number, Nat.mod_one]
  | succ count induction =>
      have lowest : (UInt8.ofNat value).toNat = value % 256 := by simp
      rw [bytes, number, lowest, induction, Nat.pow_succ, Nat.mul_comm (256 ^ count) 256,
        Nat.mod_mul]

end LittleEndian

end BuddyHeap
