import Mathlib.Order.Bounds.Defs
import BuddyHeap.Proofs.Memory.Requests

/-! The order of a request over all sizes that can be asked for. It is the least
order whose blocks have room, so that asking whether an order is enough comes
to comparing the request with what blocks of that order hold. -/

namespace BuddyHeap

variable {request order : Nat}

/-- Blocks of the order can exist and have room for a request and its header. -/
def Accommodates (request order : Nat) : Prop :=
  minOrder ≤ order ∧ ∃ size, blockSize order = .ok size ∧ request + headerSize ≤ size

theorem accommodates_iff : Accommodates request order ↔
    minOrder ≤ order ∧ order < 64 ∧ request + headerSize ≤ 2 ^ order := by
  refine and_congr_right fun _ => ⟨?_, ?_⟩
  · intro holds
    rcases holds with ⟨size, size_eq, room⟩
    by_cases bounded : order < 64
    · rw [blockSize_eq_ok bounded] at size_eq
      cases size_eq
      exact ⟨bounded, room⟩
    · rw [blockSize, Size.powerOfTwo, if_neg bounded] at size_eq
      cases size_eq
  · intro holds
    exact ⟨_, blockSize_eq_ok holds.1, holds.2⟩

structure Suits (order request : Nat) : Prop where
  least : IsLeast {other | Accommodates request other} order
  adjoint : ∀ other, minOrder ≤ other → other ≤ 63 → ∃ capacity,
    payloadCapacity other = .ok capacity ∧ (order ≤ other ↔ request ≤ capacity)
  filled : ∃ padding size, requiredPadding order request = .ok padding ∧
    blockSize order = .ok size ∧ padding + request + headerSize = size
  served : 0 < request → request ≤ maxPayload → minOrder ≤ order ∧ order ≤ topOrder
  unserved : maxPayload < request → topOrder < order

theorem requestOrder_lt (bounded : request + headerSize ≤ 2 ^ (63 : Nat)) :
    requestOrder request < 64 := by
  have atMost : requestOrder request ≤ 63 := (requestOrder_le_iff (by decide)).mpr bounded
  exact Nat.lt_succ_of_le atMost

theorem topOrder_lt_requestOrder (large : maxPayload < request) :
    topOrder < requestOrder request := by
  rw [← Nat.not_le, requestOrder_le_iff (by decide)]
  simp only [maxPayload, topOrder, headerSize] at *
  omega

theorem suits_requestOrder (bounded : request + headerSize ≤ 2 ^ (63 : Nat)) :
    Suits (requestOrder request) request := by
  have atLeast := minOrder_le_requestOrder request
  have small := requestOrder_lt bounded
  have room := add_headerSize_le_two_pow_requestOrder request
  constructor
  case least =>
    refine ⟨accommodates_iff.mpr ⟨atLeast, small, room⟩, ?_⟩
    intro other accommodates
    rcases accommodates_iff.mp accommodates with ⟨least, _, otherRoom⟩
    exact (requestOrder_le_iff least).mpr otherRoom
  case adjoint =>
    intro other least atMost
    have header := headerSize_le_two_pow least
    refine ⟨_, payloadCapacity_eq_ok least (Nat.lt_succ_of_le atMost), ?_⟩
    rw [requestOrder_le_iff least]
    omega
  case filled =>
    refine ⟨_, _, requiredPadding_eq_ok atLeast small request, blockSize_eq_ok small, ?_⟩
    omega
  case served => exact fun _ served => ⟨atLeast, requestOrder_le_topOrder served⟩
  case unserved => exact topOrder_lt_requestOrder

theorem requiredOrder_eq_error (large : 2 ^ (63 : Nat) < request + headerSize) :
    requiredOrder request = .error .additionOverflow := by
  by_cases fits : request + headerSize < Size.bound
  · have exponent : Size.ceilingExponent (request + headerSize) = .error .additionOverflow :=
      if_neg (Nat.not_le_of_lt large)
    simp only [requiredOrder, Size.add_eq_ok fits, bind, Except.bind, exponent]
  · have added : Size.add request headerSize = .error .additionOverflow := if_neg fits
    simp only [requiredOrder, added, bind, Except.bind]

theorem requiredOrder_eq_ok_iff : requiredOrder request = .ok order ↔
    request + headerSize ≤ 2 ^ (63 : Nat) ∧ order = requestOrder request := by
  by_cases bounded : request + headerSize ≤ 2 ^ (63 : Nat)
  · rw [requiredOrder_eq_ok bounded, Except.ok.injEq, eq_comm]
    exact (and_iff_right bounded).symm
  · rw [requiredOrder_eq_error (Nat.lt_of_not_le bounded)]
    exact iff_of_false (by simp) fun holds => bounded holds.1

/-- The order of a request is the least that has room for it, and exists unless
header and request together exceed the greatest power of two. A larger request
never needs a smaller order. -/
theorem requiredOrder_adjoint :
    (∀ request, request ≤ 2 ^ (63 : Nat) - headerSize →
      ∃ order, requiredOrder request = .ok order ∧ Suits order request) ∧
    (∀ smaller larger lower higher, smaller ≤ larger → requiredOrder smaller = .ok lower →
      requiredOrder larger = .ok higher → lower ≤ higher) ∧
    ∀ request fault, requiredOrder request = .error fault ↔
      2 ^ (63 : Nat) - headerSize < request ∧ fault = .additionOverflow := by
  have limit : ∀ request,
      request ≤ 2 ^ (63 : Nat) - headerSize ↔ request + headerSize ≤ 2 ^ (63 : Nat) := by
    intro request
    simp only [headerSize]
    omega
  refine ⟨?_, ?_, ?_⟩
  · intro request atMost
    have bounded := (limit request).mp atMost
    exact ⟨_, requiredOrder_eq_ok bounded, suits_requestOrder bounded⟩
  · intro smaller larger lower higher le lower_eq higher_eq
    rw [(requiredOrder_eq_ok_iff.mp lower_eq).2, (requiredOrder_eq_ok_iff.mp higher_eq).2]
    exact requestOrder_mono le
  · intro request fault
    rw [← Nat.not_le, limit]
    by_cases bounded : request + headerSize ≤ 2 ^ (63 : Nat)
    · rw [requiredOrder_eq_ok bounded]
      exact iff_of_false (by simp) fun holds => holds.1 bounded
    · rw [requiredOrder_eq_error (Nat.lt_of_not_le bounded), Except.error.injEq, eq_comm]
      exact (and_iff_right bounded).symm

/-- The greatest request that has an order, and the one after it. -/
theorem requiredOrder_adjoint_of_greatest :
    requiredOrder (2 ^ (63 : Nat) - 8) = .ok 63 ∧ Suits 63 (2 ^ (63 : Nat) - 8) ∧
      requiredOrder (2 ^ (63 : Nat) - 7) = .error .additionOverflow := by
  rcases requiredOrder_adjoint with ⟨suited, _, fails⟩
  rcases suited (2 ^ (63 : Nat) - 8) (by decide) with ⟨order, order_eq, suits⟩
  have same : order = 63 := by
    have value : requiredOrder (2 ^ (63 : Nat) - 8) = .ok 63 := rfl
    rw [value] at order_eq
    exact (Except.ok.inj order_eq).symm
  subst same
  exact ⟨order_eq, suits, (fails _ _).mpr ⟨by decide, rfl⟩⟩

end BuddyHeap
