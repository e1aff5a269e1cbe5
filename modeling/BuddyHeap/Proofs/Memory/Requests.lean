import BuddyHeap.Memory.Header

/-! Requests and the blocks that serve them. The order of a request is the
least one whose blocks hold it, and the header of the block says so. -/

namespace BuddyHeap

def requestOrder (request : Nat) : Nat :=
  max ((request + 7).log2 + 1) minOrder

variable {request order : Nat}

theorem requiredOrder_eq_ok (bounded : request + 8 ≤ 2 ^ (63 : Nat)) :
    requiredOrder request = .ok (requestOrder request) := by
  have added : Size.add request headerSize = .ok (request + 8) :=
    Size.add_eq_ok (by simp only [Size.bound, headerSize]; omega)
  have exponent : Size.ceilingExponent (request + 8) = .ok ((request + 7).log2 + 1) := by
    rw [Size.ceilingExponent, if_pos bounded, if_neg (by omega)]
    rfl
  simp only [requiredOrder, added, bind, Except.bind, exponent]
  rfl

theorem requestOrder_le_iff (least : minOrder ≤ order) :
    requestOrder request ≤ order ↔ request + headerSize ≤ 2 ^ order := by
  have positive : request + 7 ≠ 0 := by omega
  have bound := Nat.log2_lt positive (k := order)
  simp only [requestOrder, headerSize]
  omega

theorem minOrder_le_requestOrder (request : Nat) : minOrder ≤ requestOrder request :=
  Nat.le_max_right ..

theorem add_headerSize_le_two_pow_requestOrder (request : Nat) :
    request + headerSize ≤ 2 ^ requestOrder request :=
  (requestOrder_le_iff (minOrder_le_requestOrder request)).mp (Nat.le_refl _)

theorem requestOrder_mono {smaller larger : Nat} (le : smaller ≤ larger) :
    requestOrder smaller ≤ requestOrder larger := by
  rw [requestOrder_le_iff (minOrder_le_requestOrder larger)]
  have room := add_headerSize_le_two_pow_requestOrder larger
  omega

theorem requestOrder_le_topOrder (served : request ≤ maxPayload) :
    requestOrder request ≤ topOrder := by
  rw [requestOrder_le_iff (by decide)]
  simp only [headerSize, topOrder, maxPayload] at *
  omega

/-! ## Capacity and padding -/

theorem blockSize_eq_ok (bounded : order < 64) : blockSize order = .ok (2 ^ order) :=
  if_pos bounded

theorem headerSize_le_two_pow (least : minOrder ≤ order) : headerSize ≤ 2 ^ order := by
  calc
    headerSize ≤ 2 ^ minOrder := by decide
    _ ≤ 2 ^ order := Nat.pow_le_pow_right (by decide) least

theorem payloadCapacity_eq_ok (least : minOrder ≤ order) (bounded : order < 64) :
    payloadCapacity order = .ok (2 ^ order - headerSize) := by
  simp only [payloadCapacity, blockSize_eq_ok bounded, bind, Except.bind]
  exact if_pos (headerSize_le_two_pow least)

theorem requiredPadding_eq_ok (least : minOrder ≤ order) (bounded : order < 64) (request : Nat) :
    requiredPadding order request = .ok (2 ^ order - headerSize - request) := by
  simp only [requiredPadding, payloadCapacity_eq_ok least bounded, bind, Except.bind]
  rfl

theorem Header.forRequest_eq_ok (least : minOrder ≤ order) (bounded : order < 64)
    (requested : UInt32) : Header.forRequest order requested =
      .ok ⟨true, order, decide (2 ^ order - headerSize - requested.toNat ≠ 0), requested⟩ := by
  have padded : ∀ padding : Nat, (padding != 0) = decide (padding ≠ 0) := by
    intro padding
    cases padding <;> rfl
  simp only [Header.forRequest, requiredPadding_eq_ok least bounded, bind, Except.bind, padded]
  rfl

theorem toNat_ofNat_of_served (served : request ≤ maxPayload) :
    (UInt32.ofNat request).toNat = request := by
  rw [UInt32.toNat_ofNat', Nat.mod_eq_of_lt]
  simp only [maxPayload] at served
  omega

/-! ## Allocations -/

/-- What a client has of a heap: a block of some order, for a number of bytes. -/
structure Allocation where
  order : Nat
  requested : Nat
  deriving DecidableEq

namespace Allocation

def ofRequest (request : Nat) : Allocation := ⟨requestOrder request, request⟩

def capacity (allocation : Allocation) : Nat := 2 ^ allocation.order - headerSize

def header (allocation : Allocation) : Header where
  allocated := true
  order := allocation.order
  padded := allocation.capacity ≠ allocation.requested
  requested := UInt32.ofNat allocation.requested

/-- The allocation is what a request that some block can serve has led to. -/
structure Fits (allocation : Allocation) : Prop where
  order_eq : allocation.order = requestOrder allocation.requested
  positive : 0 < allocation.requested
  le_maxPayload : allocation.requested ≤ maxPayload

theorem fits_ofRequest (positive : 0 < request) (served : request ≤ maxPayload) :
    (ofRequest request).Fits := ⟨rfl, positive, served⟩

variable {allocation : Allocation}

theorem Fits.eq_ofRequest (fits : allocation.Fits) :
    allocation = ofRequest allocation.requested := by
  obtain ⟨order, requested⟩ := allocation
  exact congrArg (Allocation.mk · requested) fits.order_eq

theorem Fits.requested_le_capacity (fits : allocation.Fits) :
    allocation.requested ≤ allocation.capacity := by
  have room := add_headerSize_le_two_pow_requestOrder allocation.requested
  rw [← fits.order_eq] at room
  rw [capacity]
  omega

theorem Fits.toNat_ofNat_requested (fits : allocation.Fits) :
    (UInt32.ofNat allocation.requested).toNat = allocation.requested :=
  toNat_ofNat_of_served fits.le_maxPayload

theorem Fits.minOrder_le (fits : allocation.Fits) : minOrder ≤ allocation.order := by
  rw [fits.order_eq]
  exact minOrder_le_requestOrder _

theorem Fits.le_topOrder (fits : allocation.Fits) : allocation.order ≤ topOrder := by
  rw [fits.order_eq]
  exact requestOrder_le_topOrder fits.le_maxPayload

theorem Fits.inRange (fits : allocation.Fits) :
    minOrder ≤ allocation.order ∧ allocation.order < orderBound :=
  ⟨fits.minOrder_le, Nat.lt_succ_of_le fits.le_topOrder⟩

theorem Fits.order_lt (fits : allocation.Fits) : allocation.order < 64 :=
  Nat.lt_trans fits.inRange.2 (by decide)

theorem Fits.headerSize_le (fits : allocation.Fits) : headerSize ≤ 2 ^ allocation.order :=
  headerSize_le_two_pow fits.minOrder_le

theorem Fits.forRequest_eq_ok (fits : allocation.Fits) :
    Header.forRequest allocation.order (UInt32.ofNat allocation.requested) =
      .ok allocation.header := by
  have room := fits.requested_le_capacity
  have padded : (2 ^ allocation.order - headerSize - allocation.requested ≠ 0) =
      (allocation.capacity ≠ allocation.requested) := by
    rw [capacity] at room ⊢
    rw [eq_iff_iff]
    omega
  rw [Header.forRequest_eq_ok fits.minOrder_le fits.order_lt, fits.toNat_ofNat_requested, header]
  simp only [padded]

end Allocation

/-! ## The header word -/

namespace Header

theorem toNat_encode (header : Header) :
    header.encode.toNat = header.allocated.toNat + header.order % 16 * 2 +
      header.padded.toNat * 2 ^ (5 : Nat) + header.requested.toNat * 2 ^ (32 : Nat) := by
  have allocatedBound := header.allocated.toNat_le
  have paddedBound := header.padded.toNat_le
  have requestedBound := header.requested.toNat_lt
  rw [encode, UInt64.toNat_ofNat', Nat.mod_eq_of_lt]
  omega

theorem decode_encode (header : Header) :
    decode header.encode = { header with order := header.order % 16 } := by
  have value := header.toNat_encode
  have allocatedBound := header.allocated.toNat_le
  have paddedBound := header.padded.toNat_le
  have allocatedBit : header.encode.toNat % 2 = header.allocated.toNat := by omega
  have orderBits : header.encode.toNat / 2 % 16 = header.order % 16 := by omega
  have paddedBit : header.encode.toNat / 2 ^ (5 : Nat) % 2 = header.padded.toNat := by omega
  have requestedBits : header.encode.toNat / 2 ^ (32 : Nat) = header.requested.toNat := by omega
  have toNat_eq_one : ∀ bit : Bool, (bit.toNat == 1) = bit := by decide
  simp only [decode, allocatedBit, orderBits, paddedBit, requestedBits, toNat_eq_one,
    UInt32.ofNat_toNat]

theorem order_decode_lt (word : UInt64) : (decode word).order < 16 := Nat.mod_lt _ (by decide)

end Header

theorem Allocation.Fits.decode_encode_header {allocation : Allocation} (fits : allocation.Fits) :
    Header.decode allocation.header.encode = allocation.header := by
  have bounded : allocation.order % 16 = allocation.order :=
    Nat.mod_eq_of_lt (Nat.lt_trans fits.inRange.2 (by decide))
  rw [Header.decode_encode]
  simp only [Allocation.header, bounded]

end BuddyHeap
