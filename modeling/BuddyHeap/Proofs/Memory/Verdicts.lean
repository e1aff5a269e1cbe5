import BuddyHeap.Memory.Validation
import BuddyHeap.Proofs.Foundation.Yields
import BuddyHeap.Proofs.Memory.Requests
import BuddyHeap.Proofs.Memory.Words

/-! Validation comes to a verdict on every address, whatever the memory holds.
It accepts an address just if the word in front of it is the header that a
request leaves at the start of its block. -/

namespace BuddyHeap

namespace Arena

variable {arena : Arena} {address : Int} {offset payload : Nat} {header : Header}

def verdict (arena : Arena) (offset : Nat) : Except PointerFault (Nat × Header) :=
  let header := Header.decode (arena.word offset)
  let padding := 2 ^ header.order - headerSize - header.requested.toNat
  let expected := requestOrder header.requested.toNat
  if offset % payloadAlignment ≠ 0 then .error .misaligned
  else if header.order < minOrder ∨ orderBound ≤ header.order then .error (.badOrder header.order)
  else if offset % 2 ^ header.order ≠ 0 then .error (.notBlockStart header.order)
  else if !header.allocated then .error .notAllocated
  else if header.padded ≠ decide (padding ≠ 0) then .error .paddingMismatch
  else if header.order ≠ expected then .error (.orderMismatch header.order expected)
  else .ok (offset, header)

theorem eq_of_offsetOf? (located : arena.offsetOf? address = some payload) :
    address = payload ∧ payload < arena.size := by
  rw [offsetOf?] at located
  split at located
  · rename_i inside
    cases located
    omega
  · cases located

theorem offsetOf?_natCast (inside : offset < arena.size) : arena.offsetOf? offset = some offset := by
  rw [offsetOf?, if_pos ⟨Int.natCast_nonneg _, by exact_mod_cast inside⟩, Int.toNat_natCast]

theorem requiredOrder_requested (header : Header) :
    requiredOrder header.requested.toNat = .ok (requestOrder header.requested.toNat) := by
  have bounded := header.requested.toNat_lt
  exact requiredOrder_eq_ok (by omega)

theorem check_eq_verdict (located : arena.offsetOf? address = some payload)
    (behind : headerSize ≤ payload) :
    arena.check address = .ok (arena.verdict (payload - headerSize)) := by
  have inside := (eq_of_offsetOf? located).2
  have read : arena.readWord (payload - headerSize) = .ok (arena.word (payload - headerSize)) := by
    apply readWord_eq_ok
    simp only [headerSize] at behind ⊢
    omega
  have short : ¬payload < headerSize := Nat.not_lt_of_le behind
  simp only [check, located, if_neg short, verdict]
  generalize payload - headerSize = offset at read ⊢
  generalize header_eq : Header.decode (arena.word offset) = header
  by_cases misaligned : offset % payloadAlignment ≠ 0
  · simp only [if_pos misaligned]
    rfl
  simp only [if_neg misaligned, read, ok_bind, header_eq]
  by_cases outside : header.order < minOrder ∨ orderBound ≤ header.order
  · simp only [if_pos outside]
    rfl
  have least : minOrder ≤ header.order := by omega
  have small : header.order < 64 := by
    simp only [orderBound] at outside
    omega
  simp only [if_neg outside, blockSize_eq_ok small, ok_bind,
    requiredPadding_eq_ok least small, requiredOrder_requested, apply_ite Except.ok]
  rfl

theorem exists_verdict (arena : Arena) (address : Int) :
    ∃ verdict, arena.check address = .ok verdict := by
  cases located : arena.offsetOf? address with
  | none => exact ⟨.error .outOfBounds, by simp only [check, located]; rfl⟩
  | some payload =>
      by_cases short : payload < headerSize
      · exact ⟨.error .outOfBounds, by simp only [check, located, if_pos short]; rfl⟩
      · exact ⟨_, check_eq_verdict located (Nat.le_of_not_lt short)⟩

theorem check_payload (inside : offset + 8 < arena.size) :
    arena.check (offset + 8 : Nat) = .ok (arena.verdict offset) := by
  have behind : headerSize ≤ offset + 8 := by
    simp only [headerSize]
    omega
  rw [check_eq_verdict (offsetOf?_natCast inside) behind]
  simp only [headerSize, Nat.add_sub_cancel]

/-- A header that is well placed is judged by what else it says. -/
theorem verdict_of_placed (header_eq : Header.decode (arena.word offset) = header)
    (range : minOrder ≤ header.order ∧ header.order < orderBound)
    (aligned : 2 ^ header.order ∣ offset) :
    arena.verdict offset =
      if !header.allocated then .error .notAllocated
      else if header.padded ≠ decide (2 ^ header.order - headerSize - header.requested.toNat ≠ 0) then
        .error .paddingMismatch
      else if header.order ≠ requestOrder header.requested.toNat then
        .error (.orderMismatch header.order (requestOrder header.requested.toNat))
      else .ok (offset, header) := by
  have eight : ¬offset % payloadAlignment ≠ 0 := by
    have small : payloadAlignment ∣ 2 ^ header.order :=
      Nat.pow_dvd_pow 2 (Nat.le_trans (by decide : 3 ≤ minOrder) range.1)
    simp [Nat.mod_eq_zero_of_dvd (Nat.dvd_trans small aligned)]
  have inRange : ¬(header.order < minOrder ∨ orderBound ≤ header.order) := by omega
  have start : ¬offset % 2 ^ header.order ≠ 0 := by
    simp [Nat.mod_eq_zero_of_dvd aligned]
  simp only [verdict, header_eq]
  rw [if_neg eight, if_neg inRange, if_neg start]

/-- The word at `offset` is the header of an allocated block that starts there
and serves the request that the header names. -/
structure Endorses (arena : Arena) (offset : Nat) (header : Header) : Prop where
  inside : offset + 8 < arena.size
  header_eq : Header.decode (arena.word offset) = header
  order_range : minOrder ≤ header.order ∧ header.order < orderBound
  aligned : 2 ^ header.order ∣ offset
  allocated : header.allocated = true
  padded_eq : header.padded = decide (2 ^ header.order - headerSize - header.requested.toNat ≠ 0)
  order_eq : header.order = requestOrder header.requested.toNat

theorem Endorses.of_byte_eq {before after : Arena} {place : Nat}
    (endorses : before.Endorses offset header) (inside : place + 8 < after.size)
    (aligned : 2 ^ header.order ∣ place)
    (equal : ∀ index, index < 8 → after.byte (place + index) = before.byte (offset + index)) :
    after.Endorses place header :=
  { endorses with
    inside
    aligned
    header_eq := by rw [word_eq_of_byte_eq equal, endorses.header_eq] }

theorem eq_of_verdict {found : Nat} (accepted : arena.verdict offset = .ok (found, header))
    (inside : offset + 8 < arena.size) : found = offset ∧ arena.Endorses offset header := by
  simp only [verdict] at accepted
  split at accepted
  · cases accepted
  split at accepted
  · cases accepted
  rename_i inRange
  split at accepted
  · cases accepted
  rename_i start
  split at accepted
  · cases accepted
  rename_i allocated
  split at accepted
  · cases accepted
  rename_i padded
  split at accepted
  · cases accepted
  rename_i served
  cases accepted
  exact ⟨rfl, inside, rfl, by omega, Nat.dvd_of_mod_eq_zero (Classical.not_not.mp start),
    by simpa using allocated, Classical.not_not.mp padded, Classical.not_not.mp served⟩

theorem check_eq_ok_iff : arena.check address = .ok (.ok (offset, header)) ↔
    address = (offset + 8 : Nat) ∧ arena.Endorses offset header := by
  constructor
  · intro accepted
    cases located : arena.offsetOf? address with
    | none =>
        simp only [check, located] at accepted
        cases accepted
    | some payload =>
        have place := eq_of_offsetOf? located
        by_cases short : payload < headerSize
        · simp only [check, located, if_pos short] at accepted
          cases accepted
        · have behind := Nat.le_of_not_lt short
          rw [check_eq_verdict located behind] at accepted
          simp only [headerSize] at behind accepted
          rcases eq_of_verdict (Except.ok.inj accepted) (by omega) with ⟨rfl, endorses⟩
          exact ⟨by omega, endorses⟩
  · intro holds
    rcases holds with ⟨rfl, endorses⟩
    rw [check_payload endorses.inside,
      verdict_of_placed endorses.header_eq endorses.order_range endorses.aligned,
      if_neg (by simp [endorses.allocated]), if_neg (Classical.not_not.mpr endorses.padded_eq),
      if_neg (Classical.not_not.mpr endorses.order_eq)]

theorem check_eq_ok {allocation : Allocation} (inside : offset + 8 < arena.size)
    (fits : allocation.Fits) (aligned : 2 ^ allocation.order ∣ offset)
    (word_eq : arena.word offset = allocation.header.encode) :
    arena.check (offset + 8 : Nat) = .ok (.ok (offset, allocation.header)) := by
  have served : allocation.header.requested.toNat = allocation.requested :=
    fits.toNat_ofNat_requested
  have room := fits.requested_le_capacity
  have padded : allocation.header.padded =
      decide (2 ^ allocation.order - headerSize - allocation.requested ≠ 0) := by
    rw [Allocation.header, decide_eq_decide]
    rw [Allocation.capacity] at room ⊢
    omega
  refine check_eq_ok_iff.mpr ⟨rfl, inside, ?_, fits.inRange, aligned, rfl, ?_, ?_⟩
  · rw [word_eq, fits.decode_encode_header]
  · rw [served]
    exact padded
  · rw [served]
    exact fits.order_eq

theorem check_eq_notAllocated {order : Nat} (inside : offset + 8 < arena.size)
    (range : minOrder ≤ order ∧ order < orderBound) (aligned : 2 ^ order ∣ offset)
    (word_eq : arena.word offset = (Header.free order).encode) :
    arena.check (offset + 8 : Nat) = .ok (.error .notAllocated) := by
  have small : order % 16 = order := Nat.mod_eq_of_lt (Nat.lt_trans range.2 (by decide))
  have decoded : Header.decode (arena.word offset) = Header.free order := by
    rw [word_eq, Header.decode_encode, Header.free, small]
  rw [check_payload inside, verdict_of_placed decoded range aligned]
  rfl

theorem allocated_eq_false_of_check
    (refused : arena.check (offset + 8 : Nat) = .ok (.error .notAllocated)) :
    (Header.decode (arena.word offset)).allocated = false := by
  by_cases inside : offset + 8 < arena.size
  · rw [check_payload inside] at refused
    simp only [verdict] at refused
    generalize Header.decode (arena.word offset) = header at refused ⊢
    cases allocated : header.allocated with
    | false => rfl
    | true =>
        simp only [allocated, Bool.not_true, Bool.false_eq_true, if_false] at refused
        split at refused
        · cases refused
        split at refused
        · cases refused
        split at refused
        · cases refused
        split at refused
        · cases refused
        split at refused <;> cases refused
  · have outside : arena.offsetOf? (offset + 8 : Nat) = none := by
      rw [offsetOf?, if_neg]
      omega
    simp only [check, outside] at refused
    cases refused

end Arena

end BuddyHeap
