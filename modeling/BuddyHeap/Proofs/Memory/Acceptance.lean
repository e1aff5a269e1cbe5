import BuddyHeap.Proofs.Memory.Growth
import BuddyHeap.Proofs.Memory.Verdicts

/-! What validation asks of an address, whatever the memory holds. The word in
front of it need not be one that a request leaves: the bits that a header does
not use are not looked at, and the header may be for a request of no bytes. -/

namespace BuddyHeap

namespace Arena

variable {arena : Arena} {address : Int} {offset : Nat} {header : Header}

/-- The address is that of a payload, and the word in front of it is a header
that allocates a block there, of just the order that its request needs. -/
structure Accepts (arena : Arena) (address : Int) (offset : Nat) (header : Header) : Prop where
  address_eq : address = (offset + headerSize : Nat)
  inside : offset + headerSize < arena.size
  offset_aligned : payloadAlignment ∣ offset
  header_eq : header = Header.decode (arena.word offset)
  order_range : minOrder ≤ header.order ∧ header.order < orderBound
  block_aligned : 2 ^ header.order ∣ offset
  allocated : header.allocated = true
  padded_eq : ∃ capacity, payloadCapacity header.order = .ok capacity ∧
    header.padded = decide (header.requested.toNat < capacity)
  order_eq : requiredOrder header.requested.toNat = .ok header.order

theorem Accepts.endorses (accepts : arena.Accepts address offset header) :
    arena.Endorses offset header := by
  have range := accepts.order_range
  have small : header.order < 64 := Nat.lt_trans range.2 (by decide)
  rcases accepts.padded_eq with ⟨capacity, capacity_eq, padded_eq⟩
  rw [payloadCapacity_eq_ok range.1 small] at capacity_eq
  cases capacity_eq
  have served := accepts.order_eq
  rw [requiredOrder_requested] at served
  refine ⟨accepts.inside, accepts.header_eq.symm, range, accepts.block_aligned, accepts.allocated,
    ?_, (Except.ok.inj served).symm⟩
  rw [padded_eq, decide_eq_decide]
  omega

theorem Endorses.accepts (endorses : arena.Endorses offset header) :
    arena.Accepts (offset + headerSize : Nat) offset header := by
  have range := endorses.order_range
  have small : header.order < 64 := Nat.lt_trans range.2 (by decide)
  have eight : payloadAlignment ∣ 2 ^ header.order :=
    Nat.pow_dvd_pow 2 (Nat.le_trans (by decide : 3 ≤ minOrder) range.1)
  refine ⟨rfl, endorses.inside, Nat.dvd_trans eight endorses.aligned, endorses.header_eq.symm, range,
    endorses.aligned, endorses.allocated, ⟨_, payloadCapacity_eq_ok range.1 small, ?_⟩, ?_⟩
  · rw [endorses.padded_eq, decide_eq_decide]
    omega
  · rw [requiredOrder_requested, ← endorses.order_eq]

theorem check_eq_ok_iff_accepts :
    arena.check address = .ok (.ok (offset, header)) ↔ arena.Accepts address offset header := by
  rw [check_eq_ok_iff]
  constructor
  · intro holds
    rcases holds with ⟨rfl, endorses⟩
    exact endorses.accepts
  · intro accepts
    exact ⟨accepts.address_eq, accepts.endorses⟩

namespace Endorses

theorem room (endorses : arena.Endorses offset header) :
    headerSize + header.requested.toNat ≤ 2 ^ header.order := by
  have room := add_headerSize_le_two_pow_requestOrder header.requested.toNat
  rw [← endorses.order_eq] at room
  omega

end Endorses

end Arena

/-! ## Words that a request leaves -/

namespace Header

variable {header : Header} {word : UInt64} {size : Nat}

def unusedBits (word : UInt64) : Nat := word.toNat / 2 ^ (6 : Nat) % 2 ^ (26 : Nat)

def MadeFor (header : Header) (size : Nat) : Prop :=
  ∃ order, requiredOrder size = .ok order ∧
    Header.forRequest order (UInt32.ofNat size) = .ok header

/-- Some request that is served leaves the word. -/
def Written (word : UInt64) : Prop :=
  ∃ size header, 0 < size ∧ size ≤ maxPayload ∧ MadeFor header size ∧ word = header.encode

theorem toNat_mod_two_beq (number : Nat) : (number % 2 == 1).toNat = number % 2 := by
  rcases Nat.mod_two_eq_zero_or_one number with even | odd
  · rw [even]
    rfl
  · rw [odd]
    rfl

/-- Nothing but the unused bits of a word gets lost in decoding it. -/
theorem toNat_encode_decode (word : UInt64) :
    (Header.decode word).encode.toNat + unusedBits word * 2 ^ (6 : Nat) = word.toNat := by
  have bounded := word.toNat_lt
  have requested :
      (UInt32.ofNat (word.toNat / 2 ^ (32 : Nat))).toNat = word.toNat / 2 ^ (32 : Nat) := by
    rw [UInt32.toNat_ofNat', Nat.mod_eq_of_lt]
    omega
  simp only [toNat_encode, Header.decode, unusedBits, toNat_mod_two_beq, requested]
  omega

theorem decode_eq_iff (small : header.order < 16) : Header.decode word = header ↔
    word.toNat = header.encode.toNat + unusedBits word * 2 ^ (6 : Nat) := by
  constructor
  · intro equal
    rw [← equal, toNat_encode_decode]
  · intro value
    have bounded := Nat.mod_lt (word.toNat / 2 ^ (6 : Nat)) (Nat.two_pow_pos 26)
    have encoded := header.toNat_encode
    have allocatedBound := header.allocated.toNat_le
    have paddedBound := header.padded.toNat_le
    simp only [unusedBits] at value
    have sameFields : Header.decode word = Header.decode header.encode := by
      have allocated : word.toNat % 2 = header.encode.toNat % 2 := by omega
      have order : word.toNat / 2 % 16 = header.encode.toNat / 2 % 16 := by omega
      have padded : word.toNat / 2 ^ (5 : Nat) % 2 = header.encode.toNat / 2 ^ (5 : Nat) % 2 := by
        omega
      have requested : word.toNat / 2 ^ (32 : Nat) = header.encode.toNat / 2 ^ (32 : Nat) := by omega
      simp only [Header.decode, allocated, order, padded, requested]
    rw [sameFields, Header.decode_encode, Nat.mod_eq_of_lt small]

theorem madeFor_iff (served : size ≤ maxPayload) : header.MadeFor size ↔
    header = ⟨true, requestOrder size, decide (2 ^ requestOrder size - headerSize - size ≠ 0),
      UInt32.ofNat size⟩ := by
  have required : requiredOrder size = .ok (requestOrder size) := by
    apply requiredOrder_eq_ok
    simp only [maxPayload] at served
    omega
  have small : requestOrder size < 64 :=
    Nat.lt_of_le_of_lt (requestOrder_le_topOrder served) (by decide)
  have made := forRequest_eq_ok (minOrder_le_requestOrder size) small (UInt32.ofNat size)
  rw [toNat_ofNat_of_served served] at made
  constructor
  · intro madeFor
    rcases madeFor with ⟨order, order_eq, header_eq⟩
    rw [required] at order_eq
    cases order_eq
    rw [made] at header_eq
    exact (Except.ok.inj header_eq).symm
  · intro equal
    exact ⟨requestOrder size, required, equal ▸ made⟩

theorem MadeFor.toNat_requested (madeFor : header.MadeFor size) (served : size ≤ maxPayload) :
    header.requested.toNat = size := by
  rw [(madeFor_iff served).mp madeFor]
  exact toNat_ofNat_of_served served

theorem MadeFor.order_eq (madeFor : header.MadeFor size) (served : size ≤ maxPayload) :
    header.order = requestOrder size :=
  congrArg Header.order ((madeFor_iff served).mp madeFor)

theorem MadeFor.order_lt (madeFor : header.MadeFor size) (served : size ≤ maxPayload) :
    header.order < orderBound := by
  rw [madeFor.order_eq served]
  exact Nat.lt_succ_of_le (requestOrder_le_topOrder served)

end Header

namespace Arena

variable {arena : Arena} {address : Int} {offset : Nat} {header : Header}

namespace Endorses

theorem requested_le_maxPayload (endorses : arena.Endorses offset header) :
    header.requested.toNat ≤ maxPayload := by
  have length : 2 ^ header.order ≤ 2 ^ topOrder :=
    Nat.pow_le_pow_right (by decide) (Nat.le_of_lt_succ endorses.order_range.2)
  have room := endorses.room
  simp only [topOrder, headerSize] at length room
  simp only [maxPayload]
  omega

theorem madeFor (endorses : arena.Endorses offset header) :
    header.MadeFor header.requested.toNat := by
  refine (Header.madeFor_iff endorses.requested_le_maxPayload).mpr ?_
  rw [UInt32.ofNat_toNat, ← endorses.order_eq, ← endorses.padded_eq, ← endorses.allocated]

/-- A request has left the word, unless it holds something in the bits that are
not used, or is for no bytes. -/
theorem written_iff (endorses : arena.Endorses offset header) :
    Header.Written (arena.word offset) ↔
      header.requested ≠ 0 ∧ Header.unusedBits (arena.word offset) = 0 := by
  have small : header.order < 16 := Nat.lt_trans endorses.order_range.2 (by decide)
  have value := (Header.decode_eq_iff small).mp endorses.header_eq
  constructor
  · intro written
    rcases written with ⟨size, other, positive, served, madeFor, word_eq⟩
    have otherSmall : other.order < 16 := Nat.lt_trans (madeFor.order_lt served) (by decide)
    have same : header = other := by
      rw [← endorses.header_eq, word_eq, Header.decode_encode, Nat.mod_eq_of_lt otherSmall]
    subst same
    refine ⟨?_, ?_⟩
    · intro zero
      have requested := madeFor.toNat_requested served
      rw [zero] at requested
      exact Nat.ne_of_lt positive requested
    · have equal := congrArg UInt64.toNat word_eq
      omega
  · intro holds
    rcases holds with ⟨nonzero, unused⟩
    have positive : 0 < header.requested.toNat := by
      refine Nat.pos_of_ne_zero fun zero => nonzero (UInt32.toNat_inj.mp zero)
    refine ⟨_, header, positive, endorses.requested_le_maxPayload, endorses.madeFor, ?_⟩
    apply UInt64.toNat_inj.mp
    rw [value, unused, Nat.zero_mul, Nat.add_zero]

end Endorses

theorem endorses_of_madeFor {size : Nat} (inside : offset + headerSize < arena.size)
    (aligned : 2 ^ header.order ∣ offset) (served : size ≤ maxPayload)
    (madeFor : header.MadeFor size)
    (value : (arena.word offset).toNat =
      header.encode.toNat + Header.unusedBits (arena.word offset) * 2 ^ (6 : Nat)) :
    arena.Endorses offset header := by
  have header_eq := (Header.madeFor_iff served).mp madeFor
  have order_eq := madeFor.order_eq served
  have requested := madeFor.toNat_requested served
  have bounded := madeFor.order_lt served
  have least : minOrder ≤ header.order := order_eq ▸ minOrder_le_requestOrder size
  refine ⟨inside, ?_, ⟨least, bounded⟩, aligned, ?_, ?_, ?_⟩
  · exact (Header.decode_eq_iff (Nat.lt_trans bounded (by decide))).mpr value
  · exact congrArg Header.allocated header_eq
  · rw [requested, order_eq]
    exact congrArg Header.padded header_eq
  · rw [requested, order_eq]

/-- Validation accepts the header of any request that some block can hold, one
for no bytes included, with whatever in the bits that are not used. So an
accepted word is one that a request leaves just if it names some bytes and holds
nothing else. -/
theorem check_accepts_served (arena : Arena) (address : Int) (offset : Nat) (header : Header) :
    (arena.check address = .ok (.ok (offset, header)) ↔
      address = (offset + headerSize : Nat) ∧ offset + headerSize < arena.size ∧
        2 ^ header.order ∣ offset ∧ (∃ size, size ≤ maxPayload ∧ header.MadeFor size) ∧
        (arena.word offset).toNat =
          header.encode.toNat + Header.unusedBits (arena.word offset) * 2 ^ (6 : Nat)) ∧
    (arena.check address = .ok (.ok (offset, header)) →
      (Header.Written (arena.word offset) ↔
        header.requested ≠ 0 ∧ Header.unusedBits (arena.word offset) = 0)) := by
  rw [check_eq_ok_iff]
  refine ⟨⟨?_, ?_⟩, fun accepted => accepted.2.written_iff⟩
  · intro accepted
    rcases accepted with ⟨address_eq, endorses⟩
    have small : header.order < 16 := Nat.lt_trans endorses.order_range.2 (by decide)
    exact ⟨address_eq, endorses.inside, endorses.aligned,
      ⟨_, endorses.requested_le_maxPayload, endorses.madeFor⟩,
      (Header.decode_eq_iff small).mp endorses.header_eq⟩
  · intro holds
    rcases holds with ⟨address_eq, inside, aligned, ⟨size, served, madeFor⟩, value⟩
    exact ⟨address_eq, endorses_of_madeFor inside aligned served madeFor value⟩

/-- A block of 64 bytes for a request of 40. -/
theorem check_accepts_served_of_padded :
    (Arena.chunk.replaceWord 64 0x280000002d).check 72 = .ok (.ok (64, ⟨true, 6, true, 40⟩)) ∧
      Header.Written ((Arena.chunk.replaceWord 64 0x280000002d).word 64) := by
  let arena := Arena.chunk.replaceWord 64 0x280000002d
  have inside : 64 + headerSize < arena.size := by
    simp only [arena, size_replaceWord, size_chunk]
    decide
  have word_eq : arena.word 64 = 0x280000002d :=
    word_replaceWord_self (by rw [size_chunk]; decide) _
  have theorems := check_accepts_served arena 72 64 ⟨true, 6, true, 40⟩
  have accepted := theorems.1.mpr
    ⟨rfl, inside, by decide, ⟨40, by decide, 6, rfl, rfl⟩, by rw [word_eq]; rfl⟩
  exact ⟨accepted, (theorems.2 accepted).mpr ⟨by decide, by rw [word_eq]; rfl⟩⟩

/-- Neither a header for no bytes nor one with a stray bit is what a request
leaves, yet validation accepts both. -/
theorem accepts_unwritten :
    ((Arena.chunk.replaceWord 0 0x2b).check 8 = .ok (.ok (0, ⟨true, 5, true, 0⟩)) ∧
      ¬Header.Written ((Arena.chunk.replaceWord 0 0x2b).word 0)) ∧
    ((Arena.chunk.replaceWord 0 0x180000004b).check 8 = .ok (.ok (0, ⟨true, 5, false, 24⟩)) ∧
      ¬Header.Written ((Arena.chunk.replaceWord 0 0x180000004b).word 0)) := by
  have room : 0 + 8 < Arena.chunk.size := by
    rw [size_chunk]
    decide
  have word_eq (word : UInt64) : (Arena.chunk.replaceWord 0 word).word 0 = word :=
    word_replaceWord_self (Nat.le_of_lt room) word
  have inside (word : UInt64) : 0 + 8 < (Arena.chunk.replaceWord 0 word).size := by
    rwa [size_replaceWord]
  have empty : (Arena.chunk.replaceWord 0 0x2b).Endorses 0 ⟨true, 5, true, 0⟩ :=
    ⟨inside _, by rw [word_eq]; rfl, by decide, by decide, rfl, by decide, by decide⟩
  have stray : (Arena.chunk.replaceWord 0 0x180000004b).Endorses 0 ⟨true, 5, false, 24⟩ :=
    ⟨inside _, by rw [word_eq]; rfl, by decide, by decide, rfl, by decide, by decide⟩
  refine ⟨⟨check_eq_ok_iff.mpr ⟨rfl, empty⟩, ?_⟩, ⟨check_eq_ok_iff.mpr ⟨rfl, stray⟩, ?_⟩⟩
  · rw [empty.written_iff]
    simp
  · rw [stray.written_iff, word_eq]
    decide

end Arena

end BuddyHeap
