import Mathlib.Data.Nat.Bitwise
import Mathlib.Data.Set.Function
import BuddyHeap.Proofs.Memory.Acceptance

/-! The header word bit by bit. Each field of a header has its own bits in the
word, so that encoding and decoding undo each other but for two losses: the high
bits of an order that four bits do not hold, and whatever a word has in the bits
that no field uses. -/

namespace BuddyHeap

theorem toNat_or_shiftLeft {low high amount : UInt64} (count : Nat)
    (amount_eq : amount.toNat = count) (bounded : count < 64) (low_lt : low.toNat < 2 ^ count)
    (fits : high.toNat * 2 ^ count < 2 ^ (64 : Nat)) :
    (low ||| high <<< amount).toNat = low.toNat + high.toNat * 2 ^ count := by
  have shifted : (high <<< amount).toNat = high.toNat <<< count := by
    rw [UInt64.toNat_shiftLeft, amount_eq, Nat.mod_eq_of_lt bounded, Nat.mod_eq_of_lt]
    rwa [Nat.shiftLeft_eq]
  rw [UInt64.toNat_or, shifted, Nat.or_comm, ← Nat.shiftLeft_add_eq_or_of_lt low_lt,
    Nat.shiftLeft_eq, Nat.add_comm]

theorem toNat_and_fifteen (word : UInt64) : (word &&& 0xf).toNat = word.toNat % 16 := by
  have mask : (0xf : UInt64).toNat = 2 ^ (4 : Nat) - 1 := rfl
  rw [UInt64.toNat_and, mask, Nat.and_two_pow_sub_one_eq_mod]

theorem and_bne_zero (word : UInt64) {mask : UInt64} {place : Nat} (single : mask.toNat = 2 ^ place) :
    (word &&& mask != 0) = (word.toNat / 2 ^ place % 2 == 1) := by
  have masked : (word &&& mask).toNat = (word.toNat.testBit place).toNat * 2 ^ place := by
    rw [UInt64.toNat_and, single, Nat.and_two_pow]
  have positive := Nat.two_pow_pos place
  rw [Bool.eq_iff_iff, bne_iff_ne, beq_iff_eq, ne_eq, ← UInt64.toNat_inj, masked,
    Nat.testBit_eq_decide_div_mod_eq]
  by_cases odd : word.toNat / 2 ^ place % 2 = 1
  · simp [odd]
  · simp [odd]

namespace Header

variable {header : Header} {word other : UInt64} {first count value place : Nat}

/-- The `count` bits of the word from the bit `first` up are the low bits of the
value. -/
def HasField (word : UInt64) (first count value : Nat) : Prop :=
  ∀ place, place < count → word.toNat.testBit (place + first) = value.testBit place

structure Holds (word : UInt64) (header : Header) : Prop where
  allocated : HasField word 0 1 header.allocated.toNat
  order : HasField word 1 4 header.order
  padded : HasField word 5 1 header.padded.toNat
  requested : HasField word 32 32 header.requested.toNat

/-- The bits between the padded bit and the requested size are zero. -/
def Clear (word : UInt64) : Prop := HasField word 6 26 0

theorem hasField_iff :
    HasField word first count value ↔ word.toNat / 2 ^ first % 2 ^ count = value % 2 ^ count := by
  constructor
  · intro has
    apply Nat.eq_of_testBit_eq
    intro place
    rw [Nat.testBit_mod_two_pow, Nat.testBit_mod_two_pow, Nat.testBit_div_two_pow]
    by_cases inside : place < count
    · rw [has place inside]
    · simp [inside]
  · intro equal place inside
    have bits := congrArg (Nat.testBit · place) equal
    simpa [Nat.testBit_mod_two_pow, Nat.testBit_div_two_pow, inside] using bits

theorem clear_iff : Clear word ↔ unusedBits word = 0 := hasField_iff

theorem holds_encode (header : Header) : Holds header.encode header := by
  have encoded := header.toNat_encode
  have allocatedBound := header.allocated.toNat_le
  have paddedBound := header.padded.toNat_le
  constructor <;> rw [hasField_iff] <;> omega

theorem clear_encode (header : Header) : Clear header.encode := by
  have encoded := header.toNat_encode
  have allocatedBound := header.allocated.toNat_le
  have paddedBound := header.padded.toNat_le
  rw [clear_iff, unusedBits]
  omega

theorem holds_decode (word : UInt64) : Holds word (decode word) := by
  constructor <;> rw [hasField_iff] <;>
    simp only [decode, toNat_mod_two_beq, UInt32.toNat_ofNat'] <;> omega

theorem HasField.testBit_eq (has : HasField word first count value)
    (otherHas : HasField other first count value) (atLeast : first ≤ place)
    (below : place < first + count) : word.toNat.testBit place = other.toNat.testBit place := by
  have inside : place - first < count := by omega
  rw [← Nat.sub_add_cancel atLeast, has _ inside, otherHas _ inside]

theorem testBit_beyond (word : UInt64) (beyond : 64 ≤ place) : word.toNat.testBit place = false :=
  Nat.testBit_lt_two_pow
    (Nat.lt_of_lt_of_le word.toNat_lt (Nat.pow_le_pow_right (by decide) beyond))

theorem Holds.testBit_eq (holds : Holds word header) (otherHolds : Holds other header)
    (used : ¬(6 ≤ place ∧ place < 32)) : word.toNat.testBit place = other.toNat.testBit place := by
  rcases (by omega : place = 0 ∨ (1 ≤ place ∧ place < 5) ∨ place = 5 ∨
      (32 ≤ place ∧ place < 64) ∨ 64 ≤ place) with rfl | order | rfl | requested | beyond
  · exact holds.allocated.testBit_eq otherHolds.allocated (by decide) (by decide)
  · exact holds.order.testBit_eq otherHolds.order order.1 order.2
  · exact holds.padded.testBit_eq otherHolds.padded (by decide) (by decide)
  · exact holds.requested.testBit_eq otherHolds.requested requested.1 requested.2
  · rw [testBit_beyond word beyond, testBit_beyond other beyond]

theorem Clear.testBit_eq (clear : Clear word) (unused : 6 ≤ place ∧ place < 32) :
    word.toNat.testBit place = false := by
  have zero := clear (place - 6) (by omega)
  rwa [Nat.sub_add_cancel unused.1, Nat.zero_testBit] at zero

theorem testBit_encode_decode (word : UInt64) (place : Nat) :
    (decode word).encode.toNat.testBit place =
      if 6 ≤ place ∧ place < 32 then false else word.toNat.testBit place := by
  by_cases unused : 6 ≤ place ∧ place < 32
  · rw [if_pos unused, (decode word).clear_encode.testBit_eq unused]
  · rw [if_neg unused]
    exact (decode word).holds_encode.testBit_eq (holds_decode word) unused

theorem decode_encode_eq_iff : decode header.encode = header ↔ header.order < 16 := by
  rw [decode_encode]
  constructor
  · intro same
    have order : header.order % 16 = header.order := congrArg Header.order same
    exact order ▸ Nat.mod_lt _ (by decide)
  · intro small
    rw [Nat.mod_eq_of_lt small]

theorem encode_decode_eq_iff : (decode word).encode = word ↔ Clear word := by
  have parts := toNat_encode_decode word
  rw [clear_iff, ← UInt64.toNat_inj]
  omega

theorem invOn_decode_encode :
    Set.InvOn decode encode {header | header.order < 16} {word | Clear word} :=
  ⟨fun _ small => decode_encode_eq_iff.mpr small, fun _ clear => encode_decode_eq_iff.mpr clear⟩

theorem bijOn_encode : Set.BijOn encode {header | header.order < 16} {word | Clear word} :=
  invOn_decode_encode.bijOn (fun header _ => header.clear_encode)
    fun word _ => order_decode_lt word

/-- A header and its word determine each other, among headers whose order fits
four bits and words that have nothing in the unused bits. -/
theorem codec_inverts :
    (∀ header : Header, Holds header.encode header ∧ Clear header.encode ∧
      decode header.encode = { header with order := header.order % 16 } ∧
      (decode header.encode = header ↔ header.order < 16)) ∧
    (∀ word : UInt64, Holds word (decode word) ∧
      (∀ place, (decode word).encode.toNat.testBit place =
        if 6 ≤ place ∧ place < 32 then false else word.toNat.testBit place) ∧
      ((decode word).encode = word ↔ Clear word)) ∧
    Set.BijOn encode {header | header.order < 16} {word | Clear word} := by
  refine ⟨?_, ?_, bijOn_encode⟩
  · intro header
    exact ⟨header.holds_encode, header.clear_encode, header.decode_encode, decode_encode_eq_iff⟩
  · intro word
    exact ⟨holds_decode word, testBit_encode_decode word, encode_decode_eq_iff⟩

/-- An order of five bits loses one, and a word loses what it has in bit 6. -/
theorem codec_inverts_of_stray :
    decode (encode ⟨true, 21, true, 400⟩) = ⟨true, 5, true, 400⟩ ∧
      (decode 0x180000004b).encode.toNat.testBit 6 = false ∧
      (decode 0x180000004b).encode ≠ 0x180000004b := by
  rcases codec_inverts with ⟨headers, words, _⟩
  refine ⟨(headers ⟨true, 21, true, 400⟩).2.2.1, (words 0x180000004b).2.1 6, ?_⟩
  intro same
  have bit := (words 0x180000004b).2.1 6
  rw [same] at bit
  exact absurd bit (by decide)

/-! ## By masks and shifts -/

/-- The word is the fields shifted to their bits, and none of them runs into
another. -/
theorem encode_eq_or (header : Header) : header.encode =
    header.allocated.toUInt64 ||| (UInt64.ofNat header.order &&& 0xf) <<< 1 |||
      header.padded.toUInt64 <<< 5 ||| header.requested.toUInt64 <<< 32 := by
  have allocatedBound := header.allocated.toNat_le
  have paddedBound := header.padded.toNat_le
  have requestedBound := header.requested.toNat_lt
  have toNat_bit : ∀ bit : Bool, bit.toUInt64.toNat = bit.toNat := by decide
  have allocated := toNat_bit header.allocated
  have padded := toNat_bit header.padded
  have requested := header.requested.toNat_toUInt64
  have order : (UInt64.ofNat header.order &&& 0xf).toNat = header.order % 16 := by
    rw [toNat_and_fifteen, UInt64.toNat_ofNat']
    omega
  have ordered : (header.allocated.toUInt64 |||
      (UInt64.ofNat header.order &&& 0xf) <<< 1).toNat =
      header.allocated.toNat + header.order % 16 * 2 := by
    rw [toNat_or_shiftLeft 1 (by rfl) (by decide) (by omega) (by omega), allocated, order,
      Nat.pow_one]
  have flagged : (header.allocated.toUInt64 ||| (UInt64.ofNat header.order &&& 0xf) <<< 1 |||
      header.padded.toUInt64 <<< 5).toNat =
      header.allocated.toNat + header.order % 16 * 2 + header.padded.toNat * 2 ^ (5 : Nat) := by
    rw [toNat_or_shiftLeft 5 (by rfl) (by decide) (by omega) (by omega), ordered, padded]
  apply UInt64.toNat_inj.mp
  rw [toNat_encode, toNat_or_shiftLeft 32 (by rfl) (by decide) (by omega) (by omega), flagged,
    requested]

theorem decode_eq_and (word : UInt64) : decode word =
    ⟨word &&& 1 != 0, (word >>> 1 &&& 0xf).toNat, word &&& 0x20 != 0, (word >>> 32).toUInt32⟩ := by
  have allocated : (word &&& 1 != 0) = (word.toNat % 2 == 1) := by
    have single : (1 : UInt64).toNat = 2 ^ (0 : Nat) := rfl
    rw [and_bne_zero word single, Nat.pow_zero, Nat.div_one]
  have order : (word >>> 1 &&& 0xf).toNat = word.toNat / 2 % 16 := toNat_and_fifteen (word >>> 1)
  have padded : (word &&& 0x20 != 0) = (word.toNat / 2 ^ (5 : Nat) % 2 == 1) := and_bne_zero word rfl
  have requested : (word >>> 32).toUInt32 = UInt32.ofNat (word.toNat / 2 ^ (32 : Nat)) := by
    apply UInt32.toNat_inj.mp
    rw [UInt64.toNat_toUInt32, UInt64.toNat_shiftRight, UInt32.toNat_ofNat',
      Nat.shiftRight_eq_div_pow]
    rfl
  rw [allocated, order, padded, requested, decode]

end Header

end BuddyHeap
