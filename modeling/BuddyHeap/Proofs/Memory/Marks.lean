import BuddyHeap.Proofs.Memory.Nodes
import BuddyHeap.Proofs.Memory.Verdicts

/-! The places where the allocated bit is set. Validation accepts no block that
starts anywhere else, whatever the rest of the word says, so that it is enough
to follow the first byte of every place that a block can start at. -/

namespace BuddyHeap

namespace Arena

variable {arena before after : Arena} {offset place source target count : Nat}

/-- A block can start at `offset`, and the allocated bit is set there. -/
structure Marked (arena : Arena) (offset : Nat) : Prop where
  aligned : minBlockSize ∣ offset
  odd : (arena.byte offset).toNat % 2 = 1

theorem toNat_word_mod_two (arena : Arena) (offset : Nat) :
    (arena.word offset).toNat % 2 = (arena.byte offset).toNat % 2 := by
  have bytes : arena.byteRange offset 8 =
      arena.byte offset :: (List.range 7).map fun index => arena.byte (offset + (index + 1)) := by
    simp only [byteRange, List.range_succ_eq_map, List.map_cons, List.map_map, Nat.add_zero]
    rfl
  rw [word, bytes, LittleEndian.number, UInt64.toNat_ofNat',
    Nat.mod_mod_of_dvd _ (by decide : 2 ∣ 2 ^ (64 : Nat))]
  omega

theorem allocated_decode_word : (Header.decode (arena.word offset)).allocated = true ↔
    (arena.byte offset).toNat % 2 = 1 := by
  rw [← toNat_word_mod_two, Header.decode, beq_iff_eq]

theorem minBlockSize_dvd {order : Nat} (least : minOrder ≤ order) (aligned : 2 ^ order ∣ offset) :
    minBlockSize ∣ offset :=
  Nat.dvd_trans (Nat.pow_dvd_pow 2 least) aligned

theorem Endorses.marked {header : Header} (endorses : arena.Endorses offset header) :
    arena.Marked offset where
  aligned := minBlockSize_dvd endorses.order_range.1 endorses.aligned
  odd := allocated_decode_word.mp (endorses.header_eq ▸ endorses.allocated)

theorem not_marked_of_free {order : Nat} (word_eq : arena.word offset = (Header.free order).encode) :
    ¬arena.Marked offset := by
  intro marked
  have allocated := allocated_decode_word.mpr marked.odd
  rw [word_eq, Header.decode_encode] at allocated
  cases allocated

theorem Marked.of_byte_eq (marked : after.Marked offset)
    (byte_eq : after.byte offset = before.byte offset) : before.Marked offset :=
  ⟨marked.aligned, byte_eq ▸ marked.odd⟩

theorem Marked.eq_of_near (marked : arena.Marked place) (aligned : minBlockSize ∣ offset)
    (lower : offset ≤ place) (upper : place < offset + minBlockSize) : place = offset := by
  have divides := Nat.dvd_sub marked.aligned aligned
  have none := Nat.eq_zero_of_dvd_of_lt divides (by omega)
  omega

/-! ## What a change can set -/

/-- Nodes of free blocks set the bit nowhere. -/
theorem AgreeOutside.marked_of_nodes {IsNode : Nat → Prop}
    (agree : AgreeOutside (NodeBytes IsNode) before after)
    (nodes : ∀ node, IsNode node →
      minBlockSize ∣ node ∧ ∃ order, after.word node = (Header.free order).encode)
    (marked : after.Marked place) : before.Marked place := by
  apply marked.of_byte_eq
  apply agree.byte_eq
  intro bytes
  rcases bytes with ⟨node, isNode, lower, upper⟩
  rcases nodes node isNode with ⟨aligned, order, word_eq⟩
  have near : place < node + minBlockSize :=
    Nat.lt_of_lt_of_le upper (Nat.add_le_add_left (by decide) _)
  have same := marked.eq_of_near aligned lower near
  subst same
  exact not_marked_of_free word_eq marked

theorem AgreeOutside.marked_of_word
    (agree : AgreeOutside (fun index => offset ≤ index ∧ index < offset + 8) before after)
    (aligned : minBlockSize ∣ offset) (marked : after.Marked place) :
    place = offset ∨ before.Marked place := by
  by_cases within : offset ≤ place ∧ place < offset + 8
  · have near : place < offset + minBlockSize := Nat.lt_of_lt_of_le within.2
      (Nat.add_le_add_left (by decide) _)
    exact .inl (marked.eq_of_near aligned within.1 near)
  · exact .inr (marked.of_byte_eq (agree.byte_eq place within))

/-- A place in the block at `target` is as far from its start as one that is
marked in the block at `source`, behind whose header `count` bytes are copied. -/
def Carries (arena : Arena) (source target count place : Nat) : Prop :=
  ∃ distance, place = target + distance ∧ 0 < distance ∧ distance < count + headerSize ∧
    arena.Marked (source + distance)

theorem Carries.imp (carries : after.Carries source target count place)
    (marked : ∀ distance, 0 < distance → distance < count + headerSize →
      after.Marked (source + distance) → before.Marked (source + distance)) :
    before.Carries source target count place := by
  rcases carries with ⟨distance, place_eq, positive, below, inside⟩
  exact ⟨distance, place_eq, positive, below, marked distance positive below inside⟩

theorem AgreeOutside.marked_of_copy
    (agree : AgreeOutside (fun index => target + 8 ≤ index ∧ index < target + 8 + count) before after)
    (copied : ∀ index, index < count →
      after.byte (target + 8 + index) = before.byte (source + 8 + index))
    (sourceAligned : minBlockSize ∣ source) (targetAligned : minBlockSize ∣ target)
    (marked : after.Marked place) :
    before.Carries source target count place ∨ before.Marked place := by
  by_cases within : target + 8 ≤ place ∧ place < target + 8 + count
  · obtain ⟨distance, rfl⟩ := Nat.exists_eq_add_of_le (Nat.le_of_add_right_le within.1)
    have aligned : minBlockSize ∣ distance := (Nat.dvd_add_right targetAligned).mp marked.aligned
    obtain ⟨index, rfl⟩ := Nat.exists_eq_add_of_le (by omega : 8 ≤ distance)
    have same := copied index (by omega)
    rw [Nat.add_assoc, Nat.add_assoc] at same
    refine .inl ⟨8 + index, rfl, by omega, by simp only [headerSize]; omega,
      Nat.dvd_add sourceAligned aligned, ?_⟩
    rw [← same]
    exact marked.odd
  · exact .inr (marked.of_byte_eq (agree.byte_eq place within))

end Arena

end BuddyHeap
