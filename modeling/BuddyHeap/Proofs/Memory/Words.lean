import BuddyHeap.Memory.Arena

/-! Words and bytes of an arena. A range that lies inside can be read and
written without a fault, and writing to it changes no byte outside of it. -/

namespace BuddyHeap

namespace Arena

variable {arena before after : Arena} {offset other count : Nat}

theorem checkRange_eq_ok (inside : offset + count ≤ arena.size) :
    arena.checkRange offset count = .ok () := by
  have sizeBound := arena.size_lt
  exact if_pos ⟨inside, by omega⟩

theorem add_eq_ok_of_inside (arena : Arena) (inside : offset + count ≤ arena.size) :
    Size.add offset count = .ok (offset + count) := by
  have sizeBound := arena.size_lt
  exact Size.add_eq_ok (by omega)

theorem readWord_eq_ok (inside : offset + 8 ≤ arena.size) :
    arena.readWord offset = .ok (arena.word offset) := by
  simp only [readWord, checkRange_eq_ok inside]
  rfl

@[simp] theorem capacity_overwrite (arena : Arena) (offset : Nat) (content : List UInt8) :
    (arena.overwrite offset content).capacity = arena.capacity := rfl

@[simp] theorem paging_overwrite (arena : Arena) (offset : Nat) (content : List UInt8) :
    (arena.overwrite offset content).paging = arena.paging := rfl

def replaceWord (arena : Arena) (offset : Nat) (word : UInt64) : Arena :=
  arena.overwrite offset (LittleEndian.bytes 8 word.toNat)

theorem writeWord_eq_ok (inside : offset + 8 ≤ arena.size) (word : UInt64) :
    arena.writeWord offset word = .ok (arena.replaceWord offset word) := by
  simp only [writeWord, checkRange_eq_ok inside]
  rfl

theorem eq_of_writeWord {word : UInt64} (written : arena.writeWord offset word = .ok after) :
    offset + 8 ≤ arena.size ∧ after = arena.replaceWord offset word := by
  by_cases inside : offset + 8 ≤ arena.size
  · rw [writeWord_eq_ok inside] at written
    exact ⟨inside, (Except.ok.inj written).symm⟩
  · have outside : arena.checkRange offset 8 = .error (.rangeOutside offset 8 arena.size) :=
      if_neg fun holds => inside holds.1
    simp only [writeWord, outside] at written
    cases written

@[simp] theorem size_replaceWord (arena : Arena) (offset : Nat) (word : UInt64) :
    (arena.replaceWord offset word).size = arena.size := size_overwrite ..

@[simp] theorem capacity_replaceWord (arena : Arena) (offset : Nat) (word : UInt64) :
    (arena.replaceWord offset word).capacity = arena.capacity := capacity_overwrite ..

@[simp] theorem paging_replaceWord (arena : Arena) (offset : Nat) (word : UInt64) :
    (arena.replaceWord offset word).paging = arena.paging := paging_overwrite ..

theorem byte_overwrite_of_outside (arena : Arena) {content : List UInt8} {index : Nat}
    (outside : index < offset ∨ offset + content.length ≤ index) :
    (arena.overwrite offset content).byte index = arena.byte index := by
  rw [byte_overwrite, if_neg]
  omega

theorem byte_overwrite_of_inside {content : List UInt8}
    (inside : offset + content.length ≤ arena.size) {distance : Nat}
    (within : distance < content.length) :
    (arena.overwrite offset content).byte (offset + distance) = content[distance] := by
  rw [byte_overwrite, if_pos (by omega), Nat.add_sub_cancel_left]
  exact (List.getElem_eq_getD 0).symm

theorem size_byteRange_toArray (arena : Arena) (offset count : Nat) :
    (arena.byteRange offset count).toArray.size = count := by
  simp [Arena.byteRange]

theorem byteRange_overwrite {distance size : Nat} {content : List UInt8}
    (inside : offset + size ≤ arena.size) :
    ((arena.overwrite (offset + distance) content).byteRange offset size).toArray =
      overwriteBytes (arena.byteRange offset size).toArray distance content := by
  have length : (arena.byteRange offset size).toArray.size = size := size_byteRange_toArray ..
  apply Array.ext
  · rw [size_overwriteBytes, length, size_byteRange_toArray]
  · intro index left right
    have below : index < size := by
      rwa [size_byteRange_toArray] at left
    have written := getD_overwriteBytes (arena.byteRange offset size).toArray distance content index
    have equal : ∀ bytes : Array UInt8, (within : index < bytes.size) →
        bytes[index] = bytes.getD index 0 := by
      intro bytes within
      simp [within]
    rw [equal _ right, written, length]
    have unwritten : (arena.byteRange offset size).toArray.getD index 0 =
        arena.byte (offset + index) := by
      rw [← equal _ (length.symm ▸ below)]
      simp [Arena.byteRange]
    rw [unwritten]
    simp only [Arena.byteRange, List.getElem_toArray, List.getElem_map, List.getElem_range]
    rw [byte_overwrite]
    have shift : offset + index - (offset + distance) = index - distance := by omega
    have range : (offset + distance ≤ offset + index ∧
        offset + index < offset + distance + content.length ∧ offset + index < arena.size) ↔
        (distance ≤ index ∧ index < distance + content.length ∧ index < size) := by omega
    simp only [range, shift]

theorem byte_replaceWord_of_outside (arena : Arena) (word : UInt64) {index : Nat}
    (outside : index < offset ∨ offset + 8 ≤ index) :
    (arena.replaceWord offset word).byte index = arena.byte index := by
  apply byte_overwrite_of_outside
  rwa [LittleEndian.length_bytes]

theorem word_eq_of_byte_eq
    (equal : ∀ index, index < 8 → after.byte (other + index) = before.byte (offset + index)) :
    after.word other = before.word offset := by
  have ranges : after.byteRange other 8 = before.byteRange offset 8 :=
    List.map_congr_left fun index member => equal index (List.mem_range.mp member)
  rw [word, word, ranges]

theorem word_congr
    (equal : ∀ index, offset ≤ index → index < offset + 8 → after.byte index = before.byte index) :
    after.word offset = before.word offset :=
  word_eq_of_byte_eq fun index below => equal (offset + index) (by omega) (by omega)

theorem word_replaceWord_self (inside : offset + 8 ≤ arena.size) (word : UInt64) :
    (arena.replaceWord offset word).word offset = word := by
  have written : (arena.replaceWord offset word).byteRange offset 8 =
      LittleEndian.bytes 8 word.toNat := by
    apply List.ext_getElem
    · simp [byteRange, LittleEndian.length_bytes]
    · intro index left right
      rw [LittleEndian.length_bytes] at right
      simp only [byteRange, List.getElem_map, List.getElem_range]
      exact byte_overwrite_of_inside (by rw [LittleEndian.length_bytes]; exact inside) _
  have bounded : word.toNat < 256 ^ 8 := Nat.lt_of_lt_of_le word.toNat_lt (by decide)
  rw [Arena.word, written, LittleEndian.number_bytes, Nat.mod_eq_of_lt bounded]
  exact UInt64.ofNat_toNat

theorem word_replaceWord_of_disjoint (arena : Arena) (word : UInt64)
    (disjoint : other + 8 ≤ offset ∨ offset + 8 ≤ other) :
    (arena.replaceWord offset word).word other = arena.word other := by
  apply word_congr
  intro index lower upper
  apply byte_replaceWord_of_outside
  omega

/-! ## What a change leaves alone -/

/-- Nothing but the bytes that `Changed` names differs, and how far the arena
may grow is the same. Its size is not looked at. -/
structure AgreeOutside (Changed : Nat → Prop) (before after : Arena) : Prop where
  capacity_eq : after.capacity = before.capacity
  paging_eq : after.paging = before.paging
  byte_eq : ∀ index, ¬Changed index → after.byte index = before.byte index

namespace AgreeOutside

variable {Changed Larger : Nat → Prop} {middle : Arena}

theorem refl (Changed : Nat → Prop) (arena : Arena) : AgreeOutside Changed arena arena :=
  ⟨rfl, rfl, fun _ _ => rfl⟩

theorem symm (agree : AgreeOutside Changed before after) : AgreeOutside Changed after before :=
  ⟨agree.capacity_eq.symm, agree.paging_eq.symm, fun index unchanged =>
    (agree.byte_eq index unchanged).symm⟩

theorem trans (first : AgreeOutside Changed before middle)
    (second : AgreeOutside Changed middle after) : AgreeOutside Changed before after where
  capacity_eq := second.capacity_eq.trans first.capacity_eq
  paging_eq := second.paging_eq.trans first.paging_eq
  byte_eq index unchanged :=
    (second.byte_eq index unchanged).trans (first.byte_eq index unchanged)

theorem mono (agree : AgreeOutside Changed before after)
    (larger : ∀ index, Changed index → Larger index) : AgreeOutside Larger before after where
  capacity_eq := agree.capacity_eq
  paging_eq := agree.paging_eq
  byte_eq index unchanged := agree.byte_eq index fun changed => unchanged (larger index changed)

theorem word_eq (agree : AgreeOutside Changed before after)
    (unchanged : ∀ index, offset ≤ index → index < offset + 8 → ¬Changed index) :
    after.word offset = before.word offset :=
  word_congr fun index lower upper => agree.byte_eq index (unchanged index lower upper)

theorem eq_of_none (agree : AgreeOutside Changed before after) (size_eq : after.size = before.size)
    (none : ∀ index, ¬Changed index) : after = before := by
  have bytes_eq : after.bytes = before.bytes := by
    apply Array.ext size_eq
    intro index left right
    have equal := agree.byte_eq index (none index)
    simpa [byte, left, right] using equal
  have capacity_eq := agree.capacity_eq
  have paging_eq := agree.paging_eq
  cases before
  cases after
  subst bytes_eq capacity_eq paging_eq
  rfl

theorem overwrite (agree : AgreeOutside Changed before after) (size_eq : after.size = before.size)
    {content : List UInt8} (inside : offset + content.length ≤ before.size) :
    AgreeOutside (fun index => Changed index ∧ ¬(offset ≤ index ∧ index < offset + content.length))
      (before.overwrite offset content) (after.overwrite offset content) where
  capacity_eq := agree.capacity_eq
  paging_eq := agree.paging_eq
  byte_eq index unchanged := by
    rw [byte_overwrite, byte_overwrite, size_eq]
    by_cases covered : offset ≤ index ∧ index < offset + content.length
    · have written : offset ≤ index ∧ index < offset + content.length ∧ index < before.size :=
        ⟨covered.1, covered.2, Nat.lt_of_lt_of_le covered.2 inside⟩
      rw [if_pos written, if_pos written]
    · have unwritten : ¬(offset ≤ index ∧ index < offset + content.length ∧ index < before.size) :=
        fun holds => covered ⟨holds.1, holds.2.1⟩
      rw [if_neg unwritten, if_neg unwritten]
      exact agree.byte_eq index fun changed => unchanged ⟨changed, covered⟩

theorem replaceWord (agree : AgreeOutside Changed before after) (size_eq : after.size = before.size)
    (inside : offset + 8 ≤ before.size) (word : UInt64) :
    AgreeOutside (fun index => Changed index ∧ ¬(offset ≤ index ∧ index < offset + 8))
      (before.replaceWord offset word) (after.replaceWord offset word) := by
  have length := LittleEndian.length_bytes 8 word.toNat
  have room : offset + (LittleEndian.bytes 8 word.toNat).length ≤ before.size := by rwa [length]
  have written := agree.overwrite size_eq room
  rwa [length] at written

end AgreeOutside

theorem agreeOutside_overwrite {Changed : Nat → Prop} (arena : Arena) (content : List UInt8)
    (covered : ∀ index, offset ≤ index → index < offset + content.length → Changed index) :
    AgreeOutside Changed arena (arena.overwrite offset content) where
  capacity_eq := rfl
  paging_eq := rfl
  byte_eq index unchanged := by
    apply byte_overwrite_of_outside
    by_cases inside : offset ≤ index ∧ index < offset + content.length
    · exact absurd (covered index inside.1 inside.2) unchanged
    · omega

theorem agreeOutside_replaceWord {Changed : Nat → Prop} (arena : Arena) (word : UInt64)
    (covered : ∀ index, offset ≤ index → index < offset + 8 → Changed index) :
    AgreeOutside Changed arena (arena.replaceWord offset word) := by
  apply agreeOutside_overwrite
  rwa [LittleEndian.length_bytes]

-- Comparing two arenas by evaluation would go through every byte written.
attribute [irreducible] replaceWord

end Arena

end BuddyHeap
