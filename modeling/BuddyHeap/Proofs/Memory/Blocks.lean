import BuddyHeap.Proofs.Memory.Growth
import BuddyHeap.Proofs.Memory.Nodes

/-! What is written as a block is read as that block, wherever it lies. Every
write has a range of its own, and what is read from elsewhere stays the same. -/

namespace BuddyHeap

variable {arena before after : Arena} {offset other order start count : Nat} {block : Block}
  {previous following link : Link} {word : UInt64}

namespace Block

/-- Memory has a code for the block, and the code says what it is. -/
def Representable : Block → Prop
  | allocated header => header.allocated = true ∧ header.order < 16
  | free order previous following => order < 16 ∧ previous.Encodable ∧ following.Encodable

def writtenSize : Block → Nat
  | allocated _ => headerSize
  | free .. => nodeSize

end Block

namespace Arena

/-! ## Reading -/

theorem inside_of_readWord (read : arena.readWord offset = .ok word) :
    offset + 8 ≤ arena.size := by
  by_cases inside : offset + 8 ≤ arena.size
  · exact inside
  · have refused : arena.checkRange offset 8 = .error (.rangeOutside offset 8 arena.size) :=
      if_neg fun holds => inside holds.1
    simp only [readWord, refused] at read
    cases read

theorem inside_of_readBlock_eq_free
    (read : arena.readBlock offset = .ok (.free order previous following)) :
    offset + nodeSize ≤ arena.size := by
  rcases exists_of_bind_eq_ok read with ⟨word, _, rest⟩
  simp only at rest
  split at rest
  · cases rest
  · rcases exists_of_bind_eq_ok rest with ⟨_, _, rest⟩
    rcases exists_of_bind_eq_ok rest with ⟨_, _, rest⟩
    rcases exists_of_bind_eq_ok rest with ⟨place, added, rest⟩
    rcases exists_of_bind_eq_ok rest with ⟨_, last, _⟩
    have place_eq := Size.eq_add_of_add added
    subst place_eq
    exact inside_of_readWord last

theorem readBlock_eq_free_iff :
    arena.readBlock offset = .ok (.free order previous following) ↔
      offset + nodeSize ≤ arena.size ∧
        (Header.decode (arena.word offset)).allocated = false ∧
        (Header.decode (arena.word offset)).order = order ∧
        Link.decode (arena.word (offset + 8)) = previous ∧
        Link.decode (arena.word (offset + 16)) = following := by
  constructor
  · intro read
    have inside := inside_of_readBlock_eq_free read
    rw [readBlock_eq_ok inside, blockAt] at read
    split at read
    · cases read
    · rename_i unset
      simp only [Except.ok.injEq, Block.free.injEq] at read
      exact ⟨inside, Bool.eq_false_iff.mpr unset, read⟩
  · intro holds
    rcases holds with ⟨inside, unset, rfl, rfl, rfl⟩
    rw [readBlock_eq_ok inside, blockAt, unset]
    rfl

/-! ## Changes in one range -/

/-- Nothing has changed but `count` bytes from `start` on, if those. -/
structure ChangedIn (start count : Nat) (before after : Arena) : Prop where
  size_eq : after.size = before.size
  agree : AgreeOutside (fun index => start ≤ index ∧ index < start + count) before after

theorem changedIn_replaceWord (arena : Arena) (offset : Nat) (word : UInt64) :
    ChangedIn offset 8 arena (arena.replaceWord offset word) where
  size_eq := arena.size_replaceWord offset word
  agree := arena.agreeOutside_replaceWord word fun _ lower upper => ⟨lower, upper⟩

theorem changedIn_formatNode (arena : Arena) (offset order : Nat) (previous following : Link) :
    ChangedIn offset nodeSize arena (arena.formatNode offset order previous following) where
  size_eq := arena.size_formatNode offset order previous following
  agree := by
    apply (arena.agreeOutside_formatNode (· = offset) rfl order previous following).mono
    intro index bytes
    rcases bytes with ⟨_, rfl, lower, upper⟩
    exact ⟨lower, upper⟩

namespace ChangedIn

theorem word_eq (changed : ChangedIn start count before after)
    (apart : other + 8 ≤ start ∨ start + count ≤ other) : after.word other = before.word other :=
  changed.agree.word_eq fun index lower upper range => by omega

/-- A word elsewhere is read as before, or turned down as before. -/
theorem readWord_eq (changed : ChangedIn start count before after)
    (apart : other + 8 ≤ start ∨ start + count ≤ other) :
    after.readWord other = before.readWord other := by
  simp only [readWord, checkRange, changed.size_eq, changed.word_eq apart]

theorem readWord_beyond_eq (changed : ChangedIn start count before after) (other distance : Nat)
    (apart : other + distance + 8 ≤ start ∨ start + count ≤ other + distance) :
    (Size.add other distance >>= after.readWord) =
      Size.add other distance >>= before.readWord := by
  cases added : Size.add other distance with
  | error fault => rfl
  | ok place =>
      have place_eq := Size.eq_add_of_add added
      subst place_eq
      exact changed.readWord_eq apart

theorem readBlock_eq (changed : ChangedIn start count before after)
    (apart : other + nodeSize ≤ start ∨ start + count ≤ other) :
    after.readBlock other = before.readBlock other := by
  simp only [nodeSize] at apart
  have header : after.readWord other = before.readWord other := changed.readWord_eq (by omega)
  have previous := changed.readWord_beyond_eq other 8 (by omega)
  have following := changed.readWord_beyond_eq other 16 (by omega)
  simp only [readBlock, header, ← bind_assoc, previous, following]

end ChangedIn

/-- Nothing has changed but `count` bytes from `start` on, and no block that lies
apart from them is read otherwise. -/
structure Isolated (start count : Nat) (before after : Arena) : Prop
    extends ChangedIn start count before after where
  elsewhere : ∀ other, other + nodeSize ≤ start ∨ start + count ≤ other →
    after.readBlock other = before.readBlock other

theorem ChangedIn.isolated (changed : ChangedIn start count before after) :
    Isolated start count before after :=
  ⟨changed, fun _ apart => changed.readBlock_eq apart⟩

/-! ## Setting links -/

structure SetsLinks (arena : Arena) (offset order : Nat) (previous following link : Link) :
    Prop where
  previous_set : Yields (arena.writePrevious offset link) fun after =>
    after.readBlock offset = .ok (.free order link following) ∧
      Isolated (offset + 8) 8 arena after
  following_set : Yields (arena.writeFollowing offset link) fun after =>
    after.readBlock offset = .ok (.free order previous link) ∧
      Isolated (offset + 16) 8 arena after

theorem setsLink {distance : Nat}
    (read : arena.readBlock offset = .ok (.free order previous following))
    (encodable : link.Encodable) (place : distance = 8 ∨ distance = 16) :
    Yields (Size.add offset distance >>= fun place => arena.writeWord place link.encode) fun after =>
      after.readBlock offset = .ok (.free order (if distance = 8 then link else previous)
        (if distance = 16 then link else following)) ∧ Isolated (offset + distance) 8 arena after := by
  rcases readBlock_eq_free_iff.mp read with ⟨inside, unset, order_eq, previous_eq, following_eq⟩
  have room : offset + 24 ≤ arena.size := inside
  have changed := arena.changedIn_replaceWord (offset + distance) link.encode
  have header : (arena.replaceWord (offset + distance) link.encode).word offset =
      arena.word offset := changed.word_eq (by omega)
  refine .of_eq (writeLink_eq_ok inside (by simp only [nodeSize]; omega) _) ⟨?_, changed.isolated⟩
  rw [readBlock_eq_free_iff, header, decode_replaceLink (by omega) encodable (by omega),
    decode_replaceLink (by omega) encodable (by omega), previous_eq, following_eq]
  exact ⟨by rwa [size_replaceWord], unset, order_eq, rfl, rfl⟩

theorem setsLinks (read : arena.readBlock offset = .ok (.free order previous following))
    (encodable : link.Encodable) : arena.SetsLinks offset order previous following link where
  previous_set := setsLink read encodable (.inl rfl)
  following_set := setsLink read encodable (.inr rfl)

/-! ## Writing -/

structure Holds (before : Arena) (offset : Nat) (block : Block) (after : Arena) : Prop where
  read_eq : after.readBlock offset = .ok block
  isolated : Isolated offset block.writtenSize before after

theorem writeBlock_holds (inside : offset + nodeSize ≤ arena.size)
    (representable : block.Representable) :
    Yields (arena.writeBlock offset block) (arena.Holds offset block) := by
  cases block with
  | allocated header =>
      have room : offset + 8 ≤ arena.size := Nat.le_trans (Nat.add_le_add_left (by decide) _) inside
      refine .of_eq (writeWord_eq_ok room _) ⟨?_, (arena.changedIn_replaceWord ..).isolated⟩
      exact readBlock_eq_allocated (by rwa [size_replaceWord]) (word_replaceWord_self room _)
        representable.1 representable.2
  | free order previous following =>
      rcases representable with ⟨bounded, previousEncodable, followingEncodable⟩
      have node :
          (arena.formatNode offset order previous following).NodeAt offset order previous following :=
        nodeAt_formatNode inside previousEncodable followingEncodable
      exact .of_eq (writeBlock_free_eq_ok inside ..)
        ⟨node.readBlock_eq bounded, (arena.changedIn_formatNode ..).isolated⟩

/-- What is written as a block is read as that block, at whatever offset. From
then on, and wherever else there is a free block, its links can be set one by
one. None of it concerns any other place. -/
theorem writeBlock_isolated (inside : offset + nodeSize ≤ arena.size)
    (representable : block.Representable) :
    Yields (arena.writeBlock offset block) (arena.Holds offset block) ∧
      ∀ (linked : Arena) (place order : Nat) (previous following link : Link),
        linked.readBlock place = .ok (.free order previous following) → link.Encodable →
          linked.SetsLinks place order previous following link :=
  ⟨writeBlock_holds inside representable, fun _ _ _ _ _ _ => setsLinks⟩

/-- A free block at an odd offset is written, and both of its links are changed. -/
theorem writeBlock_isolated_of_odd :
    Yields (Arena.chunk.writeBlock 13 (.free 7 .sentinel (.block 512))) fun after =>
      Arena.chunk.Holds 13 (.free 7 .sentinel (.block 512)) after ∧
        Yields (after.writePrevious 13 (.block 0)) fun first =>
          first.readBlock 13 = .ok (.free 7 (.block 0) (.block 512)) ∧
            Yields (first.writeFollowing 13 .unlinked) fun last =>
              last.readBlock 13 = .ok (.free 7 (.block 0) .unlinked) ∧
                Isolated 29 8 first last := by
  have inside : 13 + nodeSize ≤ Arena.chunk.size := by
    rw [size_chunk]
    decide
  have representable : Block.Representable (.free 7 .sentinel (.block 512)) :=
    ⟨by decide, trivial, show 512 < 2 ^ (64 : Nat) - 2 by decide⟩
  rcases writeBlock_isolated inside representable with ⟨written, linking⟩
  apply written.mono
  intro after holds
  have encodable : (Link.block 0).Encodable := show 0 < 2 ^ (64 : Nat) - 2 by decide
  refine ⟨holds, (linking after _ _ _ _ _ holds.read_eq encodable).previous_set.mono ?_⟩
  intro first set
  exact ⟨set.1, (linking first _ _ _ _ .unlinked set.1 trivial).following_set⟩

end Arena

end BuddyHeap
