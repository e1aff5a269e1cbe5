import BuddyHeap.Memory.Block
import BuddyHeap.Proofs.Foundation.Yields
import BuddyHeap.Proofs.Memory.Words
import BuddyHeap.Proofs.Memory.Requests

/-! The words at the start of a block. A free block is a node of a list: a
header and two links. What is written there is what is read back, and no two
nodes share a byte as long as they lie apart. -/

namespace BuddyHeap

def nodeSize : Nat := 24

def Apart (left right : Nat) : Prop :=
  left + nodeSize ≤ right ∨ right + nodeSize ≤ left

theorem Apart.symm {left right : Nat} (apart : Apart left right) : Apart right left :=
  Or.symm apart

theorem Apart.ne {left right : Nat} (apart : Apart left right) : left ≠ right := by
  simp only [Apart, nodeSize] at apart
  omega

def NodeBytes (IsNode : Nat → Prop) (index : Nat) : Prop :=
  ∃ node, IsNode node ∧ node ≤ index ∧ index < node + nodeSize

theorem NodeBytes.mono {IsNode Larger : Nat → Prop} {index : Nat}
    (bytes : NodeBytes IsNode index) (larger : ∀ node, IsNode node → Larger node) :
    NodeBytes Larger index := by
  rcases bytes with ⟨node, isNode, lower, upper⟩
  exact ⟨node, larger node isNode, lower, upper⟩

theorem not_nodeBytes_of_apart {IsNode : Nat → Prop} {offset index : Nat}
    (apart : ∀ node, IsNode node → Apart node offset) (lower : offset ≤ index)
    (upper : index < offset + nodeSize) : ¬NodeBytes IsNode index := by
  intro holds
  rcases holds with ⟨node, isNode, nodeLower, nodeUpper⟩
  have separate := apart node isNode
  simp only [Apart] at separate
  omega

namespace Link

/-- The link is not a block at an offset whose code means something else. -/
def Encodable : Link → Prop
  | block offset => offset < 2 ^ (64 : Nat) - 2
  | unlinked | sentinel => True

theorem decode_encode {link : Link} (encodable : link.Encodable) : decode link.encode = link := by
  cases link with
  | unlinked => rfl
  | sentinel => rfl
  | block offset =>
      have bound : offset < 2 ^ (64 : Nat) - 2 := encodable
      have value : (encode (block offset)).toNat = offset := by
        rw [encode, UInt64.toNat_ofNat', Nat.mod_eq_of_lt]
        omega
      rw [decode, value, if_neg (by omega), if_neg (by omega)]

end Link

namespace Arena

variable {arena before after : Arena} {offset order distance : Nat}
  {previous following link : Link}

theorem encodable_of_inside (inside : offset + nodeSize ≤ arena.size) :
    (Link.block offset).Encodable := by
  have sizeBound := arena.size_lt
  simp only [Link.Encodable, nodeSize, Size.bound] at *
  omega

def blockAt (arena : Arena) (offset : Nat) : Block :=
  let header := Header.decode (arena.word offset)
  if header.allocated then .allocated header
  else .free header.order (Link.decode (arena.word (offset + 8)))
    (Link.decode (arena.word (offset + 16)))

/-- Whatever is there, the bytes of a node can be read as a block. -/
theorem readBlock_eq_ok (inside : offset + nodeSize ≤ arena.size) :
    arena.readBlock offset = .ok (arena.blockAt offset) := by
  simp only [nodeSize] at inside
  have headerRead : arena.readWord offset = .ok (arena.word offset) := readWord_eq_ok (by omega)
  have previousAdded : Size.add offset 8 = .ok (offset + 8) := add_eq_ok_of_inside arena (by omega)
  have previousRead : arena.readWord (offset + 8) = .ok (arena.word (offset + 8)) :=
    readWord_eq_ok (by omega)
  have followingAdded : Size.add offset 16 = .ok (offset + 16) :=
    add_eq_ok_of_inside arena (by omega)
  have followingRead : arena.readWord (offset + 16) = .ok (arena.word (offset + 16)) :=
    readWord_eq_ok (by omega)
  simp only [readBlock, blockAt, headerRead, previousAdded, previousRead, followingAdded,
    followingRead, bind, Except.bind]
  split
  · rfl
  · rfl

structure NodeAt (arena : Arena) (offset order : Nat) (previous following : Link) : Prop where
  inside : offset + nodeSize ≤ arena.size
  header_eq : arena.word offset = (Header.free order).encode
  previous_eq : Link.decode (arena.word (offset + 8)) = previous
  following_eq : Link.decode (arena.word (offset + 16)) = following

/-- What a link is after one of the links at some distance has been set. -/
theorem decode_replaceLink {read : Nat} (inside : offset + distance + 8 ≤ arena.size)
    (encodable : link.Encodable)
    (apart : distance ≠ read → read + 8 ≤ distance ∨ distance + 8 ≤ read) :
    Link.decode ((arena.replaceWord (offset + distance) link.encode).word (offset + read)) =
      if distance = read then link else Link.decode (arena.word (offset + read)) := by
  by_cases same : distance = read
  · subst same
    rw [if_pos rfl, word_replaceWord_self inside, Link.decode_encode encodable]
  · have disjoint := apart same
    rw [if_neg same, word_replaceWord_of_disjoint _ _ (by omega)]

namespace NodeAt

theorem readBlock_eq (node : arena.NodeAt offset order previous following)
    (bounded : order < 16) : arena.readBlock offset = .ok (.free order previous following) := by
  have header : Header.decode (Header.free order).encode = Header.free order := by
    rw [Header.decode_encode, Header.free, Nat.mod_eq_of_lt bounded]
  rw [readBlock_eq_ok node.inside, blockAt, node.header_eq, header, node.previous_eq,
    node.following_eq]
  rfl

theorem of_byte_eq (node : before.NodeAt offset order previous following)
    (size_le : before.size ≤ after.size)
    (equal : ∀ index, offset ≤ index → index < offset + nodeSize →
      after.byte index = before.byte index) :
    after.NodeAt offset order previous following := by
  simp only [nodeSize] at equal
  refine ⟨Nat.le_trans node.inside size_le, ?_, ?_, ?_⟩
  · rw [← node.header_eq]
    exact word_congr fun index lower upper => equal index (by omega) (by omega)
  · rw [← node.previous_eq]
    exact congrArg _ (word_congr fun index lower upper => equal index (by omega) (by omega))
  · rw [← node.following_eq]
    exact congrArg _ (word_congr fun index lower upper => equal index (by omega) (by omega))

theorem replaceLink (node : arena.NodeAt offset order previous following)
    (encodable : link.Encodable) (place : distance = 8 ∨ distance = 16) :
    (arena.replaceWord (offset + distance) link.encode).NodeAt offset order
      (if distance = 8 then link else previous) (if distance = 16 then link else following) := by
  have inside : offset + 24 ≤ arena.size := node.inside
  refine ⟨by simpa using node.inside, ?_, ?_, ?_⟩
  · rw [word_replaceWord_of_disjoint _ _ (by omega)]
    exact node.header_eq
  · rw [decode_replaceLink (by omega) encodable (by omega), node.previous_eq]
  · rw [decode_replaceLink (by omega) encodable (by omega), node.following_eq]

end NodeAt

theorem writeLink_eq_ok (inside : offset + nodeSize ≤ arena.size) (within : distance + 8 ≤ nodeSize)
    (word : UInt64) : (Size.add offset distance >>= fun place => arena.writeWord place word) =
      .ok (arena.replaceWord (offset + distance) word) := by
  have room : offset + distance + 8 ≤ arena.size := by omega
  rw [add_eq_ok_of_inside arena (by omega : offset + distance ≤ arena.size), ok_bind]
  exact writeWord_eq_ok room word

def formatNode (arena : Arena) (offset order : Nat) (previous following : Link) : Arena :=
  ((arena.replaceWord offset (Header.free order).encode).replaceWord (offset + 8)
    previous.encode).replaceWord (offset + 16) following.encode

@[simp] theorem size_formatNode (arena : Arena) (offset order : Nat) (previous following : Link) :
    (arena.formatNode offset order previous following).size = arena.size := by
  simp [formatNode]

theorem writeBlock_free_eq_ok (inside : offset + nodeSize ≤ arena.size) (order : Nat)
    (previous following : Link) :
    arena.writeBlock offset (.free order previous following) =
      .ok (arena.formatNode offset order previous following) := by
  have inside' : offset + 8 ≤ arena.size := by
    simp only [nodeSize] at inside
    omega
  rw [writeBlock, writeWord_eq_ok inside', ok_bind, writePrevious,
    writeLink_eq_ok (by simpa using inside) (by decide), ok_bind]
  exact writeLink_eq_ok (by simpa using inside) (by decide) _

theorem nodeAt_formatNode (inside : offset + nodeSize ≤ arena.size)
    (previousEncodable : previous.Encodable) (followingEncodable : following.Encodable) :
    (arena.formatNode offset order previous following).NodeAt offset order previous following := by
  have inside' : offset + 24 ≤ arena.size := inside
  refine ⟨by simpa using inside, ?_, ?_, ?_⟩
  · rw [formatNode, word_replaceWord_of_disjoint _ _ (by omega),
      word_replaceWord_of_disjoint _ _ (by omega), word_replaceWord_self (by omega)]
  · rw [formatNode, word_replaceWord_of_disjoint _ _ (by omega),
      word_replaceWord_self (by simp; omega)]
    exact Link.decode_encode previousEncodable
  · rw [formatNode, word_replaceWord_self (by simp; omega)]
    exact Link.decode_encode followingEncodable

theorem agreeOutside_replaceLink (arena : Arena) (IsNode : Nat → Prop) (isNode : IsNode offset)
    (distance : Nat) (within : distance + 8 ≤ nodeSize) (word : UInt64) :
    AgreeOutside (NodeBytes IsNode) arena (arena.replaceWord (offset + distance) word) :=
  agreeOutside_replaceWord arena word fun index lower upper =>
    ⟨offset, isNode, by omega, by omega⟩

theorem agreeOutside_formatNode (arena : Arena) (IsNode : Nat → Prop) (isNode : IsNode offset)
    (order : Nat) (previous following : Link) :
    AgreeOutside (NodeBytes IsNode) arena (arena.formatNode offset order previous following) :=
  ((agreeOutside_replaceLink arena IsNode isNode 0 (by decide) _).trans
    (agreeOutside_replaceLink _ IsNode isNode 8 (by decide) _)).trans
    (agreeOutside_replaceLink _ IsNode isNode 16 (by decide) _)

attribute [irreducible] formatNode

theorem readBlock_eq_allocated {header : Header} (inside : offset + 8 ≤ arena.size)
    (word_eq : arena.word offset = header.encode) (allocated : header.allocated = true)
    (bounded : header.order < 16) : arena.readBlock offset = .ok (.allocated header) := by
  have decoded : Header.decode header.encode = header := by
    rw [Header.decode_encode, Nat.mod_eq_of_lt bounded]
  simp only [readBlock, readWord_eq_ok inside, word_eq, bind, Except.bind, decoded, allocated]
  rfl

end Arena

end BuddyHeap
