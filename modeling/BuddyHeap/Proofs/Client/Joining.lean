import BuddyHeap.Proofs.Allocator.Validating
import BuddyHeap.Proofs.Client.Accounting
import BuddyHeap.Proofs.Heap.Joining

/-! Joining goes by memory alone: whether the buddy of a block is free is read
off the words at its place, which for all the joining knows could be anything.
When a client gives up what it has, they are what they are taken for, at every
iteration and in the middle of it. -/

namespace BuddyHeap

namespace Heap

inductive Genuine (heap : Heap) (live : Int → Option Nat) (entry : BlockEntry) : Header → Prop where
  | free (unset : entry.allocated = false) (listed : heap.HasFree entry.order entry.offset) :
      Genuine heap live entry (.free entry.order)
  | allocated {header : Header} {size : Nat} (set : entry.allocated = true)
      (given : live (entry.offset + headerSize : Nat) = some size) (serves : header.Serves size)
      (order_eq : header.order = entry.order) : Genuine heap live entry header

/-- What memory says of the buddy of the block at `place` is right. -/
structure TellsBuddy (heap : Heap) (live : Int → Option Nat) (entries : List BlockEntry)
    (place level : Nat) : Prop where
  chunk_eq : (place ^^^ 2 ^ level) / maxBlockSize = place / maxBlockSize
  /-- The joining never ends because the heap does. -/
  inside : (place ^^^ 2 ^ level) + 2 ^ level ≤ heap.size
  genuine : ∃ entry header, entry ∈ entries ∧ entry.offset = place ^^^ 2 ^ level ∧
    entry.order ≤ level ∧ heap.Genuine live entry header ∧
    heap.arena.readWord (place ^^^ 2 ^ level) = .ok header.encode
  reads_iff : heap.ReadsFree level (place ^^^ 2 ^ level) ↔ heap.HasFree level (place ^^^ 2 ^ level)
  removed : heap.ReadsFree level (place ^^^ 2 ^ level) →
    ∃ after, heap.remove level (place ^^^ 2 ^ level) = .ok (true, after)
  taken_iff : (∃ after, heap.takeBuddy place level = .ok (some (place ^^^ 2 ^ level), after)) ↔
    heap.HasFree level (place ^^^ 2 ^ level)

/-- At every iteration of the joining of a block, memory is right about the
buddy. The buddies are blocks that a walk meets before it all starts. -/
structure JoinsExactly (first : Heap) (live : Int → Option Nat) (offset order : Nat) : Prop where
  resumed : ∀ heap place level, first.Visits offset order heap place level →
    (first.coalesce offset order).outcome = (heap.coalesce place level).outcome
  told : ∃ entries, first.arena.blocks = .ok entries ∧ Chained 0 first.size entries ∧
    ∀ heap place level, first.Visits offset order heap place level → level < topOrder →
      heap.TellsBuddy live entries place level

namespace Follows

variable {first heap : Heap} {ledger : Ledger} {hand : Option Span} {span : Span} {use : Use}
  {live : Int → Option Nat} {entries : List BlockEntry} {offset place level : Nat}
  {allocation : Allocation}

theorem exists_genuine (follows : heap.Follows ledger hand) (matching : Matches live ledger.live)
    (uses : ledger.Uses hand span use) (different : use ≠ .held) :
    ∃ header, heap.Genuine live ⟨span.offset, span.order, decide (use ≠ .free)⟩ header ∧
      heap.arena.readWord span.offset = .ok header.encode := by
  cases use with
  | free =>
      have range := follows.tiled.order_range span .free uses
      have inside := follows.lists.inside uses
      have free : heap.HasFree span.order span.offset :=
        (follows.lists.hasFree_iff ⟨range.1, Nat.lt_succ_of_le range.2⟩).mpr uses
      refine ⟨_, .free rfl free, ?_⟩
      rw [Arena.readWord_eq_ok (by simp only [nodeSize] at inside; omega), follows.lists.word_eq uses]
  | allocated requested =>
      have booked : ledger.live span.offset = some ⟨span.order, requested⟩ := uses
      have given : live (payloadAddress span.offset) = some requested := by
        rw [matching.live_eq, booked]
        rfl
      refine ⟨_, .allocated rfl given (follows.fits _ _ booked).serves rfl, ?_⟩
      rw [Arena.readWord_eq_ok (follows.payload_inside booked).le, follows.word_eq _ _ booked]
  | held => exact absurd rfl different

theorem tellsBuddy (follows : heap.Follows ledger (some ⟨place, level⟩)) (below : level < topOrder)
    (matching : Matches live ledger.live)
    (entered : ∀ span use, ledger.Uses (some ⟨place, level⟩) span use → use ≠ .held →
      ⟨span.offset, span.order, decide (use ≠ .free)⟩ ∈ entries) :
    heap.TellsBuddy live entries place level := by
  let span : Span := ⟨place, level⟩
  have range := follows.tiled.order_range span .held rfl
  have aligned : span.Aligned := follows.tiled.aligned span .held rfl
  have inRange : minOrder ≤ level ∧ level < orderBound := ⟨range.1, Nat.lt_succ_of_le range.2⟩
  have free_iff : heap.HasFree level span.buddy.offset ↔ span.buddy.offset ∈ ledger.lists level :=
    follows.lists.hasFree_iff inRange
  rcases follows.tiled.exists_at_buddy below with ⟨other, use, uses, different, offset_eq, order_le⟩
  have reads_iff : heap.ReadsFree level span.buddy.offset ↔
      span.buddy.offset ∈ ledger.lists level := by
    rw [← offset_eq]
    exact follows.readsFree_iff uses different
  rcases follows.exists_genuine matching uses different with ⟨header, genuine, read⟩
  rw [offset_eq] at read
  constructor
  case chunk_eq => exact aligned.buddy_div_eq below
  case inside => exact follows.buddy_inside below
  case genuine =>
    exact ⟨_, header, entered other use uses different, offset_eq, order_le, genuine, read⟩
  case reads_iff => exact reads_iff.trans free_iff.symm
  case removed =>
    intro reads
    rcases follows.lists.remove_of_mem inRange (reads_iff.mp reads) with
      ⟨⟨found, after⟩, removed, rfl, _⟩
    exact ⟨after, removed⟩
  case taken_iff =>
    rw [show place ^^^ 2 ^ level = span.buddy.offset from rfl, free_iff]
    constructor
    · intro holds
      rcases holds with ⟨after, taken⟩
      by_contra absent
      cases (follows.takeBuddy_of_not_mem below absent).symm.trans taken
    · intro listed
      rcases follows.takeBuddy_of_mem below listed with ⟨⟨taken?, after⟩, taken, rfl, _⟩
      exact ⟨after, taken⟩

theorem joins_of_booked (follows : first.Follows ledger none) (matching : Matches live ledger.live)
    (booked : ledger.live offset = some allocation) :
    first.JoinsExactly (Function.update live (payloadAddress offset) none) offset
      allocation.order where
  resumed _ _ _ visits := visits.coalesce_eq
  told := by
    have rest : Matches (Function.update live (payloadAddress offset) none)
        (ledger.reclaim offset).live := matching.update rfl
    rcases follows.blocks with ⟨entries, walked, chained, members⟩
    have size_eq : first.size = ledger.size := follows.size_eq
    refine ⟨entries, walked, size_eq ▸ chained, ?_⟩
    intro heap place level visits below
    rcases visits.exists_follows (follows.reclaim booked) with ⟨books, held, live_eq, listed⟩
    refine held.tellsBuddy below (live_eq ▸ rest) ?_
    intro span use uses different
    refine (members _).mpr ⟨use, ?_, rfl⟩
    cases use with
    | free => exact listed _ _ uses
    | allocated requested =>
        have stillBooked : books.live span.offset = some ⟨span.order, requested⟩ := uses
        rw [live_eq] at stillBooked
        exact (live_of_reclaim stillBooked).2
    | held => exact absurd rfl different

end Follows

end Heap

namespace Client

variable {client middle : Client} {ledger : Ledger} {address target : Int} {offset order size : Nat}

/-- Once `target` has been acquired, the `size` bytes of the payload at `address`
are copied there, and then its block is joined exactly. -/
def MovesExactly (client middle : Client) (address target : Int) (size newSize offset order : Nat) :
    Prop :=
  ∃ arena, middle.allocator.heap.arena.copy (offset + headerSize) target.toNat size = .ok arena ∧
    Heap.JoinsExactly { middle.allocator.heap with arena }
      (Function.update middle.live address none) offset order ∧
    client.perform (.resize (some address) newSize) =
      (Heap.coalesce { middle.allocator.heap with arena } offset order).outcome.map fun freed =>
        client.answered (some address) newSize (.ok (some target)) ⟨freed, middle.allocator.config⟩

/-- Whatever makes the client give up a payload joins its block exactly: a
release, or a resize for which it has to move. -/
structure JoinsExactly (client : Client) (address : Int) (size offset order : Nat) : Prop where
  address_eq : address = (offset + headerSize : Nat)
  order_eq : requiredOrder size = .ok order
  joins : client.allocator.heap.JoinsExactly (Function.update client.live address none) offset order
  release_eq : client.perform (.release address) =
    (client.allocator.heap.coalesce offset order).outcome.map fun freed =>
      client.answered (some address) 0 (.ok none) ⟨freed, client.allocator.config⟩
  resize_zero_eq : client.perform (.resize (some address) 0) =
    (client.allocator.heap.coalesce offset order).outcome.map fun freed =>
      client.answered (some address) 0 (.ok none) ⟨freed, client.allocator.config⟩
  moves : ∀ newSize newOrder target middle, requiredOrder newSize = .ok newOrder → order < newOrder →
    client.perform (.acquire newSize) = .ok (.ok (some target), middle) →
    client.MovesExactly middle address target size newSize offset order

namespace Follows

theorem exists_acquired (follows : client.Follows ledger)
    (performed : client.perform (.acquire size) = .ok (.ok (some target), middle)) :
    ∃ place books, target = payloadAddress place ∧ ledger.live place = none ∧
      ledger.acquire client.extensible size = (.ok place, books) ∧ middle.Follows books ∧
      (client.allocator.acquire size).outcome = .ok (.ok target, middle.allocator) := by
  have outcome := (follows.acquire size).post_of_eq performed
  rcases Ledger.exists_acquire_of_reply outcome.reply_eq with ⟨place, rfl, acquires⟩
  rcases exists_of_bind_eq_ok performed with ⟨⟨acquired, allocator⟩, acquired_eq, answered⟩
  have fresh := ((follows.allocator.acquire size).post_of_eq acquired_eq).fresh place
    (congrArg Prod.fst acquires)
  cases acquired with
  | error failure => cases answered
  | ok address =>
      cases answered
      exact ⟨place, _, rfl, fresh, acquires, outcome.follows, acquired_eq⟩

theorem movesExactly (follows : client.Follows ledger)
    (booked : ledger.live offset = some (.ofRequest size)) {newSize newOrder : Nat}
    (required : requiredOrder newSize = .ok newOrder) (larger : requestOrder size < newOrder)
    (performed : client.perform (.acquire newSize) = .ok (.ok (some target), middle)) :
    client.MovesExactly middle (payloadAddress offset) target size newSize offset
      (requestOrder size) := by
  rcases follows.exists_acquired performed with
    ⟨place, books, rfl, fresh, acquires, middleFollows, acquired⟩
  have valid : ¬(newSize = 0 ∨ maxPayload < newSize) := by
    intro invalid
    rw [Ledger.acquire, if_pos invalid] at acquires
    cases acquires
  cases required.symm.trans (Allocator.requiredOrder_of_valid valid)
  have stillBooked := Ledger.live_acquired_of_live booked acquires fresh
  have heap := follows.allocator.heap
  have middleHeap := middleFollows.allocator.heap
  rcases middleHeap.copy stillBooked (Ledger.live_acquired_self acquires)
    (Ledger.ne_of_fresh booked fresh) larger.le with ⟨arena, copied, copiedFollows, _⟩
  have count : (Allocation.ofRequest size).header.requested.toNat = size :=
    (heap.fits _ _ booked).toNat_ofNat_requested
  have added : Size.add offset headerSize = .ok (offset + headerSize) :=
    client.allocator.heap.arena.add_eq_ok_of_inside (heap.payload_inside booked).le
  have resized := Allocator.resize_of_larger (follows.allocator.validated_eq_ok booked) valid larger
    acquired added (count.symm ▸ copied)
  refine ⟨arena, copied, copiedFollows.joins_of_booked middleFollows.matching stillBooked, ?_⟩
  simp only [Client.perform, resized, map_eq_bind, bind_assoc, ok_bind]
  rfl

theorem joins_of_live (follows : client.Follows ledger) (live : client.live address = some size) :
    ∃ offset order, client.JoinsExactly address size offset order := by
  rcases follows.booked_of_live live with ⟨offset, rfl, booked⟩
  have fits := follows.allocator.heap.fits _ _ booked
  have required : requiredOrder size = .ok (requestOrder size) := fits.serves.order_eq
  have released : (client.allocator.release (payloadAddress offset)).outcome =
      (client.allocator.heap.coalesce offset (requestOrder size)).outcome.map
        fun freed => { heap := freed, config := client.allocator.config } :=
    Allocator.release_outcome (follows.allocator.validated_eq_ok booked)
  refine ⟨offset, requestOrder size, rfl, required,
    follows.allocator.heap.joins_of_booked follows.matching booked, ?_, ?_, ?_⟩
  · simp only [Client.perform, released, map_eq_bind, bind_assoc, ok_bind]
    rfl
  · simp only [Client.perform, Allocator.resize_eq_release, Traced.outcome_bind, released,
      map_eq_bind, bind_assoc, ok_bind]
    rfl
  · exact fun _ _ _ _ => follows.movesExactly booked

end Follows

/-- Wherever the client gets, giving up a payload joins its block by what is
true of the memory around it. -/
theorem Reachable.joins_exactly (reachable : client.Reachable)
    (live : client.live address = some size) :
    ∃ offset order, client.JoinsExactly address size offset order := by
  rcases reachable.exists_follows with ⟨ledger, follows⟩
  exact follows.joins_of_live live

/-- A payload between a free block and one that is in use, given up in place and
by moving. The free one is taken in, and the buddy of both is looked at next. -/
theorem joins_exactly_twice : ∃ client : Client, client.live 40 = some 24 ∧
    client.JoinsExactly 40 24 32 5 ∧
    (∃ joined entries, client.allocator.heap.Visits 32 5 joined 0 6 ∧
      joined.TellsBuddy (Function.update client.live 40 none) entries 0 6) ∧
    ∃ target middle, client.perform (.acquire 100) = .ok (.ok (some target), middle) ∧
      client.MovesExactly middle 40 target 24 100 32 5 := by
  rcases exists_reaches .default (by decide)
    [.acquire 24, .acquire 24, .acquire 24, .release 8] rfl with ⟨first, client, fresh, run, keeps⟩
  have reachable : client.Reachable := ⟨first, _, fresh, run⟩
  have live : client.live 40 = some 24 := keeps.live_eq 40
  rcases reachable.joins_exactly live with ⟨offset, order, joins⟩
  have offset_eq : offset = 32 := by
    have address_eq := joins.address_eq
    simp only [headerSize] at address_eq
    omega
  subst offset_eq
  have order_eq : (.ok order : Except Fault Nat) = .ok 5 := joins.order_eq.symm.trans rfl
  cases order_eq
  refine ⟨client, live, joins, ?_, ?_⟩
  · rcases joins.joins.told with ⟨entries, _, _, told⟩
    have free : client.allocator.heap.HasFree 5 0 :=
      (keeps.follows.allocator.heap.lists.hasFree_iff (by decide)).mpr (by decide)
    rcases (told _ 32 5 .start (by decide)).taken_iff.mpr free with ⟨joined, taken⟩
    have visits : client.allocator.heap.Visits 32 5 joined 0 6 := .merged .start (by decide) taken
    exact ⟨joined, entries, visits, told joined 0 6 visits (by decide)⟩
  · have permitted : client.Permits (.acquire 100) := trivial
    rcases keeps.perform permitted with ⟨middle, acquired, _⟩
    exact ⟨136, middle, acquired, joins.moves 100 7 136 middle rfl (by decide) acquired⟩

end Client

end BuddyHeap
