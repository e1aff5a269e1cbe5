import BuddyHeap.Proofs.Client.Retraction

/-! Where an address comes from that validation accepts, as long as the client
writes nothing into its payloads. Most were handed out. But the header of a
block that was absorbed stays in the memory, a block that is acquired there has
it in its payload, and when that payload moves the header goes along, to a place
that was never handed out. -/

namespace BuddyHeap

namespace Client

variable {first last before after : Client} {trace early late : List (Action × Reply)} {reply : Reply}
  {address : Int} {ledger : Ledger} {source target size distance : Nat} {allocation : Allocation}
  {header : Header}

/-- Acquiring or resizing has returned the address. -/
def HandedOut (trace : List (Action × Reply)) (address : Int) : Prop :=
  (∃ size, (.acquire size, .ok (some address)) ∈ trace) ∨
    ∃ address? size, (.resize address? size, .ok (some address)) ∈ trace

/-- Where an address can come from in a run without writes. Either it was handed
out, or a payload moved and it is as far from the new start as an address of the
same kind, whose allocated bit was set, was from the old one. -/
inductive Stems (first : Client) : List (Action × Reply) → Int → Prop where
  | handedOut {trace : List (Action × Reply)} {address : Int} (handed : HandedOut trace address) :
      Stems first trace address
  | carried {early late : List (Action × Reply)} {before : Client} {source target : Int}
      {size newSize distance : Nat} (run : Reaches first early before)
      (live : before.live source = some size) (moved : target ≠ source)
      (aligned : minBlockSize ∣ distance) (positive : 0 < distance)
      (within : distance < size + headerSize) (marked : before.Marked (blockOffset (source + distance)))
      (stems : Stems first early (source + distance)) :
      Stems first (early ++ (.resize (some source) newSize, .ok (some target)) :: late)
        (target + distance)

/-- No payload has moved while the allocated bit was set in it. -/
def CarriesNone (first : Client) (trace : List (Action × Reply)) : Prop :=
  ∀ early late before source target size newSize,
    trace = early ++ (.resize (some source) newSize, .ok (some target)) :: late →
    target ≠ source → Reaches first early before → before.live source = some size →
    ∀ distance : Nat, 0 < distance → distance < size + headerSize →
      ¬before.Marked (blockOffset (source + distance))

theorem HandedOut.append (handed : HandedOut early address) (late : List (Action × Reply)) :
    HandedOut (early ++ late) address := by
  rcases handed with ⟨size, member⟩ | ⟨address?, size, member⟩
  · exact .inl ⟨size, List.mem_append_left _ member⟩
  · exact .inr ⟨address?, size, List.mem_append_left _ member⟩

theorem Stems.append (stems : Stems first early address) (late : List (Action × Reply)) :
    Stems first (early ++ late) address := by
  cases stems with
  | handedOut handed => exact .handedOut (handed.append late)
  | carried run live moved aligned positive within marked stems =>
      rw [List.append_assoc, List.cons_append]
      exact .carried run live moved aligned positive within marked stems

theorem Stems.handedOut_of_carriesNone (stems : Stems first trace address)
    (none : CarriesNone first trace) : HandedOut trace address := by
  cases stems with
  | handedOut handed => exact handed
  | @carried early late before source target size newSize distance run live moved aligned positive
      within marked =>
      exact absurd marked (none early late before source target size newSize rfl moved run live
        distance positive within)

/-! ## Runs -/

theorem Marks.stems {before : Client} {action : Action} {reply : Reply} {place : Nat}
    (marks : Marks before action reply place) (run : Reaches first trace before)
    (old : ∀ place, before.Marked place → Stems first trace (payloadAddress place)) :
    Stems first (trace ++ [(action, reply)]) (payloadAddress place) := by
  have last : (action, reply) ∈ trace ++ [(action, reply)] :=
    List.mem_append_right _ (List.mem_singleton.mpr rfl)
  cases marks with
  | acquired => exact .handedOut (.inl ⟨_, last⟩)
  | resized => exact .handedOut (.inr ⟨_, _, last⟩)
  | @carried source target size newSize distance live moved aligned positive within marked =>
      have address_eq : ∀ start : Nat,
          payloadAddress (start + distance) = payloadAddress start + distance := by
        intro start
        simp only [payloadAddress]
        omega
      have elsewhere : payloadAddress target ≠ payloadAddress source :=
        fun equal => moved (payloadAddress_injective equal)
      have stems := old _ marked
      rw [← blockOffset_payloadAddress (source + distance), address_eq] at marked
      rw [address_eq] at stems ⊢
      exact .carried run live elsewhere aligned positive within marked stems

theorem Reaches.stems_of_marked (run : Reaches first trace last) (fresh : first.Fresh)
    (silent : ∀ entry ∈ trace, entry.1.isCall) (place : Nat) (marked : last.Marked place) :
    Stems first trace (payloadAddress place) := by
  induction run generalizing place with
  | start => exact absurd marked (fresh.not_marked place)
  | @step trace before after action reply run permitted performed induction =>
      have earlier := induction fun entry member => silent entry (List.mem_append_left _ member)
      have call : action.isCall := silent (action, reply) (by simp)
      rcases run.exists_follows fresh with ⟨ledger, follows⟩
      rcases follows.marked_of_perform permitted call performed marked with old | new
      · exact (earlier place old).append _
      · exact new.stems run earlier

theorem Reaches.stems_of_accepted (run : Reaches first trace last) (fresh : first.Fresh)
    (silent : ∀ entry ∈ trace, entry.1.isCall) {accepted : Nat × Header}
    (check_eq : last.allocator.heap.arena.check address = .ok (.ok accepted)) :
    Stems first trace address := by
  obtain ⟨offset, header⟩ := accepted
  rcases Arena.check_eq_ok_iff.mp check_eq with ⟨rfl, endorses⟩
  exact run.stems_of_marked fresh silent offset endorses.marked

/-- As long as the client writes nothing, validation accepts no address that
does not stem from the run, so that releasing or resizing one fails. Unless a
payload moved with the allocated bit in it, what is accepted was handed out, and
if all that was given up was refused, the client still has it. -/
theorem Reaches.provenance (run : Reaches first trace last) (fresh : first.Fresh)
    (silent : ∀ entry ∈ trace, entry.1.isCall) :
    (∀ address accepted, last.allocator.heap.arena.check address = .ok (.ok accepted) →
      Stems first trace address) ∧
    (∀ address, ¬Stems first trace address → ∃ reason,
      last.allocator.heap.arena.check address = .ok (.error reason) ∧
      (last.allocator.release address).outcome = .error (.invalidPointer reason) ∧
      ∀ size, 0 < size → size ≤ maxPayload →
        (last.allocator.resize (some address) size).outcome = .error (.invalidPointer reason)) ∧
    (CarriesNone first trace → ∀ address accepted,
      last.allocator.heap.arena.check address = .ok (.ok accepted) → HandedOut trace address) ∧
    (Retracts first trace → ∀ address accepted,
      last.allocator.heap.arena.check address = .ok (.ok accepted) →
        ∃ size, last.live address = some size) := by
  refine ⟨?_, ?_, ?_, ?_⟩
  · exact fun address accepted check_eq => run.stems_of_accepted fresh silent check_eq
  · intro address foreign
    rcases last.allocator.heap.arena.exists_verdict address with ⟨verdict, verdict_eq⟩
    cases verdict with
    | ok accepted => exact absurd (run.stems_of_accepted fresh silent verdict_eq) foreign
    | error reason =>
        refine ⟨reason, verdict_eq, Allocator.release_eq_error verdict_eq, ?_⟩
        intro size positive served
        exact Allocator.resize_eq_error verdict_eq (by omega)
  · intro none address accepted check_eq
    exact (run.stems_of_accepted fresh silent check_eq).handedOut_of_carriesNone none
  · intro retracts address accepted check_eq
    exact (run.accepted_iff_live fresh silent retracts).mp ⟨accepted, check_eq⟩

/-- After a run without moves: an address inside a payload is refused. -/
theorem provenance_of_interior : ∃ first last : Client, first.Fresh ∧
    Reaches first [(.acquire 24, .ok (some 8)), (.acquire 56, .ok (some 72)),
      (.release 8, .ok none)] last ∧
    (∀ address accepted, last.allocator.heap.arena.check address = .ok (.ok accepted) →
      HandedOut [(.acquire 24, .ok (some 8)), (.acquire 56, .ok (some 72)),
        (.release 8, .ok none)] address) ∧
    ∃ reason, (last.allocator.release 104).outcome = .error (.invalidPointer reason) := by
  rcases exists_reaches .default (by decide) [.acquire 24, .acquire 56, .release 8] rfl with
    ⟨first, last, fresh, run, _⟩
  have unmoved : CarriesNone first [(.acquire 24, .ok (some 8)), (.acquire 56, .ok (some 72)),
      (.release 8, .ok none)] := by
    intro early late before source target size newSize trace_eq
    have moving : (.resize (some source) newSize, .ok (some target)) ∈ early ++
        (.resize (some source) newSize, .ok (some target)) :: late := by simp
    rw [← trace_eq] at moving
    simp at moving
  have foreign : ¬Stems first [(.acquire 24, .ok (some 8)), (.acquire 56, .ok (some 72)),
      (.release 8, .ok none)] 104 := by
    intro stems
    have handed := stems.handedOut_of_carriesNone unmoved
    simp [HandedOut] at handed
  rcases run.provenance fresh (by decide) with ⟨_, refused, accepted, _⟩
  rcases refused 104 foreign with ⟨reason, _, released, _⟩
  exact ⟨first, last, fresh, run, accepted unmoved, reason, released⟩

/-! ## Headers that are left behind -/

theorem Follows.endorses_of_acquired (follows : before.Follows ledger)
    (books : (ledger.acquire before.extensible size).1 = .ok target)
    (performed : before.perform (.acquire size) = .ok (reply, after)) (beyond : nodeSize ≤ distance)
    (within : distance + headerSize < 2 ^ requestOrder size)
    (endorses : before.allocator.heap.arena.Endorses (target + distance) header) :
    after.allocator.heap.arena.Endorses (target + distance) header := by
  rcases follows.allocator.acquire size with ⟨⟨acquired, allocator⟩, acquire_eq, outcome⟩
  simp only [Client.perform, acquire_eq, ok_bind] at performed
  cases performed
  simp only [headerSize] at within
  have live := Ledger.live_acquired_self (Prod.ext books rfl)
  have inside := outcome.follows.heap.inside_of_live live
  simp only [Allocation.ofRequest] at inside
  refine endorses.of_byte_eq ?_ endorses.aligned fun index below => ?_
  · exact Nat.lt_of_lt_of_le (by omega) inside
  · apply outcome.kept target books
    · simp only [Span.Covers, Span.stop]
      omega
    · simp only
      omega

theorem Follows.endorses_of_resized (follows : before.Follows ledger)
    (live : ledger.live source = some allocation)
    (books : (ledger.resize before.extensible (some source) size).1 = .ok (some target))
    (performed : before.perform (.resize (some (payloadAddress source)) size) = .ok (reply, after))
    (behind : headerSize ≤ distance) (old : distance ≤ allocation.requested) (new : distance < size)
    (aligned : 2 ^ header.order ∣ target + distance)
    (endorses : before.allocator.heap.arena.Endorses (source + distance) header) :
    after.allocator.heap.arena.Endorses (target + distance) header := by
  rcases follows.allocator.resize live size with ⟨⟨resized, allocator⟩, resize_eq, outcome⟩
  simp only [Client.perform, resize_eq, ok_bind] at performed
  cases performed
  have targetLive : (ledger.resize before.extensible (some source) size).2.live target =
      some (.ofRequest size) := by
    rw [extensible, outcome.live_eq target books, Function.update_self]
  have inside := outcome.follows.heap.inside_of_live targetLive
  have room := add_headerSize_le_two_pow_requestOrder size
  simp only [Allocation.ofRequest, headerSize] at inside room behind
  obtain ⟨start, rfl⟩ := Nat.exists_eq_add_of_le behind
  refine endorses.of_byte_eq ?_ aligned fun index below => ?_
  · exact Nat.lt_of_lt_of_le (by omega) inside
  · have kept := (outcome.kept target books).1 (start + index) (by omega)
    have shift : ∀ place : Nat, place + (8 + start) + index = place + 8 + (start + index) := by omega
    rw [shift, shift]
    exact kept

/-- A header that was left behind goes along with a payload, and validation
accepts it at a place that was never handed out. -/
theorem not_handedOut_of_carried : ¬∀ (first last : Client) (trace : List (Action × Reply))
    (address : Int) (accepted : Nat × Header), first.Fresh → Reaches first trace last →
    (∀ entry ∈ trace, entry.1.isCall) →
    last.allocator.heap.arena.check address = .ok (.ok accepted) → HandedOut trace address := by
  intro explained
  rcases exists_reaches .default (by decide) [.acquire 24, .acquire 24, .release 8] rfl with
    ⟨first, client, fresh, run, keeps⟩
  have live : client.live 40 = some 24 := keeps.live_eq 40
  have releasable : client.Permits (.release 40) := ⟨24, live⟩
  have absorbed : client.Absorbs 40 24 := by
    have moved : ¬Heap.KeepsPlace ((Books.new .default 4096).after
        [.acquire 24, .acquire 24, .release 8]).ledger 32 ⟨5, 24⟩ := by decide
    exact (keeps.follows.absorbs_iff rfl).mpr moved
  rcases keeps.follows.release_givenUp live with ⟨merged, released, givenUp⟩
  rcases keeps.perform releasable with ⟨_, released', mergedKeeps⟩
  cases released.symm.trans released'
  rcases givenUp.accepted absorbed with ⟨offset, header, accepted, _, serves⟩
  rcases Arena.check_eq_ok_iff.mp accepted with ⟨address_eq, left⟩
  obtain rfl : offset = 32 := by omega
  have order_eq : header.order = 5 := by
    rw [left.order_eq, serves.requested_eq]
    rfl
  have acquirable : merged.Permits (.acquire 56) := trivial
  rcases mergedKeeps.perform acquirable with ⟨holder, acquired, holderKeeps⟩
  have around : holder.allocator.heap.arena.Endorses (0 + 32) header := by
    refine mergedKeeps.follows.endorses_of_acquired ?_ acquired (by decide) (by decide) left
    rw [mergedKeeps.extensible_eq]
    rfl
  have resizable : holder.Permits (.resize (some 8) 120) := ⟨56, holderKeeps.live_eq 8⟩
  rcases holderKeeps.perform resizable with ⟨last, resized, _⟩
  have carried : last.allocator.heap.arena.Endorses (128 + 32) header := by
    refine holderKeeps.follows.endorses_of_resized rfl ?_ resized (by decide) (by decide) (by decide)
      (by rw [order_eq]; decide) around
    rw [holderKeeps.extensible_eq]
    rfl
  have whole : Reaches first [(.acquire 24, .ok (some 8)), (.acquire 24, .ok (some 40)),
      (.release 8, .ok none), (.release 40, .ok none), (.acquire 56, .ok (some 8)),
      (.resize (some 8) 120, .ok (some 136))] last :=
    ((run.step releasable released).step acquirable acquired).step resizable resized
  have handed := explained first last _ 168 _ fresh whole (by decide)
    (Arena.check_eq_ok_iff.mpr ⟨rfl, carried⟩)
  simp [HandedOut] at handed

end Client

end BuddyHeap
