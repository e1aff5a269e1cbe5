import BuddyHeap.Proofs.Allocator.Resizing
import BuddyHeap.Proofs.Client.Arrays

/-! A client follows its books: the allocator does, and the payloads that the
client has are those of the blocks that are booked for it. -/

namespace BuddyHeap

/-! ## What the client has and what the books say -/

@[simp] theorem toNat_payloadAddress (offset : Nat) : (payloadAddress offset).toNat = offset + 8 :=
  Int.toNat_natCast _

def blockOffset (address : Int) : Nat := address.toNat - 8

@[simp] theorem blockOffset_payloadAddress (offset : Nat) :
    blockOffset (payloadAddress offset) = offset := by
  rw [blockOffset, toNat_payloadAddress, Nat.add_sub_cancel]

theorem payloadAddress_injective : Function.Injective payloadAddress := by
  intro first second equal
  simp only [payloadAddress, Int.natCast_inj] at equal
  omega

structure Matches (live : Int → Option Nat) (booked : Nat → Option Allocation) : Prop where
  live_eq : ∀ offset, live (payloadAddress offset) = (booked offset).map Allocation.requested
  known : ∀ address size, live address = some size → ∃ offset, address = payloadAddress offset

namespace Matches

variable {live : Int → Option Nat} {booked : Nat → Option Allocation} {offset size : Nat}

theorem update {size? : Option Nat} {allocation? : Option Allocation} (matching : Matches live booked)
    (equal : size? = allocation?.map Allocation.requested) :
    Matches (Function.update live (payloadAddress offset) size?)
      (Function.update booked offset allocation?) where
  live_eq other := by
    by_cases same : other = offset
    · subst same
      simpa using equal
    · have different : payloadAddress other ≠ payloadAddress offset :=
        fun equal => same (payloadAddress_injective equal)
      rw [Function.update_of_ne different, Function.update_of_ne same]
      exact matching.live_eq other
  known address size given := by
    by_cases same : address = payloadAddress offset
    · exact ⟨offset, same⟩
    · rw [Function.update_of_ne same] at given
      exact matching.known address size given

end Matches

namespace Client

structure Follows (client : Client) (ledger : Ledger) : Prop where
  allocator : client.allocator.Follows ledger
  matching : Matches client.live ledger.live

variable {client before after : Client} {ledger : Ledger} {address : Int} {offset size : Nat}
  {allocation : Allocation}

namespace Follows

theorem booked_of_live (follows : client.Follows ledger) (live : client.live address = some size) :
    ∃ offset, address = payloadAddress offset ∧
      ledger.live offset = some (.ofRequest size) := by
  rcases follows.matching.known address size live with ⟨offset, rfl⟩
  rw [follows.matching.live_eq] at live
  rcases Option.map_eq_some_iff.mp live with ⟨allocation, booked, rfl⟩
  have fits := follows.allocator.heap.fits offset allocation booked
  exact ⟨offset, rfl, by rw [booked, ← fits.eq_ofRequest]⟩

theorem live_of_booked (follows : client.Follows ledger)
    (booked : ledger.live offset = some allocation) :
    client.live (payloadAddress offset) = some allocation.requested := by
  rw [follows.matching.live_eq, booked]
  rfl

theorem not_live_of_not_booked (follows : client.Follows ledger) (free : ledger.live offset = none) :
    client.live (payloadAddress offset) = none := by
  rw [follows.matching.live_eq, free]
  rfl

end Follows

/-! ## Beginning -/

theorem exists_arena_of_create {config : Config} {system : System} {allocator : Allocator}
    (created : (Allocator.create config system).outcome = .ok (.ok allocator)) :
    ∃ arena, Arena.reserve system config.ceiling = .ok (.ok arena) ∧
      allocator = ⟨.ofArena arena, config⟩ := by
  rw [Allocator.outcome_create] at created
  rcases reserved : Arena.reserve system config.ceiling with fault | cause | arena
  · rw [reserved] at created
    cases created
  · rw [reserved] at created
    cases created
  · rw [reserved] at created
    cases created
    exact ⟨arena, rfl, rfl⟩

theorem follows_empty {arena : Arena} (mapped : arena.Mapped) (empty : arena.bytes = #[]) :
    (Heap.ofArena arena).Follows .empty none where
  mapped := mapped
  size_eq := by
    simp [Heap.ofArena, Arena.size, empty, Ledger.empty]
  lists := Heap.lists_ofArena arena
  tiled := .empty
  merged := .empty
  fits _ _ impossible := absurd impossible (by simp [Ledger.empty])
  word_eq _ _ impossible := absurd impossible (by simp [Ledger.empty])

theorem Fresh.follows (fresh : client.Fresh) : client.Follows .empty := by
  rcases fresh with ⟨config, allocator, system, sound, created, rfl⟩
  rcases exists_arena_of_create created with ⟨arena, reserved, rfl⟩
  rcases Arena.fields_of_reserve reserved with ⟨empty, capacity_eq, _⟩
  have heap := follows_empty (Arena.mapped_of_reserve sound reserved) empty
  refine ⟨⟨heap, capacity_eq⟩, fun _ => rfl, ?_⟩
  intro address size impossible
  cases impossible

/-! ## The payloads that an action leaves alone -/

theorem payloads_eq_of_preserves {fewer : Nat → Option Allocation} (follows : before.Follows ledger)
    (preserves : Heap.Preserves fewer none before.allocator.heap after.allocator.heap)
    (live_eq : after.live address = before.live address)
    (included : ∀ offset allocation, address = payloadAddress offset →
      ledger.live offset = some allocation → fewer offset = some allocation) :
    after.payloads address = before.payloads address := by
  rw [payloads, payloads, live_eq]
  cases live : before.live address with
  | none => rfl
  | some size =>
      rcases follows.booked_of_live live with ⟨offset, rfl, booked⟩
      have fits := follows.allocator.heap.fits _ _ booked
      have kept := included offset _ rfl booked
      simp only [Option.map_some, Option.some.injEq, toNat_payloadAddress]
      refine congrArg List.toArray (List.map_congr_left fun index member => ?_)
      exact preserves.byte_eq_of_taken (.of_payload kept fits (List.mem_range.mp member))

theorem payloads_eq_update {arrays : Arrays} (live : after.live address = some size)
    (others : ∀ other, other ≠ address → after.payloads other = arrays other) :
    after.payloads = Function.update arrays address
      (some (after.allocator.heap.arena.byteRange address.toNat size).toArray) := by
  funext other
  by_cases same : other = address
  · subst same
    simp [payloads, live]
  · rw [Function.update_of_ne same]
    exact others other same

end Client

end BuddyHeap
