import BuddyHeap.Proofs.Client.Marking
import BuddyHeap.Proofs.Client.StalePointers

/-! What a client that writes nothing may rely on as long as every address is
refused once it has been given up: the allocated bit is set nowhere but at the
blocks that the client has, and validation accepts their payloads and nothing
else. -/

namespace BuddyHeap

def Action.subject : Action → Option Int × Nat
  | .acquire size => (none, size)
  | .release address => (some address, 0)
  | .resize address? size => (address?, size)
  | .write .. | .setRefusal _ => (none, 0)

namespace Client

variable {first before after last : Client} {ledger : Ledger} {action : Action} {reply : Reply}
  {trace : List (Action × Reply)} {address : Int} {size place : Nat}

/-! ## What the client has after an action -/

theorem live_eq_settle (performed : before.perform action = .ok (reply, after)) :
    after.live = settle before.live action.subject.1 action.subject.2 reply := by
  cases action with
  | acquire size =>
      rcases exists_of_bind_eq_ok performed with ⟨_, _, answered⟩
      cases answered
      rfl
  | release address =>
      rcases exists_of_bind_eq_ok performed with ⟨_, _, answered⟩
      cases answered
      rfl
  | resize address? size =>
      rcases exists_of_bind_eq_ok performed with ⟨_, _, answered⟩
      cases answered
      rfl
  | write address distance content =>
      cases performed
      rfl
  | setRefusal cause? =>
      cases performed
      rfl

theorem settle_self (live : Int → Option Nat) (address? : Option Int) (newSize : Nat) (address : Int) :
    settle live address? newSize (.ok (some address)) address = some newSize := Function.update_self ..

theorem settle_eq_none {live : Int → Option Nat} {address? : Option Int} {newSize : Nat}
    (had : live address = some size) (gone : settle live address? newSize reply address = none) :
    address? = some address ∧ ∃ target?, reply = .ok target? ∧ target? ≠ some address := by
  cases reply with
  | error failure => simp [settle, had] at gone
  | ok target? =>
      have kept : target? ≠ some address := by
        rintro rfl
        simp [settle] at gone
      refine ⟨?_, target?, rfl, kept⟩
      by_contra different
      have elsewhere : ∀ {other : Int} (value? : Option Nat), some other ≠ some address →
          Function.update live other value? address = some size := by
        intro other value? apart
        rw [Function.update_of_ne fun same => apart (congrArg some same.symm)]
        exact had
      cases address? with
      | none =>
          cases target? with
          | none => exact absurd (had.symm.trans gone) (by simp)
          | some target => exact absurd ((elsewhere _ kept).symm.trans gone) (by simp)
      | some other =>
          cases target? with
          | none => exact absurd ((elsewhere _ different).symm.trans gone) (by simp)
          | some target =>
              simp only [settle] at gone
              rw [Function.update_of_ne fun same => kept (congrArg some same.symm)] at gone
              exact absurd ((elsewhere _ different).symm.trans gone) (by simp)

/-! ## One call -/

/-- The allocated bit is set at blocks of the client only. -/
def Exact (client : Client) : Prop :=
  ∀ place, client.Marked place → ∃ size, client.live (payloadAddress place) = some size

namespace Follows

theorem exists_givenUp (follows : before.Follows ledger) (had : before.live address = some size)
    (performed : before.perform action = .ok (reply, after)) (gone : after.live address = none) :
    ∃ middle, GivenUp middle after address size := by
  rw [live_eq_settle performed] at gone
  rcases settle_eq_none had gone with ⟨subject_eq, target?, rfl, different⟩
  cases action with
  | acquire | write | setRefusal => cases subject_eq
  | release other =>
      cases subject_eq
      rcases follows.release_givenUp had with ⟨released, release_eq, givenUp⟩
      cases release_eq.symm.trans performed
      exact ⟨before, givenUp⟩
  | resize address? newSize =>
      cases subject_eq
      cases target? with
      | some target =>
          have moved : target ≠ address := fun same => different (congrArg some same)
          rcases follows.move_givenUp had performed moved with ⟨middle, _, givenUp⟩
          exact ⟨middle, givenUp⟩
      | none =>
          rcases follows.booked_of_live had with ⟨offset, rfl, booked⟩
          rcases follows.allocator.resize booked newSize with ⟨⟨resized, allocator⟩, resize_eq, outcome⟩
          simp only [Client.perform, resize_eq, ok_bind] at performed
          cases performed
          exact ⟨before, follows.givenUp booked (outcome.released rfl)⟩

theorem not_marked_of_refused (follows : before.Follows ledger)
    (had : before.live (payloadAddress place) = some size)
    (performed : before.perform action = .ok (reply, after))
    (gone : after.live (payloadAddress place) = none)
    (refused : ∃ reason,
      after.allocator.heap.arena.check (payloadAddress place) = .ok (.error reason)) :
    ¬after.Marked place := by
  rcases follows.exists_givenUp had performed gone with ⟨middle, givenUp⟩
  have apart : ¬middle.Absorbs (payloadAddress place) size := by
    intro absorbed
    rcases refused with ⟨reason, rejected⟩
    rcases givenUp.accepted absorbed with ⟨offset, header, accepted, _⟩
    cases rejected.symm.trans accepted
  have cleared := Arena.allocated_eq_false_of_check (givenUp.refused apart).1
  intro marked
  rw [Arena.allocated_decode_word.mpr marked.odd] at cleared
  cases cleared

theorem exact_of_perform (follows : before.Follows ledger) (permitted : before.Permits action)
    (call : action.isCall) (performed : before.perform action = .ok (reply, after))
    (retracted : ∀ address size, before.live address = some size → after.live address = none →
      ∃ reason, after.allocator.heap.arena.check address = .ok (.error reason))
    (exact : before.Exact) : after.Exact := by
  intro place marked
  rcases follows.marked_of_perform permitted call performed marked with old | new
  · rcases exact place old with ⟨size, had⟩
    rw [← Option.ne_none_iff_exists']
    intro gone
    exact follows.not_marked_of_refused had performed gone (retracted _ _ had gone) marked
  · have live_eq := live_eq_settle performed
    cases new with
    | acquired => exact ⟨_, (congrFun live_eq _).trans (settle_self ..)⟩
    | resized => exact ⟨_, (congrFun live_eq _).trans (settle_self ..)⟩
    | @carried source target size newSize distance live moved aligned positive within inner =>
        rcases exact _ inner with ⟨innerSize, innerLive⟩
        rcases follows.booked_of_live live with ⟨offset, address_eq, booked⟩
        cases payloadAddress_injective address_eq
        rcases follows.booked_of_live innerLive with ⟨offset, address_eq, innerBooked⟩
        cases payloadAddress_injective address_eq
        have apart := follows.allocator.heap.apart_of_live booked innerBooked (by omega)
        have fits := add_headerSize_le_two_pow_requestOrder size
        have length := Nat.two_pow_pos (requestOrder innerSize)
        simp only [Allocation.ofRequest] at apart
        omega

end Follows

/-! ## Runs -/

/-- Every address that the client gave up was refused right after. -/
def Retracts (first : Client) (trace : List (Action × Reply)) : Prop :=
  ∀ early late action reply before after, trace = early ++ (action, reply) :: late →
    Reaches first early before → before.perform action = .ok (reply, after) →
    ∀ address size, before.live address = some size → after.live address = none →
      ∃ reason, after.allocator.heap.arena.check address = .ok (.error reason)

theorem Fresh.not_marked (fresh : first.Fresh) (place : Nat) : ¬first.Marked place := by
  rcases fresh with ⟨config, allocator, system, sound, created, rfl⟩
  rcases exists_arena_of_create created with ⟨arena, reserved, rfl⟩
  have empty := (Arena.fields_of_reserve reserved).1
  intro marked
  have zero : arena.byte place = 0 := by
    simp [Arena.byte, empty]
  have odd : (arena.byte place).toNat % 2 = 1 := marked.odd
  rw [zero] at odd
  cases odd

theorem Reaches.exact (run : Reaches first trace last) (fresh : first.Fresh)
    (silent : ∀ entry ∈ trace, entry.1.isCall) (retracts : Retracts first trace) : last.Exact := by
  induction run with
  | start => exact fun place marked => absurd marked (fresh.not_marked place)
  | @step trace before after action reply run permitted performed induction =>
      have earlier : Retracts first trace := by
        intro early late other answer start next trace_eq
        subst trace_eq
        exact retracts early (late ++ _) other answer start next
          (by rw [List.append_assoc, List.cons_append])
      have call : action.isCall := silent (action, reply) (by simp)
      rcases run.exists_follows fresh with ⟨ledger, follows⟩
      exact follows.exact_of_perform permitted call performed
        (retracts trace [] action reply before after rfl run performed)
        (induction (fun entry member => silent entry (List.mem_append_left _ member)) earlier)

/-- As long as what is given up is refused, validation accepts just what the
client has. -/
theorem Reaches.accepted_iff_live (run : Reaches first trace last) (fresh : first.Fresh)
    (silent : ∀ entry ∈ trace, entry.1.isCall) (retracts : Retracts first trace) :
    (∃ accepted, last.allocator.heap.arena.check address = .ok (.ok accepted)) ↔
      ∃ size, last.live address = some size := by
  constructor
  · intro holds
    rcases holds with ⟨⟨offset, header⟩, accepted⟩
    rcases Arena.check_eq_ok_iff.mp accepted with ⟨rfl, endorses⟩
    exact run.exact fresh silent retracts offset endorses.marked
  · intro holds
    rcases holds with ⟨size, live⟩
    rcases run.exists_follows fresh with ⟨ledger, follows⟩
    rcases follows.booked_of_live live with ⟨offset, rfl, booked⟩
    exact ⟨_, follows.allocator.check_eq_ok booked⟩

end Client

end BuddyHeap
