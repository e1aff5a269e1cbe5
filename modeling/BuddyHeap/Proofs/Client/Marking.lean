import BuddyHeap.Proofs.Client.Performing

/-! Where a call sets the allocated bit: at the start of the block that it hands
out, and wherever a payload that it moves has the bit. Releasing sets it
nowhere. -/

namespace BuddyHeap

namespace Client

variable {client before after : Client} {ledger : Ledger} {action : Action} {reply : Reply}
  {place : Nat}

def Marked (client : Client) (place : Nat) : Prop := client.allocator.heap.arena.Marked place

/-- A call, answered like this, may set the allocated bit here. -/
inductive Marks (before : Client) : Action → Reply → Nat → Prop where
  | acquired {size place : Nat} :
      Marks before (.acquire size) (.ok (some (payloadAddress place))) place
  | resized {address? : Option Int} {size place : Nat} :
      Marks before (.resize address? size) (.ok (some (payloadAddress place))) place
  | carried {source target size newSize distance : Nat}
      (live : before.live (payloadAddress source) = some size) (moved : target ≠ source)
      (aligned : minBlockSize ∣ distance) (positive : 0 < distance)
      (within : distance < size + headerSize) (marked : before.Marked (source + distance)) :
      Marks before (.resize (some (payloadAddress source)) newSize)
        (.ok (some (payloadAddress target))) (target + distance)

namespace Follows

theorem marked_of_acquire (follows : before.Follows ledger) {size : Nat}
    (performed : before.perform (.acquire size) = .ok (reply, after)) (marked : after.Marked place) :
    before.Marked place ∨ reply = .ok (some (payloadAddress place)) := by
  rcases follows.allocator.acquire size with ⟨⟨acquired, allocator⟩, acquire_eq, outcome⟩
  simp only [Client.perform, acquire_eq, ok_bind] at performed
  cases performed
  refine (outcome.marked place marked).imp_right fun handed => ?_
  rw [outcome.result, handed]
  rfl

theorem marked_of_release (follows : before.Follows ledger) {address : Int} {size : Nat}
    (live : before.live address = some size)
    (performed : before.perform (.release address) = .ok (reply, after)) (marked : after.Marked place) :
    before.Marked place := by
  rcases follows.booked_of_live live with ⟨offset, rfl, booked⟩
  rcases follows.allocator.release booked with ⟨allocator, released, _, _, unmarked, _⟩
  simp only [Client.perform, released, ok_bind] at performed
  cases performed
  exact unmarked place marked

theorem marked_of_resize (follows : before.Follows ledger) {address : Int} {size newSize : Nat}
    (live : before.live address = some size)
    (performed : before.perform (.resize (some address) newSize) = .ok (reply, after))
    (marked : after.Marked place) :
    before.Marked place ∨ Marks before (.resize (some address) newSize) reply place := by
  rcases follows.booked_of_live live with ⟨source, rfl, booked⟩
  rcases follows.allocator.resize booked newSize with ⟨⟨resized, allocator⟩, resize_eq, outcome⟩
  simp only [Client.perform, resize_eq, ok_bind] at performed
  cases performed
  refine (outcome.marked place marked).imp_right fun holds => ?_
  rcases holds with ⟨target, handed, rfl | ⟨moved, distance, rfl, positive, within, inside⟩⟩
  · rw [outcome.result, handed]
    exact .resized
  · rw [outcome.result, handed]
    have aligned := follows.allocator.heap.minBlockSize_dvd_of_live booked
    exact .carried live moved ((Nat.dvd_add_right aligned).mp inside.aligned) positive within inside

theorem marked_of_perform (follows : before.Follows ledger) (permitted : before.Permits action)
    (call : action.isCall) (performed : before.perform action = .ok (reply, after))
    (marked : after.Marked place) : before.Marked place ∨ Marks before action reply place := by
  cases action with
  | acquire size =>
      refine (follows.marked_of_acquire performed marked).imp_right fun handed => ?_
      subst handed
      exact .acquired
  | release address =>
      rcases permitted with ⟨size, live⟩
      exact .inl (follows.marked_of_release live performed marked)
  | resize address? size =>
      cases address? with
      | none =>
          rw [perform_resize_none] at performed
          refine (follows.marked_of_acquire performed marked).imp_right fun handed => ?_
          subst handed
          exact .resized
      | some address =>
          rcases permitted with ⟨oldSize, live⟩
          exact follows.marked_of_resize live performed marked
  | write address distance content => cases call
  | setRefusal cause? =>
      cases performed
      exact .inl (marked.of_byte_eq rfl)

end Follows

end Client

end BuddyHeap
