import BuddyHeap.Proofs.Client.Accounting
import BuddyHeap.Proofs.Client.Packing

/-! Shrinking a payload again and again. It stays where it is, and what the heap
comes to depends on the last size alone. -/

namespace BuddyHeap

namespace Client

variable {client middle : Client} {ledger middleLedger : Ledger} {address : Int} {size newSize : Nat}

def resized (client : Client) (address : Int) (size : Nat) (heap : Heap) : Client :=
  ⟨⟨heap, client.allocator.config⟩, Function.update client.live address (some size)⟩

def resizes (address : Int) (sizes : List Nat) : List (Action × Reply) :=
  sizes.map fun size => (.resize (some address) size, .ok (some address))

theorem live_eq_of_resized
    (performed : client.perform (.resize (some address) newSize) =
      .ok (.ok (some address), middle)) :
    middle.live = Function.update client.live address (some newSize) := by
  rcases exists_of_bind_eq_ok performed with ⟨⟨resized, allocator⟩, _, equal⟩
  cases resized with
  | error failure => cases equal
  | ok target? =>
      cases equal
      exact Function.update_idem ..

theorem live_of_resized
    (performed : client.perform (.resize (some address) newSize) =
      .ok (.ok (some address), middle)) : middle.live address = some newSize := by
  rw [live_eq_of_resized performed, Function.update_self]

namespace Follows

theorem check_of_live (follows : client.Follows ledger) (live : client.live address = some size) :
    client.allocator.heap.arena.check address =
        .ok (.ok (blockOffset address, (Allocation.ofRequest size).header)) ∧
      (Allocation.ofRequest size).header.Serves size := by
  rcases follows.booked_of_live live with ⟨offset, rfl, booked⟩
  rw [blockOffset_payloadAddress]
  exact ⟨follows.allocator.check_eq_ok booked, (follows.allocator.heap.fits _ _ booked).serves⟩

theorem validated_of_live (follows : client.Follows ledger)
    (live : client.live address = some size) : client.allocator.validated address =
      .ok (blockOffset address, (Allocation.ofRequest size).header) :=
  Allocator.validated_of_check (follows.check_of_live live).1

theorem perform_resize_eq (follows : client.Follows ledger) (live : client.live address = some size)
    (valid : ¬(newSize = 0 ∨ maxPayload < newSize))
    (smaller : requestOrder newSize ≤ requestOrder size) :
    client.perform (.resize (some address) newSize) =
      (client.allocator.heap.shrink (blockOffset address) (requestOrder size) newSize).map
        fun heap => (.ok (some address), client.resized address newSize heap) := by
  have validated := follows.validated_of_live live
  have shrunk := Allocator.resize_of_smaller validated valid smaller
  rw [Client.perform, shrunk]
  simp only [map_eq_bind, bind_assoc, ok_bind, answered, settle, Function.update_idem]
  rfl

theorem exists_shrunk (follows : client.Follows ledger) (live : client.live address = some size)
    (valid : ¬(newSize = 0 ∨ maxPayload < newSize))
    (smaller : requestOrder newSize ≤ requestOrder size) :
    ∃ heap, client.allocator.heap.shrink (blockOffset address) (requestOrder size) newSize =
        .ok heap ∧
      client.perform (.resize (some address) newSize) =
        .ok (.ok (some address), client.resized address newSize heap) := by
  have performed := follows.perform_resize_eq live valid smaller
  rcases follows.resizeSome live newSize with ⟨result, result_eq, _⟩
  cases shrunk : client.allocator.heap.shrink (blockOffset address) (requestOrder size) newSize with
  | error fault =>
      rw [performed, shrunk] at result_eq
      cases result_eq
  | ok heap => exact ⟨heap, rfl, by rw [performed, shrunk]; rfl⟩

/-- After one step down, another one comes to what a single step does. -/
theorem exists_shrunk_twice (follows : client.Follows ledger)
    (live : client.live address = some size) {earlier later : Nat}
    (valid : ¬(earlier = 0 ∨ maxPayload < earlier)) (smaller : requestOrder earlier ≤ requestOrder size)
    (laterValid : ¬(later = 0 ∨ maxPayload < later))
    (evenSmaller : requestOrder later ≤ requestOrder earlier)
    (first : client.perform (.resize (some address) earlier) = .ok (.ok (some address), middle))
    (middleFollows : middle.Follows middleLedger) :
    ∃ after, middle.perform (.resize (some address) later) = .ok (.ok (some address), after) ∧
      client.perform (.resize (some address) later) = .ok (.ok (some address), after) := by
  rcases follows.exists_shrunk live valid smaller with ⟨heap, heap_eq, performed⟩
  rw [first] at performed
  cases performed
  rcases middleFollows.exists_shrunk (live_of_resized first) laterValid evenSmaller with
    ⟨last, last_eq, performed⟩
  have atOnce := Heap.shrink_shrink smaller evenSmaller heap_eq last_eq
  refine ⟨_, performed, ?_⟩
  rw [follows.perform_resize_eq live laterValid (Nat.le_trans evenSmaller smaller), atOnce]
  simp only [Except.map, resized, Function.update_idem]

theorem exists_shrunk_by_all (follows : client.Follows ledger)
    (live : client.live address = some size) {sizes orders : List Nat} {last : Nat}
    (descending : Descending (sizes ++ [last]) orders)
    (smaller : ∀ order ∈ orders, order ≤ requestOrder size) :
    ∃ after, Reaches client (resizes address (sizes ++ [last])) after ∧
      client.perform (.resize (some address) last) = .ok (.ok (some address), after) := by
  induction sizes using List.reverseRecOn generalizing last orders with
  | nil =>
      rcases descending.exists_concat with ⟨orders, rfl⟩
      have fitting := smaller (requestOrder last) (by simp)
      rcases follows.exists_shrunk live descending.last_valid fitting with ⟨heap, _, performed⟩
      exact ⟨_, Reaches.start.step ⟨size, live⟩ performed, performed⟩
  | append_singleton sizes next induction =>
      rcases descending.exists_concat with ⟨orders, rfl⟩
      have before := descending.earlier
      rcases before.exists_concat with ⟨orders, rfl⟩
      have evenSmaller : requestOrder last ≤ requestOrder next := descending.last_le (by simp)
      have fitting : requestOrder next ≤ requestOrder size := smaller (requestOrder next) (by simp)
      rcases induction before fun order member => smaller order (List.mem_append_left _ member) with
        ⟨middle, run, atOnce⟩
      have middleFollows := (run.keeps follows.keeps).2.follows
      rcases follows.exists_shrunk_twice live before.last_valid fitting descending.last_valid
        evenSmaller atOnce middleFollows with ⟨after, performed, whole⟩
      refine ⟨after, ?_, whole⟩
      rw [resizes, List.map_append]
      exact run.step ⟨_, live_of_resized atOnce⟩ performed

end Follows

/-- A payload that is resized again and again, to sizes whose orders never
increase from the one it has, stays in place. All of the heap is then as if it
had been resized once, to the last size, and that is what its header says. -/
theorem Reachable.shrinks_at_once (reachable : client.Reachable)
    (live : client.live address = some size) :
    ∃ offset header, client.allocator.heap.arena.check address = .ok (.ok (offset, header)) ∧
      header.Serves size ∧
      ∀ sizes last orders, Descending (sizes ++ [last]) orders →
        (∀ order ∈ orders, order ≤ header.order) →
        ∃ after newHeader, Reaches client (resizes address (sizes ++ [last])) after ∧
          client.perform (.resize (some address) last) = .ok (.ok (some address), after) ∧
          after.live = Function.update client.live address (some last) ∧
          after.allocator.heap.arena.check address = .ok (.ok (offset, newHeader)) ∧
          newHeader.Serves last := by
  rcases reachable.exists_follows with ⟨ledger, follows⟩
  rcases follows.check_of_live live with ⟨accepted, serves⟩
  refine ⟨_, _, accepted, serves, ?_⟩
  intro sizes last orders descending smaller
  rcases follows.exists_shrunk_by_all live descending smaller with ⟨after, run, whole⟩
  have afterFollows := (run.keeps follows.keeps).2.follows
  rcases afterFollows.check_of_live (live_of_resized whole) with ⟨afterAccepted, afterServes⟩
  exact ⟨after, _, run, whole, live_eq_of_resized whole, afterAccepted, afterServes⟩

/-- From a block of 1024 bytes to one of 32, with steps that stay at an order. -/
theorem shrinks_at_once_of_four : ∃ client after : Client, client.Reachable ∧
    client.live 8 = some 1000 ∧
    Reaches client [(.resize (some 8) 500, .ok (some 8)), (.resize (some 8) 504, .ok (some 8)),
      (.resize (some 8) 100, .ok (some 8)), (.resize (some 8) 24, .ok (some 8))] after ∧
    client.perform (.resize (some 8) 24) = .ok (.ok (some 8), after) ∧ after.live 8 = some 24 := by
  rcases exists_reaches .default (by decide) [.acquire 1000, .acquire 24, .acquire 24] rfl with
    ⟨first, client, fresh, run, keeps⟩
  have reachable : client.Reachable := ⟨first, _, fresh, run⟩
  have live : client.live 8 = some 1000 := keeps.live_eq 8
  rcases reachable.shrinks_at_once live with ⟨offset, header, accepted, serves, shrinks⟩
  have order_eq : header.order = 10 := Except.ok.inj (serves.order_eq.symm.trans rfl)
  have descending : Descending [500, 504, 100, 24] [9, 9, 7, 5] := by
    refine ⟨by decide, rfl, ?_⟩
    decide
  rcases shrinks [500, 504, 100] 24 [9, 9, 7, 5] descending (by rw [order_eq]; decide) with
    ⟨after, _, run, whole, live_eq, _⟩
  have lastLive : after.live 8 = some 24 := by
    rw [live_eq]
    exact Function.update_self ..
  exact ⟨client, after, reachable, live, run, whole, lastLive⟩

end Client

end BuddyHeap
