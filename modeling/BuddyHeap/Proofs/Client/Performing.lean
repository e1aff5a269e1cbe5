import BuddyHeap.Proofs.Client.Following

/-! The client is told by the allocator what the books say, whatever it does,
and memory shows it the arrays of the model. -/

namespace BuddyHeap

def Action.paging : Action → Paging → Paging
  | .setRefusal cause?, paging => { paging with refusal? := cause? }
  | _, paging => paging

def Ledger.perform (ledger : Ledger) (extensible : Bool) : Action → Reply × Ledger
  | .acquire size =>
      let (acquired, after) := ledger.acquire extensible size
      (acquired.map (some ∘ payloadAddress), after)
  | .release address => (.ok none, ledger.release (blockOffset address))
  | .resize address? size =>
      let (resized, after) := ledger.resize extensible (address?.map blockOffset) size
      (resized.map (Option.map payloadAddress), after)
  | .write .. | .setRefusal _ => (.ok none, ledger)

theorem Ledger.exists_acquire_of_reply {ledger : Ledger} {extensible : Bool} {size : Nat}
    {address : Int} (reply_eq : .ok (some address) = (ledger.perform extensible (.acquire size)).1) :
    ∃ offset, address = payloadAddress offset ∧ ledger.acquire extensible size =
      (.ok offset, (ledger.perform extensible (.acquire size)).2) := by
  rcases result : ledger.acquire extensible size with ⟨offset | offset, after⟩
  · simp [perform, result, Except.map] at reply_eq
  · simp only [perform, result, Except.map, Function.comp_apply, Except.ok.injEq,
      Option.some.injEq] at reply_eq ⊢
    exact ⟨offset, reply_eq, rfl⟩

namespace Client

variable {client before after : Client} {ledger : Ledger} {address : Int} {size : Nat}
  {action : Action} {reply : Reply}

def extensible (client : Client) : Bool := client.allocator.heap.arena.extensible

def paging (client : Client) : Paging := client.allocator.heap.arena.paging

def committing (client : Client) : Bool := client.allocator.heap.arena.committing

structure Performed (before : Client) (ledger : Ledger) (action : Action) (reply : Reply)
    (after : Client) : Prop where
  reply_eq : reply = (ledger.perform before.extensible action).1
  follows : after.Follows (ledger.perform before.extensible action).2
  config_eq : after.allocator.config = before.allocator.config
  paging_eq : after.paging = action.paging before.paging
  unchanged : ∀ failure, reply = .error failure → after = before
  arrays : Arrays.Step before.payloads action reply after.payloads

theorem Performed.of_books {books : Ledger}
    (performed : ledger.perform before.extensible action = (reply, books))
    (follows : after.Follows books)
    (config_eq : after.allocator.config = before.allocator.config)
    (paging_eq : after.paging = action.paging before.paging)
    (unchanged : ∀ failure, reply = .error failure → after = before)
    (arrays : Arrays.Step before.payloads action reply after.payloads) :
    Performed before ledger action reply after where
  reply_eq := by rw [performed]
  follows := by rwa [performed]
  config_eq := config_eq
  paging_eq := paging_eq
  unchanged := unchanged
  arrays := arrays

theorem Performed.of_failure {failure : AllocatorError} (follows : before.Follows ledger)
    (performed : ledger.perform before.extensible action = (.error failure, ledger))
    (paging_eq : before.paging = action.paging before.paging) :
    Performed before ledger action (.error failure) before :=
  .of_books performed follows rfl paging_eq (fun _ _ => rfl) (.failed ..)

namespace Follows

theorem acquired (follows : client.Follows ledger)
    (books : ∀ extensible, ledger.perform extensible action =
      ((ledger.acquire extensible size).1.map (some ∘ payloadAddress),
        (ledger.acquire extensible size).2))
    (unpaged : ∀ paging, action.paging paging = paging)
    (step : ∀ address (bytes : Array UInt8), client.payloads address = none → bytes.size = size →
      Arrays.Step client.payloads action (.ok (some address))
        (Function.update client.payloads address (some bytes))) :
    Yields (client.allocator.acquire size).outcome fun (acquired, allocator) =>
      Performed client ledger action (acquired.map some)
        ⟨allocator, settle client.live none size (acquired.map some)⟩ := by
  apply Yields.mono (follows.allocator.acquire size)
  intro result holds
  rcases result with ⟨acquired, allocator⟩
  rcases holds with ⟨acquired_eq, allocatorFollows, preserves, unchanged, fresh⟩
  have performed := books client.extensible
  rcases acquires : ledger.acquire client.extensible size with ⟨result, after⟩
  have acquires' : ledger.acquire client.allocator.heap.arena.extensible size = (result, after) :=
    acquires
  rw [acquires'] at acquired_eq allocatorFollows fresh
  rw [acquires] at performed
  have paging_eq : allocator.heap.arena.paging = action.paging client.paging :=
    preserves.heap.paging_eq.trans (unpaged client.paging).symm
  subst acquired_eq
  cases result with
  | error failure =>
      have same : allocator = client.allocator := unchanged failure rfl
      have after_eq : after = ledger := Ledger.eq_of_acquire_error acquires
      subst same after_eq
      exact .of_failure follows performed paging_eq
  | ok offset =>
      have live_eq := Ledger.live_of_acquire acquires
      have notLive := follows.not_live_of_not_booked (fresh offset rfl)
      have matching : Matches (Function.update client.live (payloadAddress offset) (some size))
          after.live := by
        rw [live_eq]
        exact follows.matching.update rfl
      have others : ∀ other, other ≠ payloadAddress offset →
          payloads ⟨allocator, Function.update client.live (payloadAddress offset) (some size)⟩ other =
            client.payloads other := fun other different =>
        payloads_eq_of_preserves follows preserves.heap (Function.update_of_ne different ..)
          fun _ _ _ booked => booked
      have arrays := payloads_eq_update (Function.update_self ..) others
      have absent : client.payloads (payloadAddress offset) = none := by
        rw [payloads, notLive, Option.map_none]
      refine .of_books performed ⟨allocatorFollows, matching⟩ preserves.config_eq paging_eq
        (by simp [Except.map]) ?_
      simp only [Except.map, settle, arrays]
      exact step _ _ absent (Arena.size_byteRange_toArray ..)

theorem acquire (follows : client.Follows ledger) (size : Nat) :
    Yields (client.perform (.acquire size)) fun (reply, after) =>
      Performed client ledger (.acquire size) reply after := by
  have books : ∀ extensible, ledger.perform extensible (.acquire size) =
      ((ledger.acquire extensible size).1.map (some ∘ payloadAddress),
        (ledger.acquire extensible size).2) := fun _ => rfl
  apply Yields.bind (follows.acquired books (fun _ => rfl) fun _ _ => .acquired)
  intro result performed
  rcases result with ⟨acquired, allocator⟩
  exact .ok performed

theorem perform_resize_none (client : Client) (size : Nat) :
    client.perform (.resize none size) = client.perform (.acquire size) := by
  simp only [perform, Allocator.resize_eq_acquire, Traced.outcome_bind, bind_assoc]
  rfl

theorem resizeNone (follows : client.Follows ledger) (size : Nat) :
    Yields (client.perform (.resize none size)) fun (reply, after) =>
      Performed client ledger (.resize none size) reply after := by
  have books : ∀ extensible, ledger.perform extensible (.resize none size) =
      ((ledger.acquire extensible size).1.map (some ∘ payloadAddress),
        (ledger.acquire extensible size).2) := by
    intro extensible
    simp only [Ledger.perform, Ledger.resize, Option.map_none]
    cases (ledger.acquire extensible size).1 <;> rfl
  rw [perform_resize_none]
  apply Yields.bind (follows.acquired books (fun _ => rfl) fun _ _ => .resizedFromNothing)
  intro result performed
  rcases result with ⟨acquired, allocator⟩
  exact .ok performed

theorem payloads_eq_of_ne (follows : before.Follows ledger) {offset : Nat}
    (preserves : Heap.Preserves (ledger.reclaim offset).live none before.allocator.heap
      after.allocator.heap)
    (different : address ≠ payloadAddress offset) (live_eq : after.live address = before.live address) :
    after.payloads address = before.payloads address := by
  apply payloads_eq_of_preserves follows preserves live_eq
  intro place allocation address_eq booked
  subst address_eq
  have elsewhere : place ≠ offset := fun equal => different (congrArg payloadAddress equal)
  rw [Ledger.live_reclaim, Function.update_of_ne elsewhere]
  exact booked

theorem payloads_of_dropped (follows : client.Follows ledger) {offset : Nat} {allocator : Allocator}
    (preserves : Heap.Preserves (ledger.reclaim offset).live none client.allocator.heap
      allocator.heap) :
    payloads ⟨allocator, Function.update client.live (payloadAddress offset) none⟩ =
      Function.update client.payloads (payloadAddress offset) none := by
  funext other
  by_cases same : other = payloadAddress offset
  · subst same
    simp [payloads]
  · rw [Function.update_of_ne same]
    exact follows.payloads_eq_of_ne preserves same (Function.update_of_ne same ..)

theorem release (follows : client.Follows ledger) (live : client.live address = some size) :
    Yields (client.perform (.release address)) fun (reply, after) =>
      Performed client ledger (.release address) reply after := by
  rcases follows.booked_of_live live with ⟨offset, rfl, booked⟩
  apply Yields.bind (follows.allocator.release booked)
  intro allocator holds
  rcases holds with ⟨allocatorFollows, preserves, _⟩
  have performed : ledger.perform client.extensible (.release (payloadAddress offset)) =
      (.ok none, ledger.release offset) := by
    rw [Ledger.perform, blockOffset_payloadAddress]
  have matching : Matches (Function.update client.live (payloadAddress offset) none)
      (ledger.release offset).live := by
    rw [Ledger.live_release booked]
    exact follows.matching.update rfl
  have arrays : Arrays.Step client.payloads (.release (payloadAddress offset)) (.ok none)
      (payloads ⟨allocator, Function.update client.live (payloadAddress offset) none⟩) := by
    rw [follows.payloads_of_dropped preserves.heap]
    exact .released
  exact .ok (.of_books performed ⟨allocatorFollows, matching⟩ preserves.config_eq
    preserves.heap.paging_eq (by simp) arrays)

theorem resized_arrays (follows : client.Follows ledger) {allocator : Allocator}
    {offset target newSize : Nat} (live : client.live (payloadAddress offset) = some size)
    (preserves : Heap.Preserves (ledger.reclaim offset).live none client.allocator.heap
      allocator.heap)
    (place : target = offset ∨ ledger.live target = none)
    (bytes : client.allocator.PayloadKept allocator offset target (min size newSize)) :
    Arrays.Step client.payloads (.resize (some (payloadAddress offset)) newSize)
      (.ok (some (payloadAddress target))) (payloads ⟨allocator, Function.update (Function.update
        client.live (payloadAddress offset) none) (payloadAddress target) (some newSize)⟩) := by
  let after : Client := ⟨allocator, Function.update (Function.update client.live
    (payloadAddress offset) none) (payloadAddress target) (some newSize)⟩
  have others : ∀ other, other ≠ payloadAddress target → after.payloads other =
      Function.update client.payloads (payloadAddress offset) none other := by
    intro other notTarget
    by_cases notOffset : other = payloadAddress offset
    · subst notOffset
      simp only [payloads, after, Function.update_of_ne notTarget, Function.update_self,
        Option.map_none]
    · rw [Function.update_of_ne notOffset]
      apply follows.payloads_eq_of_ne preserves notOffset
      simp only [after, Function.update_of_ne notTarget, Function.update_of_ne notOffset]
  have arrays := payloads_eq_update (Function.update_self ..) others
  have old : client.payloads (payloadAddress offset) =
      some (client.allocator.heap.arena.byteRange (offset + 8) size).toArray := by
    simp only [payloads, live, Option.map_some, toNat_payloadAddress]
  rw [arrays]
  refine .resized old ?_ (Arena.size_byteRange_toArray ..) ?_
  · rcases place with equal | free
    · exact .inl (congrArg payloadAddress equal)
    · have notLive := follows.not_live_of_not_booked free
      exact .inr (by simp only [payloads, notLive, Option.map_none])
  · intro index below
    rw [Arena.size_byteRange_toArray] at below
    have inOld : index < size := Nat.lt_of_lt_of_le below (Nat.min_le_left ..)
    have inNew : index < newSize := Nat.lt_of_lt_of_le below (Nat.min_le_right ..)
    have kept := bytes index below
    simp [Arena.byteRange, inOld, inNew, kept, after]

theorem resizeSome (follows : client.Follows ledger) (live : client.live address = some size)
    (newSize : Nat) :
    Yields (client.perform (.resize (some address) newSize)) fun (reply, after) =>
      Performed client ledger (.resize (some address) newSize) reply after := by
  rcases follows.booked_of_live live with ⟨offset, rfl, booked⟩
  apply Yields.bind (follows.allocator.resize booked newSize)
  intro result outcome
  rcases result with ⟨resized, allocator⟩
  rcases books : ledger.resize client.extensible (some offset) newSize with ⟨result, books'⟩
  have books_eq : ledger.resize client.allocator.heap.arena.extensible (some offset) newSize =
      (result, books') := books
  obtain ⟨result_eq, allocatorFollows, preserves, unchanged, kept, live_eq⟩ := outcome
  simp only [books_eq] at result_eq allocatorFollows kept live_eq
  have performed : ledger.perform client.extensible (.resize (some (payloadAddress offset)) newSize) =
      (result.map (Option.map payloadAddress), books') := by
    simp only [Ledger.perform, Option.map_some, blockOffset_payloadAddress, books]
  subst result_eq
  cases result with
  | error failure =>
      have same : allocator = client.allocator := unchanged failure rfl
      have books'_eq := Ledger.eq_of_resize_error books
      subst same books'_eq
      exact .ok (.of_failure follows performed rfl)
  | ok target? =>
      cases target? with
      | none =>
          rcases Ledger.eq_of_resize_none booked books with ⟨rfl, rfl⟩
          have matching : Matches (Function.update client.live (payloadAddress offset) none)
              (ledger.release offset).live := by
            rw [Ledger.live_release booked]
            exact follows.matching.update rfl
          have arrays : Arrays.Step client.payloads (.resize (some (payloadAddress offset)) 0)
              (.ok none)
              (payloads ⟨allocator, Function.update client.live (payloadAddress offset) none⟩) := by
            rw [follows.payloads_of_dropped preserves.heap]
            exact .resizedToNothing
          exact .ok (.of_books performed ⟨allocatorFollows, matching⟩ preserves.config_eq
            preserves.heap.paging_eq (by simp [Except.map]) arrays)
      | some target =>
          rcases kept target rfl with ⟨bytes, place⟩
          have matching : Matches (Function.update (Function.update client.live
              (payloadAddress offset) none) (payloadAddress target) (some newSize)) books'.live := by
            rw [live_eq target rfl]
            have dropped : Matches (Function.update client.live (payloadAddress offset) none)
                (Function.update ledger.live offset none) := follows.matching.update rfl
            exact dropped.update rfl
          exact .ok (.of_books performed ⟨allocatorFollows, matching⟩ preserves.config_eq
            preserves.heap.paging_eq (by simp [Except.map])
            (follows.resized_arrays live preserves.heap place bytes))

/-! ## Writing -/

theorem write (follows : client.Follows ledger) {distance : Nat} {content : List UInt8}
    (live : client.live address = some size)
    (within : distance + content.length ≤ (Allocation.ofRequest size).capacity) :
    Yields (client.perform (.write address distance content)) fun (reply, after) =>
      Performed client ledger (.write address distance content) reply after := by
  rcases follows.booked_of_live live with ⟨offset, rfl, booked⟩
  have fits := follows.allocator.heap.fits _ _ booked
  have inside := follows.allocator.heap.inside_of_live booked
  have header := fits.headerSize_le
  have served : size ≤ (Allocation.ofRequest size).capacity := fits.requested_le_capacity
  obtain ⟨⟨⟨arena, sentinels⟩, config⟩, owned⟩ := client
  simp only [Allocation.capacity, headerSize] at within header served
  have writtenFollows := follows.allocator.heap.overwrite booked content
    (Nat.le_add_right (offset + 8) distance) (by omega)
  have writing : Heap.Preserves (ledger.reclaim offset).live none ⟨arena, sentinels⟩
      ⟨arena.overwrite (offset + 8 + distance) content, sentinels⟩ := by
    apply Arena.agreeOutside_overwrite
    intro index lower upper
    apply follows.allocator.heap.not_taken_of_live booked
    simp only [Span.Covers, Span.stop]
    omega
  let before : Client := ⟨⟨⟨arena, sentinels⟩, config⟩, owned⟩
  let after : Client := ⟨⟨⟨arena.overwrite (offset + 8 + distance) content, sentinels⟩, config⟩, owned⟩
  have stillLive : after.live (payloadAddress offset) = some size := live
  have others : ∀ other, other ≠ payloadAddress offset →
      after.payloads other = before.payloads other :=
    fun other different => follows.payloads_eq_of_ne writing different rfl
  have arrays := payloads_eq_update stillLive others
  have array : ((after.allocator.heap.arena.byteRange (offset + 8) size).toArray) =
      overwriteBytes (arena.byteRange (offset + 8) size).toArray distance content := by
    apply Arena.byteRange_overwrite
    simp only at inside
    omega
  have old : before.payloads (payloadAddress offset) =
      some (arena.byteRange (offset + 8) size).toArray := by
    simp only [payloads, before] at live ⊢
    simp only [live, Option.map_some, toNat_payloadAddress]
  rw [toNat_payloadAddress, array] at arrays
  refine .ok ⟨rfl, ⟨⟨?_, follows.allocator.capacity_eq⟩, follows.matching⟩, rfl, rfl,
    by simp, ?_⟩
  · rw [toNat_payloadAddress]
    exact writtenFollows
  · rw [toNat_payloadAddress]
    exact arrays ▸ .written old

theorem setRefusal (follows : client.Follows ledger) (cause? : Option SystemError) :
    Yields (client.perform (.setRefusal cause?)) fun (reply, after) =>
      Performed client ledger (.setRefusal cause?) reply after := by
  obtain ⟨⟨⟨arena, sentinels⟩, config⟩, owned⟩ := client
  have heap := follows.allocator.heap
  have mapped := heap.mapped
  have changed : Heap.Follows
      ⟨{ arena with paging := { arena.paging with refusal? := cause? } }, sentinels⟩ ledger none :=
    ⟨⟨mapped.aligns, mapped.page_fits, mapped.chunk_fits⟩, heap.size_eq,
      heap.lists.of_byte_eq rfl (Nat.le_refl _) fun _ _ => rfl, heap.tiled, heap.merged, heap.fits,
      heap.word_eq⟩
  exact .ok ⟨rfl, ⟨⟨changed, follows.allocator.capacity_eq⟩, follows.matching⟩, rfl,
    rfl, by simp, .setRefusal cause?⟩

/-- No action that is permitted meets a fault, and each does what the books
say. -/
theorem perform (follows : client.Follows ledger) (permitted : client.Permits action) :
    Yields (client.perform action) fun (reply, after) =>
      Performed client ledger action reply after := by
  cases action with
  | acquire size => exact follows.acquire size
  | release address =>
      rcases permitted with ⟨size, live⟩
      exact follows.release live
  | resize address? newSize =>
      cases address? with
      | none => exact follows.resizeNone newSize
      | some address =>
          rcases permitted with ⟨size, live⟩
          exact follows.resizeSome live newSize
  | write address distance content =>
      rcases permitted with ⟨size, live, within⟩
      exact follows.write live within
  | setRefusal cause? => exact follows.setRefusal cause?

end Follows

end Client

end BuddyHeap
