import Mathlib.Algebra.BigOperators.Ring.List
import BuddyHeap.Proofs.Client.Runs
import BuddyHeap.Proofs.Ledger.Packing

/-! Requests whose orders never increase. A new heap serves them one right after
the other, without a gap, and grows when it is full; so the ceiling is used up
to the last byte before a request fails. -/

namespace BuddyHeap

def blockBytes (orders : List Nat) : Nat := (orders.map (2 ^ ·)).sum

theorem blockBytes_concat (orders : List Nat) (order : Nat) :
    blockBytes (orders ++ [order]) = blockBytes orders + 2 ^ order := by
  simp [blockBytes]

theorem blockBytes_replicate (count order : Nat) :
    blockBytes (List.replicate count order) = count * 2 ^ order := by
  simp [blockBytes]

/-- Requests that some block can serve. The orders that they require never
increase. -/
structure Descending (sizes orders : List Nat) : Prop where
  valid : ∀ size ∈ sizes, 0 < size ∧ size ≤ maxPayload
  required : sizes.mapM requiredOrder = .ok orders
  ordered : orders.Pairwise fun earlier later => later ≤ earlier

theorem mapM_requiredOrder_eq_ok {sizes : List Nat}
    (valid : ∀ size ∈ sizes, 0 < size ∧ size ≤ maxPayload) :
    sizes.mapM requiredOrder = .ok (sizes.map requestOrder) := by
  induction sizes with
  | nil => rfl
  | cons size sizes induction =>
      have first := valid size List.mem_cons_self
      have rest := induction fun request member => valid request (List.mem_cons_of_mem _ member)
      rw [List.mapM_cons, Allocator.requiredOrder_of_valid (by omega), ok_bind, rest]
      rfl

namespace Descending

variable {sizes orders : List Nat} {size order : Nat}

theorem orders_eq (descending : Descending sizes orders) : orders = sizes.map requestOrder :=
  Except.ok.inj (descending.required.symm.trans (mapM_requiredOrder_eq_ok descending.valid))

theorem exists_concat (descending : Descending (sizes ++ [size]) orders) :
    ∃ earlier, orders = earlier ++ [requestOrder size] := by
  refine ⟨sizes.map requestOrder, ?_⟩
  rw [descending.orders_eq, List.map_append]
  rfl

variable (descending : Descending (sizes ++ [size]) (orders ++ [order]))
include descending

theorem concat_eq : orders = sizes.map requestOrder ∧ order = requestOrder size := by
  have whole_eq := descending.orders_eq
  rw [List.map_append] at whole_eq
  rcases List.append_inj' whole_eq rfl with ⟨earlier_eq, last_eq⟩
  exact ⟨earlier_eq, List.singleton_inj.mp last_eq⟩

theorem earlier : Descending sizes orders := by
  have valid : ∀ request ∈ sizes, 0 < request ∧ request ≤ maxPayload :=
    fun request member => descending.valid request (List.mem_append_left _ member)
  refine ⟨valid, ?_, (List.pairwise_append.mp descending.ordered).1⟩
  rw [mapM_requiredOrder_eq_ok valid, descending.concat_eq.1]

theorem last_valid : ¬(size = 0 ∨ maxPayload < size) := by
  have valid := descending.valid size (by simp)
  omega

theorem last_le {earlier : Nat} (member : earlier ∈ orders) : order ≤ earlier :=
  (List.pairwise_append.mp descending.ordered).2.2 earlier member order (List.mem_singleton_self _)

theorem dvd_blockBytes : 2 ^ order ∣ blockBytes orders := by
  apply List.dvd_sum
  intro bytes member
  rcases List.mem_map.mp member with ⟨earlier, listed, rfl⟩
  exact Nat.pow_dvd_pow 2 (descending.last_le listed)

omit descending in
theorem replicate (count : Nat) (positive : 0 < size) (served : size ≤ maxPayload) :
    Descending (List.replicate count size) (List.replicate count (requestOrder size)) := by
  have valid : ∀ request ∈ List.replicate count size, 0 < request ∧ request ≤ maxPayload := by
    intro request member
    rw [List.eq_of_mem_replicate member]
    exact ⟨positive, served⟩
  refine ⟨valid, ?_, List.pairwise_replicate.mpr (.inr (Nat.le_refl _))⟩
  rw [mapM_requiredOrder_eq_ok valid, List.map_replicate]

end Descending

namespace Books

/-- The books, when the client has the first `used` bytes of a heap that the
system lets grow. -/
structure Packed (books : Books) (used : Nat) : Prop where
  ledger : books.ledger.Packed used
  tiled : books.ledger.Tiled none
  merged : books.ledger.lists.Merged
  bounded : books.ledger.size ≤ books.config.ceiling
  granting : books.paging.refusal? = none

namespace Packed

variable {books : Books} {sizes : List Nat} {size : Nat}

theorem extensible_eq {used : Nat} (packed : books.Packed used) :
    books.extensible = decide (books.ledger.size + maxBlockSize ≤ books.config.ceiling) := by
  have granted : books.paging.chunkFailure? books.ledger.size = none :=
    Paging.chunkFailure?_eq_none_iff.mpr fun _ => packed.granting
  rw [Books.extensible, Books.committing, granted, Option.isNone_none, Bool.and_true]

theorem perform_of_fits {used : Nat} (packed : books.Packed used)
    (valid : ¬(size = 0 ∨ maxPayload < size)) (multiple : 2 ^ requestOrder size ∣ used)
    (fits : used + 2 ^ requestOrder size ≤ books.config.ceiling) :
    (books.perform (.acquire size)).1 = .ok (some (payloadAddress used)) ∧
      (books.perform (.acquire size)).2.ledger.Packed (used + 2 ^ requestOrder size) := by
  have positive := Nat.two_pow_pos (requestOrder size)
  have served : used < books.ledger.size ∨ books.extensible = true := by
    rw [packed.extensible_eq, decide_eq_true_iff]
    have inside := packed.ledger.used_le
    have bounded := packed.bounded
    have ceilingWhole : maxBlockSize ∣ books.config.ceiling :=
      Nat.dvd_of_mod_eq_zero books.config.ceiling_whole
    have distance := Nat.dvd_sub ceilingWhole packed.tiled.whole
    by_contra blocked
    have chunk := Nat.le_of_dvd (by omega) distance
    omega
  rcases packed.ledger.acquire packed.tiled packed.merged valid multiple served with
    ⟨acquired, afterPacked⟩
  exact ⟨congrArg (Except.map (some ∘ payloadAddress)) acquired, afterPacked⟩

theorem perform_of_full (packed : books.Packed books.config.ceiling)
    (valid : ¬(size = 0 ∨ maxPayload < size))
    (multiple : 2 ^ requestOrder size ∣ books.config.ceiling) :
    (books.perform (.acquire size)).1 =
        .error (.outOfMemory (requestOrder size) books.config.ceiling) ∧
      (books.perform (.acquire size)).2.ledger = books.ledger := by
  have full : books.config.ceiling = books.ledger.size :=
    Nat.le_antisymm packed.ledger.used_le packed.bounded
  have blocked : books.extensible = false := by
    rw [packed.extensible_eq, decide_eq_false_iff_not, full]
    simp only [maxBlockSize]
    omega
  have failed := packed.ledger.acquire_of_full packed.tiled packed.merged valid multiple full
  rw [perform, blocked, full]
  simp only [Ledger.perform, failed, and_true]
  rfl

end Packed

end Books

namespace Client

variable {config : Config} {last : Client} {trace : List (Action × Reply)}
  {sizes orders : List Nat} {size order : Nat}

/-- Where the client is after requests of some orders: it has the first bytes of
the heap, as many as their blocks have or as there are at most. -/
structure PackedAfter (config : Config) (orders : List Nat) (trace : List (Action × Reply))
    (last : Client) : Prop where
  keeps : ∃ books : Books, last.Keeps books ∧ books.config = config ∧
    books.Packed (min (blockBytes orders) config.ceiling)
  failed_iff : (∃ entry ∈ trace, ¬entry.2.isOk) ↔ config.ceiling < blockBytes orders

/-- What becomes of a request of some order, after requests whose blocks have
`used` bytes. -/
structure Packs (ceiling used : Nat) (trace : List (Action × Reply)) (order : Nat) (reply : Reply)
    (after : Client) : Prop where
  succeeds_iff : reply.isOk ↔ used + 2 ^ order ≤ ceiling
  placed : reply.isOk → reply = .ok (some (used + headerSize : Nat)) ∧
    IsLeast {bytes | maxBlockSize ∣ bytes ∧ used + 2 ^ order ≤ bytes} after.allocator.heap.size
  fails : ¬reply.isOk → reply = .error (.outOfMemory order ceiling)
  /-- The first request that fails finds the ceiling used up. -/
  exhausted : ¬reply.isOk → (∀ entry ∈ trace, entry.2.isOk) → used = ceiling
  stays : (∃ entry ∈ trace, ¬entry.2.isOk) → ¬reply.isOk

def uniform (order size count : Nat) : List (Action × Reply) :=
  (List.range count).map fun index =>
    (.acquire size, .ok (some (index * 2 ^ order + headerSize : Nat)))

theorem uniform_succ (order size count : Nat) : uniform order size (count + 1) =
    uniform order size count ++
      [(.acquire size, .ok (some (count * 2 ^ order + headerSize : Nat)))] := by
  rw [uniform, List.range_succ, List.map_append]
  rfl

theorem Keeps.packed {books : Books} {used : Nat} (keeps : last.Keeps books)
    (granting : books.paging.refusal? = none) (packed : books.ledger.Packed used) :
    books.Packed used where
  ledger := packed
  tiled := keeps.follows.allocator.heap.tiled
  merged := keeps.follows.allocator.heap.merged
  bounded := by
    rw [← keeps.config_eq, ← keeps.follows.size_eq]
    exact keeps.follows.size_le_ceiling
  granting := granting

theorem failed_concat_iff {entry : Action × Reply} : (∃ other ∈ trace ++ [entry], ¬other.2.isOk) ↔
    (∃ other ∈ trace, ¬other.2.isOk) ∨ ¬entry.2.isOk := by
  simp [or_and_right, exists_or]

theorem PackedAfter.step (packed : PackedAfter config orders trace last)
    (descending : Descending (sizes ++ [size]) (orders ++ [order])) : ∃ reply after,
      last.perform (.acquire size) = .ok (reply, after) ∧
        Packs config.ceiling (blockBytes orders) trace order reply after ∧
        PackedAfter config (orders ++ [order]) (trace ++ [(.acquire size, reply)]) after := by
  rcases packed with ⟨⟨books, keeps, rfl, filled⟩, failed_iff⟩
  have valid := descending.last_valid
  have multiple := descending.dvd_blockBytes
  rcases descending.concat_eq with ⟨_, rfl⟩
  have ceilingMultiple : 2 ^ requestOrder size ∣ books.config.ceiling :=
    (Nat.pow_dvd_pow 2 (requestOrder_le_topOrder (by omega))).trans
      (Nat.dvd_of_mod_eq_zero books.config.ceiling_whole)
  have permitted : last.Permits (.acquire size) := trivial
  rcases keeps.perform permitted with ⟨after, performed, afterKeeps⟩
  refine ⟨_, after, performed, ?_⟩
  generalize reply_eq : (books.perform (.acquire size)).1 = reply
  have positive := Nat.two_pow_pos (requestOrder size)
  by_cases fits : blockBytes orders + 2 ^ requestOrder size ≤ books.config.ceiling
  · have used_eq : min (blockBytes orders) books.config.ceiling = blockBytes orders :=
      Nat.min_eq_left (Nat.le_of_add_right_le fits)
    rw [used_eq] at filled
    rcases filled.perform_of_fits valid multiple fits with ⟨served, afterFilled⟩
    cases reply_eq.symm.trans served
    have afterPacked := afterKeeps.packed filled.granting afterFilled
    have unfailed : ¬∃ entry ∈ trace, ¬entry.2.isOk := by
      rw [failed_iff]
      omega
    have least := afterPacked.ledger.isLeast afterPacked.tiled
    rw [← afterKeeps.follows.size_eq] at least
    refine ⟨⟨iff_of_true rfl fits, fun _ => ⟨rfl, least⟩, fun failed => absurd rfl failed,
      fun failed => absurd rfl failed, fun failed => absurd failed unfailed⟩, ?_, ?_⟩
    · rw [blockBytes_concat, Nat.min_eq_left fits]
      exact ⟨_, afterKeeps, rfl, afterPacked⟩
    · rw [failed_concat_iff, blockBytes_concat]
      exact iff_of_false (fun failed => failed.elim unfailed (absurd rfl)) (Nat.not_lt_of_le fits)
  · have beyond : books.config.ceiling ≤ blockBytes orders := by
      by_contra below
      have distance := Nat.le_of_dvd (by omega) (Nat.dvd_sub ceilingMultiple multiple)
      omega
    have used_eq : min (blockBytes orders) books.config.ceiling = books.config.ceiling := by omega
    rw [used_eq] at filled
    rcases filled.perform_of_full valid ceilingMultiple with ⟨failed, ledger_eq⟩
    cases reply_eq.symm.trans failed
    have refused (failure : AllocatorError) : ¬(Except.error failure : Reply).isOk :=
      Bool.false_ne_true
    have afterFilled := filled.ledger
    rw [← ledger_eq] at afterFilled
    refine ⟨⟨iff_of_false (refused _) fits, fun served => absurd served (refused _), fun _ => rfl,
      ?_, fun _ => refused _⟩, ?_, ?_⟩
    · intro _ served
      have within := mt failed_iff.mpr (by simpa using served)
      omega
    · rw [blockBytes_concat, Nat.min_eq_right (by omega)]
      exact ⟨_, afterKeeps, rfl, afterKeeps.packed filled.granting afterFilled⟩
    · rw [failed_concat_iff, blockBytes_concat]
      exact iff_of_true (.inr (refused _)) (Nat.lt_of_not_le fits)

variable {system : System} {allocator : Allocator} (sound : system.Sound)
  (created : (Allocator.create config system).outcome = .ok (.ok allocator))
include sound created

theorem packedAfter_start : PackedAfter config [] [] (start allocator) where
  keeps := by
    have keeps := keeps_of_create sound created
    refine ⟨_, keeps, rfl, keeps.packed rfl ?_⟩
    rw [blockBytes, List.map_nil, List.sum_nil, Nat.zero_min]
    exact .empty
  failed_iff := by simp [blockBytes]

theorem Reaches.packedAfter (run : Reaches (Client.start allocator) trace last)
    (requested : trace.map Prod.fst = sizes.map .acquire) (descending : Descending sizes orders) :
    PackedAfter config orders trace last := by
  induction run generalizing sizes orders with
  | start =>
      rw [List.map_nil, eq_comm, List.map_eq_nil_iff] at requested
      subst requested
      cases descending.orders_eq
      exact packedAfter_start sound created
  | step run permitted performed induction =>
      rw [List.map_append, eq_comm] at requested
      rcases List.map_eq_append_iff.mp requested with ⟨earlier, latest, rfl, earlier_eq, latest_eq⟩
      rcases List.map_eq_singleton_iff.mp latest_eq with ⟨size, rfl, rfl⟩
      rcases descending.exists_concat with ⟨orders, rfl⟩
      rcases (induction earlier_eq.symm descending.earlier).step descending with
        ⟨reply, after, performed', _, packed⟩
      cases performed.symm.trans performed'
      exact packed

theorem exists_uniform (positive : 0 < size) (served : size ≤ maxPayload) (count : Nat)
    (fits : count ≤ config.ceiling / 2 ^ requestOrder size) :
    ∃ last, Reaches (start allocator) (uniform (requestOrder size) size count) last ∧
      PackedAfter config (List.replicate count (requestOrder size))
        (uniform (requestOrder size) size count) last := by
  induction count with
  | zero => exact ⟨_, .start, packedAfter_start sound created⟩
  | succ count induction =>
      rcases induction (Nat.le_of_succ_le fits) with ⟨before, run, packed⟩
      have descending := Descending.replicate (count + 1) positive served
      rw [List.replicate_succ', List.replicate_succ'] at descending
      rw [List.replicate_succ']
      rcases packed.step descending with ⟨reply, after, performed, packs, packedAfter⟩
      have room : count * 2 ^ requestOrder size + 2 ^ requestOrder size ≤ config.ceiling := by
        rw [← Nat.succ_mul]
        exact (Nat.le_div_iff_mul_le (Nat.two_pow_pos _)).mp fits
      rw [blockBytes_replicate] at packs
      cases (packs.placed (packs.succeeds_iff.mpr room)).1
      rw [uniform_succ]
      exact ⟨after, run.step trivial performed, packedAfter⟩

/-- Requests of descending orders are packed from the start of a new heap on.
Those of one size follow each other at the distance of their block's size. -/
theorem packs_descending :
    (∀ sizes : List Nat, (∀ size ∈ sizes, 0 < size ∧ size ≤ maxPayload) →
      ∃ orders, sizes.mapM requiredOrder = .ok orders) ∧
    (∀ earlier size orders order trace before,
      Descending (earlier ++ [size]) (orders ++ [order]) →
      trace.map Prod.fst = earlier.map .acquire → Reaches (start allocator) trace before →
      ∃ reply after, before.perform (.acquire size) = .ok (reply, after) ∧
        Packs config.ceiling (blockBytes orders) trace order reply after) ∧
    ∀ size order, 0 < size → size ≤ maxPayload → requiredOrder size = .ok order → ∃ last,
      Reaches (start allocator)
        (uniform order size (config.ceiling / 2 ^ order) ++
          [(.acquire size, .error (.outOfMemory order config.ceiling))]) last := by
  refine ⟨fun sizes valid => ⟨_, mapM_requiredOrder_eq_ok valid⟩, ?_, ?_⟩
  · intro earlier size orders order trace before descending requested run
    rcases (run.packedAfter sound created requested descending.earlier).step descending with
      ⟨reply, after, performed, packs, _⟩
    exact ⟨reply, after, performed, packs⟩
  · intro size order positive served required
    cases required.symm.trans (Allocator.requiredOrder_of_valid (by omega))
    rcases exists_uniform sound created positive served _ (Nat.le_refl _) with ⟨before, run, packed⟩
    have descending :=
      Descending.replicate (config.ceiling / 2 ^ requestOrder size + 1) positive served
    rw [List.replicate_succ', List.replicate_succ'] at descending
    rcases packed.step descending with ⟨reply, after, performed, packs, _⟩
    have crowded : ¬config.ceiling / 2 ^ requestOrder size * 2 ^ requestOrder size +
        2 ^ requestOrder size ≤ config.ceiling := by
      rw [← Nat.succ_mul, ← Nat.le_div_iff_mul_le (Nat.two_pow_pos _)]
      exact Nat.not_succ_le_self _
    rw [blockBytes_replicate] at packs
    cases packs.fails (mt packs.succeeds_iff.mp crowded)
    exact ⟨after, run.step trivial performed⟩

omit sound created in
/-- Half of a heap of one chunk, and two smaller blocks after it. -/
theorem packs_descending_of_chunk : ∃ allocator before,
    System.Sound addressSpaceSize ∧
      (Allocator.create ⟨16384, by decide, by decide⟩ addressSpaceSize).outcome =
        .ok (.ok allocator) ∧
      Reaches (start allocator) [(.acquire 8000, .ok (some 8)), (.acquire 100, .ok (some 8200))]
        before ∧
      ∃ reply after, before.perform (.acquire 24) = .ok (reply, after) ∧
        Packs 16384 8320 [(.acquire 8000, .ok (some 8)), (.acquire 100, .ok (some 8200))] 5
          reply after := by
  have sound := sound_addressSpaceSize
  rcases exists_created ⟨16384, by decide, by decide⟩ (by decide) with ⟨allocator, created⟩
  rcases (keeps_of_create sound created).reaches [.acquire 8000, .acquire 100] rfl with
    ⟨before, run, _⟩
  have descending : Descending [8000, 100, 24] [13, 7, 5] := by
    refine ⟨by decide, rfl, ?_⟩
    decide
  exact ⟨allocator, before, sound, created, run,
    (packs_descending sound created).2.1 [8000, 100] 24 [13, 7] 5 _ before descending rfl run⟩

end Client

end BuddyHeap
