import Mathlib.Data.List.Induction
import BuddyHeap.Proofs.Client.Performing

/-! Runs of a client. They go as they go in the books, and the arrays that
memory shows are those of a run of the model. -/

namespace BuddyHeap

/-- All that decides how a client is answered. -/
structure Books where
  ledger : Ledger
  config : Config
  paging : Paging

namespace Books

def new (config : Config) (pageSize : Nat) : Books := ⟨.empty, config, ⟨pageSize, none⟩⟩

def committing (books : Books) : Bool := (books.paging.chunkFailure? books.ledger.size).isNone

def extensible (books : Books) : Bool :=
  books.ledger.size + maxBlockSize ≤ books.config.ceiling && books.committing

def owned? (books : Books) (address : Int) : Option Allocation :=
  if address = payloadAddress (blockOffset address) then books.ledger.live (blockOffset address)
  else none

def permits (books : Books) : Action → Bool
  | .acquire _ | .resize none _ | .setRefusal _ => true
  | .release address | .resize (some address) _ => (books.owned? address).isSome
  | .write address distance content => (books.owned? address).any fun allocation =>
      distance + content.length ≤ allocation.capacity

def perform (books : Books) (action : Action) : Reply × Books :=
  let (reply, ledger) := books.ledger.perform books.extensible action
  (reply, ⟨ledger, books.config, action.paging books.paging⟩)

def after (books : Books) (actions : List Action) : Books :=
  actions.foldl (fun books action => (books.perform action).2) books

def trace (books : Books) : List Action → List (Action × Reply)
  | [] => []
  | action :: actions => (action, (books.perform action).1) :: (books.perform action).2.trace actions

def permitsAll (books : Books) : List Action → Bool
  | [] => true
  | action :: actions => books.permits action && (books.perform action).2.permitsAll actions

theorem after_append (books : Books) (first second : List Action) :
    books.after (first ++ second) = (books.after first).after second := List.foldl_append ..

theorem trace_append (books : Books) (first second : List Action) :
    books.trace (first ++ second) = books.trace first ++ (books.after first).trace second := by
  induction first generalizing books with
  | nil => rfl
  | cons action actions induction => exact congrArg (_ :: ·) (induction (books.perform action).2)

theorem permitsAll_append (books : Books) (first second : List Action) :
    books.permitsAll (first ++ second) =
      (books.permitsAll first && (books.after first).permitsAll second) := by
  induction first generalizing books with
  | nil => rfl
  | cons action actions induction =>
      simp only [List.cons_append, permitsAll, induction, Bool.and_assoc]
      rfl

theorem config_after (books : Books) (actions : List Action) :
    (books.after actions).config = books.config := by
  induction actions generalizing books with
  | nil => rfl
  | cons action actions induction => exact induction (books.perform action).2

theorem pageSize_after (books : Books) (actions : List Action) :
    (books.after actions).paging.pageSize = books.paging.pageSize := by
  induction actions generalizing books with
  | nil => rfl
  | cons action actions induction =>
      refine (induction (books.perform action).2).trans ?_
      cases action <;> rfl

end Books

namespace Client

variable {client first last : Client} {ledger : Ledger} {books : Books} {action : Action}
  {trace : List (Action × Reply)}

theorem Follows.size_eq (follows : client.Follows ledger) :
    client.allocator.heap.size = ledger.size := follows.allocator.heap.size_eq

theorem Follows.size_le_ceiling (follows : client.Follows ledger) :
    client.allocator.heap.size ≤ client.allocator.config.ceiling := by
  rw [← follows.allocator.capacity_eq]
  exact client.allocator.heap.arena.size_le_capacity

/-! ## One action -/

structure Keeps (client : Client) (books : Books) : Prop where
  follows : client.Follows books.ledger
  config_eq : client.allocator.config = books.config
  paging_eq : client.paging = books.paging

theorem Follows.keeps (follows : client.Follows ledger) :
    client.Keeps ⟨ledger, client.allocator.config, client.paging⟩ := ⟨follows, rfl, rfl⟩

namespace Keeps

theorem chunkFailure_eq (keeps : client.Keeps books) :
    client.paging.chunkFailure? client.allocator.heap.arena.size =
      books.paging.chunkFailure? books.ledger.size := by
  rw [keeps.paging_eq, keeps.follows.allocator.heap.size_eq]

theorem committing_eq (keeps : client.Keeps books) : client.committing = books.committing :=
  congrArg Option.isNone keeps.chunkFailure_eq

theorem extensible_eq (keeps : client.Keeps books) : client.extensible = books.extensible := by
  rw [extensible, Arena.extensible, Books.extensible, keeps.follows.allocator.capacity_eq,
    keeps.follows.allocator.heap.size_eq, keeps.config_eq, ← keeps.committing_eq]
  rfl

theorem live_eq (keeps : client.Keeps books) (address : Int) :
    client.live address = (books.owned? address).map Allocation.requested := by
  rw [Books.owned?]
  split
  · rename_i address_eq
    rw [address_eq, keeps.follows.matching.live_eq, blockOffset_payloadAddress]
  · rename_i unaligned
    rw [Option.map_none, Option.eq_none_iff_forall_ne_some]
    intro size live
    rcases keeps.follows.booked_of_live live with ⟨offset, rfl, _⟩
    exact unaligned (by rw [blockOffset_payloadAddress])

theorem eq_ofRequest (keeps : client.Keeps books) {address : Int} {allocation : Allocation}
    (owned : books.owned? address = some allocation) :
    allocation = .ofRequest allocation.requested := by
  rw [Books.owned?] at owned
  split at owned
  · exact (keeps.follows.allocator.heap.fits _ _ owned).eq_ofRequest
  · cases owned

theorem permits_iff (keeps : client.Keeps books) : client.Permits action ↔ books.permits action := by
  have owned_iff : ∀ address, (∃ size, client.live address = some size) ↔
      (books.owned? address).isSome := by
    intro address
    rw [keeps.live_eq, Option.isSome_iff_exists]
    simp only [Option.map_eq_some_iff]
    constructor
    · intro holds
      rcases holds with ⟨_, allocation, owned, _⟩
      exact ⟨allocation, owned⟩
    · intro holds
      rcases holds with ⟨allocation, owned⟩
      exact ⟨_, allocation, owned, rfl⟩
  cases action with
  | acquire size => exact iff_of_true trivial rfl
  | release address => exact owned_iff address
  | resize address? size =>
      cases address? with
      | none => exact iff_of_true trivial rfl
      | some address => exact owned_iff address
  | write address distance content =>
      simp only [Permits, Books.permits, keeps.live_eq]
      cases owned : books.owned? address with
      | none => simp
      | some allocation =>
          have same := keeps.eq_ofRequest owned
          simp only [Option.map_some, Option.some.injEq, exists_eq_left', Option.any_some,
            decide_eq_true_eq]
          rw [← same]
  | setRefusal cause? => exact iff_of_true trivial rfl

theorem perform (keeps : client.Keeps books) (permitted : client.Permits action) : ∃ after,
    client.perform action = .ok ((books.perform action).1, after) ∧
      after.Keeps (books.perform action).2 := by
  rcases keeps.follows.perform permitted with ⟨⟨reply, after⟩, performed, outcome⟩
  have reply_eq := outcome.reply_eq
  have follows := outcome.follows
  rw [keeps.extensible_eq] at reply_eq follows
  subst reply_eq
  refine ⟨after, performed, follows, outcome.config_eq.trans keeps.config_eq, ?_⟩
  rw [outcome.paging_eq, keeps.paging_eq]
  rfl

end Keeps

/-! ## New allocators -/

theorem keeps_of_create {config : Config} {system : System} {allocator : Allocator}
    (sound : system.Sound)
    (created : (Allocator.create config system).outcome = .ok (.ok allocator)) :
    (start allocator).Keeps (.new config system.pageSize) := by
  have fresh : (start allocator).Fresh := ⟨config, allocator, system, sound, created, rfl⟩
  have follows := fresh.follows
  rcases exists_arena_of_create created with ⟨arena, reserved, rfl⟩
  exact ⟨follows, rfl, (Arena.fields_of_reserve reserved).2.2.1⟩

theorem Fresh.exists_keeps (fresh : client.Fresh) :
    ∃ config pageSize, client.Keeps (.new config pageSize) := by
  rcases fresh with ⟨config, allocator, system, sound, created, rfl⟩
  exact ⟨config, system.pageSize, keeps_of_create sound created⟩

theorem Fresh.payloads_eq (fresh : client.Fresh) : client.payloads = .empty := by
  rcases fresh with ⟨config, allocator, system, sound, created, rfl⟩
  rfl

theorem sound_addressSpaceSize : System.Sound addressSpaceSize :=
  System.sound_limited (by decide)

theorem exists_created (config : Config) (reached : config.ceiling ≤ addressSpaceSize) :
    ∃ allocator, (Allocator.create config addressSpaceSize).outcome = .ok (.ok allocator) := by
  have positive := config.ceiling_pos
  have whole := config.ceiling_whole
  have pages : pageCeiling 4096 config.ceiling = config.ceiling := by
    simp only [maxBlockSize] at whole
    simp only [pageCeiling]
    omega
  have fits : config.ceiling + 4096 < Size.bound :=
    Nat.lt_of_le_of_lt (Nat.add_le_add_right reached _) (by decide)
  have mapped : System.map addressSpaceSize config.ceiling = .ok 65536 := by
    simp only [System.limited, if_neg (Nat.ne_of_gt positive), if_pos reached]
  have granted : System.reserve addressSpaceSize (pageCeiling 4096 config.ceiling) = .ok 65536 := by
    rw [pages]
    exact System.reserve_of_mapped mapped (by decide)
  rcases (Arena.reserve_of_fits sound_addressSpaceSize.aligns fits).2 _ granted with
    ⟨arena, reserved⟩
  rw [Allocator.outcome_create, reserved]
  exact ⟨_, rfl⟩

theorem exists_fresh (config : Config) (reached : config.ceiling ≤ addressSpaceSize) :
    ∃ client : Client, client.Fresh ∧ client.Keeps (.new config 4096) := by
  rcases exists_created config reached with ⟨allocator, created⟩
  have sound := sound_addressSpaceSize
  exact ⟨_, ⟨config, allocator, _, sound, created, rfl⟩, keeps_of_create sound created⟩

/-! ## Runs -/

theorem Reaches.exists_of_concat {reply : Reply}
    (run : Reaches first (trace ++ [(action, reply)]) last) : ∃ before, Reaches first trace before ∧
      before.Permits action ∧ before.perform action = .ok (reply, last) := by
  generalize whole_eq : trace ++ [(action, reply)] = whole at run
  cases run with
  | start => simp at whole_eq
  | step run permitted performed =>
      rcases List.append_inj' whole_eq rfl with ⟨rfl, same⟩
      cases same
      exact ⟨_, run, permitted, performed⟩

theorem Reaches.exists_of_append {early late : List (Action × Reply)}
    (run : Reaches first (early ++ late) last) :
    ∃ middle, Reaches first early middle ∧ Reaches middle late last := by
  induction late using List.reverseRecOn generalizing last with
  | nil => exact ⟨last, by simpa using run, .start⟩
  | append_singleton late entry induction =>
      rw [← List.append_assoc] at run
      rcases run.exists_of_concat with ⟨before, earlier, permitted, performed⟩
      rcases induction earlier with ⟨middle, toMiddle, fromMiddle⟩
      exact ⟨middle, toMiddle, fromMiddle.step permitted performed⟩

/-- The replies to a client are those of its books, wherever it gets. -/
theorem Reaches.keeps (run : Reaches first trace last) (keeps : first.Keeps books) :
    trace = books.trace (trace.map Prod.fst) ∧
      last.Keeps (books.after (trace.map Prod.fst)) := by
  induction run with
  | start => exact ⟨rfl, keeps⟩
  | step run permitted performed induction =>
      rcases induction with ⟨trace_eq, before⟩
      rcases before.perform permitted with ⟨after, performed', keeps'⟩
      cases performed.symm.trans performed'
      rw [List.map_append, Books.trace_append, Books.after_append, ← trace_eq]
      exact ⟨rfl, keeps'⟩

theorem Keeps.reaches (keeps : client.Keeps books) (actions : List Action)
    (permitted : books.permitsAll actions) :
    ∃ last, Reaches client (books.trace actions) last ∧ last.Keeps (books.after actions) := by
  induction actions using List.reverseRecOn with
  | nil => exact ⟨client, .start, keeps⟩
  | append_singleton actions action induction =>
      rw [Books.permitsAll_append, Bool.and_eq_true] at permitted
      rcases induction permitted.1 with ⟨before, run, before_keeps⟩
      have next : (books.after actions).permits action := by
        simpa [Books.permitsAll] using permitted.2
      have allowed := before_keeps.permits_iff.mpr next
      rcases before_keeps.perform allowed with ⟨last, performed, last_keeps⟩
      rw [Books.trace_append, Books.after_append]
      exact ⟨last, run.step allowed performed, last_keeps⟩

theorem exists_reaches (config : Config) (reached : config.ceiling ≤ addressSpaceSize)
    (actions : List Action) (permitted : (Books.new config 4096).permitsAll actions) :
    ∃ first last : Client, first.Fresh ∧
      Reaches first ((Books.new config 4096).trace actions) last ∧
      last.Keeps ((Books.new config 4096).after actions) := by
  rcases exists_fresh config reached with ⟨first, fresh, keeps⟩
  rcases keeps.reaches actions permitted with ⟨last, run, last_keeps⟩
  exact ⟨first, last, fresh, run, last_keeps⟩

theorem Reaches.exists_follows (run : Reaches first trace last) (fresh : first.Fresh) :
    ∃ ledger, last.Follows ledger := by
  rcases fresh.exists_keeps with ⟨config, pageSize, keeps⟩
  exact ⟨_, (run.keeps keeps).2.follows⟩

theorem Reachable.exists_follows (reachable : client.Reachable) :
    ∃ ledger, client.Follows ledger := by
  rcases reachable with ⟨first, trace, fresh, run⟩
  exact run.exists_follows fresh

/-- The payloads of a client hold what the model says, at the end of every run
and so all along it, and no action that is permitted there meets a fault. -/
theorem Reaches.payloads_run (run : Reaches first trace last) (fresh : first.Fresh) :
    Arrays.Run trace last.payloads ∧ ∀ action, last.Permits action →
      ∃ reply after, last.perform action = .ok (reply, after) ∧
        Arrays.Step last.payloads action reply after.payloads := by
  constructor
  · induction run with
    | start =>
        rw [fresh.payloads_eq]
        exact .start
    | step run permitted performed induction =>
        rcases run.exists_follows fresh with ⟨ledger, follows⟩
        exact induction.step ((follows.perform permitted).post_of_eq performed).arrays
  · intro action permitted
    rcases run.exists_follows fresh with ⟨ledger, follows⟩
    rcases follows.perform permitted with ⟨⟨reply, after⟩, performed, outcome⟩
    exact ⟨reply, after, performed, outcome.arrays⟩

/-- A run in which a payload is written and then moved. -/
theorem payloads_run_of_moved : ∃ first last : Client, first.Fresh ∧
    Reaches first [(.acquire 24, .ok (some 8)), (.write 8 0 [1, 2], .ok none),
      (.resize (some 8) 100, .ok (some 136))] last ∧
    Arrays.Run [(.acquire 24, .ok (some 8)), (.write 8 0 [1, 2], .ok none),
      (.resize (some 8) 100, .ok (some 136))] last.payloads := by
  rcases exists_reaches .default (by decide)
    [.acquire 24, .write 8 0 [1, 2], .resize (some 8) 100] rfl with ⟨first, last, fresh, run, _⟩
  exact ⟨first, last, fresh, run, (run.payloads_run fresh).1⟩

end Client

end BuddyHeap
