import BuddyHeap.Proofs.Ledger.Halving

/-! The buddy algorithm on the books alone. A block is taken from the first
list that has one and halved down to the order that is wanted; a block that is
given up is joined with its buddy for as long as that is free. -/

namespace BuddyHeap

namespace Ledger

/-- Halve the block at `offset` down to the order `target`. The upper halves go
to their lists. -/
def split (ledger : Ledger) (offset target : Nat) : (order : Nat) → Ledger
  | 0 => ledger
  | order + 1 =>
      if target ≤ order then
        (ledger.list ⟨offset + 2 ^ order, order⟩).split offset target order
      else
        ledger

/-- Join a block with its free buddies, at most so many times. -/
def gather (ledger : Ledger) (span : Span) : (levels : Nat) → Ledger × Span
  | 0 => (ledger, span)
  | levels + 1 =>
      if span.buddy.offset ∈ ledger.lists span.order then
        (ledger.unlist span.buddy).gather span.parent levels
      else
        (ledger, span)

def gathered (ledger : Ledger) (span : Span) : Span :=
  (ledger.gather span (topOrder - span.order)).2

def free (ledger : Ledger) (span : Span) : Ledger :=
  (ledger.gather span (topOrder - span.order)).1.list (ledger.gathered span)

def firstOf (ledger : Ledger) (orders : List Nat) : Option Span :=
  orders.findSome? fun order => (ledger.lists order).head?.map (⟨·, order⟩)

def first? (ledger : Ledger) (order : Nat) : Option Span :=
  ledger.firstOf (List.range' order (orderBound - order))

def takeListed (ledger : Ledger) (order : Nat) : Option (Nat × Ledger) :=
  (ledger.first? order).map fun span =>
    (span.offset, (ledger.unlist span).split span.offset order span.order)

/-- Take a block of the given order, from a new chunk if there may be one and
the lists have none. -/
def take (ledger : Ledger) (extensible : Bool) (order : Nat) : Option (Nat × Ledger) :=
  match ledger.takeListed order with
  | some taken => some taken
  | none => if extensible then ledger.extend.takeListed order else none

variable {ledger : Ledger} {span other : Span} {order : Nat}

/-! ## What stays -/

@[simp] theorem size_split (ledger : Ledger) (offset target order : Nat) :
    (ledger.split offset target order).size = ledger.size := by
  induction order generalizing ledger with
  | zero => rfl
  | succ order induction =>
      rw [split]
      split
      · exact induction _
      · rfl

@[simp] theorem live_split (ledger : Ledger) (offset target order : Nat) :
    (ledger.split offset target order).live = ledger.live := by
  induction order generalizing ledger with
  | zero => rfl
  | succ order induction =>
      rw [split]
      split
      · exact induction _
      · rfl

theorem split_self (ledger : Ledger) (offset order : Nat) :
    ledger.split offset order order = ledger := by
  cases order with
  | zero => rfl
  | succ order => exact if_neg (Nat.not_succ_le_self order)

theorem gather_fst (ledger : Ledger) (span : Span) (levels : Nat) :
    (ledger.gather span levels).1.size = ledger.size ∧
      (ledger.gather span levels).1.live = ledger.live := by
  induction levels generalizing ledger span with
  | zero => exact ⟨rfl, rfl⟩
  | succ levels induction =>
      rw [gather]
      split
      · exact induction (ledger.unlist span.buddy) span.parent
      · exact ⟨rfl, rfl⟩

@[simp] theorem size_free (ledger : Ledger) (span : Span) :
    (ledger.free span).size = ledger.size := (ledger.gather_fst span _).1

@[simp] theorem live_free (ledger : Ledger) (span : Span) :
    (ledger.free span).live = ledger.live := (ledger.gather_fst span _).2

/-! ## One step of the joining -/

theorem free_of_mem (below : span.order < topOrder)
    (listed : span.buddy.offset ∈ ledger.lists span.order) :
    ledger.free span = (ledger.unlist span.buddy).free span.parent ∧
      ledger.gathered span = (ledger.unlist span.buddy).gathered span.parent := by
  have levels : topOrder - span.order = topOrder - span.parent.order + 1 := by
    simp only [Span.parent]
    omega
  simp only [free, gathered, levels, gather, if_pos listed, and_self]

theorem free_of_not_mem (single : span.order < topOrder → span.buddy.offset ∉ ledger.lists span.order) :
    ledger.free span = ledger.list span ∧ ledger.gathered span = span := by
  rcases Nat.eq_zero_or_pos (topOrder - span.order) with levels | levels
  · simp only [free, gathered, levels, gather, and_self]
  · have absent := single (by omega)
    obtain ⟨fewer, levels⟩ := Nat.exists_eq_succ_of_ne_zero levels.ne'
    simp only [free, gathered, levels, gather, if_neg absent, and_self]

/-! ## The first block -/

theorem firstOf_cons (ledger : Ledger) (order : Nat) (orders : List Nat) :
    ledger.firstOf (order :: orders) =
      match ledger.lists order with
      | [] => ledger.firstOf orders
      | offset :: _ => some ⟨offset, order⟩ := by
  rw [firstOf, List.findSome?_cons]
  cases ledger.lists order <;> rfl

theorem first?_eq (ledger : Ledger) (inRange : order < orderBound) : ledger.first? order =
    match ledger.lists order with
    | [] => ledger.firstOf (List.range' (order + 1) (orderBound - (order + 1)))
    | offset :: _ => some ⟨offset, order⟩ := by
  have count : orderBound - order = orderBound - (order + 1) + 1 := by omega
  rw [first?, count, List.range'_succ, firstOf_cons]

theorem firstOf_eq_none_iff {orders : List Nat} :
    ledger.firstOf orders = none ↔ ∀ order ∈ orders, ledger.lists order = [] := by
  simp only [firstOf, List.findSome?_eq_none_iff, Option.map_eq_none_iff, List.head?_eq_none_iff]

theorem first?_eq_none_iff : ledger.first? order = none ↔
    ∀ other, order ≤ other → other < orderBound → ledger.lists other = [] := by
  simp only [first?, firstOf_eq_none_iff, List.mem_range'_1]
  constructor
  · intro empty other lower upper
    exact empty other ⟨lower, by omega⟩
  · intro empty other range
    exact empty other range.1 (by omega)

theorem cons_of_firstOf {orders : List Nat} (found : ledger.firstOf orders = some span) :
    span.order ∈ orders ∧ ∃ rest, ledger.lists span.order = span.offset :: rest := by
  rcases List.exists_of_findSome?_eq_some found with ⟨order, member, head⟩
  rcases Option.map_eq_some_iff.mp head with ⟨offset, first, rfl⟩
  exact ⟨member, List.head?_eq_some_iff.mp first⟩

theorem cons_of_first? (found : ledger.first? order = some span) :
    (order ≤ span.order ∧ span.order < orderBound) ∧
      ∃ rest, ledger.lists span.order = span.offset :: rest := by
  rcases cons_of_firstOf found with ⟨member, cons⟩
  rw [List.mem_range'_1] at member
  exact ⟨by omega, cons⟩

theorem takeListed_of_first? (found : ledger.first? order = some span) :
    ledger.takeListed order =
      some (span.offset, (ledger.unlist span).split span.offset order span.order) := by
  rw [takeListed, found]
  rfl

theorem first?_extend (inRange : order ≤ topOrder) (none : ledger.first? order = none) :
    ledger.extend.first? order = some ⟨ledger.size, topOrder⟩ := by
  have empty := first?_eq_none_iff.mp none
  have bound : orderBound = topOrder + 1 := rfl
  have cut : List.range' order (orderBound - order) =
      List.range' order (topOrder - order) ++ [topOrder] := by
    have length : orderBound - order = topOrder - order + 1 := by omega
    rw [length, List.range'_concat]
    congr 2
    omega
  rw [first?, cut, firstOf, List.findSome?_append, List.findSome?_eq_none_iff.mpr]
  · simp [extend, widen, list]
  · intro other range
    rw [List.mem_range'_1] at range
    have below : other ≠ topOrder := by omega
    have unchanged : ledger.extend.lists other = ledger.lists other :=
      ledger.lists.push_other ledger.size below
    simp [unchanged, empty other range.1 (by omega)]

end Ledger

/-! ## Buddies are never both free -/

/-- No two buddies are on the lists, but for blocks of the top order. -/
def Listing.Merged (listing : Listing) : Prop :=
  ∀ span : Span, span.order < topOrder → span.offset ∈ listing span.order →
    span.buddy.offset ∉ listing span.order

namespace Listing.Merged

variable {listing : Listing} {span : Span}

theorem empty : Listing.empty.Merged := fun _ _ member => absurd member List.not_mem_nil

theorem push (merged : listing.Merged)
    (single : span.order < topOrder → span.buddy.offset ∉ listing span.order) :
    (listing.push span.order span.offset).Merged := by
  intro other below member buddyMember
  rcases mem_push.mp member with ⟨order_eq, offset_eq⟩ | old <;>
    rcases mem_push.mp buddyMember with ⟨_, buddy_eq⟩ | buddyOld
  · exact other.buddy_offset_ne (buddy_eq.trans offset_eq.symm)
  · have equal : other = span := Span.ext offset_eq order_eq
    subst equal
    exact single below buddyOld
  · rename_i order_eq
    have equal : other.buddy = span := Span.ext buddy_eq order_eq
    subst equal
    rw [Span.buddy_buddy] at single
    exact single below old
  · exact merged other below old buddyOld

theorem erase (merged : listing.Merged) (order offset : Nat) : (listing.erase order offset).Merged :=
  fun other below member buddyMember =>
    merged other below (mem_of_mem_erase member) (mem_of_mem_erase buddyMember)

end Listing.Merged

end BuddyHeap
