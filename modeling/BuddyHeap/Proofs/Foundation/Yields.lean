import BuddyHeap.Foundation.Fault

/-! Total correctness of computations that may meet a fault. -/

namespace BuddyHeap

/-- The computation meets no fault, and what it comes to satisfies `Post`. -/
def Yields {α : Type} (computation : Except Fault α) (Post : α → Prop) : Prop :=
  ∃ value, computation = .ok value ∧ Post value

theorem ok_bind {α β : Type} (value : α) (continuation : α → Except Fault β) :
    (.ok value >>= continuation) = continuation value := by
  simp only [bind, Except.bind]

theorem map_eq_bind {α β : Type} (computation : Except Fault α) (result : α → β) :
    computation.map result = computation >>= fun value => .ok (result value) := by
  cases computation <;> rfl

theorem exists_of_bind_eq_ok {α β : Type} {computation : Except Fault α}
    {continuation : α → Except Fault β} {result : β}
    (equal : (computation >>= continuation) = .ok result) :
    ∃ value, computation = .ok value ∧ continuation value = .ok result := by
  cases computation with
  | error fault => cases equal
  | ok value => exact ⟨value, rfl, equal⟩

theorem mapM_eq_ok {α β : Type} {list : List α} {step : α → Except Fault β} {result : α → β}
    (each : ∀ value ∈ list, step value = .ok (result value)) :
    list.mapM step = .ok (list.map result) := by
  induction list with
  | nil => rfl
  | cons first rest induction =>
      have others := induction fun value member => each value (List.mem_cons_of_mem first member)
      rw [List.mapM_cons, each first (List.mem_cons_self ..), ok_bind, others, ok_bind]
      rfl

theorem eq_error_of_map {α β ε : Type} {result : Except ε α} {change : α → β} {failure : ε}
    (failed : result.map change = .error failure) : result = .error failure := by
  cases result with
  | error reason =>
      cases failed
      rfl
  | ok value => cases failed

namespace Yields

variable {α β : Type} {computation : Except Fault α} {Post : α → Prop}

theorem of_eq {value : α} (equal : computation = .ok value) (holds : Post value) :
    Yields computation Post := ⟨value, equal, holds⟩

theorem ok {value : α} (holds : Post value) : Yields (.ok value) Post := ⟨value, rfl, holds⟩

theorem mono {Weaker : α → Prop} (yields : Yields computation Post)
    (weaker : ∀ value, Post value → Weaker value) : Yields computation Weaker := by
  rcases yields with ⟨value, equal, holds⟩
  exact ⟨value, equal, weaker value holds⟩

theorem bind {continuation : α → Except Fault β} {Final : β → Prop}
    (yields : Yields computation Post)
    (next : ∀ value, Post value → Yields (continuation value) Final) :
    Yields (computation >>= continuation) Final := by
  rcases yields with ⟨value, rfl, holds⟩
  exact next value holds

theorem post_of_eq {value : α} (yields : Yields computation Post)
    (equal : computation = .ok value) : Post value := by
  rcases yields with ⟨other, other_eq, holds⟩
  rw [other_eq] at equal
  cases equal
  exact holds

end Yields

/-! ## Two computations side by side -/

/-- Where the first computation meets no fault the second one does not either,
and what they come to is related. -/
def Simulates {α β : Type} (Related : α → β → Prop) (first : Except Fault α)
    (second : Except Fault β) : Prop :=
  ∀ value, first = .ok value → Yields second (Related value)

namespace Simulates

variable {α β γ δ : Type} {Related : α → β → Prop} {first : Except Fault α}
  {second : Except Fault β}

theorem ok {value : α} {other : β} (related : Related value other) :
    Simulates Related (.ok value) (.ok other) := by
  intro result equal
  cases equal
  exact .ok related

theorem error (fault : Fault) (second : Except Fault β) :
    Simulates Related (.error fault) second := by
  intro result impossible
  cases impossible

theorem bind {Final : γ → δ → Prop} {next : α → Except Fault γ} {otherNext : β → Except Fault δ}
    (simulates : Simulates Related first second)
    (then_simulates : ∀ value other, Related value other →
      Simulates Final (next value) (otherNext other)) :
    Simulates Final (first >>= next) (second >>= otherNext) := by
  intro result done
  rcases exists_of_bind_eq_ok done with ⟨value, value_eq, next_eq⟩
  apply Yields.bind (simulates value value_eq)
  intro other related
  exact then_simulates value other related result next_eq

theorem bind_same {Final : γ → δ → Prop} {next : α → Except Fault γ}
    {otherNext : α → Except Fault δ}
    (then_simulates : ∀ value, Simulates Final (next value) (otherNext value)) :
    Simulates Final (first >>= next) (first >>= otherNext) := by
  cases first with
  | error fault => exact error fault _
  | ok value => exact then_simulates value

end Simulates

end BuddyHeap
