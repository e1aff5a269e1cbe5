import BuddyHeap.Journal.Event
import BuddyHeap.Foundation.Fault

/-! Computations that leave a record of events behind, whether they come to an
end or meet a fault. What they compute does not depend on that record:
`outcome` takes sequencing to sequencing. -/

namespace BuddyHeap

structure Traced (α : Type) where
  events : List Event
  outcome : Except Fault α

namespace Traced

instance : Monad Traced where
  pure value := ⟨[], .ok value⟩
  bind first next :=
    match first.outcome with
    | .ok value =>
        let second := next value
        ⟨first.events ++ second.events, second.outcome⟩
    | .error fault => ⟨first.events, .error fault⟩

instance : MonadLift (Except Fault) Traced where
  monadLift outcome := ⟨[], outcome⟩

def record (event : Event) : Traced Unit := ⟨[event], .ok ()⟩

variable {α β : Type}

@[simp] theorem outcome_pure (value : α) : (pure value : Traced α).outcome = .ok value := rfl

@[simp] theorem outcome_bind (first : Traced α) (next : α → Traced β) :
    (first >>= next).outcome = first.outcome >>= fun value => (next value).outcome := by
  obtain ⟨events, outcome⟩ := first
  cases outcome <;> rfl

@[simp] theorem outcome_lift (outcome : Except Fault α) :
    (liftM outcome : Traced α).outcome = outcome := rfl

@[simp] theorem outcome_record (event : Event) : (record event).outcome = .ok () := rfl

theorem lift_ok (value : α) : (liftM (.ok value : Except Fault α) : Traced α) = pure value := rfl

@[simp] theorem events_pure (value : α) : (pure value : Traced α).events = [] := rfl

@[simp] theorem events_lift (outcome : Except Fault α) : (liftM outcome : Traced α).events = [] := rfl

@[simp] theorem events_record (event : Event) : (record event).events = [event] := rfl

theorem events_bind {first : Traced α} {value : α} (done : first.outcome = .ok value)
    (next : α → Traced β) : (first >>= next).events = first.events ++ (next value).events := by
  obtain ⟨events, outcome⟩ := first
  subst done
  rfl

instance : LawfulMonad Traced := LawfulMonad.mk' Traced
  (by
    intro α first
    obtain ⟨events, outcome⟩ := first
    cases outcome <;> simp [Functor.map])
  (by
    intro α β value next
    simp [pure, bind])
  (by
    intro α β γ first second third
    obtain ⟨events, outcome⟩ := first
    cases outcome with
    | error fault => rfl
    | ok value =>
        simp only [bind]
        cases (second value).outcome <;> simp)

end Traced

end BuddyHeap
