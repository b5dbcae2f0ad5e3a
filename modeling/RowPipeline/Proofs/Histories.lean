import Mathlib.Data.List.Induction
import Mathlib.Order.Bounds.Basic

/-!
Histories of a state on which events act one after the other: the greatest of the amounts that it ever
told, and what was seen at the events.
-/

namespace RowPipeline

variable {α ε : Type}

/-- The amounts at all times of a history, its beginning and end included. -/
def amountsOver (step : α → ε → α) (amount : α → Nat) (start : α) (events : List ε) : Set Nat :=
  {value | ∃ earlier, earlier <+: events ∧ amount (earlier.foldl step start) = value}

section History

variable {step : α → ε → α} {amount : α → Nat} {start : α}

private theorem amountsOver_nil : amountsOver step amount start [] = {amount start} := by
  ext value
  constructor
  · rintro ⟨earlier, first, rfl⟩
    rw [List.prefix_nil.mp first]
    rfl
  · rintro rfl
    exact ⟨[], List.prefix_rfl, rfl⟩

private theorem amountsOver_concat (events : List ε) (event : ε) :
    amountsOver step amount start (events ++ [event]) =
      insert (amount (step (events.foldl step start) event)) (amountsOver step amount start events) := by
  ext value
  constructor
  · rintro ⟨earlier, first, rfl⟩
    rcases List.prefix_concat_iff.mp first with rfl | first
    · exact .inl (by rw [List.foldl_append]; rfl)
    · exact .inr ⟨earlier, first, rfl⟩
  · rintro (rfl | ⟨earlier, first, rfl⟩)
    · exact ⟨_, List.prefix_rfl, by rw [List.foldl_append]; rfl⟩
    · exact ⟨earlier, first.trans (List.prefix_append _ _), rfl⟩

/-- A top that every event raises to the amount after it is the greatest amount there was. -/
theorem isGreatest_amountsOver (top : α → Nat) (first : top start = amount start)
    (raised : ∀ (events : List ε) event, top (step (events.foldl step start) event) =
      max (top (events.foldl step start)) (amount (step (events.foldl step start) event)))
    (events : List ε) :
    IsGreatest (amountsOver step amount start events) (top (events.foldl step start)) := by
  induction events using List.reverseRecOn with
  | nil =>
    rw [amountsOver_nil, ← first]
    exact isGreatest_singleton
  | append_singleton events event ih =>
    rw [amountsOver_concat, List.foldl_append, List.foldl_cons, List.foldl_nil, raised, max_comm]
    exact ih.insert _

end History

/-! ### What is seen -/

/-- What is seen at each of several events, in their order. -/
def observed {β : Type} (step : α → ε → α) (seen : α → ε → List β) : α → List ε → List β
  | _, [] => []
  | state, event :: rest => seen state event ++ observed step seen (step state event) rest

theorem observed_concat {β : Type} (step : α → ε → α) (seen : α → ε → List β) (start : α)
    (events : List ε) (event : ε) :
    observed step seen start (events ++ [event]) =
      observed step seen start events ++ seen (events.foldl step start) event := by
  induction events generalizing start with
  | nil => exact List.append_nil _
  | cons first rest ih => rw [List.cons_append, observed, ih, observed, List.append_assoc, List.foldl_cons]

end RowPipeline
