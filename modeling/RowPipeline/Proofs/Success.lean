/-!
What may fail, over lists: when all items succeed, so does each, and in any order.
-/

namespace RowPipeline

/-- What succeeds in two steps succeeds in each. -/
theorem ok_of_bind {ε α β : Type} {first : Except ε α} {rest : α → Except ε β} {result : β}
    (done : first >>= rest = .ok result) : ∃ value, first = .ok value ∧ rest value = .ok result := by
  cases first with
  | error error => cases done
  | ok value => exact ⟨value, rfl, done⟩

theorem ok_of_map {ε α β : Type} {first : Except ε α} {change : α → β} {result : β}
    (done : first.map change = .ok result) : ∃ value, first = .ok value ∧ change value = result := by
  cases first with
  | error error => cases done
  | ok value => exact ⟨value, rfl, Except.ok.inj done⟩

theorem exists_map_ok {ε α β : Type} {step : α → Except ε β} {items : List α}
    (each : ∀ item ∈ items, ∃ result, step item = .ok result) :
    ∃ results : List β, items.map step = results.map .ok := by
  induction items with
  | nil => exact ⟨[], rfl⟩
  | cons item rest ih =>
    obtain ⟨first, here⟩ := each item (.head _)
    obtain ⟨others, there⟩ := ih fun later member => each later (.tail _ member)
    exact ⟨first :: others, by rw [List.map_cons, List.map_cons, here, there]⟩

theorem length_of_mapM {ε α β : Type} {step : α → Except ε β} {items : List α} {results : List β}
    (done : items.mapM step = .ok results) : results.length = items.length := by
  induction items generalizing results with
  | nil =>
    obtain rfl : [] = results := Except.ok.inj done
    rfl
  | cons item rest ih =>
    rw [List.mapM_cons] at done
    obtain ⟨first, _, done⟩ := ok_of_bind done
    obtain ⟨others, tail, done⟩ := ok_of_bind done
    obtain rfl : first :: others = results := Except.ok.inj done
    exact congrArg (· + 1) (ih tail)

/-- What succeeds for all items succeeds for each. -/
theorem mapM_eq_ok_iff {ε α β : Type} {step : α → Except ε β} {items : List α} {results : List β} :
    items.mapM step = .ok results ↔ results.length = items.length ∧
      ∀ position (bound : position < items.length) (bound' : position < results.length),
        step items[position] = .ok results[position] := by
  induction items generalizing results with
  | nil => cases results <;> simp [pure, Except.pure]
  | cons item rest ih =>
    rw [List.mapM_cons]
    constructor
    · intro done
      obtain ⟨first, head, done⟩ := ok_of_bind done
      obtain ⟨others, tail, done⟩ := ok_of_bind done
      obtain rfl : first :: others = results := Except.ok.inj done
      obtain ⟨lengths, each⟩ := ih.mp tail
      refine ⟨congrArg (· + 1) lengths, fun position bound bound' => ?_⟩
      cases position with
      | zero => exact head
      | succ position => exact each position (Nat.lt_of_succ_lt_succ bound) _
    · rintro ⟨lengths, each⟩
      obtain ⟨first, others, rfl⟩ := List.exists_cons_of_length_eq_add_one lengths
      have head : step item = .ok first := each 0 (Nat.succ_pos _) (Nat.succ_pos _)
      have tail : rest.mapM step = .ok others := ih.mpr ⟨Nat.succ.inj lengths,
        fun position bound bound' =>
          each (position + 1) (Nat.succ_lt_succ bound) (Nat.succ_lt_succ bound')⟩
      rw [head, tail]
      rfl

/-- What succeeds in two steps for each item succeeds in each step for all items. -/
theorem mapM_bind_iff {ε α β γ : Type} (first : α → Except ε β) (second : β → Except ε γ)
    (items : List α) (finals : List γ) :
    items.mapM (fun item => first item >>= second) = .ok finals ↔
      ∃ middle, items.mapM first = .ok middle ∧ middle.mapM second = .ok finals := by
  induction items generalizing finals with
  | nil =>
    constructor
    · exact fun done => ⟨[], rfl, done⟩
    · rintro ⟨middle, none, done⟩
      obtain rfl : [] = middle := Except.ok.inj none
      exact done
  | cons item rest ih =>
    simp only [List.mapM_cons]
    constructor
    · intro done
      obtain ⟨final, head, done⟩ := ok_of_bind done
      obtain ⟨value, here, there⟩ := ok_of_bind head
      obtain ⟨others, tail, done⟩ := ok_of_bind done
      obtain ⟨middle, mapped, later⟩ := (ih others).mp tail
      refine ⟨value :: middle, by rw [here, mapped]; rfl, ?_⟩
      rw [List.mapM_cons, there, later]
      exact done
    · rintro ⟨middle, mapped, done⟩
      obtain ⟨value, here, mapped⟩ := ok_of_bind mapped
      obtain ⟨rest', later, mapped⟩ := ok_of_bind mapped
      obtain rfl : value :: rest' = middle := Except.ok.inj mapped
      rw [List.mapM_cons] at done
      obtain ⟨final, there, done⟩ := ok_of_bind done
      obtain ⟨others, tail, done⟩ := ok_of_bind done
      have whole := (ih others).mpr ⟨rest', later, tail⟩
      rw [here]
      change (second value >>= _) = _
      rw [there, whole]
      exact done

/-- What succeeds for each item after each row succeeds for all items row by row. -/
theorem foldlM_mapM_iff {ε α β : Type} (step : α → β → Except ε β) (rows : List α)
    (items finals : List β) :
    rows.foldlM (fun items row => items.mapM (step row)) items = .ok finals ↔
      items.mapM (fun item => rows.foldlM (fun item row => step row item) item) = .ok finals := by
  induction rows generalizing items with
  | nil =>
    simp only [List.foldlM_nil]
    rw [List.mapM_pure, List.map_id']
  | cons row rest ih =>
    simp only [List.foldlM_cons, mapM_bind_iff]
    constructor
    · intro done
      obtain ⟨middle, first, later⟩ := ok_of_bind done
      exact ⟨middle, first, (ih middle).mp later⟩
    · rintro ⟨middle, first, later⟩
      rw [first]
      exact (ih middle).mpr later

end RowPipeline
