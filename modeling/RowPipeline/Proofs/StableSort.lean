import RowPipeline.Proofs.ValueOrder
import RowPipeline.Stage.Sorting

/-!
The best rows of a sorted list. Rows that arrive one by one are inserted behind all rows that do not
come after them, which sorts them stably; of the sorted rows only the first are needed to tell which
rows are among the first later on.
-/

namespace RowPipeline

namespace Sorting

variable {sorting : Sorting}

/-- Whether a row has to come before another. -/
def Precedes (sorting : Sorting) (row other : Row) : Prop :=
  sorting.order.compare row other = .lt

instance : DecidableRel sorting.Precedes := fun _ _ => inferInstanceAs (Decidable (_ = _))

theorem insert_cons (row other : Row) (rest : List Row) :
    sorting.insert row (other :: rest) =
      if sorting.Precedes row other then row :: other :: rest
      else other :: sorting.insert row rest := by
  simp only [insert, Precedes, beq_iff_eq]
  rfl

theorem precedes_iff (row other : Row) :
    sorting.Precedes row other ↔ sorting.order.le other row = false :=
  SortOrder.compare_eq_lt_iff sorting.order row other

theorem Precedes.le {row other : Row} (precedes : sorting.Precedes row other) :
    sorting.order.le row other = true := by
  have total := SortOrder.le_total sorting.order row other
  rw [(precedes_iff row other).mp precedes, Bool.or_false] at total
  exact total

theorem Precedes.of_le {row other last : Row} (precedes : sorting.Precedes row other)
    (le : sorting.order.le other last = true) : sorting.Precedes row last := by
  rw [precedes_iff, Bool.eq_false_iff] at *
  exact fun above => precedes (SortOrder.le_trans sorting.order other last row le above)

theorem Precedes.trans {row other last : Row} (near : sorting.Precedes row other)
    (far : sorting.Precedes other last) : sorting.Precedes row last := near.of_le far.le

theorem insert_length (row : Row) (rows : List Row) :
    (sorting.insert row rows).length = rows.length + 1 := by
  induction rows with
  | nil => rfl
  | cons other rest ih =>
    rw [insert_cons]
    split
    · rfl
    · exact congrArg (· + 1) ih

/-- Puts a row in front of all rows that do not come before it. -/
private def place (sorting : Sorting) (row : Row) : List Row → List Row
  | [] => [row]
  | other :: rest =>
    if sorting.Precedes other row then other :: place sorting row rest else row :: other :: rest

/-- The first of some rows goes in front of its equals. -/
private theorem sorted_cons (row : Row) (rows : List Row) :
    sorting.sorted (row :: rows) = place sorting row (sorting.sorted rows) := by
  obtain ⟨before, behind, whole, rest, passed⟩ := List.mergeSort_cons
    (SortOrder.le_trans sorting.order) (SortOrder.le_total sorting.order) row rows
  have ordered : (before ++ row :: behind).Pairwise fun left right => sorting.order.le left right :=
    whole ▸ List.pairwise_mergeSort (SortOrder.le_trans sorting.order)
      (SortOrder.le_total sorting.order) (row :: rows)
  rw [sorted, sorted, whole, rest]
  clear whole rest
  induction before with
  | nil =>
    cases behind with
    | nil => rfl
    | cons other later =>
      have le := (List.pairwise_cons.mp ordered).1 other List.mem_cons_self
      have stays : ¬ sorting.Precedes other row := by simp [precedes_iff, le]
      simp [place, stays]
  | cons other before ih =>
    have goes : sorting.Precedes other row := by
      simpa [precedes_iff] using passed other List.mem_cons_self
    have inner := ih (fun row member => passed row (List.mem_cons_of_mem _ member))
      (List.pairwise_cons.mp ordered).2
    simp [place, goes, ← inner]

/-- A row that goes in front of its equals and one that goes behind them can be put in either order. -/
private theorem place_insert (first last : Row) (rows : List Row) :
    place sorting first (sorting.insert last rows) =
      sorting.insert last (place sorting first rows) := by
  induction rows with
  | nil =>
    rw [insert, place, place, insert_cons]
    rfl
  | cons other rest ih =>
    by_cases early : sorting.Precedes last other
    · by_cases late : sorting.Precedes other first
      · simp [place, insert_cons, early, late, early.trans late]
      · by_cases swapped : sorting.Precedes last first <;>
          simp [place, insert_cons, early, late, swapped]
    · by_cases late : sorting.Precedes other first
      · simp [place, insert_cons, early, late, ih]
      · have kept : ¬ sorting.Precedes last first := by
          intro swapped
          rw [precedes_iff, Bool.not_eq_false] at late
          exact early (swapped.of_le late)
        simp [place, insert_cons, early, late, kept]

private theorem insert_sorted (row : Row) (rows : List Row) :
    sorting.sorted (rows ++ [row]) = sorting.insert row (sorting.sorted rows) := by
  induction rows with
  | nil => simp [sorted, insert]
  | cons first rest ih => rw [List.cons_append, sorted_cons, ih, place_insert, ← sorted_cons]

/-! ### The first rows -/

/-- A row that does not come before the first ones leaves them alone. -/
theorem take_insert_of_declined {row : Row} {rows : List Row} {count : Nat}
    (declined : ∀ other ∈ rows.take count, ¬ sorting.Precedes row other)
    (full : count ≤ rows.length) : (sorting.insert row rows).take count = rows.take count := by
  induction rows generalizing count with
  | nil =>
    obtain rfl : count = 0 := Nat.le_zero.mp full
    rfl
  | cons other rest ih =>
    cases count with
    | zero => rfl
    | succ count =>
      have stays : ¬ sorting.Precedes row other := declined other List.mem_cons_self
      rw [insert_cons, if_neg stays, List.take_succ_cons, List.take_succ_cons,
        ih (fun other member => declined other (List.mem_cons_of_mem _ member))
          (Nat.le_of_succ_le_succ full)]

/-- A row that comes before the last of the first ones drives it out. -/
theorem take_insert_of_precedes {row last : Row} {rows : List Row} {count : Nat}
    (found : rows[count]? = some last) (precedes : sorting.Precedes row last) :
    (sorting.insert row rows).take (count + 1) = sorting.insert row (rows.take count) := by
  induction rows generalizing count with
  | nil => cases found
  | cons other rest ih =>
    cases count with
    | zero =>
      obtain rfl : other = last := Option.some.inj found
      rw [insert_cons, if_pos precedes]
      rfl
    | succ count =>
      by_cases first : sorting.Precedes row other
      · simp [insert_cons, first]
      · rw [insert_cons, if_neg first, List.take_succ_cons, List.take_succ_cons, insert_cons,
          if_neg first, ih found]

/-- The rows that are kept of `rows` when a new one is offered to the first `count` of them. -/
def offered (sorting : Sorting) (count : Nat) (row : Row) (best : List Row) : List Row :=
  if best.length < count then sorting.insert row best
  else
    match best.getLast? with
    | none => best
    | some last =>
      if sorting.Precedes row last then sorting.insert row best.dropLast else best

private theorem sorted_pairwise (sorting : Sorting) (rows : List Row) :
    (sorting.sorted rows).Pairwise fun left right => sorting.order.le left right :=
  List.pairwise_mergeSort (SortOrder.le_trans sorting.order) (SortOrder.le_total sorting.order) rows

/-- The first rows of those that came before, and a new one, are enough to tell the first rows. -/
theorem offered_sorted (count : Nat) (row : Row) (rows : List Row) :
    sorting.offered count row ((sorting.sorted rows).take count) =
      (sorting.sorted (rows ++ [row])).take count := by
  rw [insert_sorted]
  have ordered := sorted_pairwise sorting rows
  generalize sorting.sorted rows = sorted at ordered
  unfold offered
  by_cases room : (sorted.take count).length < count
  · have short : sorted.length < count := by
      rw [List.length_take] at room
      omega
    rw [if_pos room, List.take_of_length_le (Nat.le_of_lt short), List.take_of_length_le]
    rw [insert_length]
    exact short
  rw [if_neg room]
  have full : count ≤ sorted.length := by
    rw [List.length_take] at room
    omega
  cases count with
  | zero => rfl
  | succ count =>
    have found : sorted[count]? = some sorted[count] := List.getElem?_eq_getElem full
    have last : (sorted.take (count + 1)).getLast? = some sorted[count] := by
      rw [List.getLast?_take, if_neg (Nat.succ_ne_zero count), Nat.add_sub_cancel, found]
      rfl
    have rest : (sorted.take (count + 1)).dropLast = sorted.take count := by
      rw [List.dropLast_eq_take, List.take_take, List.length_take]
      congr 1
      omega
    simp only [last, rest]
    by_cases precedes : sorting.Precedes row sorted[count]
    · rw [if_pos precedes, take_insert_of_precedes found precedes]
    · rw [if_neg precedes, take_insert_of_declined ?_ full]
      intro other member earlier
      obtain ⟨position, bound, rfl⟩ := List.getElem_of_mem member
      rw [List.length_take] at bound
      rw [List.getElem_take] at earlier
      by_cases here : position = count
      · subst here
        exact precedes earlier
      · have le := List.pairwise_iff_getElem.mp ordered position count (by omega) full (by omega)
        exact precedes (earlier.of_le le)

end Sorting

namespace TopStage

variable {σ : Type}

theorem offer_best (stage : TopStage) (kept : Row) :
    stage.sorting.offered stage.capacity kept stage.best =
      match stage.offer kept with
      | .declined => stage.best
      | .accepted => stage.sorting.insert kept stage.best
      | .replacing _ => stage.sorting.insert kept stage.best.dropLast := by
  unfold offer Sorting.offered
  by_cases room : stage.best.length < stage.capacity
  · rw [if_pos room, if_pos room]
  rw [if_neg room, if_neg room]
  cases stage.best.getLast? with
  | none => rfl
  | some last =>
    dsimp only
    by_cases precedes : stage.sorting.Precedes kept last
    · have first : (stage.sorting.order.compare kept last == .lt) = true := beq_iff_eq.mpr precedes
      rw [if_pos precedes, if_pos first]
    · have first : ¬ (stage.sorting.order.compare kept last == .lt) = true :=
        fun same => precedes (beq_iff_eq.mp same)
      rw [if_neg precedes, if_neg first]

end TopStage

end RowPipeline
