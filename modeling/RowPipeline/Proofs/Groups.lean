import RowPipeline.Proofs.ListFunction
import RowPipeline.Proofs.Success
import RowPipeline.Proofs.ValueOrder

/-!
Groups of rows by keys. Every key that occurs has one group, with the cells of the first row that has
the key and with what the calls come to on all rows that have it.
-/

namespace RowPipeline

/-! ### Distinct keys -/

/-- No two keys are the same. -/
def Row.Distinct (keys : List Row) : Prop := keys.Pairwise fun left right => left.same right = false

namespace Row.Distinct

variable {α : Type} {keyOf : α → Row} {items others : List α} {item : α}

theorem find?_eq (distinct : Row.Distinct (items.map keyOf)) (member : item ∈ items) :
    items.find? (fun other => (keyOf other).same (keyOf item)) = some item := by
  induction items with
  | nil => cases member
  | cons first rest ih =>
    rw [List.map_cons] at distinct
    obtain ⟨apart, distinct⟩ := List.pairwise_cons.mp distinct
    rcases List.mem_cons.mp member with rfl | later
    · simp [Row.same_refl]
    · have other := apart (keyOf item) (List.mem_map_of_mem later)
      rw [List.find?_cons, other]
      exact ih distinct later

theorem filter_eq (distinct : Row.Distinct (items.map keyOf)) (key : Row) :
    items.filter (fun item => (keyOf item).same key) =
      (items.find? fun item => (keyOf item).same key).toList := by
  induction items with
  | nil => rfl
  | cons first rest ih =>
    rw [List.map_cons] at distinct
    obtain ⟨apart, distinct⟩ := List.pairwise_cons.mp distinct
    rw [List.filter_cons, List.find?_cons]
    cases here : (keyOf first).same key with
    | false => exact ih distinct
    | true =>
      have none : rest.filter (fun item => (keyOf item).same key) = [] := by
        refine List.filter_eq_nil_iff.mpr fun item member same => ?_
        have different := apart (keyOf item) (List.mem_map_of_mem member)
        rw [Row.same_congr here, Row.same_comm, same] at different
        cases different
      simp [none]

private theorem nodup (distinct : Row.Distinct (items.map keyOf)) : items.Nodup := by
  refine (List.pairwise_map.mp distinct).imp fun {left right} different => ?_
  rintro rfl
  rw [Row.same_refl] at different
  cases different

/-- Items with distinct keys are the same up to their order if each key finds the same. -/
theorem perm (distinct : Row.Distinct (items.map keyOf)) (distinct' : Row.Distinct (others.map keyOf))
    (found : ∀ key, items.find? (fun item => (keyOf item).same key) =
      others.find? fun item => (keyOf item).same key) : items.Perm others := by
  refine (List.perm_ext_iff_of_nodup distinct.nodup distinct'.nodup).mpr fun item => ?_
  constructor
  · intro member
    exact List.mem_of_find?_eq_some ((found _).symm.trans (distinct.find?_eq member))
  · intro member
    exact List.mem_of_find?_eq_some ((found _).trans (distinct'.find?_eq member))

end Row.Distinct

/-! ### Groups -/

/-- The cells of a key, and what each call came to on the rows of the key. -/
structure KeyGroup where
  key : Row
  states : List AggregateState

namespace KeyGroup

/-- The row that is emitted for a group. -/
def row (mode : AggregateMode) (group : KeyGroup) : Row :=
  group.key ++ group.states.map (AggregateCall.resultOf mode)

end KeyGroup

namespace AggregateCall

def hasKey (keys : List Symbol) (key row : Row) : Bool :=
  match Symbol.evaluateAll row keys with
  | .ok own => Row.same own key
  | .error _ => false

/-- The group of a key, if any row has it. -/
def groupOf (keys : List Symbol) (calls : List AggregateCall) (mode : AggregateMode) (key : Row)
    (rows : List Row) : Except EvaluationFault (Option KeyGroup) :=
  match rows.filter (hasKey keys key) with
  | [] => return none
  | first :: rest => do
    let own ← Symbol.evaluateAll first keys
    let states ← calls.mapM (·.fold mode (first :: rest))
    return some ⟨own, states⟩

/-- No two groups have the same key, and each key has its group. -/
structure Groups (keys : List Symbol) (calls : List AggregateCall) (mode : AggregateMode)
    (rows : List Row) (groups : List KeyGroup) : Prop where
  distinct : Row.Distinct (groups.map (·.key))
  group : ∀ key, groupOf keys calls mode key rows = .ok (groups.find? (·.key.same key))

variable {keys : List Symbol} {calls : List AggregateCall} {mode : AggregateMode}
variable {key : Row} {rows : List Row} {group : KeyGroup} {groups : List KeyGroup}

theorem rows_of_groupOf_none (none : groupOf keys calls mode key rows = .ok none) :
    rows.filter (hasKey keys key) = [] := by
  rw [groupOf] at none
  split at none
  · assumption
  · obtain ⟨own, _, none⟩ := ok_of_bind none
    obtain ⟨states, _, none⟩ := ok_of_bind none
    cases none

theorem rows_of_groupOf_some (some : groupOf keys calls mode key rows = .ok (some group)) :
    ∃ first rest, rows.filter (hasKey keys key) = first :: rest ∧
      Symbol.evaluateAll first keys = .ok group.key ∧
      (calls.mapM fun call => call.fold mode (first :: rest)) = .ok group.states := by
  rw [groupOf] at some
  split at some
  · cases some
  · next first rest filtered =>
    obtain ⟨own, evaluated, some⟩ := ok_of_bind some
    obtain ⟨states, folds, some⟩ := ok_of_bind some
    obtain rfl := Option.some.inj (Except.ok.inj some)
    exact ⟨first, rest, filtered, evaluated, folds⟩

theorem Groups.groupOf_eq (meaning : Groups keys calls mode rows groups) (member : group ∈ groups) :
    groupOf keys calls mode group.key rows = .ok (some group) := by
  rw [meaning.group, meaning.distinct.find?_eq member]

end AggregateCall

end RowPipeline
