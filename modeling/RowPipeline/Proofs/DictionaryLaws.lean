import RowPipeline.Dictionary

/-!
What is found in a dictionary after it is changed, and changes that may be made in either order. Most
of it holds whatever the order of the entries is.
-/

namespace RowPipeline

namespace Dictionary

variable {κ α : Type} [Ord κ]

section Lookup

variable [Std.LawfulEqOrd κ] [DecidableEq κ]

omit [Std.LawfulEqOrd κ] [DecidableEq κ] in
@[simp]
theorem get?_nil (key : κ) : get? key ([] : Dictionary κ α) = none := rfl

theorem get?_cons (key other : κ) (value : α) (rest : Dictionary κ α) :
    get? key ((other, value) :: rest) = if key = other then some value else get? key rest := by
  simp only [get?, beq_iff_eq, Std.LawfulEqOrd.compare_eq_iff_eq]

theorem get?_alter_of_ne {key other : κ} (change : Option α → α) (entries : Dictionary κ α)
    (different : other ≠ key) : get? other (alter key change entries) = get? other entries := by
  induction entries with
  | nil => simp [alter, get?_cons, different]
  | cons entry rest ih =>
    obtain ⟨head, value⟩ := entry
    cases place : compare key head with
    | lt => simp [alter, place, get?_cons, different]
    | eq =>
      obtain rfl := Std.LawfulEqOrd.compare_eq_iff_eq.mp place
      simp [alter, get?_cons, different]
    | gt => simp [alter, place, get?_cons, ih]

/-- A key that is not there gets what is made of nothing. -/
theorem get?_alter_of_none {key : κ} (change : Option α → α) {entries : Dictionary κ α}
    (missing : get? key entries = none) : get? key (alter key change entries) = some (change none) := by
  induction entries with
  | nil => simp [alter, get?_cons]
  | cons entry rest ih =>
    obtain ⟨head, value⟩ := entry
    rw [get?_cons] at missing
    split at missing
    · cases missing
    next different =>
      cases place : compare key head with
      | lt => simp [alter, place, get?_cons]
      | eq => exact absurd (Std.LawfulEqOrd.compare_eq_iff_eq.mp place) different
      | gt => simp [alter, place, get?_cons, different, ih missing]

@[simp]
theorem get?_insert_self (key : κ) (value : α) (entries : Dictionary κ α) :
    get? key (entries.insert key value) = some value := by
  unfold insert
  induction entries with
  | nil => simp [alter, get?_cons]
  | cons entry rest ih =>
    obtain ⟨head, old⟩ := entry
    cases place : compare key head with
    | lt => simp [alter, place, get?_cons]
    | eq => simp [alter, get?_cons, Std.LawfulEqOrd.compare_eq_iff_eq.mp place]
    | gt =>
      have different : key ≠ head := fun same => by simp [same] at place
      simp [alter, place, get?_cons, different, ih]

theorem get?_insert (key other : κ) (value : α) (entries : Dictionary κ α) :
    get? other (entries.insert key value) = if other = key then some value else get? other entries := by
  by_cases same : other = key
  · simp [same]
  · simp [same, insert, get?_alter_of_ne _ _ same]

theorem get?_erase (key other : κ) (entries : Dictionary κ α) :
    get? other (entries.erase key) = if other = key then none else get? other entries := by
  unfold erase
  induction entries with
  | nil => simp
  | cons entry rest ih =>
    obtain ⟨head, value⟩ := entry
    by_cases same : key = head
    · subst same
      by_cases other = key <;> simp_all [get?_cons]
    · by_cases here : other = head <;> simp_all [get?_cons, Ne.symm same]

/-- Adding entries leaves a key that none of them has. -/
theorem get?_extend_of_forall_ne {key : κ} {additions : List (κ × α)} (entries : Dictionary κ α)
    (different : ∀ entry ∈ additions, key ≠ entry.1) :
    get? key (entries.extend additions) = get? key entries := by
  induction additions generalizing entries with
  | nil => rfl
  | cons entry rest ih =>
    rw [extend, List.foldl_cons, ← extend, ih _ fun other member => different other (.tail _ member),
      get?_insert, if_neg (different entry (.head _))]

/-- Of all entries that are added for a key, the last gives the value. -/
theorem get?_extend (key : κ) (additions : List (κ × α)) (entries : Dictionary κ α) :
    get? key (entries.extend additions) = (additions.reverse.lookup key).or (get? key entries) := by
  induction additions generalizing entries with
  | nil => rfl
  | cons entry rest ih =>
    obtain ⟨head, given⟩ := entry
    rw [extend, List.foldl_cons, ← extend, ih, get?_insert, List.reverse_cons, List.lookup_append,
      Option.or_assoc]
    by_cases same : key = head
    · simp [same]
    · simp [List.lookup_cons, same, beq_false_of_ne same]

theorem get?_ofList (key : κ) (entries : List (κ × α)) :
    get? key (ofList entries) = entries.reverse.lookup key := by
  rw [ofList, get?_extend, get?_nil, Option.or_none]

/-- Where all entries that are added for a key agree, their value is found. -/
theorem get?_extend_of_agree {key : κ} {value : α} {additions : List (κ × α)}
    (entries : Dictionary κ α) (found : (key, value) ∈ additions)
    (agree : ∀ other, (key, other) ∈ additions → other = value) :
    get? key (entries.extend additions) = some value := by
  induction additions generalizing entries with
  | nil => cases found
  | cons entry rest ih =>
    obtain ⟨head, given⟩ := entry
    rw [extend, List.foldl_cons, ← extend]
    by_cases later : (key, value) ∈ rest
    · exact ih _ later fun other member => agree other (.tail _ member)
    obtain ⟨rfl, rfl⟩ : key = head ∧ value = given := by
      rcases List.mem_cons.mp found with same | member
      · exact Prod.mk.inj same
      · exact absurd member later
    rw [get?_extend_of_forall_ne, get?_insert_self]
    rintro ⟨other, last⟩ member rfl
    exact later (agree last (.tail _ member) ▸ member)

end Lookup

section Order

variable [Std.LawfulEqOrd κ]

/-- Two changes of one key are one change. -/
theorem alter_alter_self (key : κ) (first second : Option α → α) (entries : Dictionary κ α) :
    alter key second (alter key first entries) =
      alter key (fun value => second (some (first value))) entries := by
  induction entries with
  | nil => simp [alter]
  | cons entry rest ih =>
    obtain ⟨head, value⟩ := entry
    cases place : compare key head <;> simp [alter, place, ih]

variable [Std.TransOrd κ]

/-- Changes of different keys may be made in either order. -/
theorem alter_comm_of_lt {left right : κ} (order : compare left right = .lt)
    (first second : Option α → α) (entries : Dictionary κ α) :
    alter right second (alter left first entries) = alter left first (alter right second entries) := by
  have reverse : compare right left = .gt := Std.OrientedCmp.gt_of_lt order
  induction entries with
  | nil => simp [alter, order, reverse]
  | cons entry rest ih =>
    obtain ⟨head, value⟩ := entry
    cases place : compare left head with
    | lt =>
      cases far : compare right head <;> simp [alter, place, far, order, reverse]
    | eq =>
      obtain rfl := Std.LawfulEqOrd.compare_eq_iff_eq.mp place
      simp [alter, reverse]
    | gt =>
      have behind : compare right head = .gt := Std.TransCmp.gt_trans reverse place
      simp [alter, place, behind, ih]

theorem alter_comm {left right : κ} (different : left ≠ right) (first second : Option α → α)
    (entries : Dictionary κ α) :
    alter right second (alter left first entries) = alter left first (alter right second entries) := by
  cases order : compare left right with
  | lt => exact alter_comm_of_lt order first second entries
  | eq => exact absurd (Std.LawfulEqOrd.compare_eq_iff_eq.mp order) different
  | gt => exact (alter_comm_of_lt (Std.OrientedCmp.lt_of_gt order) second first entries).symm

end Order

end Dictionary

end RowPipeline
