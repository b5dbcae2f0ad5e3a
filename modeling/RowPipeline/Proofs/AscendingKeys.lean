import Mathlib.Algebra.GroupWithZero.Nat
import RowPipeline.Proofs.DictionaryLaws

/-!
Dictionaries as they are built: their keys ascend. Every change keeps that, and adding the entries of
such a dictionary in their order builds it again. Its entries are those that are found, and a change of
one of them changes what all of them weigh together by as much.
-/

namespace RowPipeline

namespace Dictionary

variable {κ α : Type} [Ord κ]

/-- Every key is below all keys after it. -/
def Ascending (entries : Dictionary κ α) : Prop :=
  entries.Pairwise fun left right => compare left.1 right.1 = .lt

theorem ascending_nil : Ascending ([] : Dictionary κ α) := List.Pairwise.nil

/-- Changing a value adds no key but its own. -/
theorem mem_alter {key : κ} {change : Option α → α} {entries : Dictionary κ α} {entry : κ × α}
    (member : entry ∈ alter key change entries) : entry.1 = key ∨ ∃ old ∈ entries, entry.1 = old.1 := by
  induction entries with
  | nil => simp_all [alter]
  | cons head rest ih =>
    unfold alter at member
    split at member
    · rcases List.mem_cons.mp member with rfl | old
      · exact .inl rfl
      · exact .inr ⟨entry, old, rfl⟩
    · rcases List.mem_cons.mp member with rfl | old
      · exact .inr ⟨head, .head _, rfl⟩
      · exact .inr ⟨entry, .tail _ old, rfl⟩
    · rcases List.mem_cons.mp member with rfl | later
      · exact .inr ⟨_, .head _, rfl⟩
      · rcases ih later with same | ⟨old, there, same⟩
        · exact .inl same
        · exact .inr ⟨old, .tail _ there, same⟩

theorem Ascending.alter [Std.TransOrd κ] {entries : Dictionary κ α} (ascending : entries.Ascending)
    (key : κ) (change : Option α → α) : (entries.alter key change).Ascending := by
  induction entries with
  | nil => exact List.pairwise_singleton _ _
  | cons head rest ih =>
    obtain ⟨above, later⟩ := List.pairwise_cons.mp ascending
    unfold Dictionary.alter
    split
    next before =>
      refine List.pairwise_cons.mpr ⟨fun entry member => ?_, ascending⟩
      rcases List.mem_cons.mp member with rfl | old
      · exact before
      · exact Std.TransCmp.lt_trans before (above entry old)
    next => exact List.pairwise_cons.mpr ⟨above, later⟩
    next other value behind =>
      refine List.pairwise_cons.mpr ⟨fun entry member => ?_, ih later⟩
      rcases mem_alter member with same | ⟨old, there, same⟩
      · rw [same]
        exact Std.OrientedCmp.lt_of_gt behind
      · rw [same]
        exact above old there

theorem Ascending.insert [Std.TransOrd κ] {entries : Dictionary κ α} (ascending : entries.Ascending)
    (key : κ) (value : α) : (entries.insert key value).Ascending :=
  ascending.alter key _

theorem Ascending.extend [Std.TransOrd κ] {entries : Dictionary κ α} (ascending : entries.Ascending)
    (additions : List (κ × α)) : (entries.extend additions).Ascending := by
  induction additions generalizing entries with
  | nil => exact ascending
  | cons first others ih => exact ih (ascending.insert first.1 first.2)

theorem ascending_ofList [Std.TransOrd κ] (entries : List (κ × α)) : (ofList entries).Ascending :=
  ascending_nil.extend entries

private theorem get?_of_below [Std.LawfulEqOrd κ] [DecidableEq κ] {key : κ} {entries : Dictionary κ α}
    (below : ∀ entry ∈ entries, compare key entry.1 = .lt) : get? key entries = none := by
  induction entries with
  | nil => rfl
  | cons head rest ih =>
    have different : key ≠ head.1 := by
      intro same
      have before := below head (.head _)
      simp [same] at before
    rw [get?_cons, if_neg different]
    exact ih fun entry member => below entry (.tail _ member)

/-- A key gets what is made of the value that it has. -/
theorem get?_alter_self [Std.TransOrd κ] [Std.LawfulEqOrd κ] [DecidableEq κ]
    {entries : Dictionary κ α} (ascending : entries.Ascending) (key : κ) (change : Option α → α) :
    get? key (entries.alter key change) = some (change (get? key entries)) := by
  induction entries with
  | nil => exact get?_alter_of_none change (get?_nil key)
  | cons head rest ih =>
    obtain ⟨other, value⟩ := head
    obtain ⟨above, later⟩ := List.pairwise_cons.mp ascending
    cases place : compare key other with
    | lt =>
      have missing : get? key ((other, value) :: rest) = none := by
        refine get?_of_below fun entry member => ?_
        rcases List.mem_cons.mp member with rfl | old
        · exact place
        · exact Std.TransCmp.lt_trans place (above entry old)
      rw [missing, get?_alter_of_none change missing]
    | eq =>
      obtain rfl := Std.LawfulEqOrd.compare_eq_iff_eq.mp place
      simp [Dictionary.alter, get?_cons]
    | gt =>
      have different : key ≠ other := fun same => by simp [same] at place
      simp [Dictionary.alter, place, get?_cons, different, ih later]

/-- A key above all others comes last. -/
theorem insert_of_above [Std.TransOrd κ] {key : κ} {entries : Dictionary κ α} (value : α)
    (above : ∀ entry ∈ entries, compare entry.1 key = .lt) :
    entries.insert key value = entries ++ [(key, value)] := by
  induction entries with
  | nil => rfl
  | cons head rest ih =>
    have behind : compare key head.1 = .gt := Std.OrientedCmp.gt_of_lt (above head (.head _))
    have later := ih fun entry member => above entry (.tail _ member)
    rw [insert, Dictionary.alter, behind]
    exact congrArg (head :: ·) later

private theorem extend_of_ascending [Std.TransOrd κ] {entries additions : Dictionary κ α}
    (ascending : Ascending (entries ++ additions)) :
    entries.extend additions = entries ++ additions := by
  induction additions generalizing entries with
  | nil => exact (List.append_nil entries).symm
  | cons first others ih =>
    have last := insert_of_above first.2 fun entry member =>
      (List.pairwise_append.mp ascending).2.2 entry member first (.head _)
    rw [List.append_cons] at ascending ⊢
    rw [← ih ascending, ← last]
    rfl

/-- A dictionary is built again from its own entries. -/
theorem ofList_of_ascending [Std.TransOrd κ] {entries : Dictionary κ α}
    (ascending : entries.Ascending) : ofList entries = entries :=
  extend_of_ascending ascending

/-- The entries with ascending keys are those that are found. -/
theorem Ascending.mem_iff_get? [Std.TransOrd κ] [Std.LawfulEqOrd κ] [DecidableEq κ]
    {entries : Dictionary κ α} (ascending : entries.Ascending) {key : κ} {value : α} :
    (key, value) ∈ entries ↔ get? key entries = some value := by
  induction entries with
  | nil => simp
  | cons head rest ih =>
    obtain ⟨other, first⟩ := head
    obtain ⟨above, later⟩ := List.pairwise_cons.mp ascending
    rw [get?_cons, List.mem_cons]
    by_cases same : key = other
    · subst same
      have absent : (key, value) ∉ rest := by
        intro member
        have before := above _ member
        simp at before
      simp [absent, eq_comm]
    · simp [same, ih later]

/-- Of two dictionaries, the one that is added to the other goes first. -/
theorem get?_extend_of_ascending [Std.TransOrd κ] [Std.LawfulEqOrd κ] [DecidableEq κ]
    {additions : Dictionary κ α} (ascending : additions.Ascending) (key : κ)
    (entries : Dictionary κ α) :
    get? key (entries.extend additions) = (get? key additions).or (get? key entries) := by
  cases given : get? key additions with
  | none =>
    refine get?_extend_of_forall_ne entries fun entry member same => ?_
    subst same
    cases given.symm.trans (ascending.mem_iff_get?.mp member)
  | some value =>
    refine get?_extend_of_agree entries (ascending.mem_iff_get?.mpr given) fun other member => ?_
    exact Option.some.inj ((ascending.mem_iff_get?.mp member).symm.trans given)

/-- A change that adds to what the value of a key weighs adds as much to the weight of all values. -/
theorem sum_alter (weight : α → Nat) {gain : Nat} (change : Option α → α)
    (grows : ∀ old : Option α, weight (change old) = old.elim 0 weight + gain) (key : κ)
    (entries : Dictionary κ α) :
    ((entries.alter key change).map fun entry => weight entry.2).sum =
      (entries.map fun entry => weight entry.2).sum + gain := by
  induction entries with
  | nil => simp [alter, grows]
  | cons head rest ih =>
    obtain ⟨other, value⟩ := head
    cases place : compare key other <;> simp [alter, place, grows, ih] <;> omega

end Dictionary

end RowPipeline
