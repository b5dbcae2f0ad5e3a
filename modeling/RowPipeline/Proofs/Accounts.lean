import RowPipeline.Bulk.Summary
import RowPipeline.Proofs.DictionaryLaws

/-!
A summary as the account of single items. It does not depend on the order in which they are recorded,
and its totals count them.
-/

namespace RowPipeline

/-- What became of the item with a number: under which node and origin it is counted, and the message
of its failure if it failed. -/
structure Account where
  location : Nat
  node : NodeName
  uri : Option String
  error : Option String

namespace Account

def succeeded (account : Account) : Bool := account.error.isNone

def failed (account : Account) : Bool := account.error.isSome

theorem countP_succeeded_add_failed (accounts : List Account) :
    accounts.countP succeeded + accounts.countP failed = accounts.length := by
  induction accounts with
  | nil => rfl
  | cons account rest ih =>
    cases error : account.error <;> simp [succeeded, failed, error] <;> omega

end Account

/-! ### The order of origins -/

namespace Origin

theorem compare_eq (left right : Origin) :
    compare left right = (compare left.node right.node).then (compare left.uri right.uri) := by
  obtain ⟨_, _ | _⟩ := left <;> obtain ⟨_, _ | _⟩ := right <;> rfl

private theorem compare_eq_lex :
    (compare : Origin → Origin → Ordering) = compareLex (compareOn node) (compareOn uri) := by
  funext left right
  exact compare_eq left right

instance : Std.TransOrd Origin := by
  unfold Std.TransOrd
  rw [compare_eq_lex]
  infer_instance

instance : Std.LawfulEqOrd Origin where
  eq_of_compare {left right} same := by
    obtain ⟨node, uri⟩ := left
    obtain ⟨node', uri'⟩ := right
    simp only [compare_eq, Ordering.then_eq_eq, Std.LawfulEqOrd.compare_eq_iff_eq] at same
    rw [same.1, same.2]

end Origin

/-! ### Recording -/

namespace OriginSummary

/-- One more item of the origin. -/
def noted (error : Option String) (entry : Option OriginSummary) : OriginSummary :=
  let entry := entry.getD {}
  match error with
  | none => { entry with succeeded := entry.succeeded + 1 }
  | some message =>
    { entry with
      failed := entry.failed + 1
      errors := entry.errors.alter message fun count => count.getD 0 + 1 }

private theorem noted_comm (first second : Option String) (entry : Option OriginSummary) :
    noted second (some (noted first entry)) = noted first (some (noted second entry)) := by
  cases first with
  | none => cases second <;> rfl
  | some message =>
    cases second with
    | none => rfl
    | some other =>
      by_cases same : message = other
      · rw [same]
      · simp [noted, Dictionary.alter_comm same]

end OriginSummary

namespace BulkSummary

theorem record_eq (summary : BulkSummary) (node : NodeName) (uri : Option String)
    (error : Option String) :
    summary.record node uri error =
      { succeeded := summary.succeeded + if error.isNone then 1 else 0
        failed := summary.failed + if error.isSome then 1 else 0
        origins := summary.origins.alter ⟨node, uri⟩ (OriginSummary.noted error) } := by
  cases error <;> rfl

def recordAccount (summary : BulkSummary) (account : Account) : BulkSummary :=
  summary.record account.node account.uri account.error

/-- Two accounts may be recorded in either order. -/
theorem recordAccount_comm (summary : BulkSummary) (first second : Account) :
    (summary.recordAccount first).recordAccount second =
      (summary.recordAccount second).recordAccount first := by
  have origins : (summary.origins.alter ⟨first.node, first.uri⟩ (OriginSummary.noted first.error)).alter
        ⟨second.node, second.uri⟩ (OriginSummary.noted second.error) =
      (summary.origins.alter ⟨second.node, second.uri⟩ (OriginSummary.noted second.error)).alter
        ⟨first.node, first.uri⟩ (OriginSummary.noted first.error) := by
    by_cases same : (⟨first.node, first.uri⟩ : Origin) = ⟨second.node, second.uri⟩
    · simp only [same, Dictionary.alter_alter_self, OriginSummary.noted_comm]
    · exact Dictionary.alter_comm same _ _ _
  simp only [recordAccount, record_eq, origins, Nat.add_right_comm]

def recordAll (summary : BulkSummary) (accounts : List Account) : BulkSummary :=
  accounts.foldl recordAccount summary

@[simp]
theorem recordAll_append (summary : BulkSummary) (first second : List Account) :
    summary.recordAll (first ++ second) = (summary.recordAll first).recordAll second :=
  List.foldl_append

/-- The order in which accounts are recorded makes no difference. -/
theorem recordAll_perm {first second : List Account} (same : first.Perm second)
    (summary : BulkSummary) : summary.recordAll first = summary.recordAll second :=
  same.foldl_eq' (fun _ _ _ _ _ => recordAccount_comm _ _ _) summary

theorem recordAll_comm (summary : BulkSummary) (first second : List Account) :
    (summary.recordAll first).recordAll second = (summary.recordAll second).recordAll first := by
  rw [← recordAll_append, ← recordAll_append, recordAll_perm List.perm_append_comm]

theorem recordAll_succeeded (summary : BulkSummary) (accounts : List Account) :
    (summary.recordAll accounts).succeeded =
      summary.succeeded + accounts.countP Account.succeeded := by
  induction accounts generalizing summary with
  | nil => rfl
  | cons account rest ih =>
    rw [recordAll, List.foldl_cons, ← recordAll, ih, List.countP_cons, recordAccount, record_eq]
    cases error : account.error <;> simp [Account.succeeded, error, Nat.add_right_comm, Nat.add_assoc]

theorem recordAll_failed (summary : BulkSummary) (accounts : List Account) :
    (summary.recordAll accounts).failed = summary.failed + accounts.countP Account.failed := by
  induction accounts generalizing summary with
  | nil => rfl
  | cons account rest ih =>
    rw [recordAll, List.foldl_cons, ← recordAll, ih, List.countP_cons, recordAccount, record_eq]
    cases error : account.error <;> simp [Account.failed, error, Nat.add_right_comm, Nat.add_assoc]

/-- Every account of a summary is in one of its totals. -/
theorem recordAll_total (accounts : List Account) :
    (recordAll {} accounts).succeeded + (recordAll {} accounts).failed = accounts.length := by
  rw [recordAll_succeeded, recordAll_failed, ← Account.countP_succeeded_add_failed accounts]
  simp

end BulkSummary

end RowPipeline
