import RowPipeline.Proofs.Accounts
import RowPipeline.Proofs.AscendingKeys
import RowPipeline.Value.Order

/-!
The rows of a summary, told from the items that were recorded: one row for each node and origin that
has items, in ascending order, with the numbers of its successes and failures and of each message. The
counters of the summary, of the rows and of the messages stay in step whatever is recorded, and the
order in which items are recorded is not seen.
-/

namespace RowPipeline

def Account.origin (account : Account) : Origin := ⟨account.node, account.uri⟩

/-- Whether an item failed with a message. -/
def Account.gave (message : String) (account : Account) : Bool := account.error == some message

/-! ### One origin -/

namespace OriginSummary

/-- What the items of one origin add up to. -/
structure Tells (entry : OriginSummary) (accounts : List Account) : Prop where
  succeeded : entry.succeeded = accounts.countP Account.succeeded
  failed : entry.failed = accounts.countP Account.failed
  ascending : entry.errors.Ascending
  total : (entry.errors.map (·.2)).sum = entry.failed
  /-- A message is listed with the number of failures that gave it. -/
  listed : ∀ message count, (message, count) ∈ entry.errors ↔
    count = accounts.countP (Account.gave message) ∧ 0 < count

variable {entry : OriginSummary} {accounts : List Account} {account : Account}

theorem tells_nil : ({} : OriginSummary).Tells [] where
  succeeded := rfl
  failed := rfl
  ascending := Dictionary.ascending_nil
  total := rfl
  listed := by simp

theorem Tells.count_eq (tells : entry.Tells accounts) (message : String) :
    (Dictionary.get? message entry.errors).getD 0 = accounts.countP (Account.gave message) := by
  have found := fun count => (tells.ascending.mem_iff_get?).symm.trans (tells.listed message count)
  cases here : Dictionary.get? message entry.errors with
  | some count => exact ((found count).mp here).1
  | none =>
    rcases Nat.eq_zero_or_pos (accounts.countP (Account.gave message)) with zero | positive
    · exact zero.symm
    · have there := (found _).mpr ⟨rfl, positive⟩
      rw [here] at there
      cases there

theorem Tells.success (tells : entry.Tells accounts) (succeeded : account.error = none) :
    (noted none (some entry)).Tells (accounts ++ [account]) where
  succeeded := by simp [noted, tells.succeeded, Account.succeeded, succeeded]
  failed := by simp [noted, tells.failed, Account.failed, succeeded]
  ascending := tells.ascending
  total := tells.total
  listed message count := by simp [noted, tells.listed, Account.gave, succeeded]

theorem Tells.failure (tells : entry.Tells accounts) {text : String}
    (failed : account.error = some text) :
    (noted (some text) (some entry)).Tells (accounts ++ [account]) where
  succeeded := by simp [noted, tells.succeeded, Account.succeeded, failed]
  failed := by simp [noted, tells.failed, Account.failed, failed]
  ascending := tells.ascending.alter _ _
  total := by
    have grows (old : Option Nat) : id (old.getD 0 + 1) = old.elim 0 id + 1 := by
      cases old <;> rfl
    have more := Dictionary.sum_alter id (fun count => count.getD 0 + 1) grows text entry.errors
    simpa [noted, tells.total] using more
  listed message count := by
    have ascending := tells.ascending.alter text fun count => count.getD 0 + 1
    have known := tells.count_eq message
    simp only [noted, Option.getD_some, ascending.mem_iff_get?]
    by_cases same : message = text
    · subst same
      rw [Dictionary.get?_alter_self tells.ascending, known]
      simp [Account.gave, failed]
      omega
    · rw [Dictionary.get?_alter_of_ne _ _ same, ← tells.ascending.mem_iff_get?, tells.listed]
      simp [Account.gave, failed, Ne.symm same]

theorem Tells.noted (tells : entry.Tells accounts) (account : Account) :
    (noted account.error (some entry)).Tells (accounts ++ [account]) := by
  cases outcome : account.error with
  | none => exact tells.success outcome
  | some text => exact tells.failure outcome

private theorem noted_getD (error : Option String) (entry : Option OriginSummary) :
    noted error (some (entry.getD {})) = noted error entry := rfl

end OriginSummary

/-! ### All origins -/

namespace BulkSummary

/-- What the items that were recorded add up to, in all and for each origin. -/
structure Tells (summary : BulkSummary) (accounts : List Account) : Prop where
  ascending : summary.origins.Ascending
  succeeded : (summary.origins.map (·.2.succeeded)).sum = summary.succeeded
  failed : (summary.origins.map (·.2.failed)).sum = summary.failed
  recorded : ∀ origin, (∃ entry, (origin, entry) ∈ summary.origins) ↔
    ∃ account ∈ accounts, account.origin = origin
  each : ∀ origin entry, (origin, entry) ∈ summary.origins →
    entry.Tells (accounts.filter (·.origin = origin))

variable {summary : BulkSummary} {accounts : List Account}

theorem tells_nil : ({} : BulkSummary).Tells [] where
  ascending := Dictionary.ascending_nil
  succeeded := rfl
  failed := rfl
  recorded := by simp
  each := by simp

theorem Tells.own (tells : summary.Tells accounts) (origin : Origin) :
    ((Dictionary.get? origin summary.origins).getD {}).Tells
      (accounts.filter (·.origin = origin)) := by
  cases found : Dictionary.get? origin summary.origins with
  | some entry => exact tells.each origin entry (tells.ascending.mem_iff_get?.mpr found)
  | none =>
    have none : accounts.filter (·.origin = origin) = [] := by
      rw [List.filter_eq_nil_iff]
      intro account member same
      obtain ⟨entry, there⟩ := (tells.recorded origin).mpr ⟨account, member, by simpa using same⟩
      rw [tells.ascending.mem_iff_get?.mp there] at found
      cases found
    rw [none]
    exact OriginSummary.tells_nil

theorem origins_recordAccount (summary : BulkSummary) (account : Account) :
    (summary.recordAccount account).origins =
      summary.origins.alter account.origin (OriginSummary.noted account.error) := by
  rw [recordAccount, record_eq]
  rfl

/-- What is told of the origin of an item takes the item in. -/
theorem Tells.get?_self (tells : summary.Tells accounts) (account : Account) :
    Dictionary.get? account.origin (summary.recordAccount account).origins =
      some (OriginSummary.noted account.error (Dictionary.get? account.origin summary.origins)) := by
  rw [origins_recordAccount]
  exact Dictionary.get?_alter_self tells.ascending _ _

private theorem get?_recordAccount_of_ne (summary : BulkSummary) {origin : Origin} {account : Account}
    (other : origin ≠ account.origin) :
    Dictionary.get? origin (summary.recordAccount account).origins =
      Dictionary.get? origin summary.origins := by
  rw [origins_recordAccount]
  exact Dictionary.get?_alter_of_ne _ _ other

/-- A number that an item adds to what is told of its origin is added to the sum over all origins. -/
theorem sum_recordAccount {summary : BulkSummary} {account : Account} (weight : OriginSummary → Nat)
    {gain : Nat}
    (grows : ∀ old, weight (OriginSummary.noted account.error old) = old.elim 0 weight + gain) :
    ((summary.recordAccount account).origins.map fun entry => weight entry.2).sum =
      (summary.origins.map fun entry => weight entry.2).sum + gain := by
  rw [origins_recordAccount]
  exact Dictionary.sum_alter weight _ grows account.origin summary.origins

/-- Recording an item keeps all counters in step. -/
theorem Tells.recordAccount (tells : summary.Tells accounts) (account : Account) :
    (summary.recordAccount account).Tells (accounts ++ [account]) := by
  have ascending : (summary.recordAccount account).origins.Ascending :=
    origins_recordAccount summary account ▸ tells.ascending.alter account.origin _
  refine ⟨ascending, ?succeeded, ?failed, fun origin => ?recorded, fun origin entry member => ?each⟩
  case succeeded =>
    rw [sum_recordAccount OriginSummary.succeeded fun old => ?_, tells.succeeded,
      BulkSummary.recordAccount, record_eq]
    cases account.error <;> cases old <;> simp [OriginSummary.noted]
  case failed =>
    rw [sum_recordAccount OriginSummary.failed fun old => ?_, tells.failed,
      BulkSummary.recordAccount, record_eq]
    cases account.error <;> cases old <;> simp [OriginSummary.noted]
  case recorded =>
    have before := tells.recorded origin
    simp only [tells.ascending.mem_iff_get?] at before
    simp only [ascending.mem_iff_get?]
    by_cases own : origin = account.origin
    · subst own
      simp [tells.get?_self]
    · simp [get?_recordAccount_of_ne summary own, before, Ne.symm own]
  case each =>
    have found := ascending.mem_iff_get?.mp member
    by_cases own : origin = account.origin
    · subst own
      rw [tells.get?_self] at found
      cases found
      have more := (tells.own account.origin).noted account
      rw [OriginSummary.noted_getD] at more
      simpa using more
    · rw [get?_recordAccount_of_ne summary own, ← tells.ascending.mem_iff_get?] at found
      simpa [Ne.symm own] using tells.each origin entry found

/-- Whatever is recorded, the summary tells what it adds up to. -/
theorem tells_recordAll (accounts : List Account) : (recordAll {} accounts).Tells accounts := by
  suffices general : ∀ earlier (summary : BulkSummary), summary.Tells earlier →
      (summary.recordAll accounts).Tells (earlier ++ accounts) from general [] {} tells_nil
  induction accounts with
  | nil =>
    intro earlier summary tells
    rw [List.append_nil]
    exact tells
  | cons account rest ih =>
    intro earlier summary tells
    rw [List.append_cons]
    exact ih _ _ (tells.recordAccount account)

/-! ### Rows -/

/-- All counts that the rows of a summary hold. -/
def counts (summary : BulkSummary) : List Nat :=
  summary.succeeded :: summary.origins.flatMap fun (_, entry) =>
    entry.succeeded :: entry.failed :: entry.errors.map (·.2)

private theorem count_le {accounts : List Account} {count : Nat}
    (member : count ∈ (recordAll {} accounts).counts) : count ≤ accounts.length := by
  have tells := tells_recordAll accounts
  rw [counts, List.mem_cons, List.mem_flatMap] at member
  obtain rfl | ⟨⟨origin, entry⟩, listed, member⟩ := member
  · rw [recordAll_succeeded]
    simpa using List.countP_le_length
  · have own := tells.each origin entry listed
    have fewer := List.length_filter_le (fun account : Account => account.origin = origin) accounts
    refine Nat.le_trans ?_ fewer
    rw [List.mem_cons, List.mem_cons, List.mem_map] at member
    obtain rfl | rfl | ⟨⟨message, count⟩, given, rfl⟩ := member
    · rw [own.succeeded]
      exact List.countP_le_length
    · rw [own.failed]
      exact List.countP_le_length
    · rw [((own.listed message count).mp given).1]
      exact List.countP_le_length

end BulkSummary

namespace Origin

/-- The cells that a row of a summary starts with. -/
def cells (origin : Origin) : Row := [.text origin.node, (origin.uri.map Value.text).getD .null]

/-- Origins are in the order of their cells: a null comes before all texts. -/
theorem compareItems_cells (left right : Origin) :
    Value.compareItems left.cells right.cells = compare left right := by
  obtain ⟨node, uri⟩ := left
  obtain ⟨node', uri'⟩ := right
  rw [compare_eq]
  cases uri <;> cases uri' <;> simp [cells, Value.compareItems, Value.compare, Value.rank] <;> rfl

end Origin

namespace BulkSummary

/-- The rows of a summary have different nodes and origins in ascending order, and what they tell of
each is what its items add up to; the totals of the summary are the sums over its rows. A permutation
of the items gives the same rows, in both modes. As long as the items can be counted in 63 bits, so can
everything that a row counts. -/
theorem rows_tell_items (accounts : List Account) :
    let summary := recordAll {} accounts
    summary.Tells accounts ∧
      summary.succeeded = accounts.countP Account.succeeded ∧
      summary.failed = accounts.countP Account.failed ∧
      summary.rows .rowCount = [[countCell summary.succeeded]] ∧
      summary.rows .returnSummary = summary.origins.map (fun (origin, entry) =>
        origin.cells ++ [countCell entry.succeeded, countCell entry.failed,
          .object (entry.errors.map fun (message, count) => (message, countCell count))]) ∧
      (summary.rows .returnSummary).Pairwise (fun left right =>
        Value.compareItems (left.take 2) (right.take 2) = .lt) ∧
      (accounts.length < 0x8000000000000000 →
        ∀ count ∈ summary.counts, ∃ cell : Int64, countCell count = .long cell ∧ cell.toInt = count) ∧
      ∀ others : List Account, others.Perm accounts →
        ∀ mode, (recordAll {} others).rows mode = summary.rows mode := by
  intro summary
  have tells : summary.Tells accounts := tells_recordAll accounts
  refine ⟨tells, ?_, ?_, rfl, rfl, ?_, ?_, ?_⟩
  · simp [summary, recordAll_succeeded]
  · simp [summary, recordAll_failed]
  · rw [rows, List.pairwise_map]
    refine tells.ascending.imp fun {left right} before => ?_
    rw [← before, ← Origin.compareItems_cells]
    rfl
  · intro few count member
    exact ⟨Int64.ofNat count, rfl,
      Int64.toInt_ofNat_of_lt (Nat.lt_of_le_of_lt (count_le member) few)⟩
  · intro others same mode
    rw [recordAll_perm same]

/-- Items of two nodes, with and without an origin, of which two gave the same message and one another
message; recorded from the last to the first they give the same rows. -/
theorem rows_tell_items_mixed :
    let accounts : List Account := [⟨0, "b", none, none⟩, ⟨1, "a", some "u", some "x"⟩,
      ⟨2, "a", none, none⟩, ⟨3, "a", some "u", some "w"⟩, ⟨4, "a", some "u", none⟩,
      ⟨5, "a", some "u", some "x"⟩]
    let rows : List Row := [[.text "a", .null, .long 1, .long 0, .object []],
      [.text "a", .text "u", .long 1, .long 3, .object [("w", .long 1), ("x", .long 2)]],
      [.text "b", .null, .long 1, .long 0, .object []]]
    (recordAll {} accounts).rows .returnSummary = rows ∧
      (accounts.length < 0x8000000000000000 ∧
        ∀ count ∈ (recordAll {} accounts).counts,
          ∃ cell : Int64, countCell count = .long cell ∧ cell.toInt = count) ∧
      accounts.reverse.Perm accounts ∧
      (recordAll {} accounts.reverse).rows .returnSummary = rows := by
  intro accounts rows
  have written : (recordAll {} accounts).rows .returnSummary = rows := rfl
  have few : accounts.length < 0x8000000000000000 := by decide
  have same : accounts.reverse.Perm accounts := accounts.reverse_perm
  obtain ⟨_, _, _, _, _, _, fits, permuted⟩ := rows_tell_items accounts
  exact ⟨written, ⟨few, fits few⟩, same, (permuted _ same .returnSummary).trans written⟩

end BulkSummary

end RowPipeline
