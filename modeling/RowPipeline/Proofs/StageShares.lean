import Mathlib.Algebra.BigOperators.Group.List.Basic
import RowPipeline.Proofs.FetchedRows
import RowPipeline.Proofs.GroupMeaning
import RowPipeline.Proofs.MemoryBalance
import RowPipeline.Proofs.StableSort

/-!
The shares of stages. A stage that sorts, groups or fetches charges the size of what it keeps and gives
back what it lets go of, so that its share is the size of what it holds.
-/

namespace RowPipeline

open Turn

variable {σ τ δ α : Type}

/-- The account tells what is charged to a stage, which is as it should be if it was so before. -/
def Tallied (given : Prop) (limit others : Nat) (charged : τ → Nat) (fits : τ → Prop)
    (state : τ × Job σ) : Prop :=
  Accounted limit others charged state ∧ (given → fits state.1)

/-! ### Stages that sort -/

namespace SortStage

/-- The size of the kept rows. -/
def held (stage : SortStage) : Nat := (stage.newest.map Row.size).sum

def charged (stage : SortStage) : Nat := stage.share.charged

def Exact (stage : SortStage) : Prop := stage.charged = stage.held

variable {given : Prop} {limit others : Nat} {state : SortStage × Job σ}

theorem takeRow_leaves (finite : limit < MemoryAccount.unlimited) (row : Row)
    (start : Tallied given limit others charged Exact state) :
    Leaves (takeRow row) (Tallied given limit others charged Exact) state := by
  refine .own_bind (.evaluated_bind start fun kept _ => ?_)
  refine .charge_bind finite start.1 (fun _ tells => ⟨tells, start.2⟩)
    fun job _ tells => .setOwn_bind (.pure ⟨tells, fun was => ?_⟩)
  have before := start.2 was
  simp only [Exact, charged, held, List.map_cons, List.sum_cons] at before ⊢
  omega

theorem clear_balances (limit : Nat) :
    Balances limit charged (.ofState fun state : SortStage × Job σ => ((), clear state)) :=
  fun _ _ start => start.releaseAll

end SortStage

namespace Sorting

private theorem insert_perm (sorting : Sorting) (row : Row) (rows : List Row) :
    (sorting.insert row rows).Perm (row :: rows) := by
  induction rows with
  | nil => exact .refl _
  | cons other rest ih =>
    rw [insert_cons]
    split
    · exact .refl _
    · exact (ih.cons other).trans (.swap row other rest)

end Sorting

namespace TopStage

/-- The size of the kept rows. -/
def held (stage : TopStage) : Nat := (stage.best.map Row.size).sum

def charged (stage : TopStage) : Nat := stage.share.charged

/-- A stage that has its kept rows charged, of which there are no more than can be emitted. -/
structure Exact (stage : TopStage) : Prop where
  charged : stage.charged = stage.held
  fits : stage.best.length ≤ stage.capacity

/-- The same of a stage with room for one more row. -/
structure Roomy (stage : TopStage) : Prop where
  charged : stage.charged = stage.held
  room : stage.best.length < stage.capacity

variable {given : Prop} {limit others : Nat} {state : TopStage × Job σ}

theorem room_of_accepted {stage : TopStage} {kept : Row} (accepted : stage.offer kept = .accepted) :
    stage.best.length < stage.capacity := by
  unfold offer at accepted
  split at accepted
  · assumption
  · split at accepted
    · cases accepted
    · split at accepted <;> cases accepted

private theorem last_of_replacing {stage : TopStage} {kept last : Row}
    (replacing : stage.offer kept = .replacing last) : stage.best.dropLast ++ [last] = stage.best := by
  unfold offer at replacing
  split at replacing
  · cases replacing
  · split at replacing
    · cases replacing
    next other found =>
      split at replacing
      · cases replacing
        exact List.dropLast_append_getLast? _ found
      · cases replacing

theorem keep_leaves (finite : limit < MemoryAccount.unlimited) (kept : Row)
    (start : Tallied given limit others charged Roomy state) :
    Leaves (keep kept) (Tallied given limit others charged Exact) state := by
  have roomy (was : given) : Exact state.1 :=
    ⟨(start.2 was).charged, Nat.le_of_lt (start.2 was).room⟩
  refine .own_bind (.charge_bind finite start.1 (fun _ tells => ⟨tells, roomy⟩)
    fun job _ tells => .setOwn ⟨tells, fun was => ⟨?_, ?_⟩⟩)
  · have before := (start.2 was).charged
    have inserted := ((state.1.sorting.insert_perm kept state.1.best).map Row.size).sum_eq
    simp only [charged, held, List.map_cons, List.sum_cons] at before inserted ⊢
    omega
  · have room := (start.2 was).room
    simp only [Sorting.insert_length]
    exact room

/-- The row that has to go makes room, and its memory is given back. -/
theorem evict_tallied {last : Row} (ends : state.1.best.dropLast ++ [last] = state.1.best)
    (start : Tallied given limit others charged Exact state) :
    Tallied given limit others charged Roomy (evict last state) := by
  refine ⟨start.1.release _, fun was => ?_⟩
  obtain ⟨before, fits⟩ := start.2 was
  have size := congrArg (fun rows => (rows.map Row.size).sum) ends
  have length := congrArg List.length ends
  simp only [List.map_append, List.sum_append, List.map_cons, List.map_nil, List.sum_cons,
    List.sum_nil] at size
  simp only [List.length_append, List.length_singleton] at length
  simp only [charged, held] at before
  constructor
  · show state.1.share.charged - min (Row.size last) state.1.share.charged =
      (state.1.best.dropLast.map Row.size).sum
    omega
  · show state.1.best.dropLast.length < state.1.capacity
    omega

theorem takeRow_leaves (finite : limit < MemoryAccount.unlimited) (row : Row)
    (start : Tallied given limit others charged Exact state) :
    Leaves (takeRow row) (Tallied given limit others charged Exact) state := by
  refine .own_bind (.evaluated_bind start fun kept _ => ?_)
  cases offered : state.1.offer kept with
  | declined => exact .pure start
  | accepted =>
    have roomy (was : given) : Roomy state.1 :=
      ⟨(start.2 was).charged, room_of_accepted offered⟩
    exact (keep_leaves finite kept ⟨start.1, roomy⟩).bind fun _ _ held => .pure held
  | replacing last =>
    have evicted := evict_tallied (last_of_replacing offered) start
    exact .ofState_bind ((keep_leaves finite kept evicted).bind fun _ _ held => .pure held)

theorem clear_balances (limit : Nat) :
    Balances limit charged (.ofState fun state : TopStage × Job σ => ((), clear state)) :=
  fun _ _ start => start.releaseAll

end TopStage

/-! ### Stages that group -/

namespace GroupStage

/-- The size of the groups. -/
def held (stage : GroupStage) : Nat :=
  (stage.groups.map fun group => RowGroup.size group.key stage.aggregates.length).sum

def charged (stage : GroupStage) : Nat := stage.share.charged

def Exact (stage : GroupStage) : Prop := stage.charged = stage.held

variable {given : Prop} {limit others : Nat} {state : GroupStage × Job σ}

private theorem ensureGroup_leaves (finite : limit < MemoryAccount.unlimited) (key : Row)
    (start : Tallied given limit others charged Exact state) :
    Leaves (ensureGroup key) (Tallied given limit others charged Exact) state := by
  refine .own_bind ?_
  dsimp only
  split
  · exact .pure start
  · refine .charge_bind finite start.1 (fun _ tells => ⟨tells, start.2⟩)
      fun job _ tells => .setOwn ⟨tells, fun was => ?_⟩
    have before := start.2 was
    simp only [Exact, charged, held, List.map_append, List.sum_append, List.map_cons, List.map_nil,
      List.sum_cons, List.sum_nil] at before ⊢
    omega

/-- Adding a row to its group changes no key. -/
theorem held_stepGroup (key row : Row) (stage : GroupStage) :
    held { stage with groups := (stepGroup key row stage.groups).1 } = stage.held := by
  have same := congrArg (List.map (RowGroup.size · stage.aggregates.length))
    (keys_stepGroup key row stage.groups)
  rw [List.map_map, List.map_map] at same
  exact congrArg List.sum same

theorem takeRow_leaves (finite : limit < MemoryAccount.unlimited) (row : Row)
    (start : Tallied given limit others charged Exact state) :
    Leaves (takeRow row) (Tallied given limit others charged Exact) state := by
  refine .own_bind (.evaluated_bind start fun key _ => ?_)
  refine (ensureGroup_leaves finite key start).bind fun _ last ensured => .own_bind ?_
  have stepped : Tallied given limit others charged Exact
      ({ last.1 with groups := (stepGroup key row last.1.groups).1 }, last.2) :=
    ⟨ensured.1, fun was => (ensured.2 was).trans (held_stepGroup key row last.1).symm⟩
  rcases done : stepGroup key row last.1.groups with ⟨groups, _ | fault⟩ <;> rw [done] at stepped
  · exact .setOwn_bind (.pure stepped)
  · exact .setOwn_bind (.throw stepped)

theorem clear_balances (limit : Nat) :
    Balances limit charged (.ofState fun state : GroupStage × Job σ => ((), clear state)) :=
  fun _ _ start => start.releaseAll

end GroupStage

/-! ### Stages that fetch -/

namespace FetchStage

/-- The size of the rows that wait. -/
def held (stage : FetchStage) : Nat := (stage.newest.map FetchRow.bytes).sum

def charged (stage : FetchStage) : Nat := stage.share.charged

def Exact (stage : FetchStage) : Prop := stage.charged = stage.held

variable {given : Prop} {limit others : Nat} {behind : δ → Nat} {next : Receiver σ δ}

theorem keep_leaves (finite : limit < MemoryAccount.unlimited) (row : FetchRow)
    {state : FetchStage × Job σ} (start : Tallied given limit others charged Exact state) :
    Leaves (keep row) (Tallied given limit others charged Exact) state := by
  refine .own_bind (.charge_bind finite start.1 (fun _ tells => ⟨tells, start.2⟩)
    fun job _ tells => .setOwn ⟨tells, fun was => ?_⟩)
  have before := start.2 was
  simp only [Exact, charged, held, List.map_cons, List.sum_cons] at before ⊢
  omega

theorem clear_balances (limit : Nat) :
    Balances limit charged (.ofState fun state : FetchStage × Job σ => ((), clear state)) :=
  fun _ _ start => start.releaseAll

private theorem free_balances (limit : Nat) (row : FetchRow) :
    Balances limit charged (.ofState fun state : FetchStage × Job σ => ((), free row state)) :=
  fun _ _ start => start.release _

private theorem refuse_balances (limit : Nat) (node : NodeName) (error : ExecutionError)
    (rows : List FetchRow) :
    Balances limit charged
      (.ofState fun state : FetchStage × Job σ => ((), refuse node error rows state)) := by
  intro others
  induction rows with
  | nil => exact fun _ start => start
  | cons row rest ih =>
    exact fun _ start => ih _ (free_balances limit row others _ (Job.Tells.of_memory start rfl))

theorem joinRow_balances (balances : next.Balances limit behind) (node : NodeName) (row : FetchRow)
    (joining : Joining) :
    Balances limit (chargedBoth charged behind) (joinRow next node row joining) := by
  refine .bind (.above (free_balances limit row)) fun _ => .bind .own fun _ => ?_
  dsimp only
  split
  · exact .bind (.modifyJob fun _ => rfl) fun _ => .pure _
  · split
    · exact .bind (.modifyJob fun _ => rfl) fun _ => .pure _
    · split
      · exact .pure _
      · exact .bind (.below (balances.takeRow _)) fun _ => .pure _

private theorem joinRows_balances (balances : next.Balances limit behind) (node : NodeName)
    (rows : List FetchRow) (joining : Joining) :
    Balances limit (chargedBoth charged behind) (joinRows next node rows joining) := by
  induction rows generalizing joining with
  | nil => exact .pure _
  | cons row rest ih => exact .bind (joinRow_balances balances node row joining) ih

private theorem memory_reportMissing (missing : Nat) (node : NodeName) (job : Job σ) :
    (reportMissing missing node job).memory = job.memory := by
  unfold reportMissing
  split <;> rfl

private theorem fetchBatch_balances (balances : next.Balances limit behind) (services : Services σ)
    (batch : FetchBatch) (flow : Flow) :
    Balances limit (chargedBoth charged behind) (fetchBatch services next batch flow) := by
  refine .bind .own fun stage => .bind .job fun job => .bind (.modifyJob fun _ => rfl) fun _ => ?_
  cases (services.fetch (batch.request stage.1.columns) job.node.services).1 with
  | error error => exact .bind (.above (refuse_balances limit _ _ _)) fun _ => .pure _
  | ok response =>
    exact .bind (joinRows_balances balances batch.node batch.rows _) fun _ =>
      .bind (.modifyJob fun _ => memory_reportMissing ..) fun _ => .pure _

theorem fetchAll_balances (balances : next.Balances limit behind) (services : Services σ) (fuel : Nat)
    (batches : List FetchBatch) (flow : Flow) :
    Balances limit (chargedBoth charged behind) (fetchAll services next fuel batches flow) := by
  induction fuel generalizing batches flow with
  | zero => exact .pure _
  | succ fuel ih =>
    refine .bind .own fun stage => .bind .job fun job => ?_
    dsimp only
    split
    · exact .pure _
    · exact .bind (fetchBatch_balances balances services _ flow) (ih _)

theorem flush_balances (balances : next.Balances limit behind) (services : Services σ) :
    Balances limit (chargedBoth charged behind) (flush services next) := by
  intro others state start
  refine .own_bind (.setOwn_bind (.bind (Job.Tells.of_memory start rfl) fun _ last held => ?_))
  have fetched (batches : List FetchBatch) : Balances limit (chargedBoth charged behind)
      (fetchAll services next batches.length batches .more) :=
    fetchAll_balances balances services batches.length batches .more
  dsimp only
  split
  · exact (Balances.bind (.below balances.meanwhile) fun _ => fetched _) others last held
  · exact fetched _ others last held

theorem takeRow_balances (balances : next.Balances limit behind)
    (finite : limit < MemoryAccount.unlimited) (services : Services σ) (row : Row) :
    Balances limit (chargedBoth charged behind) (takeRow services next row) := by
  refine .bind .own fun _ => .bind (.evaluated _) fun id => ?_
  cases id with
  | none => exact .bind (.modifyJob fun _ => rfl) fun _ => .pure _
  | some id =>
    dsimp only
    split
    · exact .bind (.modifyJob fun _ => rfl) fun _ => .pure _
    · refine .bind (.above fun others state start => ?_) fun _ => .bind .own fun _ => ?_
      · exact (@keep_leaves _ False _ _ finite _ state ⟨start, False.elim⟩).1
      · split
        · exact flush_balances balances services
        · exact .pure _

/-! A flush that succeeds gives back what it was charged for the rows that waited. -/

/-- A stage without rows that wait, that still has bytes of rows it is fetching for. -/
structure Owes (bytes : Nat) (stage : FetchStage) : Prop where
  emptied : stage.newest = []
  charged : stage.charged = bytes

variable {stage : FetchStage} {below : δ} {job : Job σ} {rest : Nat}

theorem Owes.free {row : FetchRow} (owes : Owes (row.bytes + rest) stage) (job : Job σ) :
    Owes rest (free row (stage, job)).1 := by
  refine ⟨owes.emptied, ?_⟩
  have before : stage.share.charged = row.bytes + rest := owes.charged
  show stage.share.charged - min row.bytes stage.share.charged = rest
  omega

/-- The size of the rows of a batch. -/
def bytesOf (rows : List FetchRow) : Nat := (rows.map FetchRow.bytes).sum

private theorem bytesOf_cons (row : FetchRow) (rows : List FetchRow) :
    bytesOf (row :: rows) = row.bytes + bytesOf rows := rfl

theorem Owes.refuse (node : NodeName) (error : ExecutionError) {rows : List FetchRow}
    (owes : Owes (bytesOf rows + rest) stage) (job : Job σ) :
    Owes rest (refuse node error rows (stage, job)).1 := by
  induction rows generalizing stage job with
  | nil =>
    rw [bytesOf, List.map_nil, List.sum_nil, Nat.zero_add] at owes
    exact owes
  | cons row others ih =>
    rw [bytesOf_cons, Nat.add_assoc] at owes
    exact ih (owes.free (record (.request row.id node error) job)) _

private theorem joinRow_frees (next : Receiver σ δ) (node : NodeName) {row : FetchRow} (joining : Joining)
    (owes : Owes (row.bytes + rest) stage) :
    Runs (joinRow next node row joining) (fun _ => True) (fun _ last => Owes rest last.1.1)
      ((stage, below), job) := by
  have freed := owes.free job
  refine .aboveState_bind (.own_bind ?_)
  dsimp only
  split
  · exact .modifyJob_bind (.pure freed)
  · split
    · exact .modifyJob_bind (.pure freed)
    · split
      · exact .pure freed
      · refine .bind (.below (Runs.unconditional _) _) fun flow last ⟨same, _⟩ => .pure ?_
        rw [same]
        exact freed

private theorem joinRows_frees (next : Receiver σ δ) (node : NodeName) {rows : List FetchRow}
    (joining : Joining) (owes : Owes (bytesOf rows + rest) stage) :
    Runs (joinRows next node rows joining) (fun _ => True) (fun _ last => Owes rest last.1.1)
      ((stage, below), job) := by
  induction rows generalizing stage below job joining with
  | nil =>
    rw [bytesOf, List.map_nil, List.sum_nil, Nat.zero_add] at owes
    exact .pure owes
  | cons row others ih =>
    rw [bytesOf_cons, Nat.add_assoc] at owes
    exact (joinRow_frees next node joining owes).bind fun joining _ owes => ih joining owes

private theorem fetchBatch_frees (services : Services σ) (next : Receiver σ δ) {batch : FetchBatch}
    (flow : Flow) (owes : Owes (bytesOf batch.rows + rest) stage) :
    Runs (fetchBatch services next batch flow) (fun _ => True) (fun _ last => Owes rest last.1.1)
      ((stage, below), job) := by
  refine .own_bind (.job_bind (.modifyJob_bind ?_))
  cases (services.fetch (batch.request stage.columns) job.node.services).1 with
  | error error => exact .aboveState_bind (.pure (owes.refuse batch.node error _))
  | ok response =>
    exact (joinRows_frees next batch.node _ owes).bind fun _ _ owes => .modifyJob_bind (.pure owes)

private theorem fetchAll_frees (services : Services σ) (next : Receiver σ δ) {fuel : Nat}
    {batches : List FetchBatch} (flow : Flow) (enough : batches.length ≤ fuel)
    (owes : Owes (batches.map fun batch => bytesOf batch.rows).sum stage) :
    Runs (fetchAll services next fuel batches flow) (fun _ => True) (fun _ last => Owes 0 last.1.1)
      ((stage, below), job) := by
  induction fuel generalizing batches flow stage below job with
  | zero =>
    obtain rfl := List.length_eq_zero_iff.mp (Nat.le_zero.mp enough)
    exact .pure owes
  | succ fuel ih =>
    refine .own_bind (.job_bind ?_)
    dsimp only
    split
    next none_ =>
      have past := List.getElem?_eq_none_iff.mp none_
      unfold nextBatch at past
      dsimp only at past
      split at past
      · omega
      · obtain rfl := List.length_eq_zero_iff.mp (Nat.le_zero.mp past)
        exact .pure owes
    next batch found =>
      obtain ⟨inside, rfl⟩ := List.getElem?_eq_some_iff.mp found
      have all := ((List.getElem_cons_eraseIdx_perm inside).map
        fun batch => bytesOf batch.rows).sum_eq
      rw [List.map_cons, List.sum_cons] at all
      rw [← all] at owes
      have fewer := List.length_eraseIdx_of_lt inside
      exact (fetchBatch_frees services next flow owes).bind fun flow _ owes =>
        ih flow (by omega) owes

private theorem sum_add (row : FetchRow) (batches : List FetchBatch) :
    ((FetchBatch.add row batches).map fun batch => bytesOf batch.rows).sum =
      (batches.map fun batch => bytesOf batch.rows).sum + row.bytes := by
  induction batches with
  | nil => simp [FetchBatch.add, bytesOf]
  | cons batch others ih =>
    unfold FetchBatch.add
    split
    · simp only [bytesOf, List.map_cons, List.map_append, List.map_nil, List.sum_cons,
        List.sum_append, List.sum_nil]
      omega
    · simp only [List.map_cons, List.sum_cons, ih]
      omega

/-- Rows that are sorted into batches are all there. -/
theorem sum_ofRows (rows : List FetchRow) :
    ((FetchBatch.ofRows rows).map fun batch => bytesOf batch.rows).sum = bytesOf rows := by
  induction rows using List.reverseRecOn with
  | nil => rfl
  | append_singleton rows row ih =>
    rw [FetchBatch.ofRows_concat, sum_add, ih]
    simp [bytesOf]

private theorem flush_frees (services : Services σ) (next : Receiver σ δ) (was : stage.Exact) :
    Runs (flush services next) (fun _ => True) (fun _ last => Owes 0 last.1.1)
      ((stage, below), job) := by
  have waiting : bytesOf stage.newest.reverse = stage.held :=
    ((List.reverse_perm stage.newest).map FetchRow.bytes).sum_eq
  have owes : Owes ((FetchBatch.ofRows stage.newest.reverse).map fun batch => bytesOf batch.rows).sum
      { stage with newest := [] } :=
    ⟨rfl, was.trans (by rw [sum_ofRows, waiting])⟩
  refine .own_bind (.setOwn_bind (.modifyJob_bind ?_))
  dsimp only
  split
  · refine .bind (.below (Runs.unconditional _) _) fun _ last ⟨same, _⟩ => ?_
    obtain ⟨⟨stage', below'⟩, job'⟩ := last
    obtain rfl := same
    exact fetchAll_frees services next .more (Nat.le_refl _) owes
  · exact fetchAll_frees services next .more (Nat.le_refl _) owes

/-- A stage that ends well has nothing charged for rows any more. -/
theorem finish_frees (services : Services σ) (next : Receiver σ δ) (was : stage.Exact)
    (done : (finish services next ((stage, below), job)).1.isOk = true) :
    Owes 0 (finish services next ((stage, below), job)).2.1.1 := by
  have ended : Runs (finish services next) (fun _ => True) (fun _ last => Owes 0 last.1.1)
      ((stage, below), job) :=
    (flush_frees services next was).bind fun _ last owes =>
      (Runs.below (Runs.unconditional _) _).weaken fun _ _ ⟨same, _⟩ => same ▸ owes
  rcases run : finish services next ((stage, below), job) with ⟨error | _, last⟩
  · rw [run] at done
    cases done
  · exact ended.ok run

theorem Owes.exact (owes : Owes 0 stage) : stage.Exact := by
  rw [Exact, owes.charged, held, owes.emptied]
  rfl

private theorem keep_apply (asked : FetchRow) (stage : FetchStage) (job : Job σ) :
    keep asked (stage, job) =
      match Job.charge stage.share asked.bytes job with
      | (.ok share, job) =>
        (.ok (), ({ stage with share := share, newest := asked :: stage.newest }, job))
      | (.error error, job) => (.error error, (stage, job)) := by
  rw [keep, Turn.own_bind, onJob_bind]
  rcases Job.charge stage.share asked.bytes job with ⟨_ | share, job'⟩ <;> rfl

/-- Whether a row is kept and fills the batch, so that the rows that wait are fetched for. -/
def fills (row : Row) (stage : FetchStage) (job : Job σ) : Bool :=
  match stage.triage row with
  | some (.ok asked) =>
    (Job.charge stage.share asked.bytes job).1.isOk && decide (stage.size ≤ stage.newest.length + 1)
  | _ => false

/-- A row that does not wait leaves the stage as it is. -/
theorem takeRow_passed (services : Services σ) (next : Receiver σ δ) {row : Row}
    (passed : ∀ asked, stage.triage row ≠ some (.ok asked)) :
    (takeRow services next row ((stage, below), job)).2.1.1 = stage := by
  unfold takeRow
  simp only [Turn.own_bind]
  rcases read : stage.readId row with _ | _ | id
  · rfl
  · rfl
  · rw [evaluated_ok, pure_bind]
    cases place : stage.nodeOf (FetchId.reader id) with
    | none => simp only [place]; rfl
    | some node => exact absurd (by simp only [triage, read, place]) (passed ⟨node, id, row⟩)

private theorem takeRow_kept (services : Services σ) (next : Receiver σ δ) {row : Row} {asked : FetchRow}
    (waits : stage.triage row = some (.ok asked)) :
    takeRow services next row ((stage, below), job) =
      match Job.charge stage.share asked.bytes job with
      | (.error error, job) => (.error error, ((stage, below), job))
      | (.ok share, job) =>
        let kept := { stage with share := share, newest := asked :: stage.newest }
        if stage.size ≤ stage.newest.length + 1 then flush services next ((kept, below), job)
        else (.ok .more, ((kept, below), job)) := by
  unfold triage at waits
  rcases read : stage.readId row with _ | _ | id <;> rw [read] at waits
  · cases waits
  · cases waits
  cases place : stage.nodeOf (FetchId.reader id) with
  | none =>
    simp only [place] at waits
    cases waits
  | some node =>
    simp only [place] at waits
    cases waits
    unfold takeRow
    simp only [Turn.own_bind, read, evaluated_ok, pure_bind, place]
    have kept := keep_apply ⟨node, id, row⟩ stage job
    rcases charged : Job.charge stage.share _ job with ⟨error | share, job'⟩ <;>
      rw [charged] at kept
    · exact bind_of_error (by simp only [Turn.above, kept])
    · let after : FetchStage := { stage with share := share, newest := ⟨node, id, row⟩ :: stage.newest }
      have above : (Turn.above (keep ⟨node, id, row⟩) : Turn σ (FetchStage × δ) Unit)
          ((stage, below), job) = (.ok (), ((after, below), job')) := by
        simp only [Turn.above, kept, after]
      rw [bind_of_ok above, Turn.own_bind]
      dsimp only [after]
      rw [List.length_cons]
      split <;> rfl

/-- Unless a batch could not be fetched, a row leaves the stage with what it holds. -/
theorem takeRow_exact (finite : limit < MemoryAccount.unlimited) (services : Services σ)
    (next : Receiver σ δ) (row : Row) (tells : job.Tells limit (others + stage.charged))
    (was : stage.Exact)
    (fetched : (takeRow services next row ((stage, below), job)).1.isOk = true ∨
      stage.fills row job = false) :
    (takeRow services next row ((stage, below), job)).2.1.1.Exact := by
  by_cases waits : ∃ asked, stage.triage row = some (.ok asked)
  · obtain ⟨asked, waits⟩ := waits
    rw [takeRow_kept services next waits] at fetched ⊢
    rcases granted : Job.charge stage.share asked.bytes job with ⟨error | share, job'⟩
    · exact was
    obtain rfl := tells.share_of_charge finite granted
    have kept : Exact { stage with
        share := ⟨stage.share.charged + asked.bytes⟩, newest := asked :: stage.newest } := by
      simp only [Exact, charged, held, List.map_cons, List.sum_cons] at was ⊢
      omega
    simp only [granted] at fetched ⊢
    split at fetched
    next full =>
      rw [if_pos full]
      rcases run : flush services next _ with ⟨error | flow, last⟩
      · have filled : stage.fills row job = true := by
          simp [fills, waits, granted, full, Except.isOk, Except.toBool]
        simp [run, filled, Except.isOk, Except.toBool] at fetched
      · exact ((flush_frees services next kept).ok run).exact
    next few =>
      rw [if_neg few]
      exact kept
  · rw [takeRow_passed services next fun asked same => waits ⟨asked, same⟩]
    exact was

end FetchStage

end RowPipeline
