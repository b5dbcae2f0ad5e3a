import Mathlib.Data.List.Induction
import RowPipeline.Cluster.Simulation
import RowPipeline.Proofs.DictionaryLaws
import RowPipeline.Stage.Fetching

/-!
What becomes of rows that wait together for their documents. The cells of a document go to the first
row of a batch that asks for it; a later row of the same batch with the same fetch id finds nothing.
-/

namespace RowPipeline

/-- What a cluster in memory has to fetch: its documents, and the nodes that do not answer. -/
structure Archive where
  documents : Dictionary Nat Fields
  failing : List NodeName

def LocalCluster.archive (cluster : LocalCluster) : Archive :=
  ⟨cluster.fetchDocuments, cluster.failingFetchNodes⟩

/-- The columns of a document; a column that it lacks is null. -/
def Archive.cells? (archive : Archive) (columns : List String) (id : Nat) : Option Row :=
  (archive.documents.get? id).map fun fields =>
    columns.map fun column => (fields.get? column).getD .null

theorem Archive.length_of_cells? {archive : Archive} {columns : List String} {id : Nat} {cells : Row}
    (found : archive.cells? columns id = some cells) : cells.length = columns.length := by
  obtain ⟨fields, _, rfl⟩ := Option.map_eq_some_iff.mp found
  simp

/-! ### The rows of a batch -/

/-- The answer to a request. -/
def Archive.answer (archive : Archive) (request : FetchRequest) :
    Except ExecutionError FetchResponse :=
  if archive.failing.contains request.node then
    .error (.transport (.nodeUnavailable request.node))
  else
    .ok (Dictionary.ofList (request.ids.filterMap fun id =>
      (archive.cells? request.columns id).map fun cells => (id, cells)))

/-- What is left of a response once rows with the given ids took their cells. -/
def FetchResponse.Leaves (response : FetchResponse) (archive : Archive) (columns : List String)
    (asked taken : List Nat) : Prop :=
  ∀ id ∈ asked, response.get? id = if id ∈ taken then none else archive.cells? columns id

namespace FetchResponse.Leaves

variable {archive : Archive} {columns : List String} {response : FetchResponse}
variable {asked taken : List Nat} {id : Nat}

/-- The response of a node that answers has the cells of every document that was asked for and is
there. -/
theorem of_answer {request : FetchRequest} (answers : archive.failing.contains request.node = false) :
    ∃ response, archive.answer request = .ok response ∧
      Leaves response archive request.columns request.ids [] := by
  refine ⟨_, if_neg (ne_true_of_eq_false answers), fun id member => ?_⟩
  rw [if_neg List.not_mem_nil]
  cases found : archive.cells? request.columns id with
  | none =>
    refine Dictionary.get?_extend_of_forall_ne [] fun entry listed same => ?_
    obtain ⟨other, -, own⟩ := List.mem_filterMap.mp listed
    obtain ⟨cells, there, rfl⟩ := Option.map_eq_some_iff.mp own
    rw [same] at found
    exact Option.some_ne_none cells (there.symm.trans found)
  | some cells =>
    refine Dictionary.get?_extend_of_agree [] (List.mem_filterMap.mpr ⟨id, member, by simp [found]⟩)
      fun others listed => ?_
    obtain ⟨other, -, own⟩ := List.mem_filterMap.mp listed
    obtain ⟨_, there, same⟩ := Option.map_eq_some_iff.mp own
    obtain ⟨rfl, rfl⟩ := Prod.mk.inj same
    exact Option.some.inj (there.symm.trans found)

/-- A row that finds nothing leaves nothing for the rows after it. -/
theorem missed (leaves : response.Leaves archive columns asked taken)
    (missing : response.get? id = none) :
    response.Leaves archive columns asked (taken ++ [id]) := by
  intro other member
  by_cases own : other = id
  · simp [own, missing]
  · simp [leaves other member, own]

theorem erase (leaves : response.Leaves archive columns asked taken) :
    Leaves (Dictionary.erase id response) archive columns asked (taken ++ [id]) := by
  intro other member
  by_cases own : other = id
  · simp [Dictionary.get?_erase, own]
  · simp [Dictionary.get?_erase, leaves other member, own]

theorem length (leaves : response.Leaves archive columns asked taken) (wanted : id ∈ asked)
    {cells : Row} (found : response.get? id = some cells) : cells.length = columns.length := by
  rw [leaves id wanted] at found
  split at found
  · cases found
  · exact Archive.length_of_cells? found

end FetchResponse.Leaves

/-- Services that fetch from an archive in the states of which `holds` is true; serving a request
does not end that. -/
structure Services.FetchFrom {σ : Type} (services : Services σ) (archive : Archive)
    (holds : σ → Prop) : Prop where
  answers : ∀ request state, holds state → (services.fetch request state).1 = archive.answer request
  fetch : ∀ request state, holds state → holds (services.fetch request state).2
  accept : ∀ node state, holds state → holds (services.accept node state)

/-- A cluster in memory that has an archive, and no fault of its own in what it answers. -/
structure Simulation.Has (archive : Archive) (simulation : Simulation) : Prop where
  archive : simulation.cluster.archive = archive
  faultless : simulation.faults.fetchedRow = none

private theorem LocalCluster.fetchOne?_eq (cluster : LocalCluster) (columns : List String) (id : Nat) :
    cluster.fetchOne? columns id =
      (cluster.archive.cells? columns id).map fun cells => (id, cells) := by
  simp only [fetchOne?, Archive.cells?, Option.map_map]
  rfl

private theorem LocalCluster.executeFetch_archive (cluster : LocalCluster) (request : FetchRequest) :
    (cluster.executeFetch request).1 = cluster.archive.answer request ∧
      (cluster.executeFetch request).2.archive = cluster.archive := by
  have served : (cluster.serve request.node).archive = cluster.archive := by
    unfold serve
    split <;> rfl
  rw [← served]
  refine ⟨?_, rfl⟩
  simp only [executeFetch, Archive.answer, ← fetchOne?_eq]
  rfl

/-- The services of a cluster in memory, with fetch requests answered in any order. -/
def Simulation.fetchingIn (nextFetch : List FetchRequest → Simulation → Nat) : Services Simulation :=
  { services with nextFetch := nextFetch }

theorem Simulation.fetchFrom (nextFetch : List FetchRequest → Simulation → Nat) (archive : Archive) :
    (fetchingIn nextFetch).FetchFrom archive (Has archive) where
  answers := by
    rintro request simulation ⟨rfl, faultless⟩
    simpa only [fetchingIn, services, fetch, faultless] using (simulation.cluster.executeFetch_archive request).1
  fetch := by
    rintro request simulation ⟨rfl, faultless⟩
    exact ⟨(simulation.cluster.executeFetch_archive request).2, faultless⟩
  accept := by
    rintro node simulation ⟨rfl, faultless⟩
    refine ⟨?_, faultless⟩
    simp only [fetchingIn, services, accept, LocalCluster.accept]
    split <;> rfl

section Outcomes

variable (archive : Archive) (columns : List String)

namespace FetchRow

/-- What becomes of a row, after rows of the same batch with the given ids. -/
def outcome (earlier : List Nat) (row : FetchRow) : Except FetchFault Row :=
  if archive.failing.contains row.node then
    .error (.request row.id row.node (.transport (.nodeUnavailable row.node)))
  else if row.id ∈ earlier then .error (.missing row.id row.node)
  else
    match archive.cells? columns row.id with
    | some cells => .ok (row.cells ++ cells)
    | none => .error (.missing row.id row.node)

/-- What becomes of rows of one batch, after rows with the given ids. -/
def outcomes : List Nat → List FetchRow → List (Except FetchFault Row)
  | _, [] => []
  | earlier, row :: rest =>
    row.outcome archive columns earlier :: outcomes (earlier ++ [row.id]) rest

theorem outcome_congr {earlier earlier' : List Nat} {row : FetchRow}
    (same : row.id ∈ earlier ↔ row.id ∈ earlier') :
    row.outcome archive columns earlier = row.outcome archive columns earlier' := by
  simp only [outcome, same]

private theorem outcomes_concat (earlier : List Nat) (rows : List FetchRow) (row : FetchRow) :
    outcomes archive columns earlier (rows ++ [row]) =
      outcomes archive columns earlier rows ++
        [row.outcome archive columns (earlier ++ rows.map FetchRow.id)] := by
  induction rows generalizing earlier with
  | nil => simp [outcomes]
  | cons first rest ih => simp [outcomes, ih]

theorem length_outcomes (earlier : List Nat) (rows : List FetchRow) :
    (outcomes archive columns earlier rows).length = rows.length := by
  induction rows generalizing earlier with
  | nil => rfl
  | cons row rest ih => simp [outcomes, ih]

theorem outcomes_of_nodup {earlier : List Nat} {rows : List FetchRow}
    (distinct : (earlier ++ rows.map FetchRow.id).Nodup) :
    outcomes archive columns earlier rows = rows.map (FetchRow.outcome archive columns []) := by
  induction rows generalizing earlier with
  | nil => rfl
  | cons row rest ih =>
    have fresh : row.id ∉ earlier := by
      intro member
      exact (List.nodup_append.mp distinct).2.2 _ member _ List.mem_cons_self rfl
    rw [outcomes, List.map_cons, ih (by simpa using distinct),
      outcome_congr archive columns (iff_of_false fresh List.not_mem_nil)]

theorem outcome_of_leaves {response : FetchResponse} {asked taken : List Nat} {row : FetchRow}
    (leaves : response.Leaves archive columns asked taken) (wanted : row.id ∈ asked)
    (answers : archive.failing.contains row.node = false) :
    row.outcome archive columns taken =
      match response.get? row.id with
      | some cells => .ok (row.cells ++ cells)
      | none => .error (.missing row.id row.node) := by
  rw [leaves row.id wanted, outcome, answers]
  by_cases early : row.id ∈ taken <;> simp [early]

theorem outcomes_of_failing {node : NodeName} (fails : archive.failing.contains node = true)
    {rows : List FetchRow} (own : ∀ row ∈ rows, row.node = node) (earlier : List Nat) :
    outcomes archive columns earlier rows =
      rows.map fun row => .error (.request row.id node (.transport (.nodeUnavailable node))) := by
  induction rows generalizing earlier with
  | nil => rfl
  | cons row rest ih =>
    obtain rfl := own row List.mem_cons_self
    rw [outcomes, ih fun row member => own row (.tail _ member), outcome, if_pos fails, List.map_cons]

end FetchRow

/-! ### Rounds of rows -/

namespace FetchRow

/-- The rows that are fetched for together, if so many of them wait for each other. -/
def rounds (size : Nat) (rows : List FetchRow) : List (List FetchRow) :=
  if size = 0 ∨ rows = [] then [] else rows.take size :: rounds size (rows.drop size)
termination_by rows.length
decreasing_by
  rename_i more
  obtain ⟨some_, rows⟩ := not_or.mp more
  have := List.length_pos_iff.mpr rows
  simp only [List.length_drop]
  omega

omit archive columns

theorem rounds_append {size : Nat} (wait : 0 < size) {full : List (List FetchRow)}
    (fits : ∀ round ∈ full, round.length = size) (rest : List FetchRow) :
    rounds size (full.flatten ++ rest) = full ++ rounds size rest := by
  induction full with
  | nil => rfl
  | cons round others ih =>
    have length := fits round List.mem_cons_self
    have more : ¬ (size = 0 ∨ (round :: others).flatten ++ rest = []) := by
      rintro (none | empty)
      · omega
      · have := congrArg List.length empty
        simp [length] at this
        omega
    rw [rounds, if_neg more, List.flatten_cons, List.append_assoc, List.take_left' length,
      List.drop_left' length, ih fun round member => fits round (.tail _ member), List.cons_append]

theorem rounds_of_short {size : Nat} {rows : List FetchRow} (some_ : rows ≠ [])
    (short : rows.length < size) : rounds size rows = [rows] := by
  have more : ¬ (size = 0 ∨ rows = []) := by
    rintro (none | empty)
    · omega
    · exact some_ empty
  rw [rounds, if_neg more, List.take_of_length_le (Nat.le_of_lt short),
    List.drop_of_length_le (Nat.le_of_lt short), rounds, if_pos (.inr rfl)]

theorem flatten_rounds {size : Nat} (wait : 0 < size) (rows : List FetchRow) :
    (rounds size rows).flatten = rows := by
  fun_induction rounds size rows with
  | case1 rows ended =>
    obtain rfl := ended.resolve_left (by omega)
    rfl
  | case2 rows more ih => rw [List.flatten_cons, ih, List.take_append_drop]

end FetchRow

/-! ### The rows of the nodes -/

namespace FetchBatch

def outcomes (batch : FetchBatch) : List (Except FetchFault Row) :=
  FetchRow.outcomes archive columns [] batch.rows

/-- The rows that wait for a node. -/
def rowsFor (node : NodeName) : List FetchBatch → List FetchRow
  | [] => []
  | batch :: rest => if batch.node == node then batch.rows else rowsFor node rest

omit archive columns in
private theorem rowsFor_add (row : FetchRow) (node : NodeName) (batches : List FetchBatch) :
    rowsFor node (add row batches) = rowsFor node batches ++ [row].filter (·.node == node) := by
  induction batches with
  | nil => by_cases asked : row.node = node <;> simp [add, rowsFor, asked]
  | cons batch rest ih =>
    by_cases own : batch.node = row.node
    · by_cases asked : row.node = node <;> simp [add, rowsFor, own, asked]
    · by_cases asked : batch.node = node
      · subst asked
        simp [add, rowsFor, own, Ne.symm own]
      · simp [add, rowsFor, own, asked, ih]

omit archive columns in
theorem ofRows_concat (rows : List FetchRow) (row : FetchRow) :
    ofRows (rows ++ [row]) = add row (ofRows rows) := by
  simp [ofRows]

omit archive columns in
theorem rowsFor_ofRows (node : NodeName) (rows : List FetchRow) :
    rowsFor node (ofRows rows) = rows.filter (·.node == node) := by
  induction rows using List.reverseRecOn with
  | nil => rfl
  | append_singleton rows row ih => rw [ofRows_concat, rowsFor_add, ih, List.filter_append]

omit archive columns in
private theorem node_of_mem_add {row other : FetchRow} {batches : List FetchBatch}
    (alike : ∀ batch ∈ batches, ∀ row ∈ batch.rows, row.node = batch.node) :
    ∀ batch ∈ add other batches, row ∈ batch.rows → row.node = batch.node := by
  induction batches with
  | nil => simp +contextual [add]
  | cons first rest ih =>
    by_cases own : first.node = other.node
    · simp only [add, own, beq_self_eq_true, if_true, List.forall_mem_cons, List.mem_append,
        List.mem_singleton]
      refine ⟨?_, fun batch member => alike batch (.tail _ member) row⟩
      rintro (member | rfl)
      · exact (alike first (.head _) row member).trans own
      · rfl
    · have different : (first.node == other.node) = false := by simpa using own
      simp only [add, different, Bool.false_eq_true, if_false, List.forall_mem_cons]
      exact ⟨alike first (.head _) row, ih fun batch member => alike batch (.tail _ member)⟩

omit archive columns in
theorem node_of_mem_ofRows {rows : List FetchRow} :
    ∀ batch ∈ ofRows rows, ∀ row ∈ batch.rows, row.node = batch.node := by
  induction rows using List.reverseRecOn with
  | nil => simp [ofRows]
  | append_singleton rows row ih =>
    rw [ofRows_concat]
    exact fun batch member row => node_of_mem_add ih batch member

/-- A row that joins its batch gets what it would get without the batches of other nodes. -/
theorem outcomes_add {row : FetchRow} {batches : List FetchBatch} {ids : List Nat}
    (own : row.id ∈ (rowsFor row.node batches).map FetchRow.id ↔ row.id ∈ ids) :
    ((add row batches).flatMap (outcomes archive columns)).Perm
      (batches.flatMap (outcomes archive columns) ++ [row.outcome archive columns ids]) := by
  induction batches with
  | nil =>
    have alone := FetchRow.outcome_congr archive columns own
    simp only [rowsFor, List.map_nil] at alone
    simp [add, outcomes, FetchRow.outcomes, alone]
  | cons batch rest ih =>
    by_cases same : batch.node = row.node
    · have alike : row.outcome archive columns (batch.rows.map FetchRow.id) =
          row.outcome archive columns ids :=
        FetchRow.outcome_congr archive columns (by simpa [rowsFor, same] using own)
      simp only [add, same, beq_self_eq_true, if_true, List.flatMap_cons, outcomes,
        FetchRow.outcomes_concat, List.nil_append, alike, List.append_assoc]
      exact List.perm_append_comm.append_left _
    · have other : (batch.node == row.node) = false := by simpa using same
      simp only [add, other, Bool.false_eq_true, if_false, List.flatMap_cons, List.append_assoc]
      exact (ih (by simpa [rowsFor, other] using own)).append_left _

/-- Where a fetch id tells its node, it does not matter which batch a row waits in. -/
theorem outcomes_ofRows {rows : List FetchRow}
    (alike : ∀ row ∈ rows, ∀ other ∈ rows, row.id = other.id → row.node = other.node) :
    ((ofRows rows).flatMap (outcomes archive columns)).Perm
      (FetchRow.outcomes archive columns [] rows) := by
  induction rows using List.reverseRecOn with
  | nil => rfl
  | append_singleton rows row ih =>
    have own : row.id ∈ (rowsFor row.node (ofRows rows)).map FetchRow.id ↔
        row.id ∈ rows.map FetchRow.id := by
      simp only [rowsFor_ofRows, List.mem_map, List.mem_filter, beq_iff_eq]
      constructor
      · rintro ⟨other, ⟨member, -⟩, same⟩
        exact ⟨other, member, same⟩
      · rintro ⟨other, member, same⟩
        exact ⟨other, ⟨member, alike other (by simp [member]) row (by simp) same⟩, same⟩
    have earlier := ih fun row member other member' =>
      alike row (List.mem_append_left _ member) other (List.mem_append_left _ member')
    rw [ofRows_concat, FetchRow.outcomes_concat, List.nil_append]
    exact (outcomes_add archive columns own).trans (earlier.append_right _)

end FetchBatch

end Outcomes

end RowPipeline
