import RowPipeline.Proofs.FetchedRows

/-!
Rows that are fetched for over any transport. Whatever is answered, and in whichever order, every row
that is taken comes to one result, and one request asks for its document.
-/

namespace RowPipeline

open Turn

variable {σ δ : Type}

/-! ### A transport and its exchanges -/

/-- A request and the answer to it. -/
structure Fetched where
  request : FetchRequest
  answer : Except ExecutionError FetchResponse

/-- The same services, which remember what was fetched. -/
def Services.remembering (services : Services σ) : Services (σ × List Fetched) where
  localNode := services.localNode
  resolve state := services.resolve state.1
  nodeForShard state := services.nodeForShard state.1
  indexExists state := services.indexExists state.1
  createIndex index state :=
    let (answer, state') := services.createIndex index state.1
    (answer, (state', state.2))
  accept node state := (services.accept node state.1, state.2)
  bulk node timeout request state :=
    let (answer, state') := services.bulk node timeout request state.1
    (answer, (state', state.2))
  fetch request state :=
    let (answer, state') := services.fetch request state.1
    (answer, (state', state.2 ++ [⟨request, answer⟩]))
  nextArrival pause timeout inFlight state := services.nextArrival pause timeout inFlight state.1
  nextFetch requests state := services.nextFetch requests state.1
  hasTable state := services.hasTable state.1
  updateRow relation key assignments state :=
    let (found, state') := services.updateRow relation key assignments state.1
    (found, (state', state.2))

/-- The states in which so much was fetched. -/
def Remembers (exchanges : List Fetched) (state : σ × List Fetched) : Prop := state.2 = exchanges

/-! ### What a row comes to -/

namespace FetchRow

/-- What an exchange makes of a row whose document it asks for. -/
inductive Settled (columns : List String) (exchange : Fetched) (row : FetchRow) :
    Except FetchFault Row → Prop
  | refused (error : ExecutionError) (failed : exchange.answer = .error error) :
    Settled columns exchange row (.error (.request row.id row.node error))
  /-- The document is not in the response, or it was asked for more than once. -/
  | missing (response : FetchResponse) (answered : exchange.answer = .ok response)
      (lost : response.get? row.id = none ∨ 1 < exchange.request.ids.count row.id) :
    Settled columns exchange row (.error (.missing row.id row.node))
  | misshapen (response : FetchResponse) (values : Row) (answered : exchange.answer = .ok response)
      (found : response.get? row.id = some values) (unfit : values.length ≠ columns.length) :
    Settled columns exchange row (.error (.width row.id row.node values.length columns.length))
  | joined (response : FetchResponse) (values : Row) (answered : exchange.answer = .ok response)
      (found : response.get? row.id = some values) (fits : values.length = columns.length) :
    Settled columns exchange row (.ok (row.cells ++ values))

/-- A row comes to what one of several exchanges makes of it, which asked the node of the row. -/
def SettledIn (columns : List String) (exchanges : List Fetched) (row : FetchRow)
    (result : Except FetchFault Row) : Prop :=
  ∃ exchange ∈ exchanges, exchange.request.node = row.node ∧ row.id ∈ exchange.request.ids ∧
    row.Settled columns exchange result

theorem SettledIn.mono {columns : List String} {exchanges more : List Fetched} {row : FetchRow}
    {result : Except FetchFault Row} (settled : row.SettledIn columns exchanges result)
    (kept : exchanges ⊆ more) : row.SettledIn columns more result := by
  obtain ⟨exchange, member, settled⟩ := settled
  exact ⟨exchange, kept member, settled⟩

/-- What a response makes of a row, after rows of its request with the given ids. -/
def settle (columns : List String) (response : FetchResponse) (earlier : List Nat) (row : FetchRow) :
    Except FetchFault Row :=
  match if row.id ∈ earlier then none else response.get? row.id with
  | none => .error (.missing row.id row.node)
  | some values =>
    if values.length = columns.length then .ok (row.cells ++ values)
    else .error (.width row.id row.node values.length columns.length)

def settleAll (columns : List String) (response : FetchResponse) :
    List Nat → List FetchRow → List (FetchRow × Except FetchFault Row)
  | _, [] => []
  | earlier, row :: rest =>
    (row, row.settle columns response earlier) ::
      settleAll columns response (earlier ++ [row.id]) rest

private theorem map_settleAll (columns : List String) (response : FetchResponse) (earlier : List Nat)
    (rows : List FetchRow) : (settleAll columns response earlier rows).map (·.1) = rows := by
  induction rows generalizing earlier with
  | nil => rfl
  | cons row rest ih => rw [settleAll, List.map_cons, ih]

private theorem settled_of_mem_settleAll {columns : List String} {exchange : Fetched}
    {response : FetchResponse} (answered : exchange.answer = .ok response) {earlier : List Nat}
    {rows : List FetchRow} (asked : exchange.request.ids = earlier ++ rows.map FetchRow.id) :
    ∀ pair ∈ settleAll columns response earlier rows, pair.1.Settled columns exchange pair.2 := by
  induction rows generalizing earlier with
  | nil => nofun
  | cons row rest ih =>
    intro pair member
    rcases List.mem_cons.mp member with rfl | later
    · dsimp only
      unfold settle
      by_cases early : row.id ∈ earlier
      · rw [if_pos early]
        refine .missing response answered (.inr ?_)
        have twice := List.count_pos_iff.mpr early
        simp only [asked, List.map_cons, List.count_append, List.count_cons_self]
        omega
      · rw [if_neg early]
        cases found : response.get? row.id with
        | none => exact .missing response answered (.inl found)
        | some values =>
          dsimp only
          split
          next fits => exact .joined response values answered found fits
          next unfit => exact .misshapen response values answered found unfit
    · exact ih (by simpa using asked) pair later

end FetchRow

/-! ### The batches of rows -/

namespace FetchBatch

private theorem map_node_add (row : FetchRow) (batches : List FetchBatch) :
    (add row batches).map (·.node) =
      if row.node ∈ batches.map (·.node) then batches.map (·.node)
      else batches.map (·.node) ++ [row.node] := by
  induction batches with
  | nil => rfl
  | cons batch rest ih =>
    unfold add
    by_cases same : batch.node = row.node
    · simp [same]
    · have other : row.node ≠ batch.node := fun equal => same equal.symm
      simp only [beq_iff_eq, same, if_false, List.map_cons, ih, List.mem_cons, other, false_or]
      split <;> rfl

private theorem nodup_ofRows (rows : List FetchRow) : ((ofRows rows).map (·.node)).Nodup := by
  induction rows using List.reverseRecOn with
  | nil => exact List.nodup_nil
  | append_singleton rows row ih =>
    rw [ofRows_concat, map_node_add]
    split
    · exact ih
    next new =>
      exact (List.perm_append_singleton _ _).nodup_iff.mpr (List.nodup_cons.mpr ⟨new, ih⟩)

private theorem rowsFor_of_mem {batches : List FetchBatch} {batch : FetchBatch}
    (distinct : (batches.map (·.node)).Nodup) (member : batch ∈ batches) :
    rowsFor batch.node batches = batch.rows := by
  induction batches with
  | nil => cases member
  | cons first rest ih =>
    obtain ⟨absent, later⟩ := List.nodup_cons.mp distinct
    rcases List.mem_cons.mp member with rfl | there
    · simp [rowsFor]
    · have other : (first.node == batch.node) = false := by
        refine beq_eq_false_iff_ne.mpr fun same => absent ?_
        exact List.mem_map.mpr ⟨batch, there, same.symm⟩
      rw [rowsFor, other, if_neg Bool.false_ne_true, ih later there]

theorem rows_of_mem_ofRows {rows : List FetchRow} {batch : FetchBatch} (member : batch ∈ ofRows rows) :
    batch.rows = rows.filter (·.node == batch.node) := by
  rw [← rowsFor_of_mem (nodup_ofRows rows) member, rowsFor_ofRows]

private theorem flatMap_rows_add (row : FetchRow) (batches : List FetchBatch) :
    ((add row batches).flatMap (·.rows)).Perm (batches.flatMap (·.rows) ++ [row]) := by
  induction batches with
  | nil => exact .refl _
  | cons batch rest ih =>
    unfold add
    split
    · simp only [List.flatMap_cons, List.append_assoc]
      exact List.perm_append_comm.append_left _
    · simp only [List.flatMap_cons, List.append_assoc]
      exact ih.append_left _

private theorem rows_ne_nil_add {row : FetchRow} {batches : List FetchBatch}
    (some_ : ∀ batch ∈ batches, batch.rows ≠ []) : ∀ batch ∈ add row batches, batch.rows ≠ [] := by
  induction batches with
  | nil => simp [add]
  | cons first rest ih =>
    obtain ⟨here, later⟩ := List.forall_mem_cons.mp some_
    unfold add
    split
    · exact List.forall_mem_cons.mpr ⟨by simp, later⟩
    · exact List.forall_mem_cons.mpr ⟨here, ih later⟩

private theorem rows_ne_nil_ofRows (rows : List FetchRow) : ∀ batch ∈ ofRows rows, batch.rows ≠ [] := by
  induction rows using List.reverseRecOn with
  | nil => nofun
  | append_singleton rows row ih =>
    rw [ofRows_concat]
    exact rows_ne_nil_add ih

theorem flatMap_rows_ofRows (rows : List FetchRow) : ((ofRows rows).flatMap (·.rows)).Perm rows := by
  induction rows using List.reverseRecOn with
  | nil => exact .refl _
  | append_singleton rows row ih =>
    rw [ofRows_concat]
    exact (flatMap_rows_add row _).trans (ih.append_right _)

end FetchBatch

/-- Requests that together ask for the documents of rows that were waiting: one request to each node
that has some, with the fetch ids of its rows in their order. -/
structure FetchRow.Asked (columns : List String) (rows : List FetchRow) (exchanges : List Fetched) :
    Prop where
  nodes : (exchanges.map (·.request.node)).Nodup
  requests : ∀ exchange ∈ exchanges, exchange.request =
    ⟨exchange.request.node, columns,
      (rows.filter (·.node == exchange.request.node)).map FetchRow.id⟩
  some_ids : ∀ exchange ∈ exchanges, exchange.request.ids ≠ []
  places : (exchanges.flatMap fun exchange => exchange.request.ids.map (exchange.request.node, ·)).Perm
    (rows.map fun row => (row.node, row.id))

private theorem FetchRow.Asked.of_perm {columns : List String} {rows : List FetchRow}
    {exchanges : List Fetched} (requests : (exchanges.map (·.request)).Perm
      ((FetchBatch.ofRows rows).map (·.request columns))) :
    FetchRow.Asked columns rows exchanges where
  nodes := by
    have nodes := requests.map (·.node)
    rw [List.map_map, List.map_map] at nodes
    exact nodes.nodup_iff.mpr (FetchBatch.nodup_ofRows rows)
  requests := by
    intro exchange member
    obtain ⟨batch, there, same⟩ := List.mem_map.mp (requests.subset (List.mem_map_of_mem member))
    rw [← same, FetchBatch.request, FetchBatch.rows_of_mem_ofRows there]
  some_ids := by
    intro exchange member empty
    obtain ⟨batch, there, same⟩ := List.mem_map.mp (requests.subset (List.mem_map_of_mem member))
    rw [← same] at empty
    exact FetchBatch.rows_ne_nil_ofRows rows batch there (List.map_eq_nil_iff.mp empty)
  places := by
    have places := requests.flatMap_right fun request => request.ids.map (request.node, ·)
    rw [List.flatMap_map, List.flatMap_map] at places
    refine places.trans ?_
    have own : ((FetchBatch.ofRows rows).flatMap fun batch =>
        (batch.request columns).ids.map ((batch.request columns).node, ·)) =
          ((FetchBatch.ofRows rows).flatMap (·.rows)).map fun row => (row.node, row.id) := by
      rw [List.map_flatMap]
      refine List.flatMap_congr fun batch member => ?_
      rw [FetchBatch.request, List.map_map]
      exact List.map_congr_left fun row inside =>
        congrArg (·, row.id) (FetchBatch.node_of_mem_ofRows batch member row inside).symm
    rw [own]
    exact (FetchBatch.flatMap_rows_ofRows rows).map _

namespace FetchRow.Asked

variable {columns : List String} {rows : List FetchRow} {exchanges : List Fetched}

theorem eq_nil (asked : FetchRow.Asked columns [] exchanges) : exchanges = [] := by
  apply List.eq_nil_iff_forall_not_mem.mpr
  intro exchange member
  refine asked.some_ids exchange member ?_
  rw [asked.requests exchange member]
  rfl

private theorem length_ids_le (asked : FetchRow.Asked columns rows exchanges) :
    ∀ exchange ∈ exchanges, exchange.request.ids.length ≤ rows.length := by
  intro exchange member
  rw [asked.requests exchange member, List.length_map]
  exact List.length_filter_le ..

/-- Nothing is asked for where nothing waits, so the last round and its batch come and go together. -/
theorem last_round {size : Nat} (asked : FetchRow.Asked columns rows exchanges)
    (short : rows.length < size) : ∃ latest,
      List.Forall₂ (FetchRow.Asked columns) (FetchRow.rounds size rows) latest ∧
        latest.flatten = exchanges := by
  by_cases empty : rows = []
  · subst empty
    rw [FetchRow.rounds, if_pos (.inr rfl), asked.eq_nil]
    exact ⟨[], .nil, rfl⟩
  · rw [FetchRow.rounds_of_short empty short]
    exact ⟨[exchanges], .cons asked .nil, List.flatten_singleton⟩

end FetchRow.Asked

private theorem FetchRow.length_le_of_mem_rounds {size : Nat} {rows : List FetchRow} :
    ∀ round ∈ FetchRow.rounds size rows, round.length ≤ size := by
  fun_induction FetchRow.rounds size rows with
  | case1 => exact List.forall_mem_nil _
  | case2 rows more ih => exact List.forall_mem_cons.mpr ⟨List.length_take_le .., ih⟩

/-- What is left of a response once rows with the given ids took their cells. -/
def FetchResponse.Remains (left response : FetchResponse) (taken : List Nat) : Prop :=
  ∀ id, left.get? id = if id ∈ taken then none else response.get? id

namespace FetchResponse.Remains

variable {left response : FetchResponse} {taken : List Nat} {id : Nat}

theorem start (response : FetchResponse) : response.Remains response [] := by
  intro id
  rw [if_neg List.not_mem_nil]

theorem missed (remains : left.Remains response taken) (missing : left.get? id = none) :
    left.Remains response (taken ++ [id]) := by
  intro other
  by_cases own : other = id
  · simp [own, missing]
  · simp [remains other, own]

theorem erase (remains : left.Remains response taken) :
    Remains (Dictionary.erase id left) response (taken ++ [id]) := by
  intro other
  by_cases own : other = id
  · simp [Dictionary.get?_erase, own]
  · simp [Dictionary.get?_erase, remains other, own]

end FetchResponse.Remains

/-! ### Rows that are joined -/

namespace FetchStage

variable {gets : List Row → δ → Prop} {holds : σ → Prop} {failures : List RowFailure}
variable {stage : FetchStage} {outcomes : List (Except FetchFault Row)}
variable {next : Receiver σ δ} {response : FetchResponse} {earlier : List Nat}

/-- A row is joined with its cells if they are left and as many as the columns. -/
theorem joinRow_settles (patient : next.Patient gets holds) {row : FetchRow} {joining : Joining}
    {state : (FetchStage × δ) × Job σ} (told : Told gets holds failures stage outcomes state)
    (flowing : joining.flow = .more) (remains : joining.response.Remains response earlier) :
    Runs (joinRow next row.node row joining) (fun _ => False)
      (fun joining last => joining.flow = .more ∧
        joining.response.Remains response (earlier ++ [row.id]) ∧
        Told gets holds failures stage
          (outcomes ++ [row.settle stage.columns response earlier]) last) state := by
  obtain ⟨⟨own, below⟩, job⟩ := state
  have told := told.free row
  refine Runs.aboveState_bind ?_
  generalize free row (own, job) = freed at told ⊢
  obtain ⟨own, job⟩ := freed
  obtain ⟨share, rfl⟩ : ∃ share, own = { stage with share := share } := told.stage
  refine Runs.own_bind ?_
  unfold FetchRow.settle
  rw [← remains row.id]
  dsimp only
  cases found : joining.response.get? row.id with
  | none => exact Runs.modifyJob_bind (Runs.pure ⟨flowing, remains.missed found, told.record _⟩)
  | some cells =>
    by_cases fits : cells.length = stage.columns.length
    · have width : (cells.length != stage.columns.length) = false := by simp [fits]
      obtain ⟨below', job', took, emitted⟩ := told.emit patient (row.cells ++ cells)
      simp only [width, flowing]
      have pushed : Turn.below (next.takeRow (row.cells ++ cells))
          (({ stage with share := share }, below), job) =
            (.ok .more, (({ stage with share := share }, below'), job')) := by
        simp only [Turn.below, took]
      refine Runs.of_eq (bind_of_ok pushed) ?_
      rw [if_pos fits]
      exact ⟨rfl, remains.erase, emitted⟩
    · have width : (cells.length != stage.columns.length) = true := by simp [fits]
      simp only [width, if_true, if_neg fits]
      exact Runs.modifyJob_bind (Runs.pure ⟨flowing, remains.erase, told.record _⟩)

theorem joinRows_settle (patient : next.Patient gets holds) {node : NodeName} {rows : List FetchRow}
    {joining : Joining} {state : (FetchStage × δ) × Job σ}
    (told : Told gets holds failures stage outcomes state)
    (own : ∀ row ∈ rows, row.node = node) (flowing : joining.flow = .more)
    (remains : joining.response.Remains response earlier) :
    Runs (joinRows next node rows joining) (fun _ => False)
      (fun joining last => joining.flow = .more ∧
        Told gets holds failures stage
          (outcomes ++ (FetchRow.settleAll stage.columns response earlier rows).map (·.2)) last)
      state := by
  induction rows generalizing outcomes earlier joining state with
  | nil => exact Runs.pure ⟨flowing, by simpa [FetchRow.settleAll] using told⟩
  | cons row rest ih =>
    obtain rfl := own row List.mem_cons_self
    refine (joinRow_settles patient told flowing remains).bind ?_
    intro joining last ⟨flowing, remains, told⟩
    refine (ih told (fun row member => own row (.tail _ member)) flowing remains).weaken ?_
    intro joining last ⟨flowing, told⟩
    exact ⟨flowing, by simpa [FetchRow.settleAll] using told⟩

/-! ### Batches -/

variable {services : Services σ} {log : List Fetched}

/-- The rows of a batch are joined or recorded, whatever its node answers. -/
theorem fetchBatch_settles {next : Receiver (σ × List Fetched) δ}
    (patient : ∀ exchanges, next.Patient gets (Remembers exchanges)) {batch : FetchBatch}
    (own : ∀ row ∈ batch.rows, row.node = batch.node) {state : (FetchStage × δ) × Job (σ × List Fetched)}
    (told : Told gets (Remembers log) failures stage outcomes state) :
    Runs (fetchBatch services.remembering next batch .more) (fun _ => False)
      (fun flow last => flow = .more ∧
        ∃ (exchange : Fetched) (pairs : List (FetchRow × Except FetchFault Row)),
          exchange.request = batch.request stage.columns ∧ pairs.map (·.1) = batch.rows ∧
          (∀ pair ∈ pairs, pair.1.Settled stage.columns exchange pair.2) ∧
          Told gets (Remembers (log ++ [exchange])) failures stage (outcomes ++ pairs.map (·.2)) last)
      state := by
  obtain ⟨⟨stage', below⟩, job⟩ := state
  obtain ⟨share, rfl⟩ : ∃ share, stage' = { stage with share := share } := told.stage
  obtain ⟨answer, after, served⟩ : ∃ answer after,
      services.fetch (batch.request stage.columns) job.node.services.1 = (answer, after) :=
    ⟨_, _, rfl⟩
  let exchange : Fetched := ⟨batch.request stage.columns, answer⟩
  have remembered : services.remembering.fetch (batch.request stage.columns) job.node.services =
      (answer, (after, log ++ [exchange])) := by
    have held : job.node.services.2 = log := told.holds
    simp only [Services.remembering, served, held, exchange]
  have told : Told gets (Remembers (log ++ [exchange])) failures stage outcomes
      (({ stage with share := share }, below),
        (job.withServices (after, log ++ [exchange])).count fun metrics =>
          { metrics with fetchRequests := metrics.fetchRequests + 1 }) :=
    ⟨told.stage, told.emitted, told.recorded, rfl⟩
  refine Runs.own_bind (Runs.job_bind ?_)
  simp only [remembered]
  cases answer with
  | error error =>
    refine Runs.modifyJob_bind (Runs.aboveState_bind ?_)
    refine ⟨rfl, exchange,
      batch.rows.map fun row => (row, .error (.request row.id batch.node error)), rfl, ?_, ?_, ?_⟩
    · exact List.map_map.trans (List.map_id _)
    · intro pair member
      obtain ⟨row, there, rfl⟩ := List.mem_map.mp member
      exact own row there ▸ .refused error rfl
    · rw [List.map_map]
      exact told.refuse batch.node error batch.rows
  | ok response =>
    refine Runs.modifyJob_bind
      ((joinRows_settle (patient _) told own rfl (.start response)).bind ?_)
    intro joining ⟨⟨stage', below'⟩, job'⟩ ⟨flowing, told⟩
    refine Runs.modifyJob_bind (Runs.pure ⟨flowing, exchange,
      FetchRow.settleAll stage.columns response [] batch.rows, rfl, ?_, ?_, told.reportMissing _ _⟩)
    · exact FetchRow.map_settleAll ..
    · exact FetchRow.settled_of_mem_settleAll rfl rfl

private theorem fetchAll_settles {next : Receiver (σ × List Fetched) δ}
    (patient : ∀ exchanges, next.Patient gets (Remembers exchanges)) {fuel : Nat}
    {batches : List FetchBatch} (enough : batches.length = fuel)
    (own : ∀ batch ∈ batches, ∀ row ∈ batch.rows, row.node = batch.node)
    {state : (FetchStage × δ) × Job (σ × List Fetched)}
    (told : Told gets (Remembers log) failures stage outcomes state) :
    Runs (fetchAll services.remembering next fuel batches .more) (fun _ => False)
      (fun flow last => flow = .more ∧
        ∃ (exchanges : List Fetched) (pairs : List (FetchRow × Except FetchFault Row)),
          (exchanges.map (·.request)).Perm (batches.map (·.request stage.columns)) ∧
          (pairs.map (·.1)).Perm (batches.flatMap (·.rows)) ∧
          (∀ pair ∈ pairs, pair.1.SettledIn stage.columns exchanges pair.2) ∧
          Told gets (Remembers (log ++ exchanges)) failures stage (outcomes ++ pairs.map (·.2)) last)
      state := by
  induction fuel generalizing batches outcomes log state with
  | zero =>
    obtain rfl := List.eq_nil_of_length_eq_zero enough
    exact Runs.pure ⟨rfl, [], [], .nil, .nil, nofun, by simpa using told⟩
  | succ fuel ih =>
    refine Runs.own_bind (Runs.job_bind ?_)
    have place := nextBatch_lt services.remembering (List.ne_nil_of_length_eq_add_one enough)
      state.1.1 state.2
    dsimp only
    rw [List.getElem?_eq_getElem place]
    generalize nextBatch services.remembering state.1.1 batches state.2 = position at place ⊢
    have rows_own := own _ (List.getElem_mem place)
    refine (fetchBatch_settles patient rows_own told).bind ?_
    rintro _ last ⟨rfl, exchange, pairs, request, rows, settled, told⟩
    have shorter : (batches.eraseIdx position).length = fuel := by
      rw [List.length_eraseIdx_of_lt place, enough]
      rfl
    have others : ∀ batch ∈ batches.eraseIdx position, ∀ row ∈ batch.rows, row.node = batch.node :=
      fun batch member => own batch (List.mem_of_mem_eraseIdx member)
    have all := List.getElem_cons_eraseIdx_perm place
    refine (ih shorter others told).weaken ?_
    intro flow last ⟨flowing, exchanges, pairs', requests, rows', settled', told⟩
    refine ⟨flowing, exchange :: exchanges, pairs ++ pairs', ?_, ?_, ?_, ?_⟩
    · rw [List.map_cons, request]
      exact (requests.cons _).trans (all.map _)
    · rw [List.map_append, rows]
      exact (rows'.append_left _).trans (all.flatMap_right _)
    · intro pair member
      rcases List.mem_append.mp member with first | later
      · have asked : pair.1 ∈ batches[position].rows := rows ▸ List.mem_map_of_mem first
        refine ⟨exchange, .head _, ?_, ?_, settled pair first⟩
        · rw [request, rows_own pair.1 asked]
          rfl
        · rw [request]
          exact List.mem_map_of_mem asked
      · exact (settled' pair later).mono (List.subset_cons_self ..)
    · simpa using told

/-- The rows that waited were asked for in one batch, and came to a result each. -/
def Cleared (gets : List Row → δ → Prop) (failures : List RowFailure) (stage : FetchStage)
    (log : List Fetched) (outcomes : List (Except FetchFault Row)) (waiting : List FetchRow)
    (state : (FetchStage × δ) × Job (σ × List Fetched)) : Prop :=
  ∃ (exchanges : List Fetched) (pairs : List (FetchRow × Except FetchFault Row)),
    FetchRow.Asked stage.columns waiting exchanges ∧ (pairs.map (·.1)).Perm waiting ∧
    (∀ pair ∈ pairs, pair.1.SettledIn stage.columns exchanges pair.2) ∧
    Told gets (Remembers (log ++ exchanges)) failures { stage with newest := [] }
      (outcomes ++ pairs.map (·.2)) state

private theorem flush_clears (services : Services σ) {next : Receiver (σ × List Fetched) δ}
    (patient : ∀ exchanges, next.Patient gets (Remembers exchanges)) {waiting : List FetchRow}
    {state : (FetchStage × δ) × Job (σ × List Fetched)}
    (told : Told gets (Remembers log) failures { stage with newest := waiting.reverse } outcomes state) :
    Runs (flush services.remembering next) (fun _ => False)
      (fun flow last => flow = .more ∧ Cleared gets failures stage log outcomes waiting last) state := by
  obtain ⟨⟨own, below⟩, job⟩ := state
  obtain ⟨share, rfl⟩ : ∃ share, own = { stage with share := share, newest := waiting.reverse } :=
    told.stage
  have accepted (batches : List FetchBatch) (state : σ × List Fetched) :
      (batches.foldl (fun state batch => services.remembering.accept batch.node state) state).2 =
        state.2 := by
    induction batches generalizing state with
    | nil => rfl
    | cons batch rest ih => exact ih _
  have told : Told gets (Remembers log) failures { stage with newest := [] } outcomes
      (({ stage with share := share, newest := [] }, below),
        accept services.remembering (FetchBatch.ofRows waiting) job) :=
    ⟨⟨share, rfl⟩, told.emitted, told.recorded, (accepted _ _).trans told.holds⟩
  refine Runs.own_bind (Runs.setOwn_bind (Runs.modifyJob_bind ?_))
  simp only [List.reverse_reverse]
  generalize accept services.remembering _ job = job at told ⊢
  have fetched (state : (FetchStage × δ) × Job (σ × List Fetched))
      (told : Told gets (Remembers log) failures { stage with newest := [] } outcomes state) :
      Runs (fetchAll services.remembering next (FetchBatch.ofRows waiting).length
          (FetchBatch.ofRows waiting) .more)
        (fun _ => False)
        (fun flow last => flow = .more ∧ Cleared gets failures stage log outcomes waiting last)
        state := by
    refine (fetchAll_settles patient rfl FetchBatch.node_of_mem_ofRows told).weaken ?_
    intro flow last ⟨flowing, exchanges, pairs, requests, rows, settled, told⟩
    exact ⟨flowing, exchanges, pairs, .of_perm requests,
      rows.trans (FetchBatch.flatMap_rows_ofRows waiting), settled, told⟩
  split
  · exact fetched _ (told.meanwhile (patient log))
  · exact fetched _ told

/-! ### Rows that are taken -/

/-- Why a row that was taken came to a result. -/
inductive Explained (stage : FetchStage) (exchanges : List Fetched) (row : Row) :
    Except FetchFault Row → Prop
  | noId (read : stage.readId row = .ok none) : Explained stage exchanges row (.error .noId)
  | unknownReader (id : Nat) (read : stage.readId row = .ok (some id))
      (unknown : stage.nodeOf (FetchId.reader id) = none) :
    Explained stage exchanges row (.error (.unknownReader (FetchId.reader id) id))
  | fetched (id : Nat) (node : NodeName) (result : Except FetchFault Row)
      (read : stage.readId row = .ok (some id))
      (known : stage.nodeOf (FetchId.reader id) = some node)
      (settled : (⟨node, id, row⟩ : FetchRow).SettledIn stage.columns exchanges result) :
    Explained stage exchanges row result

theorem Explained.mono {exchanges more : List Fetched} {row : Row} {result : Except FetchFault Row}
    (explained : Explained stage exchanges row result) (kept : exchanges ⊆ more) :
    Explained stage more row result := by
  cases explained with
  | noId read => exact .noId read
  | unknownReader id read unknown => exact .unknownReader id read unknown
  | fetched id node _ read known settled => exact .fetched id node _ read known (settled.mono kept)

/-- What the fetch id of a row leads to, if it waits for a document. -/
theorem triage_cases {row : Row} {asked : FetchRow} (triaged : stage.triage row = some (.ok asked)) :
    asked.cells = row ∧ stage.readId row = .ok (some asked.id) ∧
      stage.nodeOf (FetchId.reader asked.id) = some asked.node := by
  unfold triage at triaged
  split at triaged
  · cases triaged
  · cases triaged
  next read =>
    split at triaged
    · cases triaged
    next known =>
      cases triaged
      exact ⟨rfl, read, known⟩

private theorem Explained.of_asking {exchanges : List Fetched} {rows : List Row} {asked : FetchRow}
    {result : Except FetchFault Row} (member : asked ∈ stage.asking rows)
    (settled : asked.SettledIn stage.columns exchanges result) :
    Explained stage exchanges asked.cells result := by
  obtain ⟨row, -, led⟩ := List.mem_filterMap.mp member
  split at led
  next triaged =>
    cases led
    obtain ⟨rfl, read, known⟩ := triage_cases triaged
    exact .fetched asked.id asked.node result read known settled
  next => cases led

private theorem perm_of_cleared {settled : List (Row × Except FetchFault Row)} {waiting : List FetchRow}
    {pairs : List (FetchRow × Except FetchFault Row)} {taken : List Row}
    (once : (settled.map (·.1) ++ waiting.map (·.cells)).Perm taken)
    (rows : (pairs.map (·.1)).Perm waiting) :
    ((settled ++ pairs.map fun pair => (pair.1.cells, pair.2)).map (·.1)).Perm taken := by
  have cells := (rows.map (·.cells)).append_left (settled.map (·.1))
  simpa [Function.comp_def] using cells.trans once

private theorem explained_of_cleared {settled : List (Row × Except FetchFault Row)}
    {waiting : List FetchRow} {pairs : List (FetchRow × Except FetchFault Row)} {taken : List Row}
    {earlier exchanges : List Fetched}
    (explained : ∀ pair ∈ settled, Explained stage earlier pair.1 pair.2)
    (inside : waiting ⊆ stage.asking taken) (rows : (pairs.map (·.1)).Perm waiting)
    (results : ∀ pair ∈ pairs, pair.1.SettledIn stage.columns exchanges pair.2) :
    ∀ pair ∈ settled ++ pairs.map fun pair => (pair.1.cells, pair.2),
      Explained stage (earlier ++ exchanges) pair.1 pair.2 := by
  intro pair member
  rcases List.mem_append.mp member with old | new
  · exact (explained pair old).mono (List.subset_append_left ..)
  · obtain ⟨pair, there, rfl⟩ := List.mem_map.mp new
    have asked : pair.1 ∈ stage.asking taken :=
      inside (rows.subset (List.mem_map_of_mem there))
    exact .of_asking asked ((results pair there).mono (List.subset_append_right ..))

/-- A stage has taken rows: those in full rounds were asked for, the others that may wait do so, and
all but those have come to a result. -/
structure Gathered (gets : List Row → δ → Prop) (failures : List RowFailure) (stage : FetchStage)
    (start : List Fetched) (taken : List Row) (full : List (List FetchRow))
    (batches : List (List Fetched)) (settled : List (Row × Except FetchFault Row))
    (waiting : List FetchRow) (state : (FetchStage × δ) × Job (σ × List Fetched)) : Prop where
  asking : stage.asking taken = full.flatten ++ waiting
  rounds : ∀ round ∈ full, round.length = stage.size
  short : waiting.length < stage.size
  asked : List.Forall₂ (FetchRow.Asked stage.columns) full batches
  once : (settled.map (·.1) ++ waiting.map (·.cells)).Perm taken
  explained : ∀ pair ∈ settled, stage.Explained batches.flatten pair.1 pair.2
  told : Told gets (Remembers (start ++ batches.flatten)) failures
    { stage with newest := waiting.reverse } (settled.map (·.2)) state

/-- Documents are asked for as soon as enough rows wait. -/
def flushFull (services : Services σ) (next : Receiver σ δ) : Turn σ (FetchStage × δ) Flow := do
  let (own, _) ← Turn.own
  if own.size ≤ own.newest.length then flush services next else return .more

/-- A row either waits, or memory is refused for it and nothing but a report is left of that. -/
theorem keep_cases (row : FetchRow) (stage : FetchStage) (job : Job σ) :
    (∃ share memory, keep row (stage, job) =
      (.ok (), ({ stage with share := share, newest := row :: stage.newest },
        { job with memory := memory }))) ∨
    ∃ error event fields, error.IsRefusal ∧
      keep row (stage, job) = (.error error, (stage, job.report event fields)) := by
  rw [keep, Turn.own_bind, bind_apply, Turn.onJob, Job.charge]
  cases charged : stage.share.charge? row.bytes job.memory with
  | some account => exact .inl ⟨account.1, account.2, rfl⟩
  | none => exact .inr ⟨_, _, _, MemoryShare.isRefusal_of_charge? charged, rfl⟩

namespace Gathered

variable {start : List Fetched} {taken : List Row} {full : List (List FetchRow)}
variable {batches : List (List Fetched)} {settled : List (Row × Except FetchFault Row)}
variable {waiting : List FetchRow} {own : FetchStage} {below : δ} {job : Job (σ × List Fetched)}

/-- A row that no document can be fetched for comes to its result at once. -/
theorem turnAway {row : Row} {fault : FetchFault}
    (gathered : Gathered gets failures stage start taken full batches settled waiting
      ((own, below), job))
    (away : stage.triage row = some (.error fault))
    (explained : stage.Explained batches.flatten row (.error fault)) :
    Gathered gets failures stage start (taken ++ [row]) full batches (settled ++ [(row, .error fault)])
      waiting ((own, below), record fault job) where
  asking := by simpa [FetchStage.asking, away] using gathered.asking
  rounds := gathered.rounds
  short := gathered.short
  asked := gathered.asked
  once := by
    refine List.Perm.trans ?_ (gathered.once.append_right [row])
    rw [List.map_append, List.append_assoc, List.append_assoc]
    exact List.perm_append_comm.append_left _
  explained := by
    intro pair member
    rcases List.mem_append.mp member with old | new
    · exact gathered.explained pair old
    · obtain rfl := List.mem_singleton.mp new
      exact explained
  told := by simpa using gathered.told.record fault

/-- A row that waits is asked for with the others as soon as there are enough. -/
theorem wait (services : Services σ) {next : Receiver (σ × List Fetched) δ}
    (patient : ∀ exchanges, next.Patient gets (Remembers exchanges)) {asked : FetchRow}
    {before : (FetchStage × δ) × Job (σ × List Fetched)}
    (gathered : Gathered gets failures stage start taken full batches settled waiting before)
    (waits : stage.triage asked.cells = some (.ok asked))
    (told : Told gets (Remembers (start ++ batches.flatten)) failures
      { stage with newest := (waiting ++ [asked]).reverse } (settled.map (·.2)) ((own, below), job)) :
    Runs (flushFull services.remembering next) (fun _ => False)
      (fun flow last => flow = .more ∧ ∃ full batches settled waiting,
        Gathered gets failures stage start (taken ++ [asked.cells]) full batches settled waiting last)
      ((own, below), job) := by
  have asking : stage.asking (taken ++ [asked.cells]) = full.flatten ++ (waiting ++ [asked]) := by
    rw [← List.append_assoc, ← gathered.asking]
    simp [FetchStage.asking, waits]
  have once : (settled.map (·.1) ++ (waiting ++ [asked]).map (·.cells)).Perm
      (taken ++ [asked.cells]) := by
    simpa using gathered.once.append_right [asked.cells]
  obtain ⟨share, rfl⟩ : ∃ share,
    own = { stage with share := share, newest := (waiting ++ [asked]).reverse } := told.stage
  refine Runs.own_bind ?_
  dsimp only
  rw [List.length_reverse]
  have short := gathered.short
  split
  next enough =>
    refine (flush_clears services patient told).weaken ?_
    rintro flow last ⟨flowing, exchanges, pairs, asked', rows, results, told⟩
    have flattened : (batches ++ [exchanges]).flatten = batches.flatten ++ exchanges := by
      rw [List.flatten_append, List.flatten_singleton]
    have inside : waiting ++ [asked] ⊆ stage.asking (taken ++ [asked.cells]) :=
      asking ▸ List.subset_append_right ..
    refine ⟨flowing, full ++ [waiting ++ [asked]], batches ++ [exchanges], _, [],
      by simpa using asking, ?_, Nat.zero_lt_of_lt short,
      List.rel_append gathered.asked (.cons asked' .nil), ?_,
      flattened ▸ explained_of_cleared gathered.explained inside rows results, ?_⟩
    · intro round member
      rcases List.mem_append.mp member with earlier | latest
      · exact gathered.rounds round earlier
      · obtain rfl := List.mem_singleton.mp latest
        rw [List.length_append, List.length_singleton] at enough ⊢
        omega
    · simpa using perm_of_cleared once rows
    · simpa [List.append_assoc, Function.comp_def] using told
  next few =>
    exact Runs.pure ⟨rfl, full, batches, settled, waiting ++ [asked], asking, gathered.rounds,
      Nat.lt_of_not_le few, gathered.asked, once, gathered.explained, told⟩

/-- A row that a document can be fetched for is kept, unless memory is refused for it. -/
theorem keep (services : Services σ) {next : Receiver (σ × List Fetched) δ}
    (patient : ∀ exchanges, next.Patient gets (Remembers exchanges)) (asked : FetchRow)
    {share : MemoryShare}
    (gathered : Gathered gets failures stage start taken full batches settled waiting
      (({ stage with share := share, newest := waiting.reverse }, below), job))
    (waits : stage.triage asked.cells = some (.ok asked)) :
    let own : FetchStage := { stage with share := share, newest := waiting.reverse }
    let last := (Turn.above (FetchStage.keep asked) >>= fun _ => flushFull services.remembering next)
      ((own, below), job)
    (∃ error, last.1 = .error error ∧ error.IsRefusal ∧
      Gathered gets failures stage start taken full batches settled waiting last.2) ∨
    (last.1 = .ok .more ∧ ∃ full batches settled waiting,
      Gathered gets failures stage start (taken ++ [asked.cells]) full batches settled waiting
        last.2) := by
  intro own last
  dsimp only [last]
  obtain ⟨share', memory, kept⟩ | ⟨error, event, fields, refusal, refused⟩ :=
    keep_cases asked { stage with share := share, newest := waiting.reverse } job
  · right
    have above : Turn.above (FetchStage.keep asked)
        (({ stage with share := share, newest := waiting.reverse }, below), job) =
          (.ok (), (({ stage with share := share', newest := (waiting ++ [asked]).reverse },
            below), { job with memory := memory })) := by
      simp only [Turn.above, kept, List.reverse_append]
      rfl
    rw [bind_of_ok above]
    have told : Told gets (Remembers (start ++ batches.flatten)) failures
        { stage with newest := (waiting ++ [asked]).reverse } (settled.map (·.2))
        (({ stage with share := share', newest := (waiting ++ [asked]).reverse }, below),
          { job with memory := memory }) :=
      ⟨⟨share', rfl⟩, gathered.told.emitted, gathered.told.recorded, gathered.told.holds⟩
    obtain ⟨flow, last, run, flowing, further⟩ := (gathered.wait services patient waits told).value
    rw [run]
    exact ⟨congrArg Except.ok flowing, further⟩
  · left
    have above : Turn.above (FetchStage.keep asked)
        (({ stage with share := share, newest := waiting.reverse }, below), job) =
          (.error error, (({ stage with share := share, newest := waiting.reverse }, below),
            job.report event fields)) := by
      simp only [Turn.above, refused]
    rw [bind_of_error above]
    exact ⟨error, rfl, refusal,
      { gathered with told := gathered.told.onJob rfl gathered.told.holds }⟩

end Gathered

/-- What a stage answers to a row that it does not take: its fetch id cannot be read, or memory is
refused for it. -/
def Declines (stage : FetchStage) (row : Row) (error : ExecutionError) : Prop :=
  (∃ fault, stage.readId row = .error fault ∧ error = .evaluation fault) ∨ error.IsRefusal

/-- A stage takes a row, or answers with an error and is as before. -/
theorem takeRow_gathers (services : Services σ) {next : Receiver (σ × List Fetched) δ}
    (patient : ∀ exchanges, next.Patient gets (Remembers exchanges)) {start : List Fetched}
    {taken : List Row} {full : List (List FetchRow)} {batches : List (List Fetched)}
    {settled : List (Row × Except FetchFault Row)} {waiting : List FetchRow}
    {state : (FetchStage × δ) × Job (σ × List Fetched)}
    (gathered : Gathered gets failures stage start taken full batches settled waiting state)
    (row : Row) :
    (∃ error, (takeRow services.remembering next row state).1 = .error error ∧
      stage.Declines row error ∧
      Gathered gets failures stage start taken full batches settled waiting
        (takeRow services.remembering next row state).2) ∨
    ((takeRow services.remembering next row state).1 = .ok .more ∧
      ∃ full batches settled waiting,
        Gathered gets failures stage start (taken ++ [row]) full batches settled waiting
          (takeRow services.remembering next row state).2) := by
  obtain ⟨⟨own, below⟩, job⟩ := state
  obtain ⟨share, rfl⟩ : ∃ share, own = { stage with share := share, newest := waiting.reverse } :=
    gathered.told.stage
  have looked : FetchStage.readId { stage with share := share, newest := waiting.reverse } row =
    stage.readId row := rfl
  have lookedUp : ∀ reader,
      FetchStage.nodeOf { stage with share := share, newest := waiting.reverse } reader =
        stage.nodeOf reader := fun _ => rfl
  unfold takeRow
  simp only [Turn.own_bind, looked, lookedUp]
  cases read : stage.readId row with
  | error fault =>
    left
    exact ⟨.evaluation fault, rfl, .inl ⟨fault, read, rfl⟩, gathered⟩
  | ok id =>
  rw [evaluated_ok, pure_bind]
  cases id with
  | none =>
    right
    exact ⟨rfl, _, _, _, _, gathered.turnAway (by simp only [triage, read]) (.noId read)⟩
  | some id =>
  cases place : stage.nodeOf (FetchId.reader id) with
  | none =>
    right
    simp only [place]
    exact ⟨rfl, _, _, _, _, gathered.turnAway (by simp only [triage, read, place])
      (.unknownReader id read place)⟩
  | some node =>
    have waits : stage.triage row = some (.ok ⟨node, id, row⟩) := by
      simp only [triage, read, place]
    simp only [place]
    obtain ⟨error, failed, refusal, kept⟩ | further :=
      gathered.keep services patient ⟨node, id, row⟩ waits
    · exact .inl ⟨error, failed, .inr refusal, kept⟩
    · exact .inr further

/-! ### Rows that are fetched for -/

/-- What a stage has made of the rows that it took. -/
structure Conserved (stage : FetchStage) (taken : List Row) (batches : List (List Fetched))
    (emitted : List Row) (recorded : List RowFailure) : Prop where
  /-- Every row has one result for which there is a reason, and either is emitted or recorded. -/
  results : ∃ settled : List (Row × Except FetchFault Row),
    (settled.map (·.1)).Perm taken ∧
    (∀ pair ∈ settled, stage.Explained batches.flatten pair.1 pair.2) ∧
    emitted.Perm (FetchStage.emitted (settled.map (·.2))) ∧
    recorded.Perm (FetchStage.recorded (settled.map (·.2)))
  /-- A batch asks each node once, for the rows of one round. -/
  asked : List.Forall₂ (FetchRow.Asked stage.columns)
    (FetchRow.rounds stage.size (stage.asking taken)) batches
  /-- Each row that has a node is asked for once, and there. -/
  once : (batches.flatten.flatMap fun exchange =>
      exchange.request.ids.map (exchange.request.node, ·)).Perm
    ((stage.asking taken).map fun row => (row.node, row.id))
  fits : ∀ exchange ∈ batches.flatten, exchange.request.ids.length ≤ stage.size

private theorem places_of_asked {columns : List String} {rounds : List (List FetchRow)}
    {batches : List (List Fetched)} (asked : List.Forall₂ (FetchRow.Asked columns) rounds batches) :
    (batches.flatten.flatMap fun exchange =>
      exchange.request.ids.map (exchange.request.node, ·)).Perm
      (rounds.flatten.map fun row => (row.node, row.id)) := by
  induction asked with
  | nil => exact .refl _
  | cons first _ ih =>
    rw [List.flatten_cons, List.flatMap_append, List.flatten_cons, List.map_append]
    exact first.places.append ih

private theorem length_ids_le_of_asked {columns : List String} {rounds : List (List FetchRow)}
    {batches : List (List Fetched)} {size : Nat}
    (asked : List.Forall₂ (FetchRow.Asked columns) rounds batches)
    (fits : ∀ round ∈ rounds, round.length ≤ size) :
    ∀ exchange ∈ batches.flatten, exchange.request.ids.length ≤ size := by
  induction asked with
  | nil => nofun
  | cons first _ ih =>
    obtain ⟨here, later⟩ := List.forall_mem_cons.mp fits
    intro exchange member
    rcases List.mem_append.mp (List.flatten_cons ▸ member) with inside | behind
    · exact Nat.le_trans (first.length_ids_le exchange inside) here
    · exact ih later exchange behind

private theorem finish_conserves (services : Services σ) {next : Receiver (σ × List Fetched) δ}
    (patient : ∀ exchanges, next.Patient gets (Remembers exchanges)) {start : List Fetched}
    {taken : List Row} {full : List (List FetchRow)} {batches : List (List Fetched)}
    {settled : List (Row × Except FetchFault Row)} {waiting : List FetchRow}
    {state : (FetchStage × δ) × Job (σ × List Fetched)}
    (gathered : Gathered gets failures stage start taken full batches settled waiting state) :
    ∃ last batches emitted recorded,
      finish services.remembering next state = (Turn.below next.finish) last ∧
      stage.Conserved taken batches emitted recorded ∧
      gets emitted last.1.2 ∧ last.2.failures.Perm (failures ++ recorded) ∧
      last.2.node.services.2 = start ++ batches.flatten := by
  obtain ⟨flow, last, run, -, exchanges, pairs, asked, rows, results, told⟩ :=
    (flush_clears services patient gathered.told).value
  obtain ⟨latest, last_asked, latest_flatten⟩ := asked.last_round gathered.short
  have wait : 0 < stage.size := Nat.zero_lt_of_lt gathered.short
  have all_asked : List.Forall₂ (FetchRow.Asked stage.columns)
      (FetchRow.rounds stage.size (stage.asking taken)) (batches ++ latest) := by
    rw [gathered.asking, FetchRow.rounds_append wait gathered.rounds]
    exact List.rel_append gathered.asked last_asked
  have all_flatten : (batches ++ latest).flatten = batches.flatten ++ exchanges := by
    rw [List.flatten_append, latest_flatten]
  have inside : waiting ⊆ stage.asking taken := gathered.asking ▸ List.subset_append_right ..
  obtain ⟨emitted, got, alike⟩ := told.emitted
  refine ⟨last, batches ++ latest, emitted, _, bind_of_ok run,
    ⟨⟨_, perm_of_cleared gathered.once rows,
      all_flatten ▸ explained_of_cleared gathered.explained inside rows results, ?_, .refl _⟩,
      all_asked, ?_, length_ids_le_of_asked all_asked FetchRow.length_le_of_mem_rounds⟩, got, ?_, ?_⟩
  · simpa [Function.comp_def] using alike
  · have places := places_of_asked all_asked
    rwa [FetchRow.flatten_rounds wait] at places
  · simpa [Function.comp_def] using told.recorded
  · rw [all_flatten, ← List.append_assoc]
    exact told.holds

end FetchStage

/-! ### Stages that are driven -/

/-- The rows that a stage took, by what it answered to the rows it was given. -/
def Visit.taken (visits : List Visit) (answers : List (Except ExecutionError Flow)) : List Row :=
  ((rows visits).zip answers).filterMap fun given => if given.2.isOk then some given.1 else none

theorem Visit.taken_of_ok {answer : Except ExecutionError Flow} {flow : Flow} (took : answer = .ok flow)
    (row : Row) (rest : List Visit) (answers : List (Except ExecutionError Flow)) :
    taken (.row row :: rest) (answer :: answers) = row :: taken rest answers := by
  rw [took]
  rfl

private theorem Visit.taken_of_error {answer : Except ExecutionError Flow} {error : ExecutionError}
    (declined : answer = .error error) (row : Row) (rest : List Visit)
    (answers : List (Except ExecutionError Flow)) :
    taken (.row row :: rest) (answer :: answers) = taken rest answers := by
  rw [declined]
  rfl

namespace Stage

variable {services : Services σ} {next : Receiver (σ × List Fetched) δ}
variable {gets : List Row → δ → Prop} {failures : List RowFailure} {start : List Fetched}

/-- A stage that fetches took rows, and takes more. -/
structure Gathering (gets : List Row → δ → Prop) (failures : List RowFailure) (fetching : FetchStage)
    (start : List Fetched) (taken : List Row)
    (state : (Stage × δ) × Job (σ × List Fetched)) : Prop where
  unended : state.1.1.phase.isTerminal = false
  gathered : ∃ own full batches settled waiting, state.1.1.body = .fetch own ∧
    FetchStage.Gathered gets failures fetching start taken full batches settled waiting
      ((own, state.1.2), state.2)

variable {fetching : FetchStage} {taken : List Row}
variable {state : (Stage × δ) × Job (σ × List Fetched)}

namespace Gathering

theorem short (gathering : Gathering gets failures fetching start taken state) :
    ∃ own, state.1.1.body = .fetch own ∧ own.newest.length < fetching.size := by
  obtain ⟨-, own, full, batches, settled, waiting, body, gathered⟩ := gathering
  obtain ⟨share, same⟩ := gathered.told.stage
  obtain rfl : own = { fetching with share := share, newest := waiting.reverse } := same
  exact ⟨_, body, by simpa using gathered.short⟩

theorem takeRow (patient : ∀ exchanges, next.Patient gets (Remembers exchanges))
    (gathering : Gathering gets failures fetching start taken state) (row : Row) :
    let (answer, last) := Stage.takeRow services.remembering next row state
    (answer = .ok .more ∧ Gathering gets failures fetching start (taken ++ [row]) last) ∨
      ∃ error, answer = .error error ∧ fetching.Declines row error ∧
        Gathering gets failures fetching start taken last := by
  obtain ⟨⟨⟨kind, _, phase⟩, below⟩, job⟩ := state
  obtain ⟨unended, own, full, batches, settled, waiting, rfl, gathered⟩ := gathering
  have given : Stage.takeRow services.remembering next row ((⟨kind, .fetch own, phase⟩, below), job) =
      Turn.within (fun own => ⟨kind, .fetch own, .running⟩) own
        (FetchStage.takeRow services.remembering next row) ((⟨kind, .fetch own, phase⟩, below), job) :=
    takeRow_apply services.remembering next row _ below job unended
  rw [given]
  obtain ⟨error, declined, reason, gathered⟩ | ⟨took, full, batches, settled, waiting, gathered⟩ :=
    FetchStage.takeRow_gathers services patient gathered row
  · exact .inr ⟨error, declined, reason, rfl, _, _, _, _, _, rfl, gathered⟩
  · exact .inl ⟨took, rfl, _, _, _, _, _, rfl, gathered⟩

theorem drive (services : Services σ)
    (patient : ∀ exchanges, next.Patient gets (Remembers exchanges)) (visits : List Visit)
    (gathering : Gathering gets failures fetching start taken state) :
    let (answers, last) := Stage.drive services.remembering next visits state
    List.Forall₂ (fun row answer => answer = .ok .more ∨
        ∃ error, answer = .error error ∧ fetching.Declines row error) (Visit.rows visits) answers ∧
      Gathering gets failures fetching start (taken ++ Visit.taken visits answers) last := by
  induction visits generalizing taken state with
  | nil => exact ⟨.nil, by simpa [Visit.taken, Visit.rows, Stage.drive] using gathering⟩
  | cons visit rest ih =>
    cases visit with
    | row row =>
      rcases gathering.takeRow patient row with ⟨took, further⟩ | ⟨error, declined, reason, further⟩
      · obtain ⟨answers, last⟩ := ih further
        refine ⟨.cons (.inl took) answers, ?_⟩
        rw [List.append_assoc] at last
        exact (Visit.taken_of_ok took row rest _).symm ▸ last
      · obtain ⟨answers, last⟩ := ih further
        refine ⟨.cons (.inr ⟨error, declined, reason⟩) answers, ?_⟩
        exact (Visit.taken_of_error declined row rest _).symm ▸ last
    | pause =>
      obtain ⟨⟨⟨kind, _, phase⟩, below⟩, job⟩ := state
      obtain ⟨unended, own, full, batches, settled, waiting, rfl, gathered⟩ := gathering
      exact ih ⟨unended, own, full, batches, settled, waiting, rfl, gathered⟩

theorem finish (patient : ∀ exchanges, next.Patient gets (Remembers exchanges))
    (gathering : Gathering gets failures fetching start taken state) :
    ∃ last batches emitted recorded,
      Stage.finish services.remembering next state = (Turn.below next.finish) last ∧
      fetching.Conserved taken batches emitted recorded ∧
      gets emitted last.1.2 ∧ last.2.failures.Perm (failures ++ recorded) ∧
      last.2.node.services.2 = start ++ batches.flatten := by
  obtain ⟨⟨⟨kind, _, phase⟩, below⟩, job⟩ := state
  obtain ⟨unended, own, full, batches, settled, waiting, rfl, gathered⟩ := gathering
  obtain ⟨⟨⟨own', below'⟩, job'⟩, batches, emitted, recorded, run, conserved, got, failed, exchanged⟩ :=
    FetchStage.finish_conserves services patient gathered
  refine ⟨((⟨kind, .fetch own', .completed⟩, below'), job'), batches, emitted, recorded, ?_, conserved,
    got, failed, exchanged⟩
  have ended : Stage.finish services.remembering next ((⟨kind, .fetch own, phase⟩, below), job) =
      Turn.within (fun own => ⟨kind, .fetch own, .completed⟩) own
        (FetchStage.finish services.remembering next) ((⟨kind, .fetch own, phase⟩, below), job) :=
    finish_apply services.remembering next _ below job unended
  rw [ended]
  simp only [Turn.within, run, Turn.below]
  rcases next.finish (below', job') with ⟨_, _, _⟩
  rfl

end Gathering

/-- Whatever a transport answers, and in whichever order, a stage that fetches takes every row unless
its fetch id cannot be read or memory is refused. By its end each row that it took was emitted with
the cells that its node answered for it, or the reason why not was recorded; and each was asked for
once. -/
theorem fetched_once (services : Services σ) (fetching : FetchStage)
    (next : Receiver (σ × List Fetched) δ) (gets : List Row → δ → Prop) (below : δ)
    (job : Job (σ × List Fetched)) (visits : List Visit) (wait : 1 ≤ fetching.size)
    (idle : fetching.newest = [])
    (patient : ∀ exchanges, next.Patient gets (Remembers exchanges)) (given : gets [] below) :
    let start : (Stage × δ) × Job (σ × List Fetched) :=
      ((⟨.fetch, .fetch fetching, .created⟩, below), job)
    let driven := drive services.remembering next visits start
    List.Forall₂ (fun row answer => answer = .ok .more ∨
        ∃ error, answer = .error error ∧ fetching.Declines row error) (Visit.rows visits) driven.1 ∧
      (∀ earlier, earlier <+: visits →
        ∃ own, (drive services.remembering next earlier start).2.1.1.body = .fetch own ∧
          own.newest.length < fetching.size) ∧
      ∃ ended batches emitted recorded,
        finish services.remembering next driven.2 = (Turn.below next.finish) ended ∧
        fetching.Conserved (Visit.taken visits driven.1) batches emitted recorded ∧
        gets emitted ended.1.2 ∧ ended.2.failures.Perm (job.failures ++ recorded) ∧
        ended.2.node.services.2 = job.node.services.2 ++ batches.flatten := by
  intro start
  have told : FetchStage.Told gets (Remembers job.node.services.2) job.failures
      { fetching with newest := [] } [] ((fetching, below), job) :=
    ⟨⟨fetching.share, by rw [← idle]⟩, ⟨[], given, .refl _⟩, by simp [FetchStage.recorded], rfl⟩
  have gathering : Gathering gets job.failures fetching job.node.services.2 [] start :=
    ⟨rfl, fetching, [], [], [], [], rfl,
      ⟨rfl, List.forall_mem_nil _, wait, .nil, .refl _, List.forall_mem_nil _, by simpa using told⟩⟩
  obtain ⟨answers, driven⟩ := gathering.drive services patient visits
  refine ⟨answers, fun earlier _ => ?_, driven.finish patient⟩
  exact (gathering.drive services patient earlier).2.short

/-- One node fails, and the other answers with too few cells for one of two documents. -/
theorem fetched_once_faulty :
    let answer (request : FetchRequest) : Except ExecutionError FetchResponse :=
      if request.node == "b" then .error (.transport (.nodeUnavailable "b"))
      else .ok [(4294967297, [.text "x"]), (4294967298, [])]
    let services : Services Simulation :=
      { Simulation.services with fetch := fun request state => (answer request, state) }
    let fetching : FetchStage := ⟨0, ["name"], [⟨1, "a"⟩, ⟨2, "b"⟩], 2, {}, []⟩
    let rows : List Row :=
      [[.long 4294967297], [.null], [.long 8589934593], [.long 4294967298], [.long 1]]
    let job : Job (Simulation × List Fetched) :=
      ⟨"fetch", none, { label := "fetch", limit := 100000 }, [],
        { services := (Job.alone.node.services, []) }⟩
    let start : (Stage × Terminal) × Job (Simulation × List Fetched) :=
      ((⟨.fetch, .fetch fetching, .created⟩, .collecting {}), job)
    let driven := drive services.remembering Terminal.receiver (rows.map .row) start
    (1 ≤ fetching.size ∧ fetching.newest = []) ∧
      ∃ ended batches emitted recorded,
        finish services.remembering Terminal.receiver driven.2 =
          (Turn.below Terminal.receiver.finish) ended ∧
        (Visit.taken (rows.map .row) driven.1).length = 5 ∧
        fetching.Conserved (Visit.taken (rows.map .row) driven.1) batches emitted recorded ∧
        ended.1.2 = .collecting ⟨emitted.reverse, none⟩ ∧ ended.2.failures.Perm recorded := by
  intro answer services fetching rows job start driven
  have wait : 1 ≤ fetching.size := by decide
  obtain ⟨-, -, ended, batches, emitted, recorded, finished, conserved, got, failed, -⟩ :=
    fetched_once services fetching Terminal.receiver _ (.collecting {}) job (rows.map .row) wait rfl
      (fun _ => Terminal.patient _) rfl
  have taken : (Visit.taken (rows.map .row) driven.1).length = 5 := by decide +kernel
  exact ⟨⟨wait, rfl⟩, ended, batches, emitted, recorded, finished, taken, conserved, got, failed⟩

end Stage

end RowPipeline
