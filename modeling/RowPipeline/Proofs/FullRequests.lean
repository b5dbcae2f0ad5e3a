import Mathlib.Data.List.Nodup
import RowPipeline.Proofs.Compilation
import RowPipeline.Proofs.PostedRequests

/-!
Requests are as full as they can be. All requests for a shard but the last carry as many items as a
request may, and together they carry what was added for the shard, in the order in which it was added.
-/

namespace RowPipeline

variable {σ : Type}

namespace BulkWriter

variable {services : Services σ}

/-! ### Items of a shard -/

/-- The items that requests carry to a shard, in the order of the requests. -/
def itemsFor (shard : ShardId) (dispatches : List Dispatch) : List PendingItem :=
  (dispatches.filter (·.shard == shard)).flatMap (·.items)

section Items

variable {shard other : ShardId} {node : NodeName} {item : PendingItem} {dispatch : Dispatch}
variable {dispatches : List Dispatch}

private theorem itemsFor_append (shard : ShardId) (first second : List Dispatch) :
    itemsFor shard (first ++ second) = itemsFor shard first ++ itemsFor shard second := by
  rw [itemsFor, List.filter_append, List.flatMap_append]
  rfl

theorem filter_shard_eq_nil (absent : shard ∉ dispatches.map (·.shard)) :
    dispatches.filter (·.shard == shard) = [] := by
  apply List.filter_eq_nil_iff.mpr
  intro dispatch member same
  exact absent (List.mem_map.mpr ⟨dispatch, member, by simpa using same⟩)

theorem find?_shard_of_mem (distinct : (dispatches.map (·.shard)).Nodup)
    (member : dispatch ∈ dispatches) :
    dispatches.find? (·.shard == dispatch.shard) = some dispatch := by
  cases found : dispatches.find? (·.shard == dispatch.shard) with
  | none => simpa using List.find?_eq_none.mp found dispatch member
  | some first =>
    have same : first.shard = dispatch.shard := by simpa using List.find?_some found
    rw [List.inj_on_of_nodup_map distinct (List.mem_of_find?_eq_some found) member same]

/-- What waits for a shard stands among what waits for others. -/
theorem find?_shard_split (distinct : (dispatches.map (·.shard)).Nodup)
    (found : dispatches.find? (·.shard == shard) = some dispatch) :
    ∃ before after, dispatches = before ++ dispatch :: after ∧
      dispatches.eraseP (·.shard == shard) = before ++ after ∧ dispatch.shard = shard ∧
      shard ∉ before.map (·.shard) ∧ shard ∉ after.map (·.shard) := by
  obtain ⟨before, after, rfl, left, _⟩ := eraseP_split found
  obtain rfl : dispatch.shard = shard := by simpa using List.find?_some found
  simp only [List.map_append, List.map_cons] at distinct
  obtain ⟨absent, _⟩ := List.nodup_cons.mp (List.perm_middle.nodup_iff.mp distinct)
  rw [List.mem_append, not_or] at absent
  exact ⟨before, after, rfl, left, rfl, absent⟩

private theorem filter_shard_eq (distinct : (dispatches.map (·.shard)).Nodup) (shard : ShardId) :
    dispatches.filter (·.shard == shard) = (dispatches.find? (·.shard == shard)).toList := by
  cases found : dispatches.find? (·.shard == shard) with
  | none => exact List.filter_eq_nil_iff.mpr (List.find?_eq_none.mp found)
  | some dispatch =>
    obtain ⟨before, after, rfl, _, rfl, earlier, later⟩ := find?_shard_split distinct found
    simp [filter_shard_eq_nil earlier, filter_shard_eq_nil later]

private theorem itemsFor_enqueue (distinct : (dispatches.map (·.shard)).Nodup) :
    itemsFor other (enqueue shard node item dispatches) =
      itemsFor other dispatches ++ if shard = other then [item] else [] := by
  induction dispatches with
  | nil => by_cases same : shard = other <;> simp [enqueue, itemsFor, same]
  | cons first rest ih =>
    obtain ⟨absent, distinct⟩ := List.nodup_cons.mp distinct
    unfold enqueue
    split
    next same =>
      obtain rfl : first.shard = shard := by simpa using same
      by_cases here : first.shard = other
      · subst here
        simp [itemsFor, filter_shard_eq_nil absent]
      · simp [itemsFor, here]
    next =>
      have joined := ih distinct
      unfold itemsFor at joined ⊢
      by_cases here : first.shard = other
      · simp [here, joined]
      · simp [here, joined]

private theorem mem_of_mem_enqueue (member : dispatch ∈ enqueue shard node item dispatches)
    (apart : dispatch.shard ≠ shard) : dispatch ∈ dispatches := by
  induction dispatches with
  | nil =>
    obtain rfl := List.mem_singleton.mp member
    exact absurd rfl apart
  | cons first rest ih =>
    unfold enqueue at member
    split at member
    next same =>
      rcases List.mem_cons.mp member with rfl | later
      · exact absurd (by simpa using same) apart
      · exact .tail _ later
    next =>
      rcases List.mem_cons.mp member with rfl | later
      · exact List.mem_cons_self
      · exact .tail _ (ih later)

/-- The items that wait for the shard of a new one are those that waited, and it. -/
theorem find?_enqueue (shard : ShardId) (node : NodeName) (item : PendingItem)
    (dispatches : List Dispatch) :
    ∃ dispatch, (enqueue shard node item dispatches).find? (·.shard == shard) = some dispatch ∧
      (dispatch.items = [item] ∨
        ∃ first ∈ dispatches, dispatch.items = first.items ++ [item]) := by
  induction dispatches with
  | nil => exact ⟨⟨node, shard, [item]⟩, by simp [enqueue], .inl rfl⟩
  | cons first rest ih =>
    unfold enqueue
    by_cases same : first.shard = shard
    · exact ⟨{ first with items := first.items ++ [item] }, by simp [same],
        .inr ⟨first, List.mem_cons_self, rfl⟩⟩
    · obtain ⟨dispatch, found, items⟩ := ih
      refine ⟨dispatch, by simp [same, found], items.imp_right ?_⟩
      rintro ⟨earlier, member, grown⟩
      exact ⟨earlier, .tail _ member, grown⟩

private theorem itemsFor_eraseP (found : dispatches.find? (·.shard == shard) = some dispatch)
    (distinct : (dispatches.map (·.shard)).Nodup) (other : ShardId) :
    itemsFor other [dispatch] ++ itemsFor other (dispatches.eraseP (·.shard == shard)) =
      itemsFor other dispatches := by
  obtain ⟨before, after, rfl, left, rfl, earlier, _⟩ := find?_shard_split distinct found
  rw [left]
  by_cases here : dispatch.shard = other
  · subst here
    simp [itemsFor, filter_shard_eq_nil earlier]
  · simp [itemsFor, here]

end Items

/-! ### Calls -/

/-- What was added for a shard, in the order in which it was added. -/
def addedFor (shard : ShardId) (calls : List Call) : List PendingItem :=
  ((Call.added calls).filter (·.1 == shard)).map (·.2)

private theorem Call.added_concat (calls : List Call) (call : Call) :
    added (calls ++ [call]) =
      added calls ++ (call.item? (calls.filter located).length).toList := by
  cases kind : call.located with
  | true =>
    cases item : call.item? (calls.filter located).length <;>
      simp [added, kind, item, List.zipIdx_append]
  | false =>
    cases call with
    | add | reject => cases kind
    | pause => simp [added, located, item?]

private theorem addedFor_concat (shard : ShardId) (calls : List Call) (call : Call) :
    addedFor shard (calls ++ [call]) = addedFor shard calls ++
      (((call.item? (calls.filter Call.located).length).toList.filter (·.1 == shard)).map (·.2)) := by
  rw [addedFor, Call.added_concat, List.filter_append, List.map_append]
  rfl

/-- What holds of a writer and of the requests that it sent, after calls. There may be a shard for which
as many items wait as a request may carry. -/
structure Batched (size : Nat) (due : Option ShardId) (requests : List Dispatch) (calls : List Call)
    (writer : BulkWriter) : Prop where
  sized : writer.config.size = size
  numbered : writer.nextLocation = (calls.filter Call.located).length
  distinct : (writer.pending.map (·.shard)).Nodup
  waiting : ∀ dispatch ∈ writer.pending, 1 ≤ dispatch.items.length ∧
    dispatch.items.length ≤ size ∧ (dispatch.items.length = size → due = some dispatch.shard)
  full : ∀ request ∈ requests, request.items.length = size
  inOrder : ∀ shard,
    itemsFor shard requests ++ itemsFor shard writer.pending = addedFor shard calls

namespace Batched

variable {size : Nat} {requests : List Dispatch} {calls : List Call} {writer : BulkWriter}
variable {state : State σ} {shard : ShardId} {dispatch : Dispatch}

theorem start (config : BulkConfig) : Batched config.size none [] [] { config := config } :=
  ⟨rfl, rfl, List.nodup_nil, nofun, nofun, fun _ => rfl⟩

/-- A call that adds nothing leaves alone what waits. -/
theorem idle {call : Call} {after : BulkWriter}
    (batched : Batched size none requests calls writer)
    (nothing : call.item? (calls.filter Call.located).length = none)
    (numbered : after.nextLocation = ((calls ++ [call]).filter Call.located).length)
    (same : after.config = writer.config) (kept : after.pending = writer.pending) :
    Batched size none requests (calls ++ [call]) after where
  sized := same ▸ batched.sized
  numbered := numbered
  distinct := kept ▸ batched.distinct
  waiting := kept ▸ batched.waiting
  full := batched.full
  inOrder shard := by
    rw [addedFor_concat, nothing, kept, batched.inOrder shard]
    exact (List.append_nil _).symm

theorem join (batched : Batched size none requests calls state.1) (batch : 1 ≤ size)
    (target : ShardTarget) (id : String) (routing : Option String) (operation : BulkOperation)
    (origin : Option String) :
    Batched size (some target.shard) requests
      (calls ++ [Call.add target id routing operation origin])
      (BulkWriter.join target id routing operation origin state).1 := by
  obtain ⟨writer, job⟩ := state
  let item : PendingItem := ⟨⟨writer.nextLocation, id, routing, operation⟩, origin⟩
  let enqueued := enqueue target.shard target.node item writer.pending
  have distinct : (enqueued.map (·.shard)).Nodup := nodup_enqueue batched.distinct
  refine ⟨batched.sized, ?_, distinct, ?_, batched.full, ?_⟩
  · rw [List.filter_append, List.length_append, ← batched.numbered]
    rfl
  · intro dispatch waits
    by_cases here : dispatch.shard = target.shard
    · obtain ⟨first, found, items⟩ :=
        find?_enqueue target.shard target.node item writer.pending
      have same : enqueued.find? (·.shard == target.shard) = some dispatch :=
        here ▸ find?_shard_of_mem distinct waits
      obtain rfl : first = dispatch := Option.some.inj (found.symm.trans same)
      refine ⟨?_, ?_, fun _ => here ▸ rfl⟩
      · rcases items with new | ⟨earlier, _, grown⟩ <;> simp [*]
      · rcases items with new | ⟨earlier, waited, grown⟩
        · simpa [new] using batch
        · obtain ⟨_, least, due⟩ := batched.waiting earlier waited
          have short : earlier.items.length ≠ size := fun full => nomatch due full
          rw [grown, List.length_append, List.length_singleton]
          omega
    · obtain ⟨some, least, due⟩ := batched.waiting dispatch (mem_of_mem_enqueue waits here)
      exact ⟨some, least, fun full => nomatch due full⟩
  · intro shard
    show itemsFor shard requests ++ itemsFor shard enqueued = _
    rw [itemsFor_enqueue batched.distinct, ← List.append_assoc, batched.inOrder shard,
      addedFor_concat, ← batched.numbered]
    by_cases here : target.shard = shard <;> simp [Call.item?, item, here]

/-- As long as fewer wait than a request may carry, nothing is due. -/
theorem wait {after : BulkWriter} (batched : Batched size (some shard) requests calls writer)
    (short : writer.pendingCount shard < size) (config : after.config = writer.config)
    (location : after.nextLocation = writer.nextLocation) (kept : after.pending = writer.pending) :
    Batched size none requests calls after := by
  refine ⟨config ▸ batched.sized, location ▸ batched.numbered, kept ▸ batched.distinct, ?_,
    batched.full, kept ▸ batched.inOrder⟩
  intro dispatch waits
  rw [kept] at waits
  obtain ⟨some, least, due⟩ := batched.waiting dispatch waits
  refine ⟨some, least, fun full => ?_⟩
  obtain rfl := Option.some.inj (due full)
  rw [pendingCount, find?_shard_of_mem batched.distinct waits] at short
  exact absurd full (Nat.ne_of_lt short)

theorem close (batched : Batched size (some shard) requests calls state.1) (before : State σ)
    (same : dispatched state = dispatched before) (full : size ≤ state.1.pendingCount shard)
    (batch : 1 ≤ size) (granted : refusal services state shard = []) :
    ∃ request, Sends before (BulkWriter.close services state shard) [request] ∧
      Batched size none (requests ++ [request]) calls
        (BulkWriter.close services state shard).1 := by
  cases found : state.1.pending.find? (·.shard == shard) with
  | none =>
    rw [pendingCount, found] at full
    exact absurd full (Nat.not_le_of_lt batch)
  | some request =>
    obtain ⟨_, closed⟩ := close_closed services state shard
    obtain rfl := closed.of_granted found granted
    have sends := closed.sends same
    obtain ⟨config, location⟩ := closed.kept
    have pending := close_pending services state shard
    obtain ⟨earlier, later, split, left, _, above, below⟩ := find?_shard_split batched.distinct found
    refine ⟨request, sends, config ▸ batched.sized, location.trans batched.numbered, ?_, ?_, ?_, ?_⟩
    · rw [pending]
      exact batched.distinct.sublist (List.eraseP_sublist.map _)
    · intro other member
      rw [pending] at member
      obtain ⟨some, least, due⟩ := batched.waiting other (List.mem_of_mem_eraseP member)
      refine ⟨some, least, fun full => ?_⟩
      have here : other.shard = shard := (Option.some.inj (due full)).symm
      rw [left] at member
      rcases List.mem_append.mp member with member | member
      · exact absurd (List.mem_map.mpr ⟨other, member, here⟩) above
      · exact absurd (List.mem_map.mpr ⟨other, member, here⟩) below
    · intro other member
      rcases List.mem_append.mp member with sent | new
      · exact batched.full other sent
      · obtain rfl := List.mem_singleton.mp new
        rw [pendingCount, found] at full
        exact Nat.le_antisymm (batched.waiting other (List.mem_of_find?_eq_some found)).2.1 full
    · intro other
      rw [itemsFor_append, List.append_assoc, pending,
        itemsFor_eraseP found batched.distinct other]
      exact batched.inOrder other

/-- One call sends at most one request, which is full. -/
theorem call (batched : Batched size none requests calls state.1) (batch : 1 ≤ size) (call : Call)
    (granted : call.refusal services state = []) :
    ∃ new, Sends state (call.apply services state) new ∧
      Batched size none (requests ++ new) (calls ++ [call]) (call.apply services state).1 := by
  cases call with
  | add target id routing operation origin =>
    let joined := BulkWriter.join target id routing operation origin state
    have ready : Batched size (some target.shard) requests _ joined.1 :=
      batched.join batch target id routing operation origin
    have asked : (Call.add target id routing operation origin).refusal services state =
        if joined.1.config.size ≤ joined.1.pendingCount target.shard then
          refusal services joined target.shard else [] := rfl
    have applied : (Call.add target id routing operation origin).apply services state =
        reap (if joined.1.config.size ≤ joined.1.pendingCount target.shard then
          flush services target.shard joined else joined) := rfl
    rw [asked] at granted
    rw [applied]
    by_cases full : joined.1.config.size ≤ joined.1.pendingCount target.shard
    · rw [if_pos full] at granted ⊢
      obtain ⟨request, sends, kept⟩ :=
        ready.close state rfl (ready.sized ▸ full) batch granted
      exact ⟨[request], sends, kept⟩
    · rw [if_neg full]
      have steady := Steady.reap joined
      refine ⟨[], .nothing steady.dispatched, (List.append_nil requests).symm ▸ ?_⟩
      exact ready.wait (ready.sized ▸ Nat.lt_of_not_le full) steady.config steady.nextLocation
        steady.pending
  | reject origin message =>
    refine ⟨[], .nothing rfl, (List.append_nil requests).symm ▸ ?_⟩
    refine batched.idle rfl ?_ rfl rfl
    rw [List.filter_append, List.length_append, ← batched.numbered]
    rfl
  | pause =>
    have steady := (Steady.lasting services state).exchange (.refl state)
    refine ⟨[], .nothing steady.dispatched, (List.append_nil requests).symm ▸ ?_⟩
    refine batched.idle rfl ?_ steady.config steady.pending
    rw [List.filter_append, ← List.append_nil (calls.filter Call.located)]
    exact steady.nextLocation.trans (by simpa [Call.located] using batched.numbered)

end Batched

/-! ### Runs -/

section Runs

variable {size : Nat} {state : State σ} {calls : List Call}

/-- Calls send full requests, and count them. -/
theorem calls_batched {config : BulkConfig} (job : Job σ) (batch : 1 ≤ config.size)
    (granted : observed (Call.apply services) (Call.refusal services) ({ config := config }, job)
      calls = []) :
    let start : State σ := ({ config := config }, job)
    let called := calls.foldl (Call.apply services) start
    let requests := observed (Call.apply services)
      (fun state call => sent state (call.apply services state)) start calls
    Batched config.size none requests calls called.1 ∧
      dispatched called = dispatched start + requests.length := by
  induction calls using List.reverseRecOn with
  | nil => exact ⟨.start config, rfl⟩
  | append_singleton calls call ih =>
    rw [observed_concat] at granted
    obtain ⟨earlier, now⟩ := List.append_eq_nil_iff.mp granted
    obtain ⟨batched, counted⟩ := ih earlier
    obtain ⟨new, sends, batched⟩ := batched.call batch call now
    intro start called requests
    have called_eq : called = call.apply services (calls.foldl (Call.apply services) start) := by
      rw [show called = _ from List.foldl_append]
      rfl
    have requests_eq : requests = _ := observed_concat ..
    rw [sends.sent] at requests_eq
    rw [requests_eq, called_eq]
    refine ⟨batched, ?_⟩
    rw [sends.counted, counted, List.length_append, Nat.add_assoc]

private theorem closes_sent (shards : List ShardId) (state : State σ)
    (all : (state.1.pending.map (·.shard)).Perm shards)
    (distinct : (state.1.pending.map (·.shard)).Nodup)
    (granted : observed (close services) (refusal services) state shards = []) :
    let requests := observed (close services)
      (fun state shard => sent state (close services state shard)) state shards
    requests.Perm state.1.pending ∧
      dispatched (shards.foldl (close services) state) = dispatched state + requests.length := by
  induction shards generalizing state with
  | nil =>
    have none := List.map_eq_nil_iff.mp all.eq_nil
    exact ⟨by rw [none]; exact .nil, rfl⟩
  | cons shard rest ih =>
    obtain ⟨now, later⟩ := List.append_eq_nil_iff.mp granted
    obtain ⟨dispatch, member, here⟩ := List.mem_map.mp (all.mem_iff.mpr List.mem_cons_self)
    have found : state.1.pending.find? (·.shard == shard) = some dispatch :=
      here ▸ find?_shard_of_mem distinct member
    have pending := close_pending services state shard
    obtain ⟨before, after, split, left, _⟩ := eraseP_split found
    have sends := close_sends rfl found now
    have others : ((close services state shard).1.pending.map (·.shard)).Perm rest := by
      rw [pending, map_shard_eraseP]
      simpa using all.erase shard
    obtain ⟨sent, counted⟩ := ih (close services state shard) others
      (by rw [pending]; exact distinct.sublist (List.eraseP_sublist.map _)) later
    intro requests
    have requests_eq : requests = dispatch :: observed (close services)
        (fun state shard => BulkWriter.sent state (close services state shard))
        (close services state shard) rest :=
      congrArg (· ++ _) sends.sent
    rw [requests_eq]
    constructor
    · rw [pending, left] at sent
      rw [split]
      exact (sent.cons dispatch).trans List.perm_middle.symm
    · rw [List.foldl_cons, counted, sends.counted]
      simp only [List.length_cons, List.length_nil]
      omega

end Runs

/-! ### The shape of requests -/

/-- Items are packed into as few parts as take them, in their order: all but the last are full, and the
last is not empty. -/
structure Packed {α : Type} (size : Nat) (items : List α) (parts : List (List α)) : Prop where
  count : parts.length = (items.length + size - 1) / size
  full : ∀ part ∈ parts.dropLast, part.length = size
  last : ∀ part ∈ parts.getLast?, 1 ≤ part.length ∧ part.length ≤ size
  inOrder : parts.flatten = items

namespace Packed

variable {α β : Type} {size : Nat} {full last : List (List α)}

theorem map {items : List α} {parts : List (List α)} (packed : Packed size items parts) (f : α → β) :
    Packed size (items.map f) (parts.map (·.map f)) where
  count := by rw [List.length_map, List.length_map, packed.count]
  full part member := by
    rw [← List.map_dropLast] at member
    obtain ⟨original, there, rfl⟩ := List.mem_map.mp member
    rw [List.length_map, packed.full original there]
  last part member := by
    rw [List.getLast?_map] at member
    obtain ⟨original, there, rfl⟩ := Option.map_eq_some_iff.mp member
    rw [List.length_map]
    exact packed.last original there
  inOrder := by rw [← packed.inOrder, List.map_flatten]

private theorem length_flatten_of_full (each : ∀ part ∈ full, part.length = size) :
    full.flatten.length = full.length * size := by
  induction full with
  | nil => exact (Nat.zero_mul size).symm
  | cons first rest ih =>
    rw [List.flatten_cons, List.length_append, each first List.mem_cons_self,
      ih fun part member => each part (.tail _ member), List.length_cons, Nat.succ_mul, Nat.add_comm]

/-- Full parts and at most one that is not are as few as their items allow. -/
theorem length_of_full (batch : 1 ≤ size) (each : ∀ part ∈ full, part.length = size)
    (short : ∀ part ∈ last, 1 ≤ part.length ∧ part.length < size) (one : last.length ≤ 1) :
    (full ++ last).length = ((full ++ last).flatten.length + size - 1) / size := by
  have count := length_flatten_of_full each
  rw [List.flatten_append, List.length_append, List.length_append, count]
  have whole (rest : Nat) : (full.length * size + rest) / size = full.length + rest / size := by
    rw [Nat.mul_comm, Nat.mul_add_div batch]
  match last, one with
  | [], _ =>
    have more : full.length * size + 0 + size - 1 = full.length * size + (size - 1) := by omega
    have none : (size - 1) / size = 0 := Nat.div_eq_of_lt (Nat.sub_lt batch Nat.one_pos)
    rw [List.flatten_nil, List.length_nil, List.length_nil, more, whole, none]
  | [part], _ =>
    obtain ⟨some, less⟩ := short part List.mem_cons_self
    have more : full.length * size + part.length + size - 1 =
        full.length * size + (part.length + size - 1) := by omega
    have one : (part.length + size - 1) / size = 1 := Nat.div_eq_of_lt_le (by omega) (by omega)
    rw [List.flatten_singleton, List.length_singleton, more, whole, one]

private theorem of_full (batch : 1 ≤ size) (each : ∀ part ∈ full, part.length = size)
    (short : ∀ part ∈ last, 1 ≤ part.length ∧ part.length < size) (one : last.length ≤ 1) :
    Packed size (full ++ last).flatten (full ++ last) where
  count := length_of_full batch each short one
  full part member := by
    match last, one with
    | [], _ =>
      rw [List.append_nil] at member
      exact each part ((List.dropLast_sublist full).subset member)
    | [_], _ =>
      rw [List.dropLast_concat] at member
      exact each part member
  last part member := by
    rcases List.mem_append.mp (List.mem_of_getLast? member) with member | member
    · exact ⟨each part member ▸ batch, Nat.le_of_eq (each part member)⟩
    · exact ⟨(short part member).1, Nat.le_of_lt (short part member).2⟩
  inOrder := rfl

end Packed

/-- Full requests that were sent, and what waits after them, pack what was added for a shard. -/
theorem Batched.packed {size : Nat} {full rest : List Dispatch} {calls : List Call}
    {writer : BulkWriter} (batched : Batched size none full calls writer) (batch : 1 ≤ size)
    (left : rest.Perm writer.pending) (shard : ShardId) :
    Packed size (addedFor shard calls)
      (((full ++ rest).filter (·.shard == shard)).map (·.items)) := by
  -- At most one request waits for the shard, so that it does not matter in which order all wait.
  have waiting : rest.filter (·.shard == shard) = writer.pending.filter (·.shard == shard) := by
    have same := left.filter (·.shard == shard)
    rw [filter_shard_eq batched.distinct shard] at same ⊢
    cases found : writer.pending.find? (·.shard == shard) with
    | none => exact (found ▸ same).eq_nil
    | some dispatch => exact (found ▸ same).eq_singleton
  have one : (writer.pending.filter (·.shard == shard)).length ≤ 1 := by
    rw [filter_shard_eq batched.distinct shard]
    exact Option.length_toList_le
  have each : ∀ part ∈ (full.filter (·.shard == shard)).map (·.items), part.length = size := by
    intro part member
    obtain ⟨request, there, rfl⟩ := List.mem_map.mp member
    exact batched.full request (List.mem_of_mem_filter there)
  have short : ∀ part ∈ (writer.pending.filter (·.shard == shard)).map (·.items),
      1 ≤ part.length ∧ part.length < size := by
    intro part member
    obtain ⟨request, there, rfl⟩ := List.mem_map.mp member
    obtain ⟨some, least, due⟩ := batched.waiting request (List.mem_of_mem_filter there)
    exact ⟨some, Nat.lt_of_le_of_ne least fun full => nomatch due full⟩
  have inOrder := batched.inOrder shard
  rw [itemsFor, itemsFor, List.flatMap_def, List.flatMap_def, ← List.flatten_append] at inOrder
  rw [List.filter_append, waiting, List.map_append, ← inOrder]
  exact .of_full batch each short (by rwa [List.length_map])

private theorem Call.location_of_mem_added {calls : List Call} {shard : ShardId} {pending : PendingItem}
    (member : (shard, pending) ∈ added calls) :
    ∃ call, (calls.filter located)[pending.item.location]? = some call ∧
      call.item? pending.item.location = some (shard, pending) := by
  obtain ⟨⟨call, location⟩, here, made⟩ := List.mem_filterMap.mp member
  have own : pending.item.location = location := by
    cases call with
    | add =>
      cases made
      rfl
    | reject | pause => cases made
  rw [own]
  exact ⟨call, List.mk_mem_zipIdx_iff_getElem?.mp here, made⟩

/-- Items of requests that pack what was added have the locations of the calls that added them. -/
theorem location_of_packed {size : Nat} {calls : List Call} {requests : List Dispatch}
    (packed : ∀ shard, Packed size (addedFor shard calls)
      ((requests.filter (·.shard == shard)).map (·.items)))
    {request : Dispatch} (member : request ∈ requests) {pending : PendingItem}
    (carried : pending ∈ request.items) :
    ∃ call, (calls.filter Call.located)[pending.item.location]? = some call ∧
      call.item? pending.item.location = some (request.shard, pending) := by
  have own : request ∈ requests.filter (·.shard == request.shard) :=
    List.mem_filter.mpr ⟨member, beq_self_eq_true request.shard⟩
  have taken : pending ∈ addedFor request.shard calls := by
    rw [← (packed request.shard).inOrder]
    exact List.mem_flatten.mpr ⟨_, List.mem_map_of_mem own, carried⟩
  obtain ⟨⟨shard, item⟩, added, rfl⟩ := List.mem_map.mp taken
  obtain ⟨added, here⟩ := List.mem_filter.mp added
  obtain rfl : shard = request.shard := by simpa using here
  exact Call.location_of_mem_added added

/-- The requests are the full ones that calls sent, and what still waited then. -/
theorem requests_split (services : Services σ) (config : BulkConfig) (job : Job σ) (calls : List Call)
    (batch : 1 ≤ config.size)
    (granted : refusals services ({ config := config }, job) calls = []) :
    let start : State σ := ({ config := config }, job)
    let called := calls.foldl (Call.apply services) start
    ∃ full rest, requests services start calls = full ++ rest ∧
      Batched config.size none full calls called.1 ∧ rest.Perm called.1.pending ∧
      dispatched (finish services called).2 = dispatched start + (full ++ rest).length := by
  intro start called
  obtain ⟨calling, closing⟩ := List.append_eq_nil_iff.mp granted
  obtain ⟨batched, counted⟩ := calls_batched job batch calling
  obtain ⟨closed, closedCounted⟩ := closes_sent (waitingShards called) called
    (List.mergeSort_perm _ _).symm batched.distinct closing
  have finished := finish_dispatched services called
  have silent : sent ((waitingShards called).foldl (close services) called)
      (finish services called).2 = [] := if_pos finished
  refine ⟨_, _, (congrArg (_ ++ ·) silent).trans (List.append_nil _), batched, closed, ?_⟩
  rw [List.length_append, finished, closedCounted, counted, Nat.add_assoc]

/-- Requests are as full as they can be. If no index is refused, the nodes are asked the requests that
were sent, each once. Of these, in the order of sending, a shard gets as few as its items allow; all but
the last are full and the last is not empty, and together they carry the items that were added for the
shard, in their order. Every item has the location of the call that added it, so that none has that of
an item that was rejected; and no other requests are counted. -/
theorem requests_full (services : Services σ) (config : BulkConfig) (job : Job (σ × List Posted))
    (calls : List Call) (batch : 1 ≤ config.size)
    (granted : refusals services.posting ({ config := config }, job) calls = []) :
    let start : State (σ × List Posted) := ({ config := config }, job)
    let last := (finish services.posting (calls.foldl (Call.apply services.posting) start)).2
    let sent := (requests services.posting start calls).map (·.posted config.options)
    ∃ handed, posted last = posted start ++ handed ∧ handed.Perm sent ∧
      (∀ shard, Packed config.size ((addedFor shard calls).map (·.item))
        ((sent.filter (·.request.shard == shard)).map (·.request.items))) ∧
      (∀ one ∈ handed, ∀ item ∈ one.request.items,
        ∃ call origin, (calls.filter Call.located)[item.location]? = some call ∧
          call.item? item.location = some (one.request.shard, ⟨item, origin⟩)) ∧
      dispatched last = dispatched start + handed.length := by
  intro start last sent
  obtain ⟨handed, asked, all⟩ := posted_finish services config job calls
  obtain ⟨full, rest, split, batched, left, counted⟩ :=
    requests_split services.posting config job calls batch granted
  have packed (shard : ShardId) := batched.packed batch left shard
  rw [← split] at packed counted
  refine ⟨handed, asked, all, fun shard => ?_, ?_, ?_⟩
  · have own : (sent.filter (·.request.shard == shard)).map (·.request.items) =
        (((requests services.posting start calls).filter (·.shard == shard)).map (·.items)).map
          (·.map (·.item)) := by
      simp only [sent, List.filter_map, List.map_map]
      rfl
    rw [own]
    exact (packed shard).map (·.item)
  · intro one member item carried
    obtain ⟨request, there, rfl⟩ := List.mem_map.mp (all.mem_iff.mp member)
    obtain ⟨pending, within, rfl⟩ := List.mem_map.mp carried
    obtain ⟨call, found, made⟩ := location_of_packed packed there within
    exact ⟨call, pending.origin, found, made⟩
  · rw [counted, all.length_eq, List.length_map]

/-- Three items for one shard make two requests of at most two, though items for another shard and one
that is malformed come in between. -/
theorem requests_full_interleaved :
    let config : BulkConfig := ⟨2, 1, 100, true, {}⟩
    let first : ShardTarget := ⟨⟨"t", 0⟩, "node-0"⟩
    let second : ShardTarget := ⟨⟨"t", 1⟩, "node-0"⟩
    let add (target : ShardTarget) (id : String) : Call := .add target id none .delete none
    let calls := [add first "a", add second "b", .reject none "malformed", add first "c", .pause,
      add second "d", add first "e"]
    let job : Job (Simulation × List Posted) :=
      ⟨"write", none, { label := "write", limit := 100000 }, [],
        { services := (Job.alone.node.services, []) }⟩
    let start : State (Simulation × List Posted) := ({ config := config }, job)
    let services := Simulation.services.posting
    let sent := (requests services start calls).map (·.posted config.options)
    let own := sent.filter (·.request.shard == first.shard)
    (1 ≤ config.size ∧ refusals services start calls = []) ∧
      (posted (finish services (calls.foldl (Call.apply services) start)).2).Perm sent ∧
      own.length = 2 ∧
      (own.flatMap (·.request.items)).map (fun item => (item.location, item.id)) =
        [(0, "a"), (3, "c"), (5, "e")] := by
  intro config first second add calls job start services sent own
  let called := calls.foldl (Call.apply services) start
  have batch : 1 ≤ config.size := by decide
  have closing : waitingShards called = [first.shard] := by
    have waiting : called.1.pending.map (·.shard) = [first.shard] := by decide +kernel
    rw [waitingShards, waiting, List.mergeSort_singleton]
  have granted : refusals services start calls = [] := by
    show _ ++ observed _ _ called (waitingShards called) = []
    rw [closing]
    exact List.isEmpty_iff.mp (by decide +kernel)
  obtain ⟨handed, asked, all, shape, -⟩ :=
    requests_full Simulation.services config job calls batch granted
  have packed := shape first.shard
  have three : (addedFor first.shard calls).map (·.item) =
      [⟨0, "a", none, .delete⟩, ⟨3, "c", none, .delete⟩, ⟨5, "e", none, .delete⟩] := rfl
  rw [three] at packed
  have whole : posted (finish services (calls.foldl (Call.apply services) start)).2 = handed := asked
  refine ⟨⟨batch, granted⟩, whole ▸ all, ?_, ?_⟩
  · rw [← List.length_map (·.request.items)]
    exact packed.count.trans (by decide)
  · rw [List.flatMap_def, packed.inOrder]
    rfl

end BulkWriter

end RowPipeline
