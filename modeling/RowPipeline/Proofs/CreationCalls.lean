import Mathlib.Data.List.Nodup
import Mathlib.Data.List.Perm.Basic
import RowPipeline.Proofs.Histories
import RowPipeline.Proofs.WriterSteps

/-!
Concurrent demands for indices. However calls and answers follow each other, one call at a time has a
request for an index on its way, and no index is created a second time.
-/

namespace RowPipeline

variable {σ : Type}

/-! ### Calls and answers -/

/-- What happens to those who ask for indices. -/
inductive CreationEvent where
  /-- One more call asks for an index. -/
  | call (index : String)
  /-- The request that is on its way for an index is answered. Where there is none, nothing happens. -/
  | answer (index : String) (outcome : Except ExecutionError Unit)

/-- What a call is told, or what the request of a call is answered. -/
structure CreationResult where
  index : String
  /-- Calls are numbered in their order. -/
  caller : Nat
  outcome : Except ExecutionError Unit

namespace CreationResult

def place (result : CreationResult) : String × Nat := (result.index, result.caller)

def succeeded (result : CreationResult) : Bool := result.outcome.isOk

end CreationResult

/-- A job, with the number of calls that there were on its node. -/
abbrev CreationState (σ : Type) := Nat × Job σ

namespace CreationEvent

/-- A creation that succeeded is counted and reported by the one whose request it was. -/
def settle (index : String) (job : Job σ) : Except ExecutionError Unit → Job σ
  | .ok () =>
    ((BulkWriter.withCreation (job.node.creation.succeed index).1 job).count fun metrics =>
      { metrics with indicesCreated := metrics.indicesCreated + 1 }).report .indexCreated
        [("index", index)]
  | .error _ => BulkWriter.withCreation (job.node.creation.fail index).1 job

def apply : CreationState σ → CreationEvent → CreationState σ
  | (calls, job), .call index =>
    (calls + 1, BulkWriter.withCreation (job.node.creation.arrive index calls).1 job)
  | (calls, job), .answer index outcome =>
    if job.node.creation.active.any (·.1 == index) then (calls, settle index job outcome)
    else (calls, job)

/-- The indices that calls ask for. -/
def asked : CreationEvent → List String
  | .call index => [index]
  | .answer _ _ => []

/-- The request that is sent, with the call it is sent for. -/
def sends : CreationState σ → CreationEvent → List (String × Nat)
  | (calls, job), .call index =>
    match (job.node.creation.arrive index calls).2 with
    | .winner => [(index, calls)]
    | .done | .waiter => []
  | (_, job), .answer index outcome =>
    if job.node.creation.active.any (·.1 == index) then
      match outcome with
      | .ok () => []
      | .error _ => ((job.node.creation.fail index).2.2.map fun next => (index, next)).toList
    else []

/-- The answer to a request, with the call that the request was sent for. -/
def answered : CreationState σ → CreationEvent → List CreationResult
  | _, .call _ => []
  | (_, job), .answer index outcome =>
    (job.node.creation.active.filter (·.1 == index)).map fun request => ⟨index, request.2, outcome⟩

/-- What calls are told. -/
def told : CreationState σ → CreationEvent → List CreationResult
  | (calls, job), .call index =>
    match (job.node.creation.arrive index calls).2 with
    | .done => [⟨index, calls, .ok ()⟩]
    | .winner | .waiter => []
  | (_, job), .answer index outcome =>
    if job.node.creation.active.any (·.1 == index) then
      match outcome with
      | .ok () => (job.node.creation.succeed index).2.map (⟨index, ·, .ok ()⟩)
      | .error error => (job.node.creation.fail index).2.1.map (⟨index, ·, .error error⟩)
    else []

section History

variable (job : Job σ) (events : List CreationEvent)

def run : CreationState σ := events.foldl apply (0, job)

def requests : List (String × Nat) := observed apply sends (0, job) events

def answers : List CreationResult := observed apply answered (0, job) events

def replies : List CreationResult := observed apply told (0, job) events

end History

end CreationEvent

/-! ### What is known of calls after events -/

/-- Every call was told its outcome, has its request on its way, or waits for the request of another
call. -/
structure CreationsTracked (before : Nat) (asked : List String) (requests : List (String × Nat))
    (answers replies : List CreationResult) (state : CreationState σ) : Prop where
  numbered : state.1 = asked.length
  single : (state.2.node.creation.active.map (·.1)).Nodup
  created : state.2.node.creation.created = (answers.filter (·.succeeded)).map (·.index)
  distinct : state.2.node.creation.created.Nodup
  settled : ∀ index ∈ state.2.node.creation.created,
    index ∉ state.2.node.creation.active.map (·.1) ∧
      index ∉ state.2.node.creation.waiting.map (·.1)
  counted : state.2.node.metrics.indicesCreated = before + state.2.node.creation.created.length
  sent : requests.Perm (answers.map (·.place) ++ state.2.node.creation.active)
  calls : (replies.map (·.place) ++ state.2.node.creation.active ++
    state.2.node.creation.waiting).Perm asked.zipIdx
  told_ok : ∀ reply ∈ replies, reply.outcome = .ok () → reply.index ∈ state.2.node.creation.created
  told_error : ∀ reply ∈ replies, ∀ error, reply.outcome = .error error → reply ∈ answers
  watched : ∀ waiter ∈ state.2.node.creation.waiting,
    waiter.1 ∈ state.2.node.creation.active.map (·.1)

/-! ### Entries of one index -/

section Entries

variable {entries : List (String × Nat)} {index : String} {caller : Nat}

theorem any_index : entries.any (·.1 == index) = true ↔ index ∈ entries.map (·.1) := by
  simp [List.mem_map]

theorem filter_index_eq_nil (absent : index ∉ entries.map (·.1)) :
    entries.filter (·.1 == index) = [] := by
  apply List.filter_eq_nil_iff.mpr
  intro entry member same
  exact absent (List.mem_map.mpr ⟨entry, member, by simpa using same⟩)

theorem filter_index_eq (single : (entries.map (·.1)).Nodup) (member : (index, caller) ∈ entries) :
    entries.filter (·.1 == index) = [(index, caller)] := by
  obtain ⟨before, after, rfl⟩ := List.append_of_mem member
  simp only [List.map_append, List.map_cons] at single
  obtain ⟨absent, -⟩ := List.nodup_cons.mp (List.perm_middle.nodup_iff.mp single)
  rw [List.mem_append, not_or] at absent
  simp [filter_index_eq_nil absent.1, filter_index_eq_nil absent.2]

theorem filter_index_perm (entries : List (String × Nat)) (index : String) :
    (entries.filter (·.1 == index) ++ entries.filter (·.1 != index)).Perm entries :=
  List.filter_append_perm _ entries

private theorem map_filter_index (entries : List (String × Nat)) (index : String) :
    (entries.filter (·.1 == index)).map (fun entry => (index, entry.2)) =
      entries.filter (·.1 == index) := by
  refine (List.map_congr_left fun entry member => ?_).trans (List.map_id _)
  obtain rfl : entry.1 = index := by simpa using (List.mem_filter.mp member).2
  rfl

theorem nodup_concat {names : List String} (distinct : names.Nodup) (new : index ∉ names) :
    (names ++ [index]).Nodup := by
  rw [← List.concat_eq_append, List.nodup_concat]
  exact ⟨new, distinct⟩

private theorem nodup_others (single : (entries.map (·.1)).Nodup) :
    ((entries.filter (·.1 != index)).map (·.1)).Nodup :=
  single.sublist (List.filter_sublist.map _)

theorem not_mem_others : index ∉ (entries.filter (·.1 != index)).map (·.1) := by
  simp [List.mem_map]

theorem mem_others {other : String} (different : other ≠ index) :
    other ∈ (entries.filter (·.1 != index)).map (·.1) ↔ other ∈ entries.map (·.1) := by
  simp only [List.mem_map, List.mem_filter, bne_iff_ne]
  constructor
  · rintro ⟨entry, ⟨member, -⟩, rfl⟩
    exact ⟨entry, member, rfl⟩
  · rintro ⟨entry, member, rfl⟩
    exact ⟨entry, ⟨member, different⟩, rfl⟩

variable {turn : List (String × Nat)}

/-- Where the entry of an index gives way to another, the other indices keep theirs. -/
theorem mem_replaced {other : String} (own : ∀ entry ∈ turn, entry.1 = index)
    (different : other ≠ index) :
    other ∈ (entries.filter (·.1 != index) ++ turn).map (·.1) ↔ other ∈ entries.map (·.1) := by
  rw [List.map_append, List.mem_append, mem_others different]
  refine ⟨fun there => there.resolve_right fun last => ?_, .inl⟩
  obtain ⟨entry, member, rfl⟩ := List.mem_map.mp last
  exact different (own entry member)

theorem nodup_replaced (single : (entries.map (·.1)).Nodup) (own : ∀ entry ∈ turn, entry.1 = index)
    (one : turn.length ≤ 1) : ((entries.filter (·.1 != index) ++ turn).map (·.1)).Nodup := by
  rw [List.map_append]
  refine List.nodup_append.mpr ⟨nodup_others single, ?_, ?_⟩
  · match turn, one with
    | [], _ => exact List.nodup_nil
    | [_], _ => exact List.nodup_singleton _
  · intro name others name' last same
    obtain ⟨entry, there, rfl⟩ := List.mem_map.mp last
    rw [same, own entry there] at others
    exact not_mem_others others

end Entries

/-! ### What calls and answers do -/

namespace IndexCreation

variable {creation : IndexCreation} {index : String} {caller : Nat}

/-- A call that comes finds the index created, waits for a request, or sends its own. -/
theorem arrive_cases (creation : IndexCreation) (index : String) (caller : Nat) :
    (index ∈ creation.created ∧ creation.arrive index caller = (creation, .done)) ∨
      (index ∉ creation.created ∧ index ∈ creation.active.map (·.1) ∧
        creation.arrive index caller =
          ({ creation with waiting := creation.waiting ++ [(index, caller)] }, .waiter)) ∨
      (index ∉ creation.created ∧ index ∉ creation.active.map (·.1) ∧
        creation.arrive index caller =
          ({ creation with active := creation.active ++ [(index, caller)] }, .winner)) := by
  unfold arrive
  by_cases done : index ∈ creation.created
  · exact .inl ⟨done, if_pos (List.contains_iff_mem.mpr done)⟩
  right
  rw [if_neg fun known => done (List.contains_iff_mem.mp known)]
  by_cases asked : index ∈ creation.active.map (·.1)
  · exact .inl ⟨done, asked, if_pos (any_index.mpr asked)⟩
  · exact .inr ⟨done, asked, if_neg fun known => asked (any_index.mp known)⟩

/-- After a failure the first call that waits sends its own request, if one waits. -/
theorem fail_apply (single : (creation.active.map (·.1)).Nodup)
    (member : (index, caller) ∈ creation.active) :
    ∃ (next : Option Nat) (waiting : List (String × Nat)),
      let turn := (next.map fun next => (index, next)).toList
      creation.fail index = ({ creation with
          active := creation.active.filter (·.1 != index) ++ turn
          waiting := waiting },
        [caller], next) ∧
      (turn ++ waiting).Perm creation.waiting ∧
      (next = none → index ∉ creation.waiting.map (·.1)) := by
  have own := filter_index_eq single member
  unfold fail
  rw [own]
  cases found : creation.waiting.find? (·.1 == index) with
  | some waiter =>
    obtain ⟨name, next⟩ := waiter
    obtain rfl : name = index := by simpa using List.find?_some found
    obtain ⟨before, after, all, left, -⟩ := BulkWriter.eraseP_split found
    refine ⟨some next, before ++ after, by rw [← left]; rfl, ?_, nofun⟩
    rw [all]
    exact (@List.perm_middle _ (name, next) before after).symm
  | none =>
    refine ⟨none, creation.waiting, ?_, .refl _, ?_⟩
    · simp
    · intro _ waits
      obtain ⟨waiter, there, rfl⟩ := List.mem_map.mp waits
      simpa using List.find?_eq_none.mp found waiter there

end IndexCreation

namespace CreationEvent

variable {calls caller : Nat} {job : Job σ} {index : String}

private theorem apply_answer (busy : index ∈ job.node.creation.active.map (·.1))
    (outcome : Except ExecutionError Unit) :
    apply (calls, job) (.answer index outcome) = (calls, settle index job outcome) :=
  if_pos (any_index.mpr busy)

private theorem sends_answer_ok : sends (calls, job) (.answer index (.ok ())) = [] := by simp [sends]

private theorem sends_answer_error (busy : index ∈ job.node.creation.active.map (·.1))
    (error : ExecutionError) :
    sends (calls, job) (.answer index (.error error)) =
      ((job.node.creation.fail index).2.2.map fun next => (index, next)).toList :=
  if_pos (any_index.mpr busy)

private theorem told_answer_error (busy : index ∈ job.node.creation.active.map (·.1))
    (error : ExecutionError) :
    told (calls, job) (.answer index (.error error)) =
      (job.node.creation.fail index).2.1.map (⟨index, ·, .error error⟩) :=
  if_pos (any_index.mpr busy)

/-- A success is told to the call whose request it was, and to those that wait. -/
theorem told_answer_ok (single : (job.node.creation.active.map (·.1)).Nodup)
    (member : (index, caller) ∈ job.node.creation.active) :
    told (calls, job) (.answer index (.ok ())) =
      ((index, caller) :: job.node.creation.waiting.filter (·.1 == index)).map
        fun call => ⟨index, call.2, .ok ()⟩ := by
  have asking := any_index.mpr (List.mem_map.mpr ⟨_, member, rfl⟩)
  simp only [told, asking, if_true, IndexCreation.succeed, filter_index_eq single member, List.map_map]
  rfl

private theorem places_told_ok (single : (job.node.creation.active.map (·.1)).Nodup)
    (member : (index, caller) ∈ job.node.creation.active) :
    (told (calls, job) (.answer index (.ok ()))).map (·.place) =
      (index, caller) :: job.node.creation.waiting.filter (·.1 == index) := by
  rw [told_answer_ok single member, List.map_map, ← map_filter_index job.node.creation.waiting index]
  simp [CreationResult.place]

end CreationEvent

namespace CreationsTracked

open CreationEvent

variable {before calls : Nat} {asked : List String} {requests : List (String × Nat)}
variable {answers replies : List CreationResult} {job : Job σ} {index : String}

theorem start (fresh : job.node.creation = {}) :
    CreationsTracked job.node.metrics.indicesCreated [] [] [] [] (0, job) := by
  constructor <;> simp [fresh]

theorem zipIdx_concat (asked : List String) (index : String) :
    (asked ++ [index]).zipIdx = asked.zipIdx ++ [(index, asked.length)] := by
  simp [List.zipIdx_append]

theorem call_done (tracked : CreationsTracked before asked requests answers replies (asked.length, job))
    (known : index ∈ job.node.creation.created)
    (arrival : job.node.creation.arrive index asked.length = (job.node.creation, .done)) :
    CreationsTracked before (asked ++ [index]) (requests ++ sends (asked.length, job) (.call index))
      answers (replies ++ told (asked.length, job) (.call index))
      (apply (asked.length, job) (.call index)) := by
  have after : apply (asked.length, job) (.call index) = (asked.length + 1, job) := by
    simp only [apply, arrival]
    rfl
  have reply : told (asked.length, job) (.call index) = [⟨index, asked.length, .ok ()⟩] := by
    simp only [told, arrival]
  have request : sends (asked.length, job) (.call index) = [] := by simp only [sends, arrival]
  rw [after, reply, request, List.append_nil]
  refine { tracked with
    numbered := by simp
    calls := ?_
    told_ok := List.forall_mem_append.mpr
      ⟨tracked.told_ok, List.forall_mem_singleton.mpr fun _ => known⟩
    told_error := List.forall_mem_append.mpr
      ⟨tracked.told_error, List.forall_mem_singleton.mpr nofun⟩ }
  have reordered := tracked.calls.append_right [(index, asked.length)]
  rw [zipIdx_concat]
  refine List.Perm.trans (List.perm_iff_count.mpr fun place => ?_) reordered
  simp only [List.map_append, List.map_cons, List.map_nil, List.count_append, CreationResult.place]
  omega

private theorem call_waiter
    (tracked : CreationsTracked before asked requests answers replies (asked.length, job))
    (missing : index ∉ job.node.creation.created)
    (watching : index ∈ job.node.creation.active.map (·.1))
    (arrival : job.node.creation.arrive index asked.length =
      ({ job.node.creation with
        waiting := job.node.creation.waiting ++ [(index, asked.length)] }, .waiter)) :
    CreationsTracked before (asked ++ [index]) (requests ++ sends (asked.length, job) (.call index))
      answers (replies ++ told (asked.length, job) (.call index))
      (apply (asked.length, job) (.call index)) := by
  have after : apply (asked.length, job) (.call index) =
      (asked.length + 1, BulkWriter.withCreation { job.node.creation with
        waiting := job.node.creation.waiting ++ [(index, asked.length)] } job) := by
    simp only [apply, arrival]
  have reply : told (asked.length, job) (.call index) = [] := by simp only [told, arrival]
  have request : sends (asked.length, job) (.call index) = [] := by simp only [sends, arrival]
  rw [after, reply, request, List.append_nil, List.append_nil]
  refine { tracked with
    numbered := by simp
    settled := ?_
    calls := ?_
    watched := List.forall_mem_append.mpr
      ⟨tracked.watched, List.forall_mem_singleton.mpr watching⟩ }
  · intro other member
    obtain ⟨idle, unwatched⟩ := tracked.settled other member
    refine ⟨idle, ?_⟩
    simp only [BulkWriter.withCreation, List.map_append, List.mem_append, not_or]
    refine ⟨unwatched, ?_⟩
    simpa using fun same : other = index => missing (same ▸ member)
  · rw [zipIdx_concat]
    simpa only [BulkWriter.withCreation, List.append_assoc] using
      tracked.calls.append_right [(index, asked.length)]

private theorem call_winner
    (tracked : CreationsTracked before asked requests answers replies (asked.length, job))
    (missing : index ∉ job.node.creation.created)
    (new : index ∉ job.node.creation.active.map (·.1))
    (arrival : job.node.creation.arrive index asked.length =
      ({ job.node.creation with
        active := job.node.creation.active ++ [(index, asked.length)] }, .winner)) :
    CreationsTracked before (asked ++ [index]) (requests ++ sends (asked.length, job) (.call index))
      answers (replies ++ told (asked.length, job) (.call index))
      (apply (asked.length, job) (.call index)) := by
  have after : apply (asked.length, job) (.call index) =
      (asked.length + 1, BulkWriter.withCreation { job.node.creation with
        active := job.node.creation.active ++ [(index, asked.length)] } job) := by
    simp only [apply, arrival]
  have reply : told (asked.length, job) (.call index) = [] := by simp only [told, arrival]
  have request : sends (asked.length, job) (.call index) = [(index, asked.length)] := by
    simp only [sends, arrival]
  rw [after, reply, request, List.append_nil]
  refine { tracked with
    numbered := by simp
    single := ?_, settled := ?_, sent := ?_, calls := ?_, watched := ?_ }
  · simp only [BulkWriter.withCreation, List.map_append, List.map_cons, List.map_nil]
    exact nodup_concat tracked.single new
  · intro other member
    obtain ⟨idle, unwatched⟩ := tracked.settled other member
    refine ⟨?_, unwatched⟩
    simp only [BulkWriter.withCreation, List.map_append, List.mem_append, not_or]
    refine ⟨idle, ?_⟩
    simpa using fun same : other = index => missing (same ▸ member)
  · simpa only [BulkWriter.withCreation, List.append_assoc] using
      tracked.sent.append_right [(index, asked.length)]
  · have reordered := tracked.calls.append_right [(index, asked.length)]
    rw [zipIdx_concat]
    refine List.Perm.trans (List.perm_iff_count.mpr fun place => ?_) reordered
    simp only [BulkWriter.withCreation, List.count_append]
    omega
  · intro waiter member
    simp only [BulkWriter.withCreation, List.map_append, List.mem_append]
    exact .inl (tracked.watched waiter member)

/-- A call is told at once that its index was created, sends its request, or waits for that of
another call. -/
theorem call (tracked : CreationsTracked before asked requests answers replies (calls, job))
    (index : String) :
    CreationsTracked before (asked ++ [index]) (requests ++ sends (calls, job) (.call index)) answers
      (replies ++ told (calls, job) (.call index)) (apply (calls, job) (.call index)) := by
  obtain rfl : calls = asked.length := tracked.numbered
  obtain ⟨known, arrival⟩ | ⟨missing, watching, arrival⟩ | ⟨missing, new, arrival⟩ :=
    job.node.creation.arrive_cases index asked.length
  · exact tracked.call_done known arrival
  · exact tracked.call_waiter missing watching arrival
  · exact tracked.call_winner missing new arrival

private theorem answer_ok {caller : Nat}
    (tracked : CreationsTracked before asked requests answers replies (calls, job))
    (member : (index, caller) ∈ job.node.creation.active) :
    CreationsTracked before asked (requests ++ sends (calls, job) (.answer index (.ok ())))
      (answers ++ [⟨index, caller, .ok ()⟩])
      (replies ++ told (calls, job) (.answer index (.ok ())))
      (apply (calls, job) (.answer index (.ok ()))) := by
  have busy : index ∈ job.node.creation.active.map (·.1) := List.mem_map.mpr ⟨_, member, rfl⟩
  have new : index ∉ job.node.creation.created := fun known =>
    (tracked.settled index known).1 busy
  have active := filter_index_perm job.node.creation.active index
  rw [filter_index_eq tracked.single member] at active
  have waiting := filter_index_perm job.node.creation.waiting index
  have places : (told (calls, job) (.answer index (.ok ()))).map (·.place) = _ :=
    places_told_ok tracked.single member
  have all_ok : ∀ answer ∈ told (calls, job) (.answer index (.ok ())),
      answer.index = index ∧ answer.outcome = .ok () := by
    rw [told_answer_ok tracked.single member]
    exact List.forall_mem_map.mpr fun _ _ => ⟨rfl, rfl⟩
  rw [apply_answer busy, sends_answer_ok, List.append_nil]
  constructor
  case numbered => exact tracked.numbered
  case single => exact nodup_others tracked.single
  case created =>
    rw [List.filter_append, List.map_append, ← tracked.created]
    rfl
  case distinct => exact nodup_concat tracked.distinct new
  case settled =>
    refine List.forall_mem_append.mpr ⟨fun other old => ?_, List.forall_mem_singleton.mpr
      ⟨not_mem_others, not_mem_others⟩⟩
    obtain ⟨idle, unwatched⟩ := tracked.settled other old
    have different : other ≠ index := fun same => new (same ▸ old)
    exact ⟨fun there => idle ((mem_others different).mp there),
      fun there => unwatched ((mem_others different).mp there)⟩
  case counted =>
    have counted := tracked.counted
    simp only [settle, BulkWriter.withCreation, Job.count, Job.report, IndexCreation.succeed,
      List.length_append, List.length_singleton] at counted ⊢
    omega
  case sent =>
    refine tracked.sent.trans ((active.symm.append_left _).trans ?_)
    rw [List.map_append, List.append_assoc]
    rfl
  case calls =>
    refine List.Perm.trans (List.perm_iff_count.mpr fun place => ?_) tracked.calls
    have := active.count_eq place
    have := waiting.count_eq place
    simp only [List.map_append, places, settle, BulkWriter.withCreation, Job.count, Job.report,
      IndexCreation.succeed, List.count_append, List.count_cons, List.count_nil] at *
    omega
  case told_ok =>
    refine List.forall_mem_append.mpr ⟨fun answer old fine => ?_, fun answer last _ => ?_⟩
    · exact List.mem_append_left _ (tracked.told_ok answer old fine)
    · exact List.mem_append_right _ (List.mem_singleton.mpr (all_ok answer last).1)
  case told_error =>
    refine List.forall_mem_append.mpr ⟨fun answer old error failed => ?_,
      fun answer last error failed => ?_⟩
    · exact List.mem_append_left _ (tracked.told_error answer old error failed)
    · rw [(all_ok answer last).2] at failed
      cases failed
  case watched =>
    intro waiter member
    obtain ⟨waits, different⟩ := List.mem_filter.mp member
    exact (mem_others (by simpa using different)).mpr (tracked.watched waiter waits)

/-- A failure is told to the call whose request it was. If another call waits, its request is sent;
otherwise the next call that comes sends one. -/
theorem answer_error {caller : Nat}
    (tracked : CreationsTracked before asked requests answers replies (calls, job))
    (member : (index, caller) ∈ job.node.creation.active) (error : ExecutionError) :
    CreationsTracked before asked (requests ++ sends (calls, job) (.answer index (.error error)))
      (answers ++ [⟨index, caller, .error error⟩])
      (replies ++ told (calls, job) (.answer index (.error error)))
      (apply (calls, job) (.answer index (.error error))) := by
  have busy : index ∈ job.node.creation.active.map (·.1) := List.mem_map.mpr ⟨_, member, rfl⟩
  have new : index ∉ job.node.creation.created := fun known =>
    (tracked.settled index known).1 busy
  have active := filter_index_perm job.node.creation.active index
  rw [filter_index_eq tracked.single member] at active
  obtain ⟨next, waiting, failed, waits, nobody⟩ := IndexCreation.fail_apply tracked.single member
  rw [apply_answer busy, sends_answer_error busy, told_answer_error busy, settle, failed]
  set turn := (next.map fun next => (index, next)).toList
  have own : ∀ entry ∈ turn, entry.1 = index := by simp [turn]
  refine { tracked with
    single := nodup_replaced tracked.single own Option.length_toList_le
    created := ?created, settled := ?settled, sent := ?sent, calls := ?calls
    told_ok := List.forall_mem_append.mpr ⟨tracked.told_ok, List.forall_mem_singleton.mpr nofun⟩
    told_error := List.forall_mem_append.mpr
      ⟨fun answer old error' failed =>
        List.mem_append_left _ (tracked.told_error answer old error' failed),
        List.forall_mem_singleton.mpr fun _ _ => List.mem_concat_self⟩
    watched := ?watched }
  case created =>
    rw [List.filter_append, List.map_append, ← tracked.created]
    exact (List.append_nil _).symm
  case settled =>
    intro other member
    obtain ⟨idle, unwatched⟩ := tracked.settled other member
    have different : other ≠ index := fun same => new (same ▸ member)
    exact ⟨fun there => idle ((mem_replaced own different).mp there), fun there => unwatched
      ((waits.map (·.1)).subset (List.map_append ▸ List.mem_append_right _ there))⟩
  case sent =>
    refine List.perm_iff_count.mpr fun place => ?_
    have := tracked.sent.count_eq place
    have := active.count_eq place
    simp only [BulkWriter.withCreation, List.map_append, List.map_cons, List.map_nil,
      CreationResult.place, List.count_append] at *
    omega
  case calls =>
    refine List.Perm.trans (List.perm_iff_count.mpr fun place => ?_) tracked.calls
    have := active.count_eq place
    have := waits.count_eq place
    simp only [BulkWriter.withCreation, List.map_append, List.map_cons, List.map_nil,
      CreationResult.place, List.count_append] at *
    omega
  case watched =>
    intro waiter there
    have watching := tracked.watched waiter (waits.subset (List.mem_append_right _ there))
    by_cases same : waiter.1 = index
    · cases next with
      | some next => simp [BulkWriter.withCreation, turn, same]
      | none =>
        have waited : waiter ∈ job.node.creation.waiting := waits.subset there
        exact absurd (List.mem_map.mpr ⟨waiter, waited, same⟩) (nobody rfl)
    · exact (mem_replaced own same).mpr watching

/-- A request that is answered was the only one for its index. Its success is noted once. After a
failure one of the calls that wait sends the next request. -/
theorem answer (tracked : CreationsTracked before asked requests answers replies (calls, job))
    (index : String) (outcome : Except ExecutionError Unit) :
    CreationsTracked before asked (requests ++ sends (calls, job) (.answer index outcome))
      (answers ++ answered (calls, job) (.answer index outcome))
      (replies ++ told (calls, job) (.answer index outcome))
      (apply (calls, job) (.answer index outcome)) := by
  by_cases busy : index ∈ job.node.creation.active.map (·.1)
  · have asking := any_index.mpr busy
    obtain ⟨⟨name, caller⟩, member, rfl⟩ := List.mem_map.mp busy
    have own := filter_index_eq tracked.single member
    have answer : answered (calls, job) (.answer name outcome) = [⟨name, caller, outcome⟩] := by
      simp only [answered, own, List.map_cons, List.map_nil]
    rw [answer]
    cases outcome with
    | ok _ => exact tracked.answer_ok member
    | error error => exact tracked.answer_error member error
  · have quiet : job.node.creation.active.any (·.1 == index) = false :=
      Bool.eq_false_iff.mpr fun known => busy (any_index.mp known)
    simpa [sends, answered, told, apply, quiet, filter_index_eq_nil busy] using tracked

theorem step (tracked : CreationsTracked before asked requests answers replies (calls, job))
    (event : CreationEvent) :
    CreationsTracked before (asked ++ event.asked) (requests ++ event.sends (calls, job))
      (answers ++ event.answered (calls, job)) (replies ++ event.told (calls, job))
      (event.apply (calls, job)) := by
  cases event with
  | call index => simpa [CreationEvent.asked, answered] using tracked.call index
  | answer index outcome => simpa [CreationEvent.asked] using tracked.answer index outcome

theorem history (fresh : job.node.creation = {}) (events : List CreationEvent) :
    CreationsTracked job.node.metrics.indicesCreated (events.flatMap CreationEvent.asked)
      (CreationEvent.requests job events) (CreationEvent.answers job events)
      (CreationEvent.replies job events) (run job events) := by
  induction events using List.reverseRecOn with
  | nil => exact .start fresh
  | append_singleton events event ih =>
    unfold CreationEvent.requests CreationEvent.answers CreationEvent.replies run at ih ⊢
    simp only [observed_concat, List.flatMap_append, List.flatMap_singleton, List.foldl_append,
      List.foldl_cons, List.foldl_nil]
    exact ih.step event

variable {state : CreationState σ}

private theorem exists_success
    (tracked : CreationsTracked before asked requests answers replies state)
    (known : index ∈ state.2.node.creation.created) :
    ∃ answer ∈ answers, answer.index = index ∧ answer.outcome = .ok () := by
  rw [tracked.created] at known
  obtain ⟨answer, there, rfl⟩ := List.mem_map.mp known
  obtain ⟨member, fine⟩ := List.mem_filter.mp there
  refine ⟨answer, member, rfl, ?_⟩
  cases outcome : answer.outcome with
  | ok => rfl
  | error => simp [CreationResult.succeeded, outcome, Except.isOk, Except.toBool] at fine

private theorem countP_active_le_one
    (tracked : CreationsTracked before asked requests answers replies state) (index : String) :
    state.2.node.creation.active.countP (·.1 == index) ≤ 1 := by
  rw [List.countP_eq_length_filter]
  by_cases busy : index ∈ state.2.node.creation.active.map (·.1)
  · obtain ⟨⟨name, caller⟩, member, rfl⟩ := List.mem_map.mp busy
    rw [filter_index_eq tracked.single member]
    exact Nat.le_refl 1
  · rw [filter_index_eq_nil busy]
    exact Nat.zero_le 1

private theorem calls_of_idle (tracked : CreationsTracked before asked requests answers replies state)
    (done : requests.length = answers.length) : (replies.map (·.place)).Perm asked.zipIdx := by
  have lengths := tracked.sent.length_eq
  have idle : state.2.node.creation.active = [] := by
    apply List.length_eq_zero_iff.mp
    simp only [List.length_append, List.length_map] at lengths
    omega
  have nobody : state.2.node.creation.waiting = [] := by
    apply List.eq_nil_iff_forall_not_mem.mpr
    intro waiter member
    simpa [idle] using tracked.watched waiter member
  simpa [idle, nobody] using tracked.calls

end CreationsTracked

/-! ### One winner -/

namespace CreationEvent

/-- What is true of all calls, requests and answers at any time. -/
structure SingleWinner (job : Job σ) (events : List CreationEvent) : Prop where
  /-- No index has two requests on their way. -/
  one_on_its_way : ∀ index, ∃ waits ≤ 1, (requests job events).countP (·.1 == index) =
    (answers job events).countP (·.index == index) + waits
  one_success : (((answers job events).filter (·.succeeded)).map (·.index)).Nodup
  counted : (run job events).2.node.metrics.indicesCreated =
    job.node.metrics.indicesCreated + (answers job events).countP (·.succeeded)
  told_once : ((replies job events).map (·.caller)).Nodup
  told_own : ∀ reply ∈ replies job events,
    (events.flatMap asked)[reply.caller]? = some reply.index
  /-- Whoever is told that an index is there is told so after its creation. -/
  ok_created : ∀ reply ∈ replies job events, reply.outcome = .ok () →
    ∃ answer ∈ answers job events, answer.index = reply.index ∧ answer.outcome = .ok ()
  /-- Whoever is told an error sent a request that was answered with it. -/
  error_own : ∀ reply ∈ replies job events, ∀ error, reply.outcome = .error error →
    reply.place ∈ requests job events ∧ reply ∈ answers job events
  /-- As long as an index was not created, the request of one call is on its way, or the next call
  sends one. -/
  retried : ∀ index, (∀ answer ∈ answers job events, answer.index = index → ¬answer.succeeded) →
    (∃ caller, ∀ outcome,
      answered (run job events) (.answer index outcome) = [⟨index, caller, outcome⟩]) ∨
    sends (run job events) (.call index) = [(index, (events.flatMap asked).length)]
  /-- Once all requests are answered, every call was told its outcome. -/
  all_told : (requests job events).length = (answers job events).length →
    ((replies job events).map (·.place)).Perm (events.flatMap asked).zipIdx

variable {job : Job σ}

theorem singleWinner (fresh : job.node.creation = {}) (events : List CreationEvent) :
    SingleWinner job events := by
  have tracked := CreationsTracked.history fresh events
  constructor
  case one_on_its_way =>
    refine fun index => ⟨_, tracked.countP_active_le_one index, ?_⟩
    rw [tracked.sent.countP_eq, List.countP_append, List.countP_map]
    rfl
  case one_success => exact tracked.created ▸ tracked.distinct
  case counted =>
    rw [tracked.counted, tracked.created, List.length_map, List.countP_eq_length_filter]
  case told_once =>
    have numbers := tracked.calls.map (·.2)
    rw [List.zipIdx_map_snd] at numbers
    have distinct := numbers.nodup_iff.mpr (List.nodup_range' ..)
    simp only [List.map_append, List.map_map, List.append_assoc] at distinct
    exact (List.nodup_append.mp distinct).1
  case told_own =>
    intro reply member
    have placed : reply.place ∈ (events.flatMap asked).zipIdx :=
      tracked.calls.subset (List.mem_append_left _ (List.mem_append_left _
        (List.mem_map.mpr ⟨reply, member, rfl⟩)))
    exact List.mem_zipIdx_iff_getElem?.mp placed
  case ok_created =>
    exact fun reply member fine => tracked.exists_success (tracked.told_ok reply member fine)
  case error_own =>
    intro reply member error failed
    have answered := tracked.told_error reply member error failed
    refine ⟨tracked.sent.symm.subset (List.mem_append_left _ ?_), answered⟩
    exact List.mem_map.mpr ⟨reply, answered, rfl⟩
  case retried =>
    intro index failed
    have missing : index ∉ (run job events).2.node.creation.created := by
      intro known
      obtain ⟨answer, member, same, fine⟩ := tracked.exists_success known
      exact failed answer member same (by rw [CreationResult.succeeded, fine]; rfl)
    obtain ⟨known, -⟩ | ⟨-, busy, -⟩ | ⟨-, -, arrival⟩ :=
      (run job events).2.node.creation.arrive_cases index (events.flatMap asked).length
    · exact absurd known missing
    · left
      obtain ⟨⟨name, caller⟩, member, rfl⟩ := List.mem_map.mp busy
      refine ⟨caller, fun outcome => ?_⟩
      simp only [answered, filter_index_eq tracked.single member, List.map_cons, List.map_nil]
    · right
      simp only [sends, tracked.numbered, arrival]
  case all_told => exact tracked.calls_of_idle

end CreationEvent

end RowPipeline
