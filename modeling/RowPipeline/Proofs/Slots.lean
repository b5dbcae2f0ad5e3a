import Mathlib.Order.Bounds.Basic
import RowPipeline.Cluster.Admission
import RowPipeline.Proofs.DictionaryLaws
import RowPipeline.Proofs.Histories

/-!
The slots of nodes, whoever asks for them and in whatever order those who wait are looked at. The
number of slots that are taken is the number of permits, and nobody gets one beyond the limit that
they asked with.
-/

namespace RowPipeline

/-! ### Counting slots -/

namespace NodeLoads

variable {loads : NodeLoads} {held rest : List NodeName} {node other : NodeName}

private theorem load_insert (loads : NodeLoads) (node : NodeName) (given : NodeLoad) (other : NodeName) :
    load (loads.insert node given) other = if other = node then given else loads.load other := by
  unfold load
  rw [Dictionary.get?_insert]
  split <;> rfl

theorem load_grant (loads : NodeLoads) (node other : NodeName) :
    (loads.grant node).load other =
      if other = node then
        ⟨(loads.load node).inFlight + 1,
          max (loads.load node).highWater ((loads.load node).inFlight + 1)⟩
      else loads.load other :=
  load_insert loads node _ other

theorem load_release (loads : NodeLoads) (node other : NodeName) :
    (loads.release node).load other =
      if other = node then { loads.load node with inFlight := (loads.load node).inFlight - 1 }
      else loads.load other :=
  load_insert loads node _ other

/-- The slots that are taken are those of a list of nodes, each as often as it occurs. -/
def Counts (loads : NodeLoads) (held : List NodeName) : Prop :=
  ∀ node, (loads.load node).inFlight = held.count node

namespace Counts

theorem perm (counts : loads.Counts held) (same : held.Perm rest) : loads.Counts rest :=
  fun node => (counts node).trans (same.count_eq node)

theorem grant (counts : loads.Counts held) (node : NodeName) :
    (loads.grant node).Counts (node :: held) := by
  intro other
  rw [load_grant]
  by_cases same : other = node
  · subst same
    rw [if_pos rfl, List.count_cons_self, counts other]
  · rw [if_neg same, List.count_cons_of_ne (Ne.symm same), counts other]

theorem release (counts : loads.Counts (node :: rest)) : (loads.release node).Counts rest := by
  intro other
  have before := counts other
  rw [load_release]
  by_cases same : other = node
  · subst same
    rw [List.count_cons_self] at before
    rw [if_pos rfl, before, Nat.add_sub_cancel]
  · rw [List.count_cons_of_ne (Ne.symm same)] at before
    rw [if_neg same, before]

end Counts

/-- What a change of the slots leaves of a node: its greatest number is that of before or the number
of now. -/
def Tops (before after : NodeLoads) : Prop :=
  ∀ node, (after.load node).highWater =
    max (before.load node).highWater (after.load node).inFlight

/-- No node has more slots taken than there ever were. -/
def Topped (loads : NodeLoads) : Prop :=
  ∀ node, (loads.load node).inFlight ≤ (loads.load node).highWater

theorem Topped.refl (topped : loads.Topped) : Tops loads loads :=
  fun node => (Nat.max_eq_left (topped node)).symm

theorem Topped.grant (topped : loads.Topped) (node : NodeName) : Tops loads (loads.grant node) := by
  intro other
  rw [load_grant]
  split
  next same => rw [same]
  next => exact topped.refl other

theorem Topped.release (topped : loads.Topped) (node : NodeName) :
    Tops loads (loads.release node) := by
  intro other
  rw [load_release]
  split
  next same =>
    subst same
    exact (Nat.max_eq_left (Nat.le_trans (Nat.sub_le _ _) (topped other))).symm
  next => exact topped.refl other

theorem Tops.topped {before after : NodeLoads} (tops : Tops before after) : after.Topped :=
  fun node => tops node ▸ Nat.le_max_right _ _

end NodeLoads

/-! ### Slots that change -/

/-- A slot of a node is taken by someone with a limit, or given back. -/
inductive SlotChange where
  | grant (node : NodeName) (limit : Nat)
  | release (node : NodeName)

namespace SlotChange

def apply (loads : NodeLoads) : SlotChange → NodeLoads
  | .grant node _ => loads.grant node
  | .release node => loads.release node

/-- A slot is taken only by who asked for it and whose limit leaves one, and only a slot that is taken
is given back. -/
def Allowed (asked : NodeName → Nat → Prop) (loads : NodeLoads) : SlotChange → Prop
  | .grant node limit => asked node limit ∧ (loads.load node).inFlight < max limit 1
  | .release node => 0 < (loads.load node).inFlight

end SlotChange

namespace NodeLoads

variable {asked : NodeName → Nat → Prop} {changes earlier : List SlotChange} {change : SlotChange}
variable {loads : NodeLoads} {node : NodeName} {limit : Nat}

/-- The slots after changes, each of which was allowed when it was made. -/
def Evolved (asked : NodeName → Nat → Prop) (changes : List SlotChange) (loads : NodeLoads) : Prop :=
  changes.foldl SlotChange.apply [] = loads ∧
    ∀ earlier change, earlier ++ [change] <+: changes →
      change.Allowed asked (earlier.foldl SlotChange.apply [])

private theorem tops_apply (topped : loads.Topped) (change : SlotChange) :
    Tops loads (change.apply loads) := by
  cases change with
  | grant node limit => exact topped.grant node
  | release node => exact topped.release node

theorem topped_foldl (changes : List SlotChange) : (changes.foldl SlotChange.apply []).Topped := by
  induction changes using List.reverseRecOn with
  | nil =>
    intro node
    exact Nat.le_refl _
  | append_singleton changes change ih =>
    rw [List.foldl_append]
    exact (tops_apply ih change).topped

namespace Evolved

theorem nil : Evolved asked [] [] := by
  refine ⟨rfl, fun earlier change first => ?_⟩
  have none := List.prefix_nil.mp first
  simp at none

theorem concat (evolved : Evolved asked changes loads) (allowed : change.Allowed asked loads) :
    Evolved asked (changes ++ [change]) (change.apply loads) := by
  obtain ⟨rfl, each⟩ := evolved
  refine ⟨by rw [List.foldl_append]; rfl, fun earlier other first => ?_⟩
  rcases List.prefix_concat_iff.mp first with same | first
  · obtain ⟨rfl, rfl⟩ := List.append_singleton_inj.mp same
    exact allowed
  · exact each earlier other first

private theorem of_prefix (evolved : Evolved asked changes loads) (first : earlier <+: changes) :
    Evolved asked earlier (earlier.foldl SlotChange.apply []) :=
  ⟨rfl, fun before change here => evolved.2 before change (here.trans first)⟩

/-- A node of which everyone asks for slots within one limit never has more taken. -/
theorem bounded (evolved : Evolved asked changes loads)
    (common : ∀ asking, asked node asking → asking = limit) :
    (loads.load node).inFlight ≤ max limit 1 := by
  induction changes using List.reverseRecOn generalizing loads with
  | nil =>
    obtain ⟨rfl, _⟩ := evolved
    exact Nat.zero_le _
  | append_singleton changes change ih =>
    have before := ih (evolved.of_prefix (List.prefix_append _ _))
    have allowed := evolved.2 changes change List.prefix_rfl
    obtain ⟨rfl, _⟩ := evolved
    rw [List.foldl_append, List.foldl_cons, List.foldl_nil]
    generalize changes.foldl SlotChange.apply [] = loads at before allowed
    cases change with
    | grant other asking =>
      rw [SlotChange.apply, load_grant]
      by_cases same : node = other
      · subst same
        rw [if_pos rfl, ← common asking allowed.1]
        exact allowed.2
      · rwa [if_neg same]
    | release other =>
      rw [SlotChange.apply, load_release]
      by_cases same : node = other
      · subst same
        rw [if_pos rfl]
        exact Nat.le_trans (Nat.sub_le _ _) before
      · rwa [if_neg same]

/-- The most slots of a node that were ever taken are the greatest number at any time. -/
theorem isGreatest (evolved : Evolved asked changes loads) (node : NodeName) :
    IsGreatest
      (amountsOver SlotChange.apply (fun loads : NodeLoads => (loads.load node).inFlight) [] changes)
      (loads.load node).highWater := by
  obtain ⟨rfl, _⟩ := evolved
  refine isGreatest_amountsOver (fun loads : NodeLoads => (loads.load node).highWater) rfl ?_ changes
  intro changes change
  exact tops_apply (topped_foldl changes) change node

theorem highWater_le (evolved : Evolved asked changes loads)
    (common : ∀ asking, asked node asking → asking = limit) :
    (loads.load node).highWater ≤ max limit 1 := by
  obtain ⟨earlier, first, greatest⟩ := (evolved.isGreatest node).1
  rw [← greatest]
  exact (evolved.of_prefix first).bounded common

end Evolved

end NodeLoads

/-! ### What happens to slots -/

/-- What those do who take slots and give them back. -/
inductive AdmissionEvent where
  /-- Someone arrives and asks for a slot. -/
  | acquire (label : String) (node : NodeName) (limit : Nat)
  /-- A permit is given back or, by who has none, the waiting is given up. -/
  | release (label : String)
  /-- Who waits at a position, in order of arrival, is looked at once. -/
  | attempt (position : Nat)

/-- What someone who waits asked for. -/
def Waiter.request (waiter : Waiter) : String × NodeName × Nat :=
  (waiter.label, waiter.node, waiter.limit)

def AdmissionEvent.request? : AdmissionEvent → Option (String × NodeName × Nat)
  | .acquire label node limit => some (label, node, limit)
  | _ => none

namespace Admission

/-- The slots of nodes with the log of the one who keeps them. -/
abbrev Logged := Admission × Log

def attempt (position : Nat) : Logged → Logged
  | (admission, log) =>
    match admission.waiting[position]? with
    | none => (admission, log)
    | some waiter =>
      match poll admission.loads waiter log with
      | (loads, none, log) =>
        ({ loads := loads
           permits := admission.permits ++ [(waiter.label, waiter.node)]
           waiting := admission.waiting.eraseIdx position },
          log)
      | (loads, some waiter, log) =>
        ({ admission with loads := loads, waiting := admission.waiting.set position waiter }, log)

def apply : Logged → AdmissionEvent → Logged
  | (admission, log), .acquire label node limit => (admission.acquire label node limit, log)
  | (admission, log), .release label => (admission.release label, log)
  | state, .attempt position => attempt position state

def run (state : Logged) (events : List AdmissionEvent) : Logged := events.foldl apply state

/-- The nodes of which there are permits, each as often as there are. -/
def holders (admission : Admission) : List NodeName := admission.permits.map (·.2)

variable {admission : Admission} {log : Log} {waiter : Waiter} {position : Nat}

theorem run_concat (state : Logged) (events : List AdmissionEvent) (event : AdmissionEvent) :
    run state (events ++ [event]) = apply (run state events) event := by
  rw [run, List.foldl_append]
  rfl

/-- Whether a waiter finds all slots taken. -/
def Full (loads : NodeLoads) (waiter : Waiter) : Prop :=
  NodeLoads.capacity waiter.limit ≤ (loads.load waiter.node).inFlight

/-- What can come of looking at a waiter. -/
inductive Polled (loads : NodeLoads) (waiter : Waiter) :
    NodeLoads × Option Waiter → Prop
  | asleep (sleeps : waiter.awake = false) : Polled loads waiter (loads, some waiter)
  | granted (awake : waiter.awake = true)
      (room : (loads.load waiter.node).inFlight < NodeLoads.capacity waiter.limit) :
    Polled loads waiter (loads.grant waiter.node, none)
  | inVain (awake : waiter.awake = true) (full : Full loads waiter) :
    Polled loads waiter (loads, some { waiter with awake := false, waited := true })

theorem polled (loads : NodeLoads) (waiter : Waiter) (log : Log) :
    Polled loads waiter ((poll loads waiter log).1, (poll loads waiter log).2.1) := by
  unfold poll
  cases awake : waiter.awake with
  | false => exact .asleep awake
  | true =>
    by_cases room : loads.hasRoom waiter.node waiter.limit
    · simp only [NodeLoads.grant?, room, Bool.not_true, Bool.false_eq_true, if_false, if_true]
      exact .granted awake (of_decide_eq_true room)
    · simp only [NodeLoads.grant?, room, Bool.not_true, Bool.false_eq_true, if_false]
      exact .inVain awake (Nat.le_of_not_lt fun less => room (decide_eq_true less))

/-- What can come of an event. -/
inductive Happens (admission : Admission) : AdmissionEvent → Admission → Prop
  | arrival (label : String) (node : NodeName) (limit : Nat) :
    Happens admission (.acquire label node limit) (admission.acquire label node limit)
  | return_ (label : String) (node : NodeName) (before after : List (String × NodeName))
      (held : admission.permits = before ++ (label, node) :: after)
      (first : admission.permits.find? (·.1 == label) = some (label, node)) :
    Happens admission (.release label)
      { loads := admission.loads.release node
        permits := before ++ after
        waiting := admission.waiting.map (wake node) }
  | giveUp (label : String) (without : ∀ permit ∈ admission.permits, permit.1 ≠ label) :
    Happens admission (.release label)
      { admission with waiting := admission.waiting.eraseP (·.label == label) }
  | idle (position : Nat)
      (asleep : ∀ waiter, admission.waiting[position]? = some waiter → waiter.awake = false) :
    Happens admission (.attempt position) admission
  | granted (position : Nat) (waiter : Waiter)
      (waits : admission.waiting[position]? = some waiter) (awake : waiter.awake = true)
      (room : (admission.loads.load waiter.node).inFlight < NodeLoads.capacity waiter.limit) :
    Happens admission (.attempt position)
      { loads := admission.loads.grant waiter.node
        permits := admission.permits ++ [(waiter.label, waiter.node)]
        waiting := admission.waiting.eraseIdx position }
  | inVain (position : Nat) (waiter : Waiter)
      (waits : admission.waiting[position]? = some waiter) (awake : waiter.awake = true)
      (full : Full admission.loads waiter) :
    Happens admission (.attempt position)
      { admission with
        waiting := admission.waiting.set position { waiter with awake := false, waited := true } }

private theorem attempt_happens (position : Nat) (admission : Admission) (log : Log) :
    Happens admission (.attempt position) (attempt position (admission, log)).1 := by
  unfold attempt
  dsimp only
  cases waits : admission.waiting[position]? with
  | none => exact .idle position fun _ found => by cases waits.symm.trans found
  | some waiter =>
    have seen := polled admission.loads waiter log
    rcases outcome : poll admission.loads waiter log with ⟨loads, left, log'⟩
    dsimp only
    rw [outcome] at seen ⊢
    cases seen with
    | asleep sleeps =>
      have same : admission.waiting.set position waiter = admission.waiting := by
        obtain ⟨inside, rfl⟩ := List.getElem?_eq_some_iff.mp waits
        exact List.set_getElem_self inside
      dsimp only
      rw [same]
      refine .idle position fun other found => ?_
      obtain rfl := Option.some.inj (waits.symm.trans found)
      exact sleeps
    | granted awake room => exact .granted position waiter waits awake room
    | inVain awake full => exact .inVain position waiter waits awake full

private theorem release_happens (label : String) (admission : Admission) :
    Happens admission (.release label) (admission.release label) := by
  unfold release
  cases found : admission.permits.find? (·.1 == label) with
  | none =>
    exact .giveUp label (by simpa using found)
  | some permit =>
    obtain ⟨owner, node⟩ := permit
    obtain ⟨here, before, after, held, others⟩ := List.find?_eq_some_iff_append.mp found
    obtain rfl : owner = label := by simpa using here
    have unwanted : ∀ permit ∈ before, ¬(permit.1 == owner) = true := by simpa using others
    have left : admission.permits.eraseP (·.1 == owner) = before ++ after := by
      rw [held, List.eraseP_append_right _ unwanted, List.eraseP_cons_of_pos (by exact here)]
    rw [left]
    exact .return_ owner node before after held found

theorem apply_happens (state : Logged) (event : AdmissionEvent) :
    Happens state.1 event (apply state event).1 := by
  obtain ⟨admission, log⟩ := state
  cases event with
  | acquire label node limit => exact .arrival label node limit
  | release label => exact release_happens label admission
  | attempt position => exact attempt_happens position admission log

/-- The node that an event is about, if it is about any. -/
def nodeOf (admission : Admission) : AdmissionEvent → Option NodeName
  | .acquire _ node _ => some node
  | .release label =>
    match admission.permits.find? (·.1 == label) with
    | some (_, node) => some node
    | none => (admission.waiting.find? (·.label == label)).map (·.node)
  | .attempt position => admission.waiting[position]?.map (·.node)

private theorem map_request_wake (node : NodeName) (waiting : List Waiter) :
    (waiting.map (wake node)).map Waiter.request = waiting.map Waiter.request := by
  rw [List.map_map]
  refine List.map_congr_left fun waiter _ => ?_
  unfold wake
  dsimp only [Function.comp_apply]
  split <;> rfl

/-! ### What every event keeps -/

namespace Happens

variable {event : AdmissionEvent} {after : Admission}

/-- The slots go on being counted, those of permits that are kept elsewhere included. -/
theorem counts (happens : Happens admission event after) (elsewhere : List NodeName)
    (counts : admission.loads.Counts (admission.holders ++ elsewhere)) :
    after.loads.Counts (after.holders ++ elsewhere) := by
  cases happens with
  | arrival | giveUp | idle | inVain => exact counts
  | return_ label node before rest held =>
    refine NodeLoads.Counts.release (counts.perm ?_)
    simp only [holders, held, List.map_append, List.map_cons, List.append_assoc, List.cons_append]
    exact List.perm_middle
  | granted position waiter =>
    refine (counts.grant waiter.node).perm ?_
    simp only [holders, List.map_append, List.map_cons, List.map_nil, List.append_assoc,
      List.cons_append, List.nil_append]
    exact List.perm_middle.symm

theorem tops (happens : Happens admission event after) (topped : admission.loads.Topped) :
    NodeLoads.Tops admission.loads after.loads := by
  cases happens with
  | arrival | giveUp | idle | inVain => exact topped.refl
  | return_ label node => exact topped.release node
  | granted position waiter => exact topped.grant waiter.node

theorem load_eq (happens : Happens admission event after) {other : NodeName}
    (apart : admission.nodeOf event ≠ some other) :
    after.loads.load other = admission.loads.load other := by
  cases happens with
  | arrival | giveUp | idle | inVain => rfl
  | return_ label node before rest held first =>
    have different : other ≠ node := fun same => apart (by simp [nodeOf, first, same])
    rw [NodeLoads.load_release, if_neg different]
  | granted position waiter waits =>
    have different : other ≠ waiter.node := fun same => apart (by simp [nodeOf, waits, same])
    rw [NodeLoads.load_grant, if_neg different]

/-- Nobody waits without having asked, and those who wait do so in the order in which they asked. -/
theorem requests (happens : Happens admission event after) :
    (after.waiting.map Waiter.request).Sublist
      (admission.waiting.map Waiter.request ++ event.request?.toList) := by
  have kept {waiting : List Waiter} (fewer : waiting.Sublist admission.waiting) :
      (waiting.map Waiter.request).Sublist
        (admission.waiting.map Waiter.request ++ event.request?.toList) :=
    (fewer.map _).trans (List.sublist_append_left _ _)
  cases happens with
  | arrival label node limit =>
    simp only [acquire, List.map_append]
    exact .refl _
  | return_ label node =>
    rw [map_request_wake]
    exact kept (.refl _)
  | giveUp => exact kept List.eraseP_sublist
  | idle => exact kept (.refl _)
  | granted => exact kept (List.eraseIdx_sublist _ _)
  | inVain position waiter waits =>
    let tried : Waiter := { waiter with awake := false, waited := true }
    have same : (admission.waiting.set position tried).map Waiter.request =
        admission.waiting.map Waiter.request := by
      obtain ⟨inside, rfl⟩ := List.getElem?_eq_some_iff.mp waits
      rw [List.map_set, show tried.request = admission.waiting[position].request from rfl,
        ← List.map_set, List.set_getElem_self]
    rw [same]
    exact kept (.refl _)

theorem grants (happens : Happens admission event after) :
    after.permits.Sublist admission.permits ∨
      ∃ waiter ∈ admission.waiting,
        after.permits = admission.permits ++ [(waiter.label, waiter.node)] ∧
          (admission.loads.load waiter.node).inFlight < NodeLoads.capacity waiter.limit := by
  cases happens with
  | arrival | giveUp | idle | inVain => exact .inl (.refl _)
  | return_ label node before rest held =>
    rw [held]
    exact .inl ((List.sublist_cons_self (label, node) rest).append_left before)
  | granted position waiter waits awake room =>
    exact .inr ⟨waiter, List.mem_of_getElem? waits, rfl, room⟩

end Happens

/-- What holds of slots after any events. -/
structure Sound (events : List AdmissionEvent) (admission : Admission) : Prop where
  counts : admission.loads.Counts admission.holders
  topped : admission.loads.Topped
  inOrder : (admission.waiting.map Waiter.request).Sublist
    (events.filterMap AdmissionEvent.request?)

theorem Sound.asked {events : List AdmissionEvent} (sound : Sound events admission)
    (waits : waiter ∈ admission.waiting) :
    .acquire waiter.label waiter.node waiter.limit ∈ events := by
  have requested := sound.inOrder.subset (List.mem_map_of_mem waits)
  obtain ⟨event, member, asks⟩ := List.mem_filterMap.mp requested
  cases event with
  | acquire label node limit =>
    cases asks
    exact member
  | release | attempt => cases asks

theorem run_sound (log : Log) (events : List AdmissionEvent) :
    Sound events (run ({}, log) events).1 := by
  induction events using List.reverseRecOn with
  | nil => exact ⟨fun _ => rfl, fun _ => Nat.le_refl _, .slnil⟩
  | append_singleton events event ih =>
    rw [run_concat]
    have happens := apply_happens (run ({}, log) events) event
    have counts := happens.counts [] (by simpa using ih.counts)
    refine ⟨by simpa using counts, (happens.tops ih.topped).topped, happens.requests.trans ?_⟩
    rw [List.filterMap_append]
    exact ih.inOrder.append (by cases event <;> exact .refl _)

theorem isGreatest_highWater (log : Log) (events : List AdmissionEvent) (node : NodeName) :
    IsGreatest
      (amountsOver apply (fun state : Logged => (state.1.loads.load node).inFlight) ({}, log) events)
      ((run ({}, log) events).1.loads.load node).highWater := by
  refine isGreatest_amountsOver (fun state : Logged => (state.1.loads.load node).highWater) rfl ?_ events
  intro earlier event
  exact (apply_happens (run ({}, log) earlier) event).tops (run_sound log earlier).topped node

end Admission

end RowPipeline
