import RowPipeline.Proofs.Slots

/-!
Nobody is left behind. Who sleeps was awake when the slots were last given back, so that one round of
tries after any events leaves only those waiting for whom there is no slot.
-/

namespace RowPipeline

namespace Admission

variable {admission after : Admission} {event : AdmissionEvent} {loads : NodeLoads} {log : Log}

/-- Lets all who wait try once, in order of arrival. -/
def round : Logged → Logged
  | (admission, log) =>
    let (admission, _, log) := admission.settle log
    (admission, log)

/-- Events, with a round of tries after each. -/
def rounds (state : Logged) (events : List AdmissionEvent) : Logged :=
  events.foldl (fun state event => round (apply state event)) state

private theorem rounds_concat (state : Logged) (events : List AdmissionEvent) (event : AdmissionEvent) :
    rounds state (events ++ [event]) = round (apply (rounds state events) event) := by
  rw [rounds, List.foldl_append]
  rfl

/-! ### Who sleeps -/

/-- Whoever sleeps would find no slot. -/
def Alert (admission : Admission) : Prop :=
  ∀ waiter ∈ admission.waiting, waiter.awake = false → Full admission.loads waiter

theorem Full.grant {waiter : Waiter} (full : Full loads waiter) (node : NodeName) :
    Full (loads.grant node) waiter := by
  refine Nat.le_trans full ?_
  rw [NodeLoads.load_grant]
  split
  next same => exact same ▸ Nat.le_succ _
  next => exact Nat.le_refl _

/-- A slot that is given back wakes all who could take it. -/
theorem Happens.alert (happens : Happens admission event after) (alert : admission.Alert) :
    after.Alert := by
  cases happens with
  | arrival label node limit =>
    intro waiter waits asleep
    rcases List.mem_append.mp waits with earlier | new
    · exact alert waiter earlier asleep
    · rw [List.mem_singleton.mp new] at asleep
      cases asleep
  | return_ label node =>
    intro waiter waits asleep
    obtain ⟨sleeper, slept, rfl⟩ := List.mem_map.mp waits
    unfold wake at asleep ⊢
    split at asleep
    · cases asleep
    next elsewhere =>
      rw [if_neg elsewhere]
      have other : sleeper.node ≠ node := by simpa using elsewhere
      unfold Full
      rw [NodeLoads.load_release, if_neg other]
      exact alert sleeper slept asleep
  | giveUp => exact fun waiter waits => alert waiter (List.mem_of_mem_eraseP waits)
  | idle => exact alert
  | granted position granted =>
    intro waiter waits asleep
    exact (alert waiter (List.mem_of_mem_eraseIdx waits) asleep).grant granted.node
  | inVain position tried waits awake full =>
    intro waiter member asleep
    rcases List.mem_or_eq_of_mem_set member with earlier | rfl
    · exact alert waiter earlier asleep
    · exact full

theorem run_alert (log : Log) (events : List AdmissionEvent) : (run ({}, log) events).1.Alert := by
  induction events using List.reverseRecOn with
  | nil => exact fun _ none => nomatch none
  | append_singleton events event ih =>
    rw [run_concat]
    exact (apply_happens _ event).alert ih

/-! ### One round -/

/-- A round is made of single tries, those who got no slot being passed over. -/
theorem pollAll_eq_run (waiters before : List Waiter) (loads : NodeLoads)
    (permits : List (String × NodeName)) (log : Log) :
    let (loads', granted, left, log') := pollAll waiters loads log
    ∃ positions : List Nat,
      run (⟨loads, permits, before ++ waiters⟩, log) (positions.map .attempt) =
        (⟨loads', permits ++ granted.map fun waiter => (waiter.label, waiter.node), before ++ left⟩,
          log') := by
  induction waiters generalizing before loads permits log with
  | nil => exact ⟨[], by simp [run]⟩
  | cons waiter rest ih =>
    have waits : (before ++ waiter :: rest)[before.length]? = some waiter := by simp
    unfold pollAll
    rcases outcome : poll loads waiter log with ⟨loads₁, _ | left, log₁⟩
    · obtain ⟨positions, same⟩ := ih before loads₁ (permits ++ [(waiter.label, waiter.node)]) log₁
      refine ⟨before.length :: positions, ?_⟩
      have tried : attempt before.length (⟨loads, permits, before ++ waiter :: rest⟩, log) =
          (⟨loads₁, permits ++ [(waiter.label, waiter.node)], before ++ rest⟩, log₁) := by
        simp only [attempt, waits, outcome]
        rw [List.eraseIdx_append_of_length_le (Nat.le_refl _), Nat.sub_self, List.eraseIdx_zero,
          List.tail_cons]
      rw [List.map_cons, run, List.foldl_cons, apply, tried]
      simpa [run] using same
    · obtain ⟨positions, same⟩ := ih (before ++ [left]) loads₁ permits log₁
      refine ⟨before.length :: positions, ?_⟩
      have tried : attempt before.length (⟨loads, permits, before ++ waiter :: rest⟩, log) =
          (⟨loads₁, permits, before ++ [left] ++ rest⟩, log₁) := by
        simp only [attempt, waits, outcome]
        rw [List.set_append_right _ _ (Nat.le_refl _), Nat.sub_self, List.set_cons_zero,
          List.append_cons]
      rw [List.map_cons, run, List.foldl_cons, apply, tried]
      simpa [run] using same

private theorem round_eq_run (state : Logged) :
    ∃ positions : List Nat, round state = run state (positions.map .attempt) := by
  obtain ⟨⟨loads, permits, waiting⟩, log⟩ := state
  obtain ⟨positions, same⟩ := pollAll_eq_run waiting [] loads permits log
  exact ⟨positions, same.symm⟩

/-- What one round makes of those who wait. -/
structure Settled (loads : NodeLoads) (waiters : List Waiter) (after : NodeLoads)
    (granted left : List Waiter) : Prop where
  grown : ∀ node, (loads.load node).inFlight ≤ (after.load node).inFlight
  full : ∀ waiter ∈ left, Full after waiter
  everyone : ((granted ++ left).map Waiter.request).Perm (waiters.map Waiter.request)

/-- Those who were passed over would find no slot after the round either, since it gives none back. -/
theorem pollAll_settled (waiters : List Waiter) (loads : NodeLoads) (log : Log)
    (alert : ∀ waiter ∈ waiters, waiter.awake = false → Full loads waiter) :
    let (after, granted, left, _) := pollAll waiters loads log
    Settled loads waiters after granted left := by
  induction waiters generalizing loads log with
  | nil => exact ⟨fun _ => Nat.le_refl _, nofun, .nil⟩
  | cons waiter rest ih =>
    have others : ∀ waiter ∈ rest, waiter.awake = false → Full loads waiter :=
      fun other member => alert other (.tail _ member)
    have seen := polled loads waiter log
    -- A waiter that is left joins those that the rest of the round leaves.
    have join {left : Waiter} {log' : Log} (same : left.request = waiter.request)
        (full : Full loads left) :
        let (after, granted, others, _) := pollAll rest loads log'
        Settled loads (waiter :: rest) after granted (left :: others) := by
      obtain ⟨grown, none, everyone⟩ := ih loads log' others
      refine ⟨grown, ?_, ?_⟩
      · rintro _ (_ | ⟨_, member⟩)
        · exact Nat.le_trans full (grown left.node)
        · exact none _ member
      · refine (List.perm_middle.map _).trans ?_
        rw [List.map_cons, List.map_cons, same]
        exact everyone.cons _
    unfold pollAll
    rcases outcome : poll loads waiter log with ⟨loads', left?, log'⟩
    rw [outcome] at seen
    cases seen with
    | asleep sleeps => exact join rfl (alert waiter List.mem_cons_self sleeps)
    | inVain awake full => exact join rfl full
    | granted awake room =>
      obtain ⟨grown, none, everyone⟩ :=
        ih (loads.grant waiter.node) log' fun other member asleep =>
          (others other member asleep).grant waiter.node
      refine ⟨fun node => Nat.le_trans ?_ (grown node), none, everyone.cons _⟩
      rw [NodeLoads.load_grant]
      split
      next same => exact same ▸ Nat.le_succ _
      next => exact Nat.le_refl _

/-- Rounds after each event are a way of looking at those who wait. -/
theorem rounds_eq_run (log : Log) (events : List AdmissionEvent) :
    ∃ tries, rounds ({}, log) events = run ({}, log) tries ∧
      tries.filterMap AdmissionEvent.request? = events.filterMap AdmissionEvent.request? := by
  induction events using List.reverseRecOn with
  | nil => exact ⟨[], rfl, rfl⟩
  | append_singleton events event ih =>
    obtain ⟨tries, same, asked⟩ := ih
    obtain ⟨positions, settled⟩ := round_eq_run (apply (rounds ({}, log) events) event)
    refine ⟨tries ++ [event] ++ positions.map .attempt, ?_, ?_⟩
    · rw [rounds_concat, settled, same, run, run, run, List.foldl_append, List.foldl_append]
      rfl
    · have silent : (positions.map AdmissionEvent.attempt).filterMap AdmissionEvent.request? = [] := by
        simp [AdmissionEvent.request?]
      rw [List.filterMap_append, silent, List.append_nil, List.filterMap_append,
        List.filterMap_append, asked]

/-- A round gives slots to some of those who wait, and leaves those for whom there is none. -/
theorem round_settled {state : Logged} (alert : state.1.Alert) :
    ∃ granted : List Waiter,
      (round state).1.permits =
          state.1.permits ++ granted.map (fun waiter => (waiter.label, waiter.node)) ∧
        Settled state.1.loads state.1.waiting (round state).1.loads granted (round state).1.waiting := by
  obtain ⟨⟨loads, permits, waiting⟩, log⟩ := state
  exact ⟨_, rfl, pollAll_settled waiting loads log alert⟩

/-- Nobody is left behind. After each event and a round of tries, nobody waits for a node that has a
slot for them; who waited before the round has a slot now or goes on waiting for the same, in the order
of arrival. A round does that whenever those who wait were looked at before. -/
theorem nobody_left_behind (log : Log) (events : List AdmissionEvent) (event : AdmissionEvent) :
    let before := apply (rounds ({}, log) events) event
    let after := rounds ({}, log) (events ++ [event])
    (∀ waiter ∈ after.1.waiting,
        ¬(after.1.loads.load waiter.node).inFlight < max waiter.limit 1) ∧
      (∃ granted : List Waiter,
        after.1.permits =
            before.1.permits ++ granted.map (fun waiter => (waiter.label, waiter.node)) ∧
          ((granted ++ after.1.waiting).map Waiter.request).Perm
            (before.1.waiting.map Waiter.request)) ∧
      (after.1.waiting.map Waiter.request).Sublist
        ((events ++ [event]).filterMap AdmissionEvent.request?) ∧
      ∀ tries, ∀ waiter ∈ (round (run ({}, log) tries)).1.waiting,
        ¬((round (run ({}, log) tries)).1.loads.load waiter.node).inFlight < max waiter.limit 1 := by
  intro before after
  have settle (tries : List AdmissionEvent) := round_settled (run_alert log tries)
  obtain ⟨tries, ran, _⟩ := rounds_eq_run log events
  have reached : before = run ({}, log) (tries ++ [event]) := by
    rw [run_concat, ← ran]
  have settled : after = round before := rounds_concat ({}, log) events event
  obtain ⟨granted, given, outcome⟩ := settle (tries ++ [event])
  rw [← reached, ← settled] at given outcome
  refine ⟨?_, ⟨granted, given, outcome.everyone⟩, ?_, ?_⟩
  · intro waiter waits
    exact Nat.not_lt.mpr (outcome.full waiter waits)
  · obtain ⟨all, ran, asked⟩ := rounds_eq_run log (events ++ [event])
    show (List.map _ (rounds ({}, log) (events ++ [event])).1.waiting).Sublist _
    rw [ran, ← asked]
    exact (run_sound log all).inOrder
  · intro tries waiter waits
    obtain ⟨_, _, outcome⟩ := settle tries
    exact Nat.not_lt.mpr (outcome.full waiter waits)

end Admission

end RowPipeline
