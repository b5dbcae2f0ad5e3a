import Mathlib.Algebra.GroupWithZero.Nat
import RowPipeline.Job
import RowPipeline.Proofs.Histories

/-!
The memory of a job with many holders. Whatever they do to their shares and in whatever order, the
account tells exactly what they hold together, which is never more than the limit, and it remembers
the most that they ever held.
-/

namespace RowPipeline

variable {σ : Type}

/-! ### Charging and releasing within a limit -/

namespace MemoryShare

variable {share : MemoryShare} {account : MemoryAccount} {bytes : Nat}

private theorem charge?_of_le (finite : account.limit < MemoryAccount.unlimited)
    (held : share.charged ≤ account.used) (fits : account.used + bytes ≤ account.limit) :
    share.charge? bytes account = some (⟨share.charged + bytes⟩,
      { account with
        used := account.used + bytes, peak := max account.peak (account.used + bytes) }) := by
  have exact : account.after bytes = account.used + bytes := Nat.min_eq_left (by omega)
  have whole : (share.charged + bytes) % (MemoryAccount.unlimited + 1) = share.charged + bytes :=
    Nat.mod_eq_of_lt (by omega)
  rw [charge?, MemoryAccount.charge?, exact, if_neg (by omega), Option.map_some, whole]

private theorem charge?_of_lt (finite : account.limit < MemoryAccount.unlimited)
    (exceeds : account.limit < account.used + bytes) : share.charge? bytes account = none := by
  have above : account.limit < account.after bytes := Nat.lt_min.mpr ⟨exceeds, finite⟩
  rw [charge?, MemoryAccount.charge?, if_pos above, Option.map_none]

end MemoryShare

namespace Job

variable {share : MemoryShare} {job : Job σ} {bytes : Nat}

theorem charge_of_le (finite : job.memory.limit < MemoryAccount.unlimited)
    (held : share.charged ≤ job.memory.used) (fits : job.memory.used + bytes ≤ job.memory.limit) :
    job.charge share bytes = (.ok ⟨share.charged + bytes⟩,
      { job with memory := { job.memory with
        used := job.memory.used + bytes
        peak := max job.memory.peak (job.memory.used + bytes) } }) := by
  rw [charge, MemoryShare.charge?_of_le finite held fits]

theorem charge_of_lt (finite : job.memory.limit < MemoryAccount.unlimited)
    (exceeds : job.memory.limit < job.memory.used + bytes) :
    job.charge share bytes = (.error (job.memory.refusal bytes),
      job.report .memoryLimitExceeded (refusalFields job.memory bytes)) := by
  rw [charge, MemoryShare.charge?_of_lt finite exceeds]

end Job

/-! ### Holders -/

/-- What a holder does to its share of the memory of a job. -/
inductive MemoryEvent where
  /-- A new holder takes the next place, with an empty share. -/
  | enter
  | charge (place bytes : Nat)
  | release (place bytes : Nat)
  | releaseAll (place : Nat)
  /-- The holder gives back all that it has, and its place stays empty. -/
  | leave (place : Nat)

/-- A job and the shares of its memory, by the places of their holders. -/
structure SharedMemory (σ : Type) where
  job : Job σ
  shares : List (Option MemoryShare) := []

namespace SharedMemory

/-- A job with fresh memory that nobody holds. -/
def start (job : Job σ) (label : String) (limit : Nat) : SharedMemory σ :=
  { job := { job with memory := { label := label, limit := limit } } }

/-- What is charged to a place; nothing once its holder left. -/
def charged (share : Option MemoryShare) : Nat := (share.map (·.charged)).getD 0

/-- What is charged to all holders together. -/
def held (memory : SharedMemory σ) : Nat := (memory.shares.map charged).sum

/-- Lets the holder of a place act, if there is one. -/
def act (memory : SharedMemory σ) (place : Nat)
    (action : MemoryShare → Job σ → Option MemoryShare × Job σ) : SharedMemory σ :=
  match memory.shares[place]? with
  | some (some share) =>
    let (share, job) := action share memory.job
    ⟨job, memory.shares.set place share⟩
  | _ => memory

/-- A holder whose charge is refused keeps the share that it has. -/
def charge (bytes : Nat) (share : MemoryShare) (job : Job σ) : Option MemoryShare × Job σ :=
  match job.charge share bytes with
  | (.ok share, job) => (some share, job)
  | (.error _, job) => (some share, job)

def release (bytes : Nat) (share : MemoryShare) (job : Job σ) : Option MemoryShare × Job σ :=
  let (share, job) := job.release share bytes
  (some share, job)

def releaseAll (share : MemoryShare) (job : Job σ) : Option MemoryShare × Job σ :=
  let (share, job) := job.releaseAll share
  (some share, job)

def leave (share : MemoryShare) (job : Job σ) : Option MemoryShare × Job σ :=
  (none, (job.releaseAll share).2)

def apply (memory : SharedMemory σ) : MemoryEvent → SharedMemory σ
  | .enter => { memory with shares := memory.shares ++ [some {}] }
  | .charge place bytes => memory.act place (charge bytes)
  | .release place bytes => memory.act place (release bytes)
  | .releaseAll place => memory.act place releaseAll
  | .leave place => memory.act place leave

def run (memory : SharedMemory σ) (events : List MemoryEvent) : SharedMemory σ :=
  events.foldl apply memory

variable {memory : SharedMemory σ} {place bytes limit : Nat} {share : MemoryShare}

theorem run_concat (memory : SharedMemory σ) (events : List MemoryEvent) (event : MemoryEvent) :
    memory.run (events ++ [event]) = (memory.run events).apply event := by
  rw [run, List.foldl_append]
  rfl

private theorem sum_set {shares : List (Option MemoryShare)} {place : Nat} {share : Option MemoryShare}
    (found : shares[place]? = some share) (after : Option MemoryShare) :
    ((shares.set place after).map charged).sum + charged share =
      (shares.map charged).sum + charged after := by
  induction shares generalizing place with
  | nil => cases found
  | cons first rest ih =>
    cases place with
    | zero =>
      obtain rfl := Option.some.inj found
      simp only [List.set_cons_zero, List.map_cons, List.sum_cons]
      omega
    | succ place =>
      have later := ih found
      simp only [List.set_cons_succ, List.map_cons, List.sum_cons]
      omega

theorem charged_le_held (found : memory.shares[place]? = some (some share)) :
    share.charged ≤ memory.held := by
  have emptied := sum_set found none
  simp only [charged, Option.map_some, Option.getD_some, Option.map_none, Option.getD_none] at emptied
  unfold held
  omega

/-! ### Exact accounts -/

/-- The account tells what all holders have together, and stays within its limit. -/
structure Exact (memory : SharedMemory σ) : Prop where
  used : memory.job.memory.used = memory.held
  peak : memory.job.memory.used ≤ memory.job.memory.peak
  bound : memory.job.memory.peak ≤ memory.job.memory.limit

/-- What an action moves between a share and the account. -/
structure Moves (share : MemoryShare) (job : Job σ) (after : Option MemoryShare × Job σ) : Prop where
  limit : after.2.memory.limit = job.memory.limit
  used : after.2.memory.used + share.charged = job.memory.used + charged after.1
  peak : after.2.memory.peak = max job.memory.peak after.2.memory.used
  bound : after.2.memory.used ≤ job.memory.limit

namespace Moves

variable {job : Job σ}

theorem charge (finite : job.memory.limit < MemoryAccount.unlimited)
    (held : share.charged ≤ job.memory.used) (peak : job.memory.used ≤ job.memory.peak)
    (bound : job.memory.used ≤ job.memory.limit) (bytes : Nat) :
    Moves share job (SharedMemory.charge bytes share job) := by
  unfold SharedMemory.charge
  by_cases fits : job.memory.used + bytes ≤ job.memory.limit
  · rw [Job.charge_of_le finite held fits]
    exact ⟨rfl, by simp only [charged, Option.map_some, Option.getD_some]; omega, rfl, fits⟩
  · rw [Job.charge_of_lt finite (Nat.lt_of_not_le fits)]
    exact ⟨rfl, rfl, (Nat.max_eq_left peak).symm, bound⟩

theorem release (held : share.charged ≤ job.memory.used) (peak : job.memory.used ≤ job.memory.peak)
    (bound : job.memory.used ≤ job.memory.limit) (bytes : Nat) :
    Moves share job (SharedMemory.release bytes share job) where
  limit := rfl
  used := by
    simp only [SharedMemory.release, Job.release, MemoryShare.release, MemoryAccount.release, charged,
      Option.map_some, Option.getD_some]
    omega
  peak := (Nat.max_eq_left (Nat.le_trans (Nat.sub_le _ _) peak)).symm
  bound := Nat.le_trans (Nat.sub_le _ _) bound

theorem releaseAll (held : share.charged ≤ job.memory.used)
    (peak : job.memory.used ≤ job.memory.peak) (bound : job.memory.used ≤ job.memory.limit) :
    Moves share job (SharedMemory.releaseAll share job) where
  limit := rfl
  used := Nat.sub_add_cancel held
  peak := (Nat.max_eq_left (Nat.le_trans (Nat.sub_le _ _) peak)).symm
  bound := Nat.le_trans (Nat.sub_le _ _) bound

theorem leave (moves : Moves share job (SharedMemory.releaseAll share job)) :
    Moves share job (SharedMemory.leave share job) :=
  ⟨moves.limit, moves.used, moves.peak, moves.bound⟩

end Moves

/-- A step after which the account is exact, with the greater of its peak and what is used now. -/
structure Follows (memory after : SharedMemory σ) : Prop where
  exact : after.Exact
  limit : after.job.memory.limit = memory.job.memory.limit
  peak : after.job.memory.peak = max memory.job.memory.peak after.job.memory.used

theorem Exact.enter (exact : memory.Exact) : Follows memory (memory.apply .enter) where
  exact := by
    refine ⟨exact.used.trans ?_, exact.peak, exact.bound⟩
    simp only [held, apply, List.map_append, List.sum_append]
    rfl
  limit := rfl
  peak := (Nat.max_eq_left exact.peak).symm

theorem Exact.act (exact : memory.Exact)
    {action : MemoryShare → Job σ → Option MemoryShare × Job σ}
    (moves : ∀ share, share.charged ≤ memory.job.memory.used →
      Moves share memory.job (action share memory.job)) (place : Nat) :
    Follows memory (memory.act place action) := by
  unfold SharedMemory.act
  split
  · next share found =>
    have moved := moves share (exact.used ▸ charged_le_held found)
    have total := sum_set found (action share memory.job).1
    have balance := moved.used
    refine ⟨⟨?_, ?_, ?_⟩, moved.limit, moved.peak⟩
    · rw [exact.used, held] at balance
      simp only [charged, Option.map_some, Option.getD_some] at total balance
      simp only [held]
      omega
    · exact moved.peak ▸ Nat.le_max_right _ _
    · exact moved.peak ▸ moved.limit ▸ Nat.max_le.mpr ⟨exact.bound, moved.bound⟩
  · exact ⟨exact, rfl, (Nat.max_eq_left exact.peak).symm⟩

theorem Exact.apply (exact : memory.Exact)
    (finite : memory.job.memory.limit < MemoryAccount.unlimited) (event : MemoryEvent) :
    Follows memory (memory.apply event) := by
  have bound := Nat.le_trans exact.peak exact.bound
  cases event with
  | enter => exact exact.enter
  | charge place bytes => exact exact.act (fun _ held => .charge finite held exact.peak bound bytes) place
  | release place bytes => exact exact.act (fun _ held => .release held exact.peak bound bytes) place
  | releaseAll place => exact exact.act (fun _ held => .releaseAll held exact.peak bound) place
  | leave place =>
    exact exact.act (fun _ held => .leave (.releaseAll held exact.peak bound)) place

theorem start_exact (job : Job σ) (label : String) (limit : Nat) : (start job label limit).Exact :=
  ⟨rfl, Nat.le_refl _, Nat.zero_le _⟩

theorem Exact.run (exact : memory.Exact)
    (finite : memory.job.memory.limit < MemoryAccount.unlimited) (events : List MemoryEvent) :
    (memory.run events).Exact ∧
      (memory.run events).job.memory.limit = memory.job.memory.limit := by
  induction events using List.reverseRecOn with
  | nil => exact ⟨exact, rfl⟩
  | append_singleton events event ih =>
    have step := ih.1.apply (ih.2 ▸ finite) event
    rw [run_concat]
    exact ⟨step.exact, step.limit.trans ih.2⟩

/-- The amounts that were in use at some time of a run, its beginning and end included. -/
def uses (memory : SharedMemory σ) (events : List MemoryEvent) : Set Nat :=
  {used | ∃ earlier, earlier <+: events ∧ (memory.run earlier).job.memory.used = used}

/-- The peak is the most that was ever in use, if it was so before. -/
theorem Exact.isGreatest_uses (exact : memory.Exact)
    (finite : memory.job.memory.limit < MemoryAccount.unlimited)
    (first : memory.job.memory.peak = memory.job.memory.used) (events : List MemoryEvent) :
    IsGreatest (memory.uses events) (memory.run events).job.memory.peak := by
  show IsGreatest (amountsOver SharedMemory.apply
    (fun memory : SharedMemory σ => memory.job.memory.used) memory events) _
  refine isGreatest_amountsOver (fun memory : SharedMemory σ => memory.job.memory.peak) first
    (fun earlier event => ?_) events
  obtain ⟨before, limit⟩ := exact.run finite earlier
  exact (before.apply (limit ▸ finite) event).peak

private theorem apply_charge (found : memory.shares[place]? = some (some share)) (bytes : Nat) :
    memory.apply (.charge place bytes) =
      ⟨(charge bytes share memory.job).2,
        memory.shares.set place (charge bytes share memory.job).1⟩ := by
  rw [apply, act, found]

private theorem apply_charge_of_lt (finite : memory.job.memory.limit < MemoryAccount.unlimited)
    (found : memory.shares[place]? = some (some share))
    (exceeds : memory.job.memory.limit < memory.job.memory.used + bytes) :
    (memory.apply (.charge place bytes)).job.memory = memory.job.memory ∧
      (memory.apply (.charge place bytes)).shares = memory.shares := by
  obtain ⟨inside, same⟩ := List.getElem?_eq_some_iff.mp found
  rw [apply_charge found, charge, Job.charge_of_lt finite exceeds]
  exact ⟨rfl, same ▸ List.set_getElem_self inside⟩

private theorem Exact.apply_charge_of_le (exact : memory.Exact)
    (finite : memory.job.memory.limit < MemoryAccount.unlimited)
    (found : memory.shares[place]? = some (some share))
    (fits : memory.job.memory.used + bytes ≤ memory.job.memory.limit) :
    (memory.apply (.charge place bytes)).job.memory.used = memory.job.memory.used + bytes ∧
      (memory.apply (.charge place bytes)).shares =
        memory.shares.set place (some ⟨share.charged + bytes⟩) := by
  rw [apply_charge found, charge, Job.charge_of_le finite (exact.used ▸ charged_le_held found) fits]
  exact ⟨rfl, rfl⟩

private theorem Exact.refused_iff (exact : memory.Exact)
    (finite : memory.job.memory.limit < MemoryAccount.unlimited)
    (found : memory.shares[place]? = some (some share)) (bytes : Nat) :
    (∃ error, (memory.job.charge share bytes).1 = .error error) ↔
      memory.job.memory.limit < memory.job.memory.used + bytes := by
  by_cases fits : memory.job.memory.used + bytes ≤ memory.job.memory.limit
  · rw [Job.charge_of_le finite (exact.used ▸ charged_le_held found) fits]
    simp [fits]
  · rw [Job.charge_of_lt finite (Nat.lt_of_not_le fits)]
    simp [Nat.lt_of_not_le fits]

/-- At every point of every run, the account tells exactly what the holders have together and what they
had at most, within the limit. A charge is refused if and only if its sum exceeds the limit, and then
nothing changes. -/
theorem run_exact (job : Job σ) (label : String) (limit : Nat)
    (finite : limit < MemoryAccount.unlimited) (events : List MemoryEvent) :
    let memory := (start job label limit).run events
    let account := memory.job.memory
    (account.used = memory.held ∧ account.used ≤ account.peak ∧ account.peak ≤ limit ∧
        IsGreatest ((start job label limit).uses events) account.peak) ∧
      ∀ place share bytes, memory.shares[place]? = some (some share) →
        let next := memory.apply (.charge place bytes)
        ((∃ error, (memory.job.charge share bytes).1 = .error error) ↔
            limit < account.used + bytes) ∧
          (limit < account.used + bytes →
            next.job.memory = account ∧ next.shares = memory.shares) ∧
          (account.used + bytes ≤ limit →
            next.job.memory.used = account.used + bytes ∧
              next.shares = memory.shares.set place (some ⟨share.charged + bytes⟩)) := by
  intro memory account
  have first := start_exact job label limit
  obtain ⟨exact, same⟩ := first.run finite events
  have limited : account.limit = limit := same
  have finite' : account.limit < MemoryAccount.unlimited := limited ▸ finite
  refine ⟨⟨exact.used, exact.peak, limited ▸ exact.bound, first.isGreatest_uses finite rfl events⟩, ?_⟩
  intro place share bytes found next
  refine ⟨?_, fun exceeds => ?_, fun fits => ?_⟩
  · rw [exact.refused_iff finite' found bytes, same]
    exact Iff.rfl
  · exact apply_charge_of_lt finite' found (same ▸ exceeds)
  · exact exact.apply_charge_of_le finite' found (same ▸ fits)

/-- Two holders fill the memory. A charge is refused to the second that exceeds both the limit and 64
bits; then the first gives back more than it has, and the second leaves. -/
theorem run_exact_filled :
    let job : Job Unit :=
      { id := "a", shard := none, memory := { label := "a", limit := 0 }, node := { services := () } }
    let events : List MemoryEvent :=
      [.enter, .enter, .charge 0 60, .charge 1 40, .charge 1 0xffffffffffffffff, .release 0 70,
        .charge 0 3, .leave 1]
    let memory := (start job "a" 100).run events
    (100 < MemoryAccount.unlimited ∧ memory.shares = [some ⟨3⟩, none]) ∧
      memory.job.memory.used = memory.held ∧
      IsGreatest ((start job "a" 100).uses events) 100 ∧
      (∃ error, (memory.job.charge ⟨3⟩ 98).1 = .error error) ∧
      (memory.apply (.charge 0 97)).shares = [some ⟨100⟩, none] := by
  intro job events memory
  have shares : memory.shares = [some ⟨3⟩, none] := by decide +kernel
  have three : memory.job.memory.used = 3 := by decide +kernel
  have full : memory.job.memory.peak = 100 := by decide +kernel
  have first : memory.shares[0]? = some (some ⟨3⟩) := by rw [shares]; rfl
  have exact := run_exact job "a" 100 (by decide) events
  rw [show (start job "a" 100).run events = memory from rfl] at exact
  obtain ⟨⟨used, _, _, peak⟩, charges⟩ := exact
  obtain ⟨refused, _, _⟩ := charges 0 ⟨3⟩ 98 first
  obtain ⟨_, _, granted⟩ := charges 0 ⟨3⟩ 97 first
  rw [full] at peak
  rw [three] at refused granted
  refine ⟨⟨by decide, shares⟩, used, peak, refused.mpr (by decide), ?_⟩
  rw [(granted (by decide)).2, shares]
  rfl

end SharedMemory

end RowPipeline
