import RowPipeline.Proofs.DrivenStages
import RowPipeline.Proofs.HeldMemory
import RowPipeline.Proofs.SortedSlice

/-!
The memory of sorting with a limit. A stage that keeps only the rows that can still be among the first
never needs more than one that keeps all of them: a row that has to go gives its memory back before
the next one is charged.
-/

namespace RowPipeline

open Turn

variable {σ τ δ : Type} {limit others bytes : Nat}

/-- A receiver was granted memory, and the account tells so. -/
structure Grown (limit others bytes : Nat) (charged : τ → Nat) (state last : τ × Job σ) : Prop where
  more : charged last.1 = charged state.1 + bytes
  tells : Accounted limit others charged last
  peak : last.2.memory.peak = max state.2.memory.peak (others + charged last.1)

theorem Job.charge_fits {job : Job σ} {share : MemoryShare} (finite : limit < MemoryAccount.unlimited)
    (tells : job.Tells limit (others + share.charged))
    (fits : others + share.charged + bytes ≤ limit) :
    ∃ last, job.charge share bytes = (.ok ⟨share.charged + bytes⟩, last) ∧
      Grown limit others bytes MemoryShare.charged (share, job) (⟨share.charged + bytes⟩, last) := by
  obtain ⟨rfl, used⟩ := tells
  refine ⟨_, Job.charge_of_le finite (used ▸ Nat.le_add_left ..) (used ▸ fits), rfl, ⟨rfl, ?_⟩, ?_⟩
  · exact used ▸ Nat.add_assoc ..
  · simp only [used, Nat.add_assoc]

private theorem Job.fits_of_charge {job last : Job σ} {share share' : MemoryShare}
    (finite : limit < MemoryAccount.unlimited) (tells : job.Tells limit (others + share.charged))
    (granted : job.charge share bytes = (.ok share', last)) :
    others + share.charged + bytes ≤ limit := by
  obtain ⟨rfl, used⟩ := tells
  by_contra exceeds
  rw [Job.charge_of_lt finite (by omega)] at granted
  cases granted

namespace SortStage

variable {state : SortStage × Job σ} {row kept : Row}

/-- A row that is kept without a refusal fits and is charged. -/
theorem takeRow_granted (finite : limit < MemoryAccount.unlimited)
    (tells : Accounted limit others charged state) (keeps : state.1.sorting.keep row = .ok kept)
    (granted : MemoryGranted (takeRow row state).1) :
    others + state.1.charged + Row.size kept ≤ limit ∧
      ∃ last, takeRow row state = (.ok .more, last) ∧ last.1.sorting = state.1.sorting ∧
        Grown limit others (Row.size kept) charged state last := by
  obtain ⟨stage, job⟩ := state
  rcases charges : job.charge stage.share (Row.size kept) with ⟨error | share, after⟩
  · have refused : takeRow row (stage, job) = (.error error, (stage, after)) := by
      simp only [takeRow, own_bind, keeps, evaluated_ok, pure_bind, onJob_bind, charges]
    rw [refused] at granted
    exact absurd (Job.isRefusal_of_charge charges) (granted error rfl)
  · have fits := Job.fits_of_charge finite tells charges
    obtain ⟨after, charges, grown⟩ := Job.charge_fits finite tells fits
    have taken : takeRow row (stage, job) = (.ok .more, ({ stage with
        share := ⟨stage.share.charged + Row.size kept⟩, newest := kept :: stage.newest }, after)) := by
      simp only [takeRow, own_bind, keeps, evaluated_ok, pure_bind, onJob_bind, charges]
      rfl
    exact ⟨fits, _, taken, rfl, grown.more, grown.tells, grown.peak⟩

end SortStage

namespace TopStage

variable {top : TopStage × Job σ} {sort : SortStage × Job σ} {row kept last : Row}

private theorem keep_granted (kept : Row) (finite : limit < MemoryAccount.unlimited)
    (tells : Accounted limit others charged top)
    (fits : others + top.1.charged + Row.size kept ≤ limit) :
    ∃ after, keep kept top = (.ok (), after) ∧ after.1.sorting = top.1.sorting ∧
      Grown limit others (Row.size kept) charged top after := by
  obtain ⟨stage, job⟩ := top
  obtain ⟨after, charges, grown⟩ := Job.charge_fits finite tells fits
  refine ⟨({ stage with
    share := ⟨stage.share.charged + Row.size kept⟩
    best := stage.sorting.insert kept stage.best }, after), ?_, rfl, grown.more, grown.tells, grown.peak⟩
  simp only [keep, own_bind, onJob_bind, charges]
  rfl

/-- A stage with a limit in the place of one without: it sorts alike, has no more memory, and never
had. -/
structure Spares (limit others : Nat) (top : TopStage × Job σ) (sort : SortStage × Job σ) :
    Prop where
  sorting : top.1.sorting = sort.1.sorting
  tells : Accounted limit others charged top
  tells' : Accounted limit others SortStage.charged sort
  share : top.1.charged ≤ sort.1.charged
  peak : top.2.memory.peak ≤ sort.2.memory.peak

namespace Spares

theorem evict (spares : Spares limit others top sort) (last : Row) :
    Spares limit others (TopStage.evict last top) sort where
  sorting := spares.sorting
  tells := spares.tells.release _
  tells' := spares.tells'
  share := Nat.le_trans (Nat.sub_le ..) spares.share
  peak := spares.peak

private theorem decline {after : SortStage × Job σ} (spares : Spares limit others top sort)
    (sorts : after.1.sorting = sort.1.sorting)
    (grown : Grown limit others bytes SortStage.charged sort after) :
    Spares limit others top after where
  sorting := spares.sorting.trans sorts.symm
  tells := spares.tells
  tells' := grown.tells
  share := grown.more ▸ Nat.le_add_right_of_le spares.share
  peak := grown.peak ▸ Nat.le_trans spares.peak (Nat.le_max_left ..)

theorem keep {after : SortStage × Job σ} (finite : limit < MemoryAccount.unlimited)
    (spares : Spares limit others top sort) (sorts : after.1.sorting = sort.1.sorting)
    (grown : Grown limit others (Row.size kept) SortStage.charged sort after)
    (fits : others + sort.1.charged + Row.size kept ≤ limit) :
    ∃ after', TopStage.keep kept top = (.ok (), after') ∧ Spares limit others after' after := by
  have share := spares.share
  obtain ⟨after', keeps, sorts', grown'⟩ := keep_granted kept finite spares.tells (by omega)
  have more := grown.more
  have more' := grown'.more
  refine ⟨after', keeps, ?_, grown'.tells, grown.tells, by omega, ?_⟩
  · rw [sorts', spares.sorting, sorts]
  · have peak := spares.peak
    rw [grown.peak, grown'.peak]
    omega

/-- As long as all rows are granted memory without a limit, a stage with one answers the same. -/
theorem takeRow (finite : limit < MemoryAccount.unlimited) (spares : Spares limit others top sort)
    (row : Row) (granted : MemoryGranted (SortStage.takeRow row sort).1) :
    ∃ answer after after', SortStage.takeRow row sort = (answer, after) ∧
      TopStage.takeRow row top = (answer, after') ∧ Spares limit others after' after := by
  cases evaluated : sort.1.sorting.keep row with
  | error fault =>
    refine ⟨.error (.evaluation fault), sort, top, ?_, ?_, spares⟩
    · simp only [SortStage.takeRow, own_bind, evaluated]
      rfl
    · simp only [TopStage.takeRow, own_bind, spares.sorting, evaluated]
      rfl
  | ok kept =>
    obtain ⟨fits, after, taken, sorts, grown⟩ :=
      SortStage.takeRow_granted finite spares.tells' evaluated granted
    have limited : ∃ after', TopStage.takeRow row top = (.ok .more, after') ∧
        Spares limit others after' after := by
      simp only [TopStage.takeRow, own_bind, spares.sorting, evaluated, evaluated_ok, pure_bind]
      cases offered : top.1.offer kept with
      | declined => exact ⟨top, rfl, spares.decline sorts grown⟩
      | accepted =>
        obtain ⟨after', keeps, spares'⟩ := spares.keep finite sorts grown fits
        exact ⟨after', bind_of_ok keeps, spares'⟩
      | replacing last =>
        obtain ⟨after', keeps, spares'⟩ := (spares.evict last).keep finite sorts grown fits
        exact ⟨after', bind_of_ok keeps, spares'⟩
    obtain ⟨after', taken', spares'⟩ := limited
    exact ⟨.ok .more, after, after', taken, taken', spares'⟩

end Spares

end TopStage

/-! ### Driving both stages -/

namespace Stage

variable {services : Services σ} {next : Receiver σ δ} {kind : StageKind} {phase : Phase}
variable {below : δ} {row : Row} {job job' : Job σ} {answer : Except ExecutionError Flow}

theorem takeRow_above {wrap : τ → StageBody} (turn : Turn σ τ Flow) {part after : τ}
    (unended : phase.isTerminal = false)
    (turns : StageBody.takeRow services next row ((wrap part, below), job) =
      within wrap part (above turn) ((wrap part, below), job))
    (taken : turn (part, job) = (answer, (after, job'))) :
    takeRow services next row ((⟨kind, wrap part, phase⟩, below), job) =
      (answer, ((⟨kind, wrap after, .running⟩, below), job')) := by
  rw [takeRow_apply services next row _ below job unended]
  simp only [within] at turns ⊢
  rw [turns]
  simp only [above, taken]

/-- A whole stage with a limit in the place of one without; neither has ended. -/
inductive Spares (limit others : Nat) : (Stage × δ) × Job σ → (Stage × δ) × Job σ → Prop where
  | intro {kind kind' : StageKind} {phase phase' : Phase} {top : TopStage} {sort : SortStage}
    {below below' : δ} {job job' : Job σ} (unended : phase.isTerminal = false)
    (unended' : phase'.isTerminal = false)
    (spares : TopStage.Spares limit others (top, job) (sort, job')) :
    Spares limit others ((⟨kind, .top top, phase⟩, below), job)
      ((⟨kind', .sort sort, phase'⟩, below'), job')

namespace Spares

variable {few all : (Stage × δ) × Job σ}

private theorem charged_le (spares : Spares limit others few all) :
    few.1.1.body.charged ≤ all.1.1.body.charged := by
  obtain ⟨-, -, spares⟩ := spares
  exact spares.share

private theorem peak_le (spares : Spares limit others few all) :
    few.2.memory.peak ≤ all.2.memory.peak := by
  obtain ⟨-, -, spares⟩ := spares
  exact spares.peak

theorem takeRow (finite : limit < MemoryAccount.unlimited) (spares : Spares limit others few all)
    (row : Row) (granted : MemoryGranted (takeRow services next row all).1) :
    ∃ answer few' all', Stage.takeRow services next row few = (answer, few') ∧
      Stage.takeRow services next row all = (answer, all') ∧ Spares limit others few' all' := by
  obtain ⟨unended, unended', spares⟩ := spares
  rw [takeRow_above (SortStage.takeRow row) unended' rfl rfl] at granted
  obtain ⟨answer, after, after', taken, taken', spares⟩ := spares.takeRow finite row granted
  exact ⟨answer, _, _, takeRow_above (TopStage.takeRow row) unended rfl taken',
    takeRow_above (SortStage.takeRow row) unended' rfl taken, rfl, rfl, spares⟩

/-- Row by row, as long as all of them are granted memory without a limit. -/
theorem drive (finite : limit < MemoryAccount.unlimited) {rows : List Row}
    (spares : Spares limit others few all)
    (granted : ∀ answer ∈ (drive services next (rows.map .row) all).1, MemoryGranted answer) :
    (Stage.drive services next (rows.map .row) few).1 =
        (Stage.drive services next (rows.map .row) all).1 ∧
      ∀ count, Spares limit others
        (Stage.drive services next ((rows.take count).map .row) few).2
        (Stage.drive services next ((rows.take count).map .row) all).2 := by
  induction rows generalizing few all with
  | nil => exact ⟨rfl, fun count => by simpa [Stage.drive] using spares⟩
  | cons row rest ih =>
    obtain ⟨answer, few', all', taken, taken', spares'⟩ :=
      spares.takeRow finite row (granted _ (.head _))
    simp only [List.map_cons, Stage.drive, taken'] at granted
    obtain ⟨same, prefixes⟩ := ih spares' fun answer member => granted answer (.tail _ member)
    constructor
    · simp only [List.map_cons, Stage.drive, taken, taken', same]
    · rintro (_ | count)
      · exact spares
      · simpa only [List.take_succ_cons, List.map_cons, Stage.drive, taken, taken'] using
          prefixes count

end Spares

end Stage

/-! ### Compiled stages -/

/-- A limit costs no memory: as long as a stage that sorts all rows is granted what it asks for, one
with a limit answers the same to every row, and after every row it has no more memory charged and the
account of its job has no higher peak. -/
theorem OrderedTopN.limit_spares_memory (services : Services σ) (next : Receiver σ δ)
    (kind : StageKind) {parameters : OrderedTopN} {whole : StageBody} {limit : Nat}
    (compiled : Projection.compileOrderedTopN parameters.unlimited = .ok whole)
    (positive : 1 ≤ limit) (rows : List Row) (below : δ) (job : Job σ)
    (finite : job.memory.limit < MemoryAccount.unlimited)
    (granted : ∀ answer ∈ (Stage.drive services next (rows.map .row)
      ((⟨kind, whole, .created⟩, below), job)).1, MemoryGranted answer) :
    ∃ bounded,
      Projection.compileOrderedTopN { parameters with limit := some limit } = .ok bounded ∧
      (Stage.drive services next (rows.map .row) ((⟨kind, bounded, .created⟩, below), job)).1 =
        (Stage.drive services next (rows.map .row) ((⟨kind, whole, .created⟩, below), job)).1 ∧
      ∀ count,
        let few := (Stage.drive services next ((rows.take count).map .row)
          ((⟨kind, bounded, .created⟩, below), job)).2
        let all := (Stage.drive services next ((rows.take count).map .row)
          ((⟨kind, whole, .created⟩, below), job)).2
        few.1.1.body.charged ≤ all.1.1.body.charged ∧ few.2.memory.peak ≤ all.2.memory.peak := by
  obtain ⟨_, keyed, compiled⟩ := ok_of_bind compiled
  obtain ⟨columns, expressions, compiled⟩ := ok_of_bind compiled
  obtain ⟨order, flags, compiled⟩ := ok_of_bind compiled
  obtain rfl := Except.ok.inj compiled
  let sorting : Sorting := ⟨columns, parameters.outputs.length, order, parameters.offset⟩
  have bounded : Projection.compileOrderedTopN { parameters with limit := some limit } =
      .ok (.top { sorting := sorting, limit := limit }) := by
    have present : (limit != 0) = true := bne_iff_ne.mpr (Nat.ne_of_gt positive)
    unfold OrderedTopN.unlimited at keyed expressions flags
    unfold Projection.compileOrderedTopN
    dsimp only at keyed expressions flags ⊢
    rw [keyed, expressions, flags]
    simp only [Projection.require, present]
    rfl
  have start : Stage.Spares job.memory.limit job.memory.used
      ((⟨kind, .top { sorting := sorting, limit := limit }, .created⟩, below), job)
      ((⟨kind, .sort { sorting := sorting }, .created⟩, below), job) :=
    .intro rfl rfl ⟨rfl, ⟨rfl, rfl⟩, ⟨rfl, rfl⟩, Nat.le_refl 0, Nat.le_refl _⟩
  obtain ⟨same, prefixes⟩ := start.drive finite granted
  exact ⟨_, bounded, same, fun count => ⟨(prefixes count).charged_le, (prefixes count).peak_le⟩⟩

/-- A long row takes the place of a short one, in a job that has exactly the memory for all rows. -/
theorem OrderedTopN.limit_spares_memory_evicted :
    let parameters : OrderedTopN := ⟨[.input 0], [.input 0], [], [], none, 0⟩
    let rows : List Row := [[.text "c"], [.text "b"], [.text "aaaaaaaaaaaaaaaaaaaa"]]
    let job : Job Simulation :=
      { Job.alone with memory := { label := "a", limit := 246, used := 10, peak := 10 } }
    let drive (body : StageBody) := Stage.drive Simulation.services Terminal.receiver (rows.map .row)
      ((⟨.orderedTopN, body, .created⟩, .collecting {}), job)
    ∃ whole bounded, Projection.compileOrderedTopN parameters.unlimited = .ok whole ∧
      Projection.compileOrderedTopN { parameters with limit := some 2 } = .ok bounded ∧
      job.memory.limit < MemoryAccount.unlimited ∧
      (∀ answer ∈ (drive whole).1, MemoryGranted answer) ∧
      (drive bounded).1 = (drive whole).1 ∧
      (drive bounded).2.1.1.body.charged ≤ (drive whole).2.1.1.body.charged ∧
      (drive bounded).2.2.memory.peak ≤ (drive whole).2.2.memory.peak ∧
      (drive bounded).2.2.memory.peak = 180 ∧ (drive whole).2.2.memory.peak = 246 := by
  intro parameters rows job drive
  have finite : job.memory.limit < MemoryAccount.unlimited := by decide
  refine ⟨_, _, rfl, rfl, finite, ?_⟩
  set whole : StageBody := .sort _
  set bounded : StageBody := .top _
  have answers : (drive whole).1 = [.ok .more, .ok .more, .ok .more] := by decide +kernel
  have granted : ∀ answer ∈ (drive whole).1, MemoryGranted answer := by
    intro answer member
    rw [answers] at member
    exact .of_ok (by simpa using member)
  obtain ⟨body, compiled, same, prefixes⟩ := @limit_spares_memory _ _ Simulation.services
    Terminal.receiver .orderedTopN parameters whole 2 rfl (by decide) rows (.collecting {}) job finite
    granted
  obtain rfl : bounded = body := Except.ok.inj compiled
  exact ⟨granted, same, (prefixes 3).1, (prefixes 3).2, by decide +kernel, by decide +kernel⟩

end RowPipeline
