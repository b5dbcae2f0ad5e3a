import Mathlib.Data.List.Basic
import RowPipeline.Proofs.Compilation
import RowPipeline.Proofs.Delivery
import RowPipeline.Proofs.ExportedRecords
import RowPipeline.Proofs.FileContents
import RowPipeline.Proofs.PathNames

/-!
Files that rows are exported to. By the end of a stage that exports, its file has one line for each row,
in the order of the rows, and the stage emits how many there are.
-/

namespace RowPipeline

open Turn

variable {σ δ : Type}

/-- Files failed. -/
def ExecutionError.IsIo (error : ExecutionError) : Prop := ∃ detail, error = .io detail

namespace ExportStage

/-- What a stage wrote so far. No file is made before the first line. -/
inductive Wrote (stage : ExportStage) (origin : FileTree) :
    List String → ExportStage × Job σ → Prop where
  | nothing {current : Job σ} : current.node.files = origin →
      Wrote stage origin [] ({ stage with output := none, written := 0 }, current)
  | lines {lines : List String} {place : FilePath} {current : Job σ} :
      FileTree.Written origin stage.path stage.compression lines place current.node.files →
      Wrote stage origin lines
        ({ stage with output := some place, written := lines.length }, current)

variable {stage : ExportStage} {origin : FileTree} {lines : List String}
variable {state : ExportStage × Job σ}

theorem runs_answered {α : Type} (result : Except FileTree.Fault α) :
    Runs (answered result : Turn σ ExportStage α) ExecutionError.IsIo
      (fun value last => result = .ok value ∧ last = state) state := by
  cases result with
  | ok value => exact Runs.pure ⟨rfl, rfl⟩
  | error fault => exact ⟨_, rfl⟩

private theorem ensureOpen_of_create {job : Job σ} {place : FilePath} {files : FileTree}
    (unopened : stage.output = none)
    (made : job.node.files.create stage.path stage.compression = (.ok place, files)) :
    (ensureOpen : Turn σ ExportStage FilePath) (stage, job) =
      (.ok place, ({ stage with output := some place }, job.withFiles files)) := by
  rw [ensureOpen, own_bind, unopened]
  change (answered (job.node.files.create stage.path stage.compression).1 >>= _ : Turn σ ExportStage FilePath) (stage, job.withFiles (job.node.files.create stage.path stage.compression).2) = _
  rw [made]
  rfl

/-- The first row is taken as if its file had been made before. -/
theorem takeRow_of_create {job : Job σ} {place : FilePath} {files : FileTree} {row : Row}
    {line : String} (unopened : stage.output = none)
    (made : job.node.files.create stage.path stage.compression = (.ok place, files))
    (given : stage.shape.line stage.overwrites row = .ok line) :
    takeRow row (stage, job) =
      takeRow row ({ stage with output := some place }, job.withFiles files) := by
  rw [takeRow, own_bind, own_bind]
  simp only [given, evaluated_ok, pure_bind]
  exact bind_of_ok (ensureOpen_of_create unopened made)

private theorem runs_ensureOpen (wrote : Wrote stage origin lines state) :
    Runs ensureOpen ExecutionError.IsIo
      (fun place last => ∃ current : Job σ,
        FileTree.Written origin stage.path stage.compression lines place current.node.files ∧
        last = ({ stage with output := some place, written := lines.length }, current))
      state := by
  cases wrote with
  | @lines _ place current written =>
    have opened : (ensureOpen : Turn σ ExportStage FilePath)
        ({ stage with output := some place, written := lines.length }, current) =
          (.ok place, ({ stage with output := some place, written := lines.length }, current)) := rfl
    exact Runs.of_eq opened ⟨current, written, rfl⟩
  | nothing same =>
    subst same
    refine Runs.own_bind (Runs.job_bind (Runs.modifyJob_bind ((runs_answered _).bind ?_)))
    rintro place _ ⟨made, rfl⟩
    refine Runs.setOwn_bind (Runs.pure ⟨_, FileTree.written_create ?_, rfl⟩)
    exact Prod.ext made rfl

theorem runs_takeRow {row : Row} {line : String}
    (given : stage.shape.line stage.overwrites row = .ok line)
    (wrote : Wrote stage origin lines state) :
    Runs (takeRow row) ExecutionError.IsIo
      (fun flow last => flow = .more ∧ Wrote stage origin (lines ++ [line]) last) state := by
  have same : state.1.shape.line state.1.overwrites row = .ok line := by
    cases wrote <;> exact given
  refine Runs.own_bind ?_
  rw [same, evaluated_ok, pure_bind]
  refine (runs_ensureOpen wrote).bind ?_
  rintro place _ ⟨current, written, rfl⟩
  refine Runs.job_bind ((runs_answered _).bind ?_)
  rintro files _ ⟨added, rfl⟩
  refine Runs.modifyJob_bind (Runs.own_bind (Runs.setOwn_bind (Runs.pure ⟨rfl, ?_⟩)))
  have further : Wrote stage origin (lines ++ [line]) (_, current.withFiles files) :=
    .lines (written.append added)
  rwa [List.length_append] at further

/-- The file is there by the end, also without a line. -/
theorem runs_close (wrote : Wrote stage origin lines state) :
    Runs close ExecutionError.IsIo
      (fun _ last => ∃ place,
        FileTree.Written origin stage.path stage.compression lines place last.2.node.files ∧
        last.1 = { stage with output := none, written := lines.length })
      state := by
  refine (runs_ensureOpen wrote).bind ?_
  rintro place _ ⟨current, written, rfl⟩
  refine Runs.own_bind (Runs.setOwn_bind (Runs.job_bind ((runs_answered _).bind ?_)))
  rintro _ _ ⟨-, rfl⟩
  exact Runs.of_eq rfl ⟨place, written, rfl⟩

private theorem finish_of_close_error {after : ExportStage} {job job' : Job σ} {error : ExecutionError}
    (failed : close (stage, job) = (.error error, (after, job'))) (next : Receiver σ δ) (below : δ) :
    finish next ((stage, below), job) = (.error error, ((after, below), job')) := by
  have above : (Turn.above close : Turn σ (ExportStage × δ) Unit) ((stage, below), job) =
      (.error error, ((after, below), job')) := by
    simp only [Turn.above, failed]
  exact bind_of_error above

/-- A stage that closed its file leaves the rest to what is behind it. -/
theorem finish_of_close {after : ExportStage} {job job' : Job σ}
    (closed : close (stage, job) = (.ok (), (after, job'))) (next : Receiver σ δ) (below : δ) :
    finish next ((stage, below), job) =
      Turn.below (next.takeRow [.long (Int64.ofNat after.written)] >>= fun _ => next.finish)
        ((after, below), job') := by
  have above : (Turn.above close : Turn σ (ExportStage × δ) Unit) ((stage, below), job) =
      (.ok (), ((after, below), job')) := by
    simp only [Turn.above, closed]
  rw [finish, bind_of_ok above, Receiver.emitOne, own_bind]
  simp only [bind_apply, Turn.below]
  rcases next.takeRow [.long (Int64.ofNat after.written)] (below, job') with ⟨_ | _, below', job''⟩ <;>
    rfl

end ExportStage

/-- What a part leaves to the receiver behind it is left to it by the whole. -/
theorem Turn.within_of_below {α β γ : Type} {turn : Turn σ (β × δ) α} {rest : Turn σ δ α}
    {receiver part : β} {next next' : δ} {job job' : Job σ}
    (left : turn ((receiver, next), job) = below rest ((part, next'), job')) (wrap : β → γ) (own : γ) :
    within wrap receiver turn ((own, next), job) = below rest ((wrap part, next'), job') := by
  simp only [within, left, below]
  rcases rest (next', job') with ⟨_, _, _⟩
  rfl

namespace Stage

variable (services : Services σ) (next : Receiver σ δ) {exporting : ExportStage}
variable {origin : FileTree} {below : δ} {lines : List String}

/-- A stage that exports rows wrote lines and takes more rows; nothing reached the receiver behind. -/
structure Exporting (exporting : ExportStage) (origin : FileTree) (below : δ) (lines : List String)
    (state : (Stage × δ) × Job σ) : Prop where
  unended : state.1.1.phase.isTerminal = false
  behind : state.1.2 = below
  wrote : ∃ own, state.1.1.body = .exporting own ∧
    ExportStage.Wrote exporting origin lines (own, state.2)

variable {state : (Stage × δ) × Job σ}

theorem Exporting.takeRow (wrote : Exporting exporting origin below lines state) {row : Row}
    {line : String} (given : exporting.shape.line exporting.overwrites row = .ok line) :
    Runs (takeRow services next row) ExecutionError.IsIo
      (fun flow last => flow = .more ∧ Exporting exporting origin below (lines ++ [line]) last)
      state := by
  obtain ⟨⟨⟨kind, _, phase⟩, behind⟩, job⟩ := state
  obtain ⟨unended, rfl, own, rfl, wrote⟩ := wrote
  have taken : Runs (StageBody.takeRow services next row) ExecutionError.IsIo _
      ((StageBody.exporting own, behind), job) :=
    ((ExportStage.runs_takeRow given wrote).above behind).within StageBody.exporting (.exporting own)
  refine (runs_takeRow unended taken).weaken ?_
  rintro flow last ⟨going, own, body, same, more, further⟩
  exact ⟨more, going, same, own, body, further⟩

theorem Exporting.feed {rows : List Row} {added : List String}
    (given : rows.map (exporting.shape.line exporting.overwrites) = added.map .ok)
    (wrote : Exporting exporting origin below lines state) :
    Runs ((receiver services next).feed rows) ExecutionError.IsIo
      (fun _ last => Exporting exporting origin below (lines ++ added) last) state := by
  induction rows generalizing added lines state with
  | nil =>
    obtain rfl := List.map_eq_nil_iff.mp given.symm
    rw [List.append_nil]
    exact Runs.pure wrote
  | cons row rest ih =>
    obtain ⟨line, others, rfl, first, later⟩ := List.map_eq_cons_iff.mp given.symm
    refine (wrote.takeRow services next first.symm).bind ?_
    rintro _ last ⟨rfl, further⟩
    rw [List.append_cons]
    exact ih later.symm further

/-- Rows are written as if the file had been made before. -/
theorem feed_of_create {kind : StageKind} {job : Job σ} {place : FilePath} {files : FileTree}
    {line : String} (unopened : exporting.output = none)
    (made : job.node.files.create exporting.path exporting.compression = (.ok place, files))
    (row : Row) (rest : List Row) (given : exporting.shape.line exporting.overwrites row = .ok line) :
    (receiver services next).feed (row :: rest)
        ((⟨kind, .exporting exporting, .created⟩, below), job) =
      (receiver services next).feed (row :: rest)
        ((⟨kind, .exporting { exporting with output := some place }, .created⟩, below),
          job.withFiles files) := by
  have taken := ExportStage.takeRow_of_create unopened made given
  have first : takeRow services next row ((⟨kind, .exporting exporting, .created⟩, below), job) =
      takeRow services next row
        ((⟨kind, .exporting { exporting with output := some place }, .created⟩, below),
          job.withFiles files) := by
    rw [takeRow_apply _ _ _ _ _ _ rfl, takeRow_apply _ _ _ _ _ _ rfl]
    simp only [within, StageBody.takeRow, own_bind, Turn.above, taken]
  simp only [Receiver.feed, bind_apply, receiver, first]

theorem Exporting.finish (wrote : Exporting exporting origin below lines state) :
    (∃ detail last, finish services next state = (.error (.io detail), last)) ∨
    ∃ closed place, finish services next state =
        Turn.below (next.takeRow [.long (Int64.ofNat lines.length)] >>= fun _ => next.finish) closed ∧
      closed.1.2 = below ∧
      FileTree.Written origin exporting.path exporting.compression lines place
        closed.2.node.files := by
  obtain ⟨⟨⟨kind, _, phase⟩, behind⟩, job⟩ := state
  obtain ⟨unended, rfl, own, rfl, wrote⟩ := wrote
  have ended : Stage.finish services next ((⟨kind, .exporting own, phase⟩, behind), job) =
      Turn.within (fun own => ⟨kind, .exporting own, .completed⟩) own (ExportStage.finish next)
        ((⟨kind, .exporting own, phase⟩, behind), job) :=
    finish_apply services next _ behind job unended
  have closes := ExportStage.runs_close wrote
  rcases closed : ExportStage.close (own, job) with ⟨error | _, after, job'⟩
  · obtain ⟨detail, rfl⟩ := closes.error closed
    refine .inl ⟨detail, ((⟨kind, .exporting after, .completed⟩, behind), job'), ended.trans ?_⟩
    simp only [Turn.within, ExportStage.finish_of_close_error closed]
  · obtain ⟨place, written, same⟩ := closes.ok closed
    obtain rfl : after = _ := same
    exact .inr ⟨_, place, ended.trans (Turn.within_of_below
      (ExportStage.finish_of_close closed next behind) _ _), rfl, written⟩

/-- Rows that have documents are exported unless files fail. When the stage emits their number, its file
holds one line for each of them, from which its document is read, and other files are as they were. -/
theorem exported_lines (services : Services σ) (next : Receiver σ δ) (kind : StageKind)
    (exporting : ExportStage) (below : δ) (job : Job σ) (rows : List Row)
    (fresh : exporting.output = none ∧ exporting.written = 0)
    (literals : ∀ expression ∈ exporting.shape.expressions, expression.symbol.IsOrdered)
    (overwriting : (Value.object exporting.overwrites).IsOrdered)
    (cells : ∀ row ∈ rows, ∀ cell ∈ row, cell.IsOrdered)
    (evaluates : ∀ row ∈ rows, ∃ document, exporting.shape.value row = .ok document) :
    let receiver := Stage.receiver services next
    let start : (Stage × δ) × Job σ := ((⟨kind, .exporting exporting, .created⟩, below), job)
    (∃ detail last, receiver.feed rows start = (.error (.io detail), last)) ∨
      ∃ fed, receiver.feed rows start = (.ok (), fed) ∧
        ((∃ detail last, receiver.finish fed = (.error (.io detail), last)) ∨
          ∃ closed place file lines,
            receiver.finish fed =
              Turn.below (next.takeRow [.long (Int64.ofNat rows.length)] >>= fun _ => next.finish)
                closed ∧
            closed.1.2 = below ∧
            (job.node.files.create exporting.path exporting.compression).1 = .ok place ∧
            closed.2.node.files.file? place = some file ∧
            file.compression = exporting.compression ∧
            file.text = String.join (lines.map (· ++ "\n")) ∧ lines.length = rows.length ∧
            List.Forall₂ (exporting.shape.Holds exporting.overwrites) rows lines ∧
            ∀ other, other ≠ place →
              closed.2.node.files.file? other = job.node.files.file? other) := by
  intro receiver start
  have written : ∀ row ∈ rows, ∃ line, exporting.shape.line exporting.overwrites row = .ok line := by
    intro row member
    obtain ⟨document, found⟩ := evaluates row member
    exact ⟨_, by rw [ExportShape.line, found, Except.map]⟩
  obtain ⟨lines, given⟩ := exists_map_ok written
  have lengths : lines.length = rows.length := by simpa using congrArg List.length given.symm
  have begun : Exporting exporting job.node.files below [] start := by
    have same : { exporting with output := none, written := 0 } = exporting := by
      rw [← fresh.1, ← fresh.2]
    have nothing : ExportStage.Wrote exporting job.node.files [] (_, job) := .nothing rfl
    rw [same] at nothing
    exact ⟨rfl, rfl, exporting, rfl, nothing⟩
  have fed := begun.feed services next given
  rcases ran : receiver.feed rows start with ⟨error | _, last⟩
  · obtain ⟨detail, rfl⟩ := fed.error ran
    exact .inl ⟨detail, last, rfl⟩
  · refine .inr ⟨last, rfl, ?_⟩
    rcases (fed.ok ran).finish services next with
      failed | ⟨closed, place, ended, behind, held⟩
    · exact .inl failed
    · obtain ⟨file, found, compressed, text⟩ := held.text
      rw [List.nil_append, lengths] at ended
      exact .inr ⟨closed, place, file, lines, ended, behind, held.created, found, compressed, text,
        lengths, ExportShape.holds_of_lines literals overwriting cells given, held.others⟩

/-- An export of two columns, the second of which is overwritten. -/
def exportWithOverwrites : ExportStage :=
  { path := "out", compression := none,
    shape := .object [⟨.input 0, rfl⟩, ⟨.input 1, rfl⟩] ["id", "name"],
    overwrites := [("by", .text "x\ny"), ("name", .long 7)] }

/-- Rows with NaN, a newline and another control character. -/
def unusualRows : List Row := [[.double .nan, .text "b"], [.text "a\n", .text "\x01"]]

/-- Two lines are written of such rows, and a collector behind gets their number. -/
theorem exported_lines_unusual :
    let receiver := Stage.receiver Simulation.services Terminal.receiver
    let start : (Stage × Terminal) × Job Simulation :=
      ((⟨.writer, .exporting exportWithOverwrites, .created⟩, .collecting {}), Job.alone)
    let shape := exportWithOverwrites.shape
    (∀ row ∈ unusualRows, ∃ document, shape.value row = .ok document) ∧
      ∃ fed last file lines, receiver.feed unusualRows start = (.ok (), fed) ∧
        receiver.finish fed = (.ok (), last) ∧ last.1.2.result = .ok [[.long 2]] ∧
        last.2.node.files.file? ["out"] = some file ∧
        file.text = String.join (lines.map (· ++ "\n")) ∧ lines.length = 2 ∧
        List.Forall₂ (shape.Holds exportWithOverwrites.overwrites) unusualRows lines := by
  intro receiver start shape
  have literals : ∀ expression ∈ exportWithOverwrites.shape.expressions,
      expression.symbol.IsOrdered := by
    simp only [exportWithOverwrites, ExportShape.expressions, List.forall_mem_cons]
    refine ⟨?_, ?_, nofun⟩ <;> exact fun _ part => nomatch part
  have overwriting : (Value.object exportWithOverwrites.overwrites).IsOrdered := by
    refine ⟨List.pairwise_cons.mpr ⟨?_, List.pairwise_singleton _ _⟩, trivial, trivial, trivial⟩
    intro entry member
    obtain rfl := List.mem_singleton.mp member
    decide
  have cells : ∀ row ∈ unusualRows, ∀ cell ∈ row, cell.IsOrdered := by
    simp only [unusualRows, List.forall_mem_cons]
    exact ⟨⟨trivial, trivial, nofun⟩, ⟨trivial, trivial, nofun⟩, nofun⟩
  have evaluates : ∀ row ∈ unusualRows, ∃ document,
      exportWithOverwrites.shape.value row = .ok document := by
    simp only [unusualRows, List.forall_mem_cons]
    exact ⟨⟨_, rfl⟩, ⟨_, rfl⟩, nofun⟩
  have made : (Job.alone).node.files.create "out" none =
      (.ok ["out"], (Job.alone).node.files.put ["out"] ⟨none, []⟩) := by
    rw [FileTree.create, FileTree.start, splitOn_of_not_mem (by decide),
      startsWith_slash_of_not_mem (by decide)]
    rfl
  let opened : (Stage × Terminal) × Job Simulation :=
    ((⟨.writer, .exporting { exportWithOverwrites with output := some ["out"] }, .created⟩,
      .collecting {}), (Job.alone).withFiles ((Job.alone).node.files.put ["out"] ⟨none, []⟩))
  have same : receiver.feed unusualRows start = receiver.feed unusualRows opened :=
    feed_of_create Simulation.services Terminal.receiver rfl made _ _ rfl
  have fine : (receiver.feed unusualRows start).1 = .ok () := by
    rw [same]
    rfl
  have finished : (receiver.finish (receiver.feed unusualRows start).2).1 = .ok () := by
    rw [same]
    rfl
  refine ⟨evaluates, ?_⟩
  rcases exported_lines Simulation.services Terminal.receiver .writer exportWithOverwrites
      (.collecting {}) Job.alone unusualRows ⟨rfl, rfl⟩ literals overwriting cells evaluates with
    ⟨detail, last, failed⟩ | ⟨fed, ran, ⟨detail, last, failed⟩ | ⟨⟨⟨stage, _⟩, after⟩, place, file, lines,
      ended, rfl, created, found, -, text, lengths, held, -⟩⟩
  · cases fine.symm.trans (congrArg Prod.fst failed)
  · rw [show receiver.feed unusualRows start = (.ok (), fed) from ran] at finished
    cases finished.symm.trans (congrArg Prod.fst failed)
  · obtain rfl := Except.ok.inj ((congrArg Prod.fst made).symm.trans created)
    exact ⟨fed, _, file, lines, ran, ended, rfl, found, text, lengths, held⟩

end Stage

end RowPipeline
