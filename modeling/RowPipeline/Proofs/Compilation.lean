import RowPipeline.Cluster.Simulation
import RowPipeline.Plan.Compiler
import RowPipeline.Proofs.Success

/-!
What compiled plans look like: one stage for each projection, in the same order, and none of them
did anything yet.
-/

namespace RowPipeline

variable {σ : Type}

namespace Projection

/-- The stages that projections compile to. The jobs are those that the compiler counts on in. -/
inductive Compiled (services : Services σ) (settings : Settings) :
    List Projection → List Stage → Prop where
  | nil : Compiled services settings [] []
  | cons : projection.compileBody services settings job = .ok body →
      Compiled services settings plan stages →
      Compiled services settings (projection :: plan) (⟨projection.kind, body, .created⟩ :: stages)

variable {services : Services σ} {settings : Settings}

/-- The stages that the kinds of projections compile to: nothing came to them yet. -/
inductive Starts : Projection → StageBody → Prop where
  | sort (sorting : Sorting) : Starts (.orderedTopN parameters) (.sort { sorting := sorting })
  | top (sorting : Sorting) (limit : Nat) :
      Starts (.orderedTopN parameters) (.top { sorting := sorting, limit := limit })
  | slice : Starts (.topN limit offset) (.slice ⟨offset, limit⟩)
  | eval (outputs : List Expression) : Starts (.eval symbols) (.eval ⟨outputs⟩)
  | filter (query : Expression) : Starts (.filter symbol) (.filter ⟨query⟩)
  | group (keys : List Expression) (aggregates : List Aggregate) :
      Starts (.group symbols values mode) (.group { keys := keys, aggregates := aggregates })
  | aggregate (aggregates : List Aggregate) :
      Starts (.aggregation calls mode) (.aggregate ⟨Aggregate.initialAll aggregates⟩)
  | count : Starts .mergeCount (.count {})
  | exporting (path : String) (shape : ExportShape) :
      Starts (.writer parameters)
        (.exporting
          { path := path, compression := parameters.compression, shape := shape,
            overwrites := parameters.overwrites })
  | sourceIndexWriter (naming : IndexNaming) (addressing : Addressing) (source : Expression)
      (origin : Option Expression) (config : BulkConfig) :
      Starts (.sourceIndexWriter parameters)
        (.indexWrite
          { naming := naming, addressing := addressing
            payload := .source source parameters.includes parameters.excludes
            origin := origin, result := parameters.result, writer := { config := config } })
  | columnIndexWriter (naming : IndexNaming) (addressing : Addressing) (values : List Expression)
      (onDuplicate : Option (List (String × Expression))) (config : BulkConfig) :
      Starts (.columnIndexWriter parameters)
        (.indexWrite
          { naming := naming, addressing := addressing
            payload := .columns parameters.columns values onDuplicate
            origin := none, result := parameters.result, writer := { config := config } })
  | update (target : ShardTarget) (uid : Expression) (assignments : List (String × Expression))
      (version : Option Expression) (config : BulkConfig) :
      Starts (.update parameters)
        (.shardWrite ⟨target, uid, .update assignments version, { config := config }⟩)
  | delete (target : ShardTarget) (uid : Expression) (config : BulkConfig) :
      Starts (.delete parameters) (.shardWrite ⟨target, uid, .delete, { config := config }⟩)
  | fetch (size : Nat) :
      Starts (.fetch parameters)
        (.fetch
          { idColumn := parameters.idColumn, columns := parameters.columns,
            readers := parameters.readers, size := size })
  | systemUpdate (relation : String) (key : Expression) (assignments : List (String × Expression)) :
      Starts (.systemUpdate parameters)
        (.systemUpdate { relation := relation, key := key, assignments := assignments })

theorem starts_of_compileBody {projection : Projection} {job : Job σ} {body : StageBody}
    (compiled : projection.compileBody services settings job = .ok body) :
    projection.Starts body := by
  cases projection with
  | orderedTopN parameters =>
    iterate 3 obtain ⟨_, _, compiled⟩ := ok_of_bind compiled
    cases limited : parameters.limit with
    | none =>
      simp only [limited] at compiled
      cases compiled
      exact .sort ..
    | some limit =>
      simp only [limited] at compiled
      obtain ⟨_, _, compiled⟩ := ok_of_bind compiled
      cases compiled
      exact .top ..
  | topN =>
    obtain ⟨_, _, compiled⟩ := ok_of_bind compiled
    cases compiled
    exact .slice
  | eval =>
    obtain ⟨outputs, _, compiled⟩ := ok_of_bind compiled
    cases compiled
    exact .eval outputs
  | filter =>
    obtain ⟨query, _, compiled⟩ := ok_of_bind compiled
    cases compiled
    exact .filter query
  | group =>
    iterate 2 obtain ⟨_, _, compiled⟩ := ok_of_bind compiled
    cases compiled
    exact .group ..
  | aggregation =>
    obtain ⟨aggregates, _, compiled⟩ := ok_of_bind compiled
    cases compiled
    exact .aggregate aggregates
  | mergeCount =>
    cases compiled
    exact .count
  | writer =>
    iterate 3 obtain ⟨_, _, compiled⟩ := ok_of_bind compiled
    cases compiled
    exact .exporting ..
  | sourceIndexWriter =>
    iterate 5 obtain ⟨_, _, compiled⟩ := ok_of_bind compiled
    cases compiled
    exact .sourceIndexWriter ..
  | columnIndexWriter =>
    iterate 6 obtain ⟨_, _, compiled⟩ := ok_of_bind compiled
    cases compiled
    exact .columnIndexWriter ..
  | update =>
    iterate 6 obtain ⟨_, _, compiled⟩ := ok_of_bind compiled
    cases compiled
    exact .update ..
  | delete =>
    iterate 3 obtain ⟨_, _, compiled⟩ := ok_of_bind compiled
    cases compiled
    exact .delete ..
  | fetch =>
    obtain ⟨_, _, compiled⟩ := ok_of_bind compiled
    cases compiled
    exact .fetch ..
  | systemUpdate =>
    obtain ⟨relation, _, compiled⟩ := ok_of_bind compiled
    split at compiled
    · obtain ⟨_, refused, _⟩ := ok_of_bind compiled
      cases refused
    · iterate 2 obtain ⟨_, _, compiled⟩ := ok_of_bind compiled
      cases compiled
      exact .systemUpdate ..

theorem compile_ok {projection : Projection} {job after : Job σ} {stage : Stage}
    (compiled : projection.compile services settings job = (.ok stage, after)) :
    ∃ body, projection.compileBody services settings job = .ok body ∧
      stage = ⟨projection.kind, body, .created⟩ := by
  unfold compile at compiled
  cases done : projection.compileBody services settings job with
  | error error =>
    rw [done] at compiled
    cases compiled
  | ok body =>
    rw [done] at compiled
    cases compiled
    exact ⟨body, rfl, rfl⟩

/-- Compilation answers stages only if all projections compiled. -/
theorem compileAll_compiled {plan : List Projection} {job : Job σ} {stages : List Stage}
    (compiled : (compileAll services settings plan job).1 = .ok stages) :
    Compiled services settings plan stages := by
  induction plan generalizing job stages with
  | nil =>
    obtain rfl : [] = stages := Except.ok.inj compiled
    exact .nil
  | cons projection rest ih =>
    unfold compileAll at compiled
    rcases first : projection.compile services settings job with ⟨_ | stage, middle⟩
    · rw [first] at compiled
      cases compiled
    rw [first] at compiled
    rcases later : compileAll services settings rest middle with ⟨_ | others, last⟩
    · simp only [later] at compiled
      cases compiled
    simp only [later] at compiled
    obtain ⟨body, done, rfl⟩ := compile_ok first
    obtain rfl : _ :: others = stages := Except.ok.inj compiled
    exact .cons done (ih (by rw [later]))

theorem Compiled.created {plan : List Projection} {stages : List Stage}
    (compiled : Compiled services settings plan stages) :
    ∀ stage ∈ stages, stage.phase = .created := by
  induction compiled with
  | nil => simp
  | cons _ _ ih =>
    intro stage member
    rcases List.mem_cons.mp member with rfl | member
    · rfl
    · exact ih stage member

end Projection

/-- A job of its own on a cluster of one node without documents. -/
def Job.alone : Job Simulation where
  id := "alone"
  shard := none
  memory := { label := "alone", limit := 100000 }
  node := { services := { cluster := LocalCluster.ofSize 1 1 } }

end RowPipeline
