import RowPipeline.Proofs.KeyTexts
import RowPipeline.Proofs.PartitionNames
import RowPipeline.Proofs.SoloWrites

/-!
Rows with equal keys. They share a document if their keys are written alike, and then whoever inserts
both finds the first in the way of the second.
-/

namespace RowPipeline

/-- Whether equal keys make the same id: a single key is shown, several keys are written as JSON. -/
def Addressing.keysAlike : List Value → List Value → Bool
  | [key], [key'] => key.shownAlike key'
  | keys, keys' => Value.itemsAlike keys keys'

/-- The cells that decide where the document of a row is kept. -/
structure KeyCells where
  primary : List Value
  clustering : Option Value
  partition : List Value

namespace KeyCells

/-- The cells of a row. -/
structure Of (addressing : Addressing) (naming : IndexNaming) (row : Row) (cells : KeyCells) :
    Prop where
  primary : Expression.evaluateAll addressing.primaryKeys row = .ok cells.primary
  clustering : addressing.clusteredBy.mapM (·.evaluate row) = .ok cells.clustering
  partition : Expression.evaluateAll naming.partitions row = .ok cells.partition

structure Same (left right : KeyCells) : Prop where
  primary : List.Forall₂ (fun cell cell' => cell.same cell' = true) left.primary right.primary
  clustering : Option.Rel (fun cell cell' => cell.same cell' = true) left.clustering right.clustering
  partition : List.Forall₂ (fun cell cell' => cell.same cell' = true) left.partition right.partition

/-- Cells that are written alike if they are equal. -/
structure Alike (left right : KeyCells) : Prop where
  primary : Addressing.keysAlike left.primary right.primary = true
  clustering : ∀ cell ∈ left.clustering, ∀ cell' ∈ right.clustering, cell.shownAlike cell' = true
  partition : Value.itemsAlike left.partition right.partition = true

end KeyCells

namespace Value

theorem compareItems_of_forall₂ {left right : List Value}
    (same : List.Forall₂ (fun cell cell' => cell.same cell' = true) left right) :
    compareItems left right = .eq := by
  induction same with
  | nil => simp [compareItems]
  | cons first _ ih => rw [compareItems, same_iff.mp first, ih, Ordering.eq_then]

private theorem any_isNull_eq {left right : List Value}
    (same : List.Forall₂ (fun cell cell' => cell.same cell' = true) left right) :
    left.any isNull = right.any isNull := by
  induction same with
  | nil => rfl
  | cons first _ ih => rw [List.any_cons, List.any_cons, isNull_eq_of_same first, ih]

end Value

/-- Equal lists of values name one partition if they are written alike, and only then. -/
theorem Partition.indexName_eq_iff (table : String) {left right : List Value}
    (same : List.Forall₂ (fun value value' => value.same value' = true) left right) :
    indexName table left = indexName table right ↔ Value.itemsAlike left right = true := by
  rw [← Value.listText_eq_iff (Value.compareItems_of_forall₂ same)]
  refine ⟨fun names => ?_, fun texts => by rw [indexName, indexName, texts]⟩
  have split := splitLast?_indexName table left
  rw [names, splitLast?_indexName, Option.some.injEq, Prod.mk.injEq] at split
  have digits := congrArg Base64.decodeText? (String.toList_inj.mp split.2)
  rw [identifier, identifier, Base64.decodeText?_encodeText, Base64.decodeText?_encodeText] at digits
  exact (Option.some.inj digits).symm

/-! ### Addresses -/

namespace Addressing

variable {fresh fresh' : String} {keys keys' : List Value}

theorem idOfKeys_single (key : Value) :
    idOfKeys fresh [key] = if key.isNull then .error .nullPrimaryKey else .ok key.display := by
  cases key <;> rfl

private theorem idOfKeys_eq (keyed : keys ≠ [])
    (same : List.Forall₂ (fun key key' => key.same key' = true) keys keys')
    (alike : keysAlike keys keys' = true) : idOfKeys fresh keys = idOfKeys fresh' keys' := by
  have nulls := Value.any_isNull_eq same
  have equal := Value.compareItems_of_forall₂ same
  match keys, keys', same with
  | [], [], .nil => exact absurd rfl keyed
  | [key], [key'], .cons first .nil =>
    rw [idOfKeys_single, idOfKeys_single, Value.isNull_eq_of_same first,
      Value.display_eq_of_shownAlike (Value.same_iff.mp first) alike]
  | _ :: _ :: _, _ :: _ :: _, .cons _ (.cons _ _) =>
    simp only [idOfKeys]
    rw [nulls, (Value.listText_eq_iff equal).mpr alike]

/-- Several equal keys make one id only if they are written alike. -/
theorem idOfKeys_eq_iff (several : 2 ≤ keys.length) (present : keys.any Value.isNull = false)
    (same : List.Forall₂ (fun key key' => key.same key' = true) keys keys') :
    idOfKeys fresh keys = idOfKeys fresh' keys' ↔ Value.itemsAlike keys keys' = true := by
  have present' := Value.any_isNull_eq same ▸ present
  rw [← Value.listText_eq_iff (Value.compareItems_of_forall₂ same)]
  match keys, keys', same with
  | _ :: _ :: _, _ :: _ :: _, .cons _ (.cons _ _) =>
    simp only [idOfKeys]
    rw [present, present']
    refine ⟨fun equal => ?_, fun texts => by rw [texts]⟩
    have digits := congrArg Base64.decodeText? (Except.ok.inj equal)
    rwa [Base64.decodeText?_encodeText, Base64.decodeText?_encodeText, Option.some.injEq] at digits

private theorem isOk_idOfKeys (present : ∀ key ∈ keys, key ≠ .null) :
    ∃ id, idOfKeys fresh keys = .ok id := by
  have filled : keys.any Value.isNull = false := by
    rw [List.any_eq_false]
    intro key member null
    exact present key member (by cases key <;> simp_all [Value.isNull])
  match keys with
  | [] => exact ⟨_, rfl⟩
  | [key] =>
    rw [List.any_cons, Bool.or_eq_false_iff] at filled
    exact ⟨_, by rw [idOfKeys_single, filled.1]; rfl⟩
  | _ :: _ :: _ =>
    simp only [idOfKeys]
    rw [filled]
    exact ⟨_, rfl⟩

/-- The text that picks the shard, made of the clustering value. -/
def routingOfCell : Option Value → Except ItemFault (Option String)
  | none => .ok none
  | some cell => if cell.isNull then .error .nullClusteringValue else .ok (some cell.display)

end Addressing

namespace KeyCells

variable {addressing : Addressing} {naming : IndexNaming} {row row' : Row} {cells cells' : KeyCells}

theorem Of.routing (of : cells.Of addressing naming row) :
    addressing.routing row = Addressing.routingOfCell cells.clustering := by
  have clustering := of.clustering
  unfold Addressing.routing Addressing.evaluate
  cases declared : addressing.clusteredBy with
  | none =>
    rw [declared] at clustering
    rw [← Except.ok.inj clustering]
    rfl
  | some expression =>
    rw [declared, Option.mapM_some] at clustering
    cases evaluated : expression.evaluate row with
    | error fault =>
      rw [evaluated] at clustering
      cases clustering
    | ok cell =>
      rw [evaluated] at clustering
      rw [← Except.ok.inj clustering]
      cases cell <;> simp [evaluated, Addressing.routingOfCell, Value.isNull]

theorem Of.address (of : cells.Of addressing naming row) (fresh : String) :
    addressing.address fresh row = do
      let id ← Addressing.idOfKeys fresh cells.primary
      let routing ← Addressing.routingOfCell cells.clustering
      return ⟨id, routing⟩ := by
  rw [Addressing.address, of.routing, Addressing.evaluateAll, of.primary]
  rfl

theorem Of.resolve (of : cells.Of addressing naming row) :
    naming.resolve row = .ok (if naming.isPartitioned then
      Partition.indexName naming.table cells.partition else naming.table) := by
  rw [IndexNaming.resolve, of.partition]
  split <;> rfl

private theorem Same.routing_eq (same : cells.Same cells') (alike : cells.Alike cells') :
    Addressing.routingOfCell cells.clustering = Addressing.routingOfCell cells'.clustering := by
  obtain ⟨primary, clustering, partition⟩ := cells
  obtain ⟨primary', clustering', partition'⟩ := cells'
  cases same.clustering with
  | none => rfl
  | some equal =>
    have shown := alike.clustering _ rfl _ rfl
    dsimp only
    rw [Addressing.routingOfCell, Addressing.routingOfCell, Value.isNull_eq_of_same equal,
      Value.display_eq_of_shownAlike (Value.same_iff.mp equal) shown]

private theorem isOk_routing (present : cells.clustering ≠ some .null) :
    ∃ routing, Addressing.routingOfCell cells.clustering = .ok routing := by
  match declared : cells.clustering with
  | none => exact ⟨_, rfl⟩
  | some cell =>
    have filled : cell.isNull = false := by cases cell <;> simp_all [Value.isNull]
    exact ⟨_, by rw [Addressing.routingOfCell, filled]; rfl⟩

end KeyCells

/-! ### Duplicates -/

/-- Whether an operation stores a document only where there is none. -/
def BulkOperation.isInsert (options : BulkOptions) : BulkOperation → Bool
  | .index (.object _) => !options.overwritesDuplicates
  | .insert _ _ none => !options.ignoresDuplicates
  | _ => false

namespace Documents

variable {options : BulkOptions} {documents : Documents} {item : BulkItem}

private theorem applyItem_of_contains (inserts : item.operation.isInsert options = true)
    (found : documents.contains item.id = true) :
    documents.applyItem options item =
      (documents, ⟨item.location, some (ItemFault.documentExists item.id).message⟩) := by
  obtain ⟨document, found⟩ := Option.isSome_iff_exists.mp found
  have exists_ : documents.apply options item.id item.operation = .error (.documentExists item.id) := by
    unfold apply
    rw [found]
    unfold BulkOperation.isInsert at inserts
    split at inserts <;> simp_all
  rw [applyItem, exists_]

private theorem contains_applyItem (inserts : item.operation.isInsert options = true) :
    (documents.applyItem options item).1.contains item.id = true := by
  cases found : documents.get? item.id with
  | some document =>
    have there : documents.contains item.id = true := by simp [Dictionary.contains, found]
    rw [applyItem_of_contains inserts there]
    exact there
  | none =>
    obtain ⟨stored, done⟩ : ∃ document, documents.apply options item.id item.operation =
        .ok (documents.insert item.id document) := by
      unfold apply
      rw [found]
      unfold BulkOperation.isInsert at inserts
      split at inserts <;> simp_all <;> exact ⟨_, rfl⟩
    rw [applyItem, done]
    simp [Dictionary.contains]

end Documents

namespace LocalCluster

variable {cluster : LocalCluster} {node node' : NodeName} {shard : ShardId} {options : BulkOptions}
  {first second : BulkItem}

/-- The second of two inserts with one id is refused and changes no document. -/
theorem applyBulk_duplicate (answers : cluster.failingShards.contains shard = false)
    (there : cluster.indexExists shard.index = true) (same : second.id = first.id)
    (inserts : first.operation.isInsert options = true)
    (inserts' : second.operation.isInsert options = true) :
    let after := (cluster.applyBulk node ⟨shard, options, [first]⟩).2
    let again := after.applyBulk node' ⟨shard, options, [second]⟩
    again.1 = .ok [⟨second.location, some (ItemFault.documentExists first.id).message⟩] ∧
      ∀ index id, again.2.document? index id = after.document? index id := by
  intro after again
  have answers' : after.failingShards.contains shard = false := by
    rw [(Alike.applyBulk cluster node _).failingShards, answers]
  obtain ⟨documents, found⟩ : ∃ documents, cluster.indices.get? shard.index = some documents :=
    Option.isSome_iff_exists.mp there
  have changed := (@applyBulk_of_found cluster node ⟨shard, options, [first]⟩ answers _ found).2
  have found' : after.indices.get? shard.index = some (documents.applyItem options first).1 := by
    rw [changed, Dictionary.get?_insert, if_pos rfl]
    rfl
  have refused : (documents.applyItem options first).1.applyItem options second = _ :=
    Documents.applyItem_of_contains inserts' (same ▸ Documents.contains_applyItem inserts)
  obtain ⟨answer, kept⟩ := @applyBulk_of_found after node' ⟨shard, options, [second]⟩ answers' _ found'
  refine ⟨answer.trans ?_, fun index id => ?_⟩
  · simp [Documents.applyAll, refused, same]
  · rw [document?, document?, LocalCluster.documents, LocalCluster.documents, kept,
      Dictionary.get?_insert]
    by_cases own : index = shard.index <;> simp [own, found', Documents.applyAll, refused]

/-- A document is inserted at an address, and in a later request another at a second address. The
second one is refused, and what the first one left is as it was. -/
def Collide (cluster : LocalCluster) (index : String) (address : DocumentAddress) (index' : String)
    (address' : DocumentAddress) : Prop :=
  let target := cluster.resolve index address.routingKey
  cluster.failingShards.contains target.shard = false → cluster.indexExists index = true →
    ∀ (options : BulkOptions) (first second : BulkItem),
      first.id = address.id → first.operation.isInsert options = true →
      second.id = address'.id → second.operation.isInsert options = true →
        let after := (cluster.applyBulk target.node ⟨target.shard, options, [first]⟩).2
        let target' := after.resolve index' address'.routingKey
        let again := after.applyBulk target'.node ⟨target'.shard, options, [second]⟩
        again.1 = .ok [⟨second.location, some (ItemFault.documentExists address'.id).message⟩] ∧
          ∀ index id, again.2.document? index id = after.document? index id

private theorem collide_self (cluster : LocalCluster) (index : String) (address : DocumentAddress) :
    cluster.Collide index address index address := by
  unfold Collide
  intro target answers there options first second here inserts here' inserts' after target'
  have same : target' = target := (Alike.applyBulk cluster _ _).resolve index address.routingKey
  rw [same, ← here]
  exact applyBulk_duplicate answers there (here'.trans here.symm) inserts inserts'

end LocalCluster

/-! ### Equal keys -/

namespace KeyCells

variable {addressing : Addressing} {naming : IndexNaming} {row row' : Row} {cells cells' : KeyCells}

theorem Of.primary_ne_nil (of : cells.Of addressing naming row) (keyed : addressing.primaryKeys ≠ []) :
    cells.primary ≠ [] := by
  obtain ⟨first, rest, declared⟩ := List.exists_cons_of_ne_nil keyed
  have evaluated := of.primary
  rw [declared, Expression.evaluateAll, List.mapM_cons] at evaluated
  rintro empty
  rw [empty] at evaluated
  cases head : first.evaluate row <;> cases tail : rest.mapM (·.evaluate row) <;>
    simp [head, tail, bind, Except.bind, pure, Except.pure] at evaluated

/-- Rows whose keys are equal and written alike share a document. -/
theorem shared_document (keyed : addressing.primaryKeys ≠ [])
    (of : cells.Of addressing naming row) (of' : cells'.Of addressing naming row')
    (same : cells.Same cells') (present : ∀ key ∈ cells.primary, key ≠ .null)
    (alike : cells.Alike cells') (fresh fresh' : String) :
    addressing.address fresh row = addressing.address fresh' row' ∧
      naming.resolve row = naming.resolve row' ∧
      (cells.clustering ≠ some .null → ∃ address address' index index',
        addressing.address fresh row = .ok address ∧ naming.resolve row = .ok index ∧
        addressing.address fresh' row' = .ok address' ∧ naming.resolve row' = .ok index' ∧
        ∀ cluster : LocalCluster, cluster.Collide index address index' address') := by
  have addressed : addressing.address fresh row = addressing.address fresh' row' := by
    rw [of.address, of'.address, same.routing_eq alike,
      Addressing.idOfKeys_eq (of.primary_ne_nil keyed) same.primary alike.primary]
  have named : naming.resolve row = naming.resolve row' := by
    rw [of.resolve, of'.resolve,
      (Partition.indexName_eq_iff naming.table same.partition).mpr alike.partition]
  refine ⟨addressed, named, fun clustered => ?_⟩
  obtain ⟨id, made⟩ := @Addressing.isOk_idOfKeys fresh _ present
  obtain ⟨routing, found⟩ := isOk_routing clustered
  have address : addressing.address fresh row = .ok ⟨id, routing⟩ := by
    rw [of.address, made, found]
    rfl
  exact ⟨_, _, _, _, address, of.resolve, addressed ▸ address, named ▸ of.resolve,
    fun cluster => cluster.collide_self _ _⟩

/-- Two numbers of either type, a single key that is an object, and a partition, where every NaN is
equal to every other and written like it. -/
theorem shared_document_nested :
    let keys : List Value := [.object [("a", .array [.long 1, .double ⟨0x8000000000000000⟩])]]
    let addressing : Addressing := ⟨[⟨.input 0, rfl⟩], some ⟨.input 1, rfl⟩⟩
    let naming : IndexNaming := ⟨"t", [⟨.input 2, rfl⟩]⟩
    let row : Row := keys ++ [.long 7, .double ⟨0x7ff8000000000000⟩]
    let row' : Row := keys ++ [.double ⟨0x401c000000000000⟩, .double ⟨0xfff8000000000001⟩]
    row ≠ row' ∧ addressing.address "" row = addressing.address "" row' ∧
      naming.resolve row = naming.resolve row' := by
  intro keys addressing naming row row'
  have of : Of addressing naming row ⟨keys, some (.long 7), [.double ⟨0x7ff8000000000000⟩]⟩ :=
    ⟨rfl, rfl, rfl⟩
  have of' : Of addressing naming row'
      ⟨keys, some (.double ⟨0x401c000000000000⟩), [.double ⟨0xfff8000000000001⟩]⟩ := ⟨rfl, rfl, rfl⟩
  have shared := shared_document (by decide) of of'
    ⟨.cons (by decide +kernel) .nil, .some (by decide +kernel), .cons (by decide +kernel) .nil⟩
    (by simp [keys]) ⟨by decide +kernel, by simp; decide +kernel, by decide +kernel⟩ "" ""
  exact ⟨by simp [row, row', keys], shared.1, shared.2.1⟩

/-- Several keys that are equal, but of two types, make two ids. -/
theorem equal_keys_apart :
    let addressing : Addressing := ⟨[⟨.input 0, rfl⟩, ⟨.input 1, rfl⟩], none⟩
    let naming : IndexNaming := ⟨"t", []⟩
    let keys : Row := [.long 1, .text "a"]
    let keys' : Row := [.double ⟨0x3ff0000000000000⟩, .text "a"]
    Of addressing naming keys ⟨keys, none, []⟩ ∧ Of addressing naming keys' ⟨keys', none, []⟩ ∧
      Same ⟨keys, none, []⟩ ⟨keys', none, []⟩ ∧ (∀ key ∈ keys, key ≠ .null) ∧
      addressing.address "" keys ≠ addressing.address "" keys' := by
  intro addressing naming keys keys'
  have of : Of addressing naming keys ⟨keys, none, []⟩ := ⟨rfl, rfl, rfl⟩
  have of' : Of addressing naming keys' ⟨keys', none, []⟩ := ⟨rfl, rfl, rfl⟩
  have same : Same ⟨keys, none, []⟩ ⟨keys', none, []⟩ :=
    ⟨.cons (by decide +kernel) (.cons (by decide +kernel) .nil), .none, .nil⟩
  refine ⟨of, of', same, by simp [keys], fun shared => ?_⟩
  rw [of.address, of'.address] at shared
  have ids : Addressing.idOfKeys "" keys = Addressing.idOfKeys "" keys' :=
    congrArg (Except.map DocumentAddress.id) shared
  have alike := (Addressing.idOfKeys_eq_iff (by decide) rfl same.primary).mp ids
  exact absurd alike Bool.false_ne_true

end KeyCells

end RowPipeline
