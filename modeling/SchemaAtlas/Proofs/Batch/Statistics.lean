import SchemaAtlas.Batch.Statistics
import SchemaAtlas.Proofs.Distinct
import SchemaAtlas.Proofs.Keyed

/-!
# Statistics of several batches

The statistics of a batch can be gathered in one pass over its entities. They add up when batches
with different documents are put together, the counts of one batch agree with each other, and the
order of the documents shows only in the order in which the two maps of counts list their keys.
-/

namespace SchemaAtlas

/-- The documents of two batches in one; those of the second count where both have one of an id. -/
def Batch.union (batch other : Batch) : Batch :=
  other.foldl (fun all document => Keyed.set all document.1 document.2) batch

/-- Batches without a common id are joined one behind the other. -/
theorem Batch.union_eq_append {batch other : Batch}
    (h : (batch.map (·.1) ++ other.map (·.1)).Nodup) : batch.union other = batch ++ other := by
  induction other generalizing batch with
  | nil => simp [union]
  | cons document rest ih =>
    have hnew : document.1 ∉ batch.map (·.1) := fun hmem =>
      (List.nodup_append.mp h).2.2 _ hmem _ (List.mem_map_of_mem List.mem_cons_self) rfl
    have hset : Keyed.set batch document.1 document.2 = batch ++ [document] :=
      Keyed.alter_of_notMem hnew _
    have hrest : (((batch ++ [document]).map (·.1)) ++ rest.map (·.1)).Nodup := by simpa using h
    rw [union, List.foldl_cons, hset]
    simpa [union] using ih hrest

namespace Statistics

section Tally

variable {α : Type} [DecidableEq α]

/-- How often a map of counts says that a value occurs: never, if it does not list the value. -/
def occurrences (counts : List (α × Nat)) (a : α) : Nat := (counts.lookup a).getD 0

/-- A tally has for each value how often it occurs. -/
theorem occurrences_tally (values : List α) (a : α) :
    occurrences (tally values) a = values.count a := by
  have hlookup (keys : List α) : (keys.map fun v => (v, values.count v)).lookup a =
      if a ∈ keys then some (values.count a) else none := by
    induction keys with
    | nil => rfl
    | cons k keys ih =>
      by_cases h : a = k
      · simp [h]
      · have hne : (a == k) = false := by simpa using h
        simp [List.lookup_cons, hne, h, ih]
  simp only [occurrences, tally, hlookup, List.mem_eraseDups]
  split_ifs with h
  · rfl
  · exact (List.count_eq_zero.mpr h).symm

theorem sum_tally (values : List α) : ((tally values).map (·.2)).sum = values.length := by
  rw [tally, List.map_map]
  exact sum_count_eraseDups values

theorem nodup_keys_tally (values : List α) : ((tally values).map (·.1)).Nodup := by
  simpa [tally, Function.comp_def] using nodup_eraseDups values

theorem tally_perm {values values' : List α} (h : values'.Perm values) :
    (tally values').Perm (tally values) := by
  have hcount : (fun v => (v, values'.count v)) = fun v => (v, values.count v) := by
    funext v
    rw [h.count_eq]
  rw [tally, tally, hcount]
  exact (eraseDups_perm fun _ => h.mem_iff).map _

/-- The counts after one more occurrence of a value; a new value is listed last. -/
def counted (a : α) : List (α × Nat) → List (α × Nat)
  | [] => [(a, 1)]
  | (b, n) :: rest => if b = a then (b, n + 1) :: rest else (b, n) :: counted a rest

theorem counted_of_notMem {keys : List α} {a : α} (h : a ∉ keys) (f : α → Nat) :
    counted a (keys.map fun k => (k, f k)) = keys.map (fun k => (k, f k)) ++ [(a, 1)] := by
  induction keys with
  | nil => rfl
  | cons k keys ih =>
    obtain ⟨hne, hrest⟩ := not_or.mp fun hmem => h (List.mem_cons.mpr hmem)
    simp [counted, Ne.symm hne, ih hrest]

/-- To count a value once more is to count it in its place. -/
theorem counted_of_mem {keys : List α} {a : α} (hkeys : keys.Nodup) (h : a ∈ keys)
    (f : α → Nat) : counted a (keys.map fun k => (k, f k)) =
      keys.map fun k => (k, if k = a then f k + 1 else f k) := by
  induction keys with
  | nil => cases h
  | cons k keys ih =>
    obtain ⟨hnew, hrest⟩ := List.nodup_cons.mp hkeys
    by_cases hk : k = a
    · subst hk
      have hothers : keys.map (fun other => (other, if other = k then f other + 1 else f other)) =
          keys.map fun other => (other, f other) := by
        refine List.map_congr_left fun other hother => ?_
        rw [if_neg fun he : other = k => hnew (he ▸ hother)]
      simp [counted, hothers]
    · have hmem : a ∈ keys := (List.mem_cons.mp h).resolve_left (Ne.symm hk)
      simp [counted, hk, ih hrest hmem]

/-- Values are tallied one after the other. -/
theorem tally_concat (values : List α) (a : α) :
    tally (values ++ [a]) = counted a (tally values) := by
  have hcount (k : α) :
      (values ++ [a]).count k = if k = a then values.count k + 1 else values.count k := by
    by_cases hk : k = a
    · simp [hk]
    · simp [hk, Ne.symm hk]
  rw [tally, eraseDups_concat]
  simp only [hcount, List.elem_eq_mem, decide_eq_true_eq]
  by_cases hmem : a ∈ values
  · rw [if_pos hmem, tally,
      counted_of_mem (nodup_eraseDups values) (List.mem_eraseDups.mpr hmem)]
  · have hnew : a ∉ values.eraseDups := fun h => hmem (List.mem_eraseDups.mp h)
    rw [if_neg hmem, tally, counted_of_notMem hnew, List.map_append]
    congr 1
    · refine List.map_congr_left fun k hk => ?_
      rw [if_neg fun he : k = a => hnew (he ▸ hk)]
    · simp [List.count_eq_zero.mpr hmem]

/-- A list of values is tallied on top of another. -/
theorem tally_append (values others : List α) :
    tally (values ++ others) = others.foldl (fun counts a => counted a counts) (tally values) := by
  induction others generalizing values with
  | nil => simp
  | cons a others ih => rw [List.foldl_cons, ← tally_concat, ← ih, List.append_cons]

end Tally

theorem total_eq_sum (counts : List Nat) : total counts = counts.sum := rfl

section OnePass

def noteRelation (s : Statistics) (r : Relation) : Statistics :=
  { s with
    totalRelations := s.totalRelations + 1
    relationTypes := counted r.type s.relationTypes
    selfReferencing := if r.isSelfReferencing then s.selfReferencing + 1 else s.selfReferencing }

/-- Count the relations of an entity, and the entity itself if it has any. -/
def noteRelations (s : Statistics) (e : Entity) : Statistics :=
  match e.relationItems with
  | [] => s
  | items => items.foldl noteRelation
      { s with entitiesWithRelations := s.entitiesWithRelations + 1 }

def noteType (s : Statistics) (e : Entity) : Statistics :=
  match e.entityType with
  | some type => { s with entityTypes := counted type s.entityTypes }
  | none => s

/-- Keep the names of the audit columns of an entity that are new, and count whether one of the
columns marks deleted rows. -/
def noteAudit (s : Statistics) (e : Entity) : Statistics :=
  { s with
    auditColumns := ((detectedColumns e).map (·.2)).foldl
      (fun names name => if names.elem name then names else names ++ [name]) s.auditColumns
    softDeletes := if hasSoftDelete e then s.softDeletes + 1 else s.softDeletes }

def noteEntity (s : Statistics) (e : Entity) : Statistics :=
  let s := noteAudit (noteRelations (noteType s e) e) e
  { s with foreignKeys := s.foreignKeys + e.foreignKeyCount }

def blank (entities documents : Nat) : Statistics where
  totalEntities := entities
  totalDocuments := documents
  entityTypes := []
  totalRelations := 0
  relationTypes := []
  selfReferencing := 0
  entitiesWithRelations := 0
  auditColumns := []
  softDeletes := 0
  foreignKeys := 0

/-- The statistics of a batch, gathered in one pass over its entities. -/
def gathered (batch : Batch) : Statistics :=
  let entities := batch.flatMap (·.2)
  let s := entities.foldl noteEntity (blank entities.length batch.length)
  { s with auditColumns := s.auditColumns.mergeSort Text.le }

/-- The counts behind some of the entities; the names of audit columns are not sorted yet. -/
def behind (entities documents : Nat) (seen : List Entity) : Statistics :=
  let relations := seen.flatMap Entity.relationItems
  { totalEntities := entities
    totalDocuments := documents
    entityTypes := tally (seen.filterMap (·.entityType))
    totalRelations := relations.length
    relationTypes := tally (relations.map (·.type))
    selfReferencing := relations.countP (·.isSelfReferencing)
    entitiesWithRelations := seen.countP fun e => !e.relationItems.isEmpty
    auditColumns := (seen.flatMap fun e => (detectedColumns e).map (·.2)).eraseDups
    softDeletes := seen.countP hasSoftDelete
    foreignKeys := total (seen.map Entity.foreignKeyCount) }

/-- Noting relations one by one adds up to their tallies. -/
theorem foldl_noteRelation (items : List Relation) (s : Statistics) :
    items.foldl noteRelation s = { s with
      totalRelations := s.totalRelations + items.length
      relationTypes := (items.map (·.type)).foldl (fun counts type => counted type counts)
        s.relationTypes
      selfReferencing := s.selfReferencing + items.countP (·.isSelfReferencing) } := by
  induction items generalizing s with
  | nil => rfl
  | cons r items ih =>
    rw [List.foldl_cons, ih]
    simp only [noteRelation, List.length_cons, List.map_cons, List.foldl_cons, List.countP_cons]
    congr 1
    · omega
    · split_ifs <;> omega

/-- What an entity adds to the counts of relations. -/
theorem noteRelations_eq (s : Statistics) (e : Entity) : noteRelations s e = { s with
    totalRelations := s.totalRelations + e.relationItems.length
    relationTypes := (e.relationItems.map (·.type)).foldl (fun counts type => counted type counts)
      s.relationTypes
    selfReferencing := s.selfReferencing + e.relationItems.countP (·.isSelfReferencing)
    entitiesWithRelations := s.entitiesWithRelations +
      if e.relationItems.isEmpty then 0 else 1 } := by
  unfold noteRelations
  cases e.relationItems with
  | nil => rfl
  | cons r items => exact foldl_noteRelation _ _

/-- Names that are kept one after the other, each where it is new, are the distinct names. -/
theorem eraseDups_append_names (names others : List Text) : (names ++ others).eraseDups =
    others.foldl (fun kept name => if kept.elem name then kept else kept ++ [name])
      names.eraseDups := by
  induction others generalizing names with
  | nil => simp
  | cons name others ih =>
    have hmem : names.eraseDups.elem name = names.elem name := by
      simp [List.mem_eraseDups]
    rw [List.foldl_cons, hmem, List.append_cons, ih, eraseDups_concat]

/-- One more entity is counted on top of the others. -/
theorem noteEntity_behind (entities documents : Nat) (seen : List Entity) (e : Entity) :
    noteEntity (behind entities documents seen) e = behind entities documents (seen ++ [e]) := by
  have htype : noteType (behind entities documents seen) e =
      { behind entities documents seen with
        entityTypes := tally ((seen ++ [e]).filterMap (·.entityType)) } := by
    cases h : e.entityType with
    | none => simp [noteType, h, behind]
    | some type => simp [noteType, h, behind, tally_concat]
  rw [noteEntity, htype, noteRelations_eq]
  simp only [noteAudit, behind, List.flatMap_append, List.flatMap_singleton, List.map_append,
    tally_append, eraseDups_append_names, List.length_append, List.countP_append,
    List.countP_singleton, total_eq_sum, List.sum_append, List.map_singleton, List.sum_singleton]
  congr 1
  · cases e.relationItems.isEmpty <;> rfl
  · split_ifs <;> rfl

/-- The statistics of a batch can be gathered in one pass. -/
theorem gathered_eq (batch : Batch) : gathered batch = ofBatch batch := by
  have hrun (entities documents : Nat) (seen : List Entity) :
      seen.foldl noteEntity (blank entities documents) = behind entities documents seen := by
    induction seen using List.reverseRecOn with
    | nil => rfl
    | append_singleton seen e ih =>
      rw [List.foldl_append, ih]
      exact noteEntity_behind entities documents seen e
  rw [gathered, hrun]
  rfl

end OnePass

/-- Statistics that count what two others count together. -/
structure Sums (s t sum : Statistics) : Prop where
  totalEntities : sum.totalEntities = s.totalEntities + t.totalEntities
  totalDocuments : sum.totalDocuments = s.totalDocuments + t.totalDocuments
  entityTypes : ∀ type, occurrences sum.entityTypes type =
    occurrences s.entityTypes type + occurrences t.entityTypes type
  totalRelations : sum.totalRelations = s.totalRelations + t.totalRelations
  relationTypes : ∀ type, occurrences sum.relationTypes type =
    occurrences s.relationTypes type + occurrences t.relationTypes type
  selfReferencing : sum.selfReferencing = s.selfReferencing + t.selfReferencing
  entitiesWithRelations :
    sum.entitiesWithRelations = s.entitiesWithRelations + t.entitiesWithRelations
  auditColumns : ∀ name, name ∈ sum.auditColumns ↔ name ∈ s.auditColumns ∨ name ∈ t.auditColumns
  increasing : sum.auditColumns.Pairwise Text.Before
  softDeletes : sum.softDeletes = s.softDeletes + t.softDeletes
  foreignKeys : sum.foreignKeys = s.foreignKeys + t.foreignKeys

/-- The counts of some entities agree with each other. -/
structure Balanced (entities : List Entity) (s : Statistics) : Prop where
  entityTypes : (s.entityTypes.map (·.2)).sum = entities.countP (·.entityType.isSome)
  relationTypes : (s.relationTypes.map (·.2)).sum = s.totalRelations
  entityTypes_nodup : (s.entityTypes.map (·.1)).Nodup
  relationTypes_nodup : (s.relationTypes.map (·.1)).Nodup
  selfReferencing : s.selfReferencing ≤ s.totalRelations
  entitiesWithRelations : s.entitiesWithRelations ≤ s.totalEntities
  softDeletes : s.softDeletes ≤ s.totalEntities

/-- Statistics that differ in nothing but the order in which the two maps of counts list their
keys. -/
structure Reordered (s t : Statistics) : Prop where
  entityTypes : t.entityTypes.Perm s.entityTypes
  relationTypes : t.relationTypes.Perm s.relationTypes
  others : { t with entityTypes := s.entityTypes, relationTypes := s.relationTypes } = s

theorem mem_auditColumns (batch : Batch) (name : Text) : name ∈ (ofBatch batch).auditColumns ↔
    ∃ e ∈ batch.flatMap (·.2), name ∈ (detectedColumns e).map (·.2) := by
  rw [ofBatch, List.mem_mergeSort, List.mem_eraseDups, List.mem_flatMap]

/-- The counts of two batches are the sums of theirs. -/
theorem sums_ofBatch_append (batch other : Batch) :
    Sums (ofBatch batch) (ofBatch other) (ofBatch (batch ++ other)) where
  totalEntities := by simp [ofBatch]
  totalDocuments := by simp [ofBatch]
  entityTypes type := by simp [ofBatch, occurrences_tally]
  totalRelations := by simp [ofBatch]
  relationTypes type := by simp [ofBatch, occurrences_tally]
  selfReferencing := by simp [ofBatch]
  entitiesWithRelations := by simp [ofBatch]
  auditColumns name := by
    simp only [mem_auditColumns, List.flatMap_append, List.mem_append, or_and_right, exists_or]
  increasing := Text.pairwise_before_mergeSort (nodup_eraseDups _)
  softDeletes := by simp [ofBatch]
  foreignKeys := by simp [ofBatch, total_eq_sum]

/-- Each total of the statistics is the sum of its parts. -/
theorem balanced_ofBatch (batch : Batch) : Balanced (batch.flatMap (·.2)) (ofBatch batch) where
  entityTypes := by
    have hclassified (entities : List Entity) : (entities.filterMap (·.entityType)).length =
        entities.countP (·.entityType.isSome) := List.length_filterMap_eq_countP
    rw [ofBatch, sum_tally, hclassified]
  relationTypes := by simp only [ofBatch, sum_tally, List.length_map]
  entityTypes_nodup := nodup_keys_tally _
  relationTypes_nodup := nodup_keys_tally _
  selfReferencing := List.countP_le_length
  entitiesWithRelations := List.countP_le_length
  softDeletes := List.countP_le_length

/-- The order of the documents decides at most in which order counts are listed. -/
theorem reordered_ofBatch {batch batch' : Batch} (h : batch'.Perm batch) :
    Reordered (ofBatch batch) (ofBatch batch') := by
  have hentities : (batch'.flatMap (·.2)).Perm (batch.flatMap (·.2)) := h.flatMap_right _
  have hrelations := hentities.flatMap_right Entity.relationItems
  have hnames := hentities.flatMap_right fun e => (detectedColumns e).map (·.2)
  have hforeign := (hentities.map Entity.foreignKeyCount).sum_eq
  have hcolumns := Text.mergeSort_eq_of_perm (eraseDups_perm fun _ => hnames.mem_iff)
  refine ⟨tally_perm (hentities.filterMap _), tally_perm (hrelations.map _), ?_⟩
  simp only [ofBatch, hentities.length_eq, h.length_eq, hrelations.length_eq, hrelations.countP_eq,
    hentities.countP_eq, total_eq_sum, hforeign, hcolumns]

/-- The statistics of two batches with different documents add up to those of both together. For one
batch the counts agree with each other, the order of the documents changes the order of keys only,
and one pass over the entities is enough to gather them all. -/
theorem ofBatch_adds_up (batch other : Batch)
    (hids : (batch.map (·.1) ++ other.map (·.1)).Nodup) :
    Sums (ofBatch batch) (ofBatch other) (ofBatch (batch.union other)) ∧
    Balanced (batch.flatMap (·.2)) (ofBatch batch) ∧
    (∀ batch', batch'.Perm batch → Reordered (ofBatch batch) (ofBatch batch')) ∧
    gathered batch = ofBatch batch := by
  refine ⟨?_, balanced_ofBatch batch, fun batch' h => reordered_ofBatch h, gathered_eq batch⟩
  rw [Batch.union_eq_append hids]
  exact sums_ofBatch_append batch other

/-- Posts with a soft delete, and a table that was not classified. -/
def postsBatch : Batch := [("posts.ts", [
  { name := "posts", tableName := "posts", entityType := some .transactional
    relations := some ⟨0, [
      { name := "author", type := .manyToOne, relatedTable := "users" },
      { name := "replies", type := .oneToMany, relatedTable := "posts", isSelfReferencing := true }]⟩
    columns := [{ name := "author_id", references := some ⟨"users", "id", none, none⟩ }]
    auditColumns := some { deletedAt := some "removed_at", createdAt := some "created_at" } },
  { name := "drafts", tableName := "drafts" }])]

/-- Users in one document, and a document without entities. -/
def usersBatch : Batch := [("empty.ts", []), ("users.ts", [
  { name := "users", tableName := "users", entityType := some .transactional
    relations := some ⟨0, [{ name := "posts", type := .oneToMany, relatedTable := "posts" }]⟩
    auditColumns := some { createdAt := some "created_at", version := some "" } }])]

/-- A batch of posts and one of users, joined. -/
theorem ofBatch_adds_up_posts_users :
    (ofBatch (postsBatch.union usersBatch)).totalRelations = 3 ∧
    occurrences (ofBatch (postsBatch.union usersBatch)).entityTypes .transactional = 2 ∧
    ("removed_at" : Text) ∈ (ofBatch (postsBatch.union usersBatch)).auditColumns ∧
    ((ofBatch postsBatch).relationTypes.map (·.2)).sum = 2 ∧
    (ofBatch usersBatch.reverse).totalDocuments = 2 := by
  obtain ⟨hsums, hbalanced, -, -⟩ := ofBatch_adds_up postsBatch usersBatch (by decide)
  obtain ⟨-, -, hreordered, -⟩ := ofBatch_adds_up usersBatch postsBatch (by decide)
  have hreversed := hreordered _ usersBatch.reverse_perm
  refine ⟨hsums.totalRelations, hsums.entityTypes _, ?_, hbalanced.relationTypes,
    congrArg totalDocuments hreversed.others⟩
  rw [hsums.auditColumns, mem_auditColumns]
  exact .inl ⟨_, .head _, .tail _ (.head _)⟩

end Statistics
end SchemaAtlas
