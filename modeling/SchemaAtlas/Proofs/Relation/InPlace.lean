import SchemaAtlas.Proofs.Relation.Origins

/-!
# Resolving in place

To find a resolution, only names, columns, types and targets are looked at. So it makes no
difference whether each resolution is made as soon as it is found, in the entities that are searched
for the next one, or all of them are collected first. Nor does it matter what has been resolved
before: resolving again finds the same resolutions, and making them again changes nothing.
-/

namespace SchemaAtlas

variable {rules : HeuristicRules}

/-- To settle entities changes nothing that resolutions are found by. -/
theorem Entity.renaming_settle (rs : List Resolution) : Renaming (Junction.settle rs) id where
  name := Junction.name_settle rs
  entityType := Junction.entityType_settle rs
  links e := by rw [Junction.columns_settle]
  relations e := congrArg Entity.relations (Junction.unresolved_settle rs e)

namespace Resolution

@[simp] theorem mapOrigin_id : Resolution.mapOrigin id = id := rfl

/-- A place that is settled again stays as it is. -/
theorem settled_settled (rs : List Resolution) (table : Text) (origin position : Nat)
    (r : Relation) :
    settled rs table origin position (settled rs table origin position r) =
      settled rs table origin position r := by
  unfold settled
  cases lastFor? rs table origin position <;> rfl

theorem settledList_settledList (rs : List Resolution) (table : Text) (list : RelationList) :
    settledList rs table (settledList rs table list) = settledList rs table list := by
  have hplaces (i : Nat) : settled rs table list.origin i ∘ settled rs table list.origin i =
      settled rs table list.origin i :=
    funext (settled_settled rs table list.origin i)
  simp only [settledList, List.mapIdx_mapIdx, hplaces]

/-- Among settled entities the same resolutions are found. -/
theorem of?_settle (rs : List Resolution) (es : List Entity) (junction : Text)
    (joined : List Text) (table : Text) :
    of? (es.map (Junction.settle rs)) junction joined table = of? es junction joined table := by
  rw [of?_map (Entity.renaming_settle rs), mapOrigin_id, Option.map_id_fun, id]

end Resolution

namespace Junction

theorem settle_settle (rs : List Resolution) (e : Entity) :
    settle rs (settle rs e) = settle rs e := by
  rw [settle_eq, settle_eq]
  simp [Function.comp_def, Resolution.settledList_settledList]

theorem settle_concat (rs : List Resolution) (res : Resolution) (e : Entity) :
    settle (rs ++ [res]) e = res.applyTo (settle rs e) := by
  simp [settle]

theorem resolutions_settle (rs : List Resolution) (es : List Entity) :
    resolutions rules (es.map (settle rs)) = resolutions rules es := by
  rw [resolutions_map (Entity.renaming_settle rs), Resolution.mapOrigin_id, List.map_id]

/-- The resolutions that an entity gives rise to: none, unless it is a junction that joins at least
two tables. -/
def resolutionsOf (rules : HeuristicRules) (entities : List Entity) (e : Entity) :
    List Resolution :=
  if e.entityType = some .junction ∧ isComplete rules entities e then
    resolutionsThrough rules entities e
  else []

/-- Resolutions are found junction by junction. -/
theorem resolutions_eq_flatMap (es : List Entity) :
    resolutions rules es = es.flatMap (resolutionsOf rules es) := by
  have hfilter (f : Entity → List Resolution) (p : Entity → Bool) (xs : List Entity) :
      (xs.filter p).flatMap f = xs.flatMap fun e => if p e then f e else [] := by
    induction xs with
    | nil => rfl
    | cons e xs ih => cases h : p e <;> simp [h, ih]
  rw [resolutions, junctions, List.filter_filter, hfilter]
  congr 1
  funext e
  simp [resolutionsOf, and_comm]

/-- The entities while they are resolved in place, and the resolutions made so far. -/
structure Progress where
  entities : List Entity
  made : List Resolution

/-- Visit a table that a junction joins: look for its relation among the entities as they are now,
and resolve it. -/
def visitTable (junction : Text) (joined : List Text) (s : Progress) (table : Text) : Progress :=
  match Resolution.of? s.entities junction joined table with
  | some res => ⟨s.entities.map res.applyTo, s.made ++ [res]⟩
  | none => s

/-- Visit an entity: if it is a junction that joins at least two tables, visit these. -/
def visit (rules : HeuristicRules) (s : Progress) (i : Nat) : Progress :=
  match s.entities[i]? with
  | some e =>
    if e.entityType = some .junction ∧ isComplete rules s.entities e then
      let joined := joinedTables rules s.entities e
      joined.foldl (visitTable e.name joined) s
    else s
  | none => s

def resolveInPlace (rules : HeuristicRules) (entities : List Entity) : List Entity × Nat :=
  let s := (List.range entities.length).foldl (visit rules) ⟨entities, []⟩
  (s.entities, count s.made)

section InPlace

variable (es : List Entity)

/-- What in-place resolution has come to when some resolutions have been made. -/
def progress (rs : List Resolution) : Progress := ⟨es.map (settle rs), rs⟩

theorem visitTable_progress (junction : Text) (joined : List Text) (rs : List Resolution)
    (table : Text) : visitTable junction joined (progress es rs) table =
      progress es (rs ++ (Resolution.of? es junction joined table).toList) := by
  rw [visitTable, progress, Resolution.of?_settle]
  cases Resolution.of? es junction joined table with
  | none => simp [progress]
  | some res => simp [progress, Function.comp_def, settle_concat]

theorem foldl_visitTable_progress (junction : Text) (joined tables : List Text)
    (rs : List Resolution) : tables.foldl (visitTable junction joined) (progress es rs) =
      progress es (rs ++ tables.filterMap (Resolution.of? es junction joined)) := by
  induction tables generalizing rs with
  | nil => simp
  | cons table tables ih =>
    rw [List.foldl_cons, visitTable_progress, ih]
    cases h : Resolution.of? es junction joined table <;> simp [h]

/-- A visited entity adds the resolutions that it gives rise to among the entities as they were. -/
theorem visit_progress {e : Entity} {i : Nat} (h : es[i]? = some e) (rs : List Resolution) :
    visit rules (progress es rs) i = progress es (rs ++ resolutionsOf rules es e) := by
  have hjoined : joinedTables rules (es.map (settle rs)) (settle rs e) = joinedTables rules es e :=
    joinedTables_map (Entity.renaming_settle rs) es e
  have hcomplete : isComplete rules (es.map (settle rs)) (settle rs e) = isComplete rules es e := by
    rw [isComplete, hjoined, isComplete]
  have hget : (progress es rs).entities[i]? = some (settle rs e) := by simp [progress, h]
  simp only [visit, hget, entityType_settle, resolutionsOf]
  by_cases hjunction : e.entityType = some .junction ∧ isComplete rules es e
  · simp only [progress, hcomplete, hjoined, hjunction, and_self, if_true, name_settle]
    exact foldl_visitTable_progress es e.name _ _ rs
  · simp [progress, hcomplete, hjunction]

/-- Visiting the first so many entities makes the resolutions that are found through these. -/
theorem foldl_visit_progress {n : Nat} (h : n ≤ es.length) :
    (List.range n).foldl (visit rules) (progress es []) =
      progress es ((es.take n).flatMap (resolutionsOf rules es)) := by
  induction n with
  | zero => rfl
  | succ n ih =>
    have hn : n < es.length := h
    rw [List.range_succ, List.foldl_concat, ih (by omega),
      visit_progress es (List.getElem?_eq_getElem hn), List.take_succ_eq_append_getElem hn,
      List.flatMap_append, List.flatMap_singleton]

/-- Resolving in place comes to the same as collecting all resolutions first. -/
theorem resolveInPlace_eq_resolve : resolveInPlace rules es = resolve rules es := by
  have hstart : (⟨es, []⟩ : Progress) = progress es [] :=
    congrArg (Progress.mk · []) (List.map_id'' (fun _ => rfl) es).symm
  have hrun : (List.range es.length).foldl (visit rules) (progress es []) =
      progress es (resolutions rules es) := by
    rw [foldl_visit_progress es le_rfl, List.take_length, ← resolutions_eq_flatMap]
  simp only [resolveInPlace, hstart, hrun]
  rfl

end InPlace

/-- Resolving again finds the same resolutions and changes nothing, whatever the entities are and
whatever was resolved in them before. -/
theorem resolve_resolve (rules : HeuristicRules) (es : List Entity) :
    resolve rules (resolve rules es).1 = resolve rules es := by
  have hagain : (es.map (settle (resolutions rules es))).map (settle (resolutions rules es)) =
      es.map (settle (resolutions rules es)) := by
    rw [List.map_map]
    exact List.map_congr_left fun e _ => settle_settle (resolutions rules es) e
  simp only [resolve, resolutions_settle, hagain]

end Junction
end SchemaAtlas
