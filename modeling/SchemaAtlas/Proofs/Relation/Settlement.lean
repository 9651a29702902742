import Mathlib.Data.List.Induction
import SchemaAtlas.Relation.Resolution

/-!
# What making resolutions does to an entity

Resolutions are made one after the other, and a later one for the same place of the same list
overwrites an earlier one. Together they give the relation in each place the target and the junction
of the last resolution for that place, and change nothing else.
-/

namespace SchemaAtlas

/-- The relation without the two fields that a resolution fills in. -/
def Relation.unresolved (r : Relation) : Relation :=
  { r with finalTarget := none, junctionTable := none }

theorem Relation.unresolved_eq_self {r : Relation} (htarget : r.finalTarget = none)
    (hjunction : r.junctionTable = none) : r.unresolved = r := by
  cases r
  cases htarget
  cases hjunction
  rfl

/-- The list with every relation unresolved. -/
def RelationList.unresolved (list : RelationList) : RelationList :=
  { list with items := list.items.map Relation.unresolved }

def Entity.unresolved (e : Entity) : Entity :=
  { e with relations := e.relations.map RelationList.unresolved }

namespace Resolution

def isFor (table : Text) (origin position : Nat) (res : Resolution) : Bool :=
  res.table = table && res.origin = origin && res.position = position

def lastFor? (rs : List Resolution) (table : Text) (origin position : Nat) : Option Resolution :=
  rs.reverse.find? (isFor table origin position)

theorem lastFor?_concat (rs : List Resolution) (res : Resolution) (table : Text)
    (origin position : Nat) :
    lastFor? (rs ++ [res]) table origin position =
      if res.isFor table origin position then some res else lastFor? rs table origin position := by
  by_cases h : res.isFor table origin position <;> simp [lastFor?, h]

/-- The last resolution for a place is one of the resolutions, and meant for it. -/
theorem lastFor?_eq_some {rs : List Resolution} {table : Text} {origin position : Nat}
    {res : Resolution} (h : lastFor? rs table origin position = some res) :
    res ∈ rs ∧ res.table = table ∧ res.origin = origin ∧ res.position = position := by
  have hmem := List.mem_of_find?_eq_some h
  have hfor := List.find?_some h
  simp only [isFor, Bool.and_eq_true, decide_eq_true_eq] at hfor
  exact ⟨List.mem_reverse.mp hmem, hfor.1.1, hfor.1.2, hfor.2⟩

def settled (rs : List Resolution) (table : Text) (origin position : Nat) (r : Relation) :
    Relation :=
  match lastFor? rs table origin position with
  | some res => res.resolve r
  | none => r

@[simp] theorem unresolved_settled (rs : List Resolution) (table : Text) (origin position : Nat)
    (r : Relation) : (settled rs table origin position r).unresolved = r.unresolved := by
  unfold settled
  split <;> rfl

theorem settled_concat (rs : List Resolution) (res : Resolution) (table : Text)
    (origin position : Nat) (r : Relation) :
    settled (rs ++ [res]) table origin position r =
      if res.isFor table origin position then res.resolve (settled rs table origin position r)
      else settled rs table origin position r := by
  unfold settled
  rw [lastFor?_concat]
  by_cases h : res.isFor table origin position
  · simp only [h, if_true]
    cases lastFor? rs table origin position <;> rfl
  · simp [h]

@[simp] theorem settled_nil (table : Text) (origin position : Nat) (r : Relation) :
    settled [] table origin position r = r := rfl

/-- A relation stays as it is, or one of the resolutions for its place is made in it. -/
theorem settled_cases (rs : List Resolution) (table : Text) (origin position : Nat)
    (r : Relation) : settled rs table origin position r = r ∨
      ∃ res ∈ rs, res.table = table ∧ res.origin = origin ∧ res.position = position ∧
        settled rs table origin position r = res.resolve r := by
  unfold settled
  cases hlast : lastFor? rs table origin position with
  | none => exact .inl rfl
  | some res =>
    obtain ⟨hmem, htable, horigin, hposition⟩ := lastFor?_eq_some hlast
    exact .inr ⟨res, hmem, htable, horigin, hposition, rfl⟩

def settledList (rs : List Resolution) (table : Text) (list : RelationList) : RelationList :=
  { list with items := list.items.mapIdx (settled rs table list.origin) }

@[simp] theorem settledList_nil (table : Text) (list : RelationList) :
    settledList [] table list = list := by
  have hitems : list.items.mapIdx (settled [] table list.origin) = list.items := by
    apply List.ext_getElem?
    intro i
    cases h : list.items[i]? <;> simp [h]
  simp [settledList, hitems]

@[simp] theorem unresolved_settledList (rs : List Resolution) (table : Text)
    (list : RelationList) : (settledList rs table list).unresolved = list.unresolved := by
  have hitems : (list.items.mapIdx (settled rs table list.origin)).map Relation.unresolved =
      list.items.map Relation.unresolved := by
    apply List.ext_getElem?
    intro i
    simp [Function.comp_def]
  simp [settledList, RelationList.unresolved, hitems]

/-- A resolution for another list leaves a place as the ones before it did. -/
theorem settled_concat_of_ne {rs : List Resolution} {res : Resolution} {table : Text}
    {origin : Nat} (h : res.table ≠ table ∨ res.origin ≠ origin) :
    settled (rs ++ [res]) table origin = settled rs table origin := by
  funext position r
  have hnot : res.isFor table origin position = false := by
    rcases h with h | h <;> simp [isFor, h]
  simp [settled_concat, hnot]

theorem settledList_concat_of_ne {rs : List Resolution} {res : Resolution} {table : Text}
    {list : RelationList} (h : res.table ≠ table ∨ res.origin ≠ list.origin) :
    settledList (rs ++ [res]) table list = settledList rs table list := by
  simp [settledList, settled_concat_of_ne h]

/-- To make one more resolution in a settled list settles the list with that one, too. -/
theorem applyToList_settledList (rs : List Resolution) (res : Resolution) (list : RelationList) :
    res.applyToList (settledList rs res.table list) =
      settledList (rs ++ [res]) res.table list := by
  by_cases ho : list.origin = res.origin
  · have hsame : (settledList rs res.table list).origin = res.origin := ho
    rw [applyToList, if_pos hsame]
    simp only [settledList]
    congr 1
    apply List.ext_getElem?
    intro i
    rw [List.getElem?_modify, List.getElem?_mapIdx, List.getElem?_mapIdx]
    cases list.items[i]? with
    | none => simp
    | some r =>
      by_cases hi : res.position = i
      · simp [settled_concat, isFor, ho, hi]
      · simp [settled_concat, isFor, ho, hi]
  · have hother : ¬ (settledList rs res.table list).origin = res.origin := ho
    rw [applyToList, if_neg hother, settledList_concat_of_ne (.inr fun h => ho h.symm)]

end Resolution

namespace Junction

/-- All resolutions at once: each list of relations is settled, and the rest of the entity stays as
it is. -/
theorem settle_eq (rs : List Resolution) (e : Entity) :
    settle rs e = { e with relations := e.relations.map (Resolution.settledList rs e.name) } := by
  induction rs using List.reverseRecOn with
  | nil =>
    have hlists : Resolution.settledList [] e.name = id :=
      funext (Resolution.settledList_nil e.name)
    simp [settle, hlists]
  | append_singleton rs res ih =>
    have hstep : settle (rs ++ [res]) e = res.applyTo (settle rs e) := by simp [settle]
    rw [hstep, ih, Resolution.applyTo]
    by_cases hname : e.name = res.table
    · simp [hname, Function.comp_def, Resolution.applyToList_settledList]
    · have hne : res.table ≠ e.name := fun h => hname h.symm
      have hlists :
          Resolution.settledList (rs ++ [res]) e.name = Resolution.settledList rs e.name :=
        funext fun list => Resolution.settledList_concat_of_ne (.inl hne)
      simp [hname, hlists]

@[simp] theorem name_settle (rs : List Resolution) (e : Entity) :
    (settle rs e).name = e.name := by rw [settle_eq]

@[simp] theorem columns_settle (rs : List Resolution) (e : Entity) :
    (settle rs e).columns = e.columns := by rw [settle_eq]

@[simp] theorem entityType_settle (rs : List Resolution) (e : Entity) :
    (settle rs e).entityType = e.entityType := by rw [settle_eq]

/-- Every relation of a settled entity is one of the entity's relations, settled in its place. -/
theorem exists_of_mem_settle {rs : List Resolution} {e : Entity} {r : Relation}
    (h : r ∈ (settle rs e).relationItems) :
    ∃ list, e.relations = some list ∧ ∃ (position : Nat) (r₀ : Relation),
      list.items[position]? = some r₀ ∧
      r = Resolution.settled rs e.name list.origin position r₀ := by
  rw [settle_eq, Entity.relationItems] at h
  cases hlist : e.relations with
  | none => simp [hlist] at h
  | some list =>
    simp only [hlist, Option.map_some, Option.getD_some] at h
    obtain ⟨i, hi, rfl⟩ := List.mem_mapIdx.mp h
    exact ⟨list, rfl, i, list.items[i], List.getElem?_eq_getElem hi, rfl⟩

@[simp] theorem unresolved_settle (rs : List Resolution) (e : Entity) :
    (settle rs e).unresolved = e.unresolved := by
  simp [settle_eq, Entity.unresolved, Function.comp_def]

end Junction
end SchemaAtlas
