import Mathlib.Data.List.Forall2
import SchemaAtlas.Proofs.Distinct
import SchemaAtlas.Proofs.Relation.InPlace

/-!
# Which relations are resolved, and to what

Only the first entity of a name is looked at, and of its relations through a junction only the
first. Such a relation is resolved if a junction of its name joins the table to another one, and of
several junctions of that name the last one decides. Everything else stays as it is.
-/

namespace SchemaAtlas

variable {rules : HeuristicRules} {es : List Entity}

structure JoinsTo (rules : HeuristicRules) (entities : List Entity) (junction : Entity)
    (table target : Text) : Prop where
  junctionType : junction.entityType = some .junction
  complete : 2 ≤ (joinedTables rules entities junction).length
  table_mem : table ∈ joinedTables rules entities junction
  target : (joinedTables rules entities junction).find? (· ≠ table) = some target

def LastJoinsTo (rules : HeuristicRules) (entities : List Entity) (name table target : Text) :
    Prop :=
  ∃ before junction after, entities = before ++ junction :: after ∧ junction.name = name ∧
    JoinsTo rules entities junction table target ∧
    ∀ later ∈ after, later.name = name → ∀ other, ¬ JoinsTo rules entities later table other

/-- A many-to-many relation that is the first of its list with its target. -/
structure LeadsFirst (items : List Relation) (position : Nat) (r : Relation) : Prop where
  get : items[position]? = some r
  type_eq : r.type = .manyToMany
  first : ∀ i < position, ∀ r', items[i]? = some r' → r'.type = .manyToMany →
    r'.relatedTable ≠ r.relatedTable

/-- The relations of the first entity of a name have an origin, and one of them is the first through
its junction. -/
def StandsFirst (entities : List Entity) (table : Text) (origin position : Nat) (r : Relation) :
    Prop :=
  ∃ e list, firstNamed? entities table = some e ∧ e.relations = some list ∧
    list.origin = origin ∧ LeadsFirst list.items position r

/-- A relation of the first entity of a name is to be resolved, and to what. -/
structure Assigned (rules : HeuristicRules) (entities : List Entity) (table : Text)
    (origin position : Nat) (r : Relation) (target : Text) : Prop where
  stands : StandsFirst entities table origin position r
  joins : LastJoinsTo rules entities r.relatedTable table target

/-- The first relation through a junction, by its place in the list. -/
theorem findIdx?_leadsThrough_eq_some {items : List Relation} {junction : Text} {position : Nat}
    {r : Relation} :
    items.findIdx? (Resolution.leadsThrough junction) = some position ∧
        items[position]? = some r ↔
      LeadsFirst items position r ∧ r.relatedTable = junction := by
  rw [List.findIdx?_eq_some_iff_getElem]
  constructor
  · rintro ⟨⟨hlt, hleads, hfirst⟩, hr⟩
    obtain rfl : items[position] = r := by
      rw [List.getElem?_eq_getElem hlt] at hr
      exact Option.some.inj hr
    simp only [Resolution.leadsThrough, Bool.and_eq_true, decide_eq_true_eq] at hleads hfirst
    refine ⟨⟨hr, hleads.2, ?_⟩, hleads.1⟩
    intro i hi r' hr' htype htable
    obtain ⟨hlt', rfl⟩ := List.getElem?_eq_some_iff.mp hr'
    exact hfirst i hi ⟨htable.trans hleads.1, htype⟩
  · rintro ⟨hfirst, rfl⟩
    obtain ⟨hlt, rfl⟩ := List.getElem?_eq_some_iff.mp hfirst.get
    refine ⟨⟨hlt, by simp [Resolution.leadsThrough, hfirst.type_eq], ?_⟩, hfirst.get⟩
    intro i hi hleads
    simp only [Resolution.leadsThrough, Bool.and_eq_true, decide_eq_true_eq] at hleads
    exact hfirst.first i hi _ (List.getElem?_eq_getElem _) hleads.2 hleads.1

/-- One place of a table holds one relation. -/
theorem StandsFirst.unique {table : Text} {origin position : Nat} {r r' : Relation}
    (h : StandsFirst es table origin position r) (h' : StandsFirst es table origin position r') :
    r = r' := by
  obtain ⟨e, list, he, hlist, -, hfirst⟩ := h
  obtain ⟨e', list', he', hlist', -, hfirst'⟩ := h'
  obtain rfl : e = e' := Option.some.inj (he.symm.trans he')
  obtain rfl : list = list' := Option.some.inj (hlist.symm.trans hlist')
  exact Option.some.inj (hfirst.get.symm.trans hfirst'.get)

namespace Resolution

/-- A resolution is found for a table that the junction joins with another one, at the first
relation that leads there. -/
theorem of?_eq_some {junction : Text} {joined : List Text} {table : Text} {res : Resolution} :
    of? es junction joined table = some res ↔
      res.table = table ∧ res.junctionTable = junction ∧
      joined.find? (· ≠ table) = some res.finalTarget ∧
      ∃ r, StandsFirst es table res.origin res.position r ∧ r.relatedTable = junction ∧
        r.name = res.relation := by
  simp only [of?, Option.bind_eq_bind, Option.bind_eq_some_iff]
  constructor
  · rintro ⟨e, he, list, hlist, position, hposition, r, hr, target, htarget, hres⟩
    cases hres
    obtain ⟨hfirst, hjunction⟩ := findIdx?_leadsThrough_eq_some.mp ⟨hposition, hr⟩
    obtain ⟨-, rfl⟩ := firstNamed?_eq_some he
    exact ⟨rfl, rfl, htarget, r, ⟨e, list, he, hlist, rfl, hfirst⟩, hjunction, rfl⟩
  · rintro ⟨rfl, hjunction, htarget, r, ⟨e, list, he, hlist, horigin, hfirst⟩, hr, hname⟩
    obtain ⟨hposition, hget⟩ := findIdx?_leadsThrough_eq_some.mpr ⟨hfirst, hr⟩
    obtain ⟨-, htable⟩ := firstNamed?_eq_some he
    refine ⟨e, he, list, hlist, res.position, hposition, r, hget, res.finalTarget, htarget, ?_⟩
    rw [htable, horigin, hname, ← hjunction]
    rfl

/-- The resolutions that an entity gives rise to, each by the place that it is for. -/
theorem mem_resolutionsOf {j : Entity} {res : Resolution} :
    res ∈ Junction.resolutionsOf rules es j ↔
      JoinsTo rules es j res.table res.finalTarget ∧ j.name = res.junctionTable ∧
      ∃ r, StandsFirst es res.table res.origin res.position r ∧
        r.relatedTable = res.junctionTable ∧ r.name = res.relation := by
  rw [Junction.resolutionsOf]
  split
  · next hjunction =>
    have hcomplete : 2 ≤ (joinedTables rules es j).length := by
      simpa [Junction.isComplete] using hjunction.2
    simp only [Junction.resolutionsThrough, List.mem_filterMap, of?_eq_some]
    constructor
    · rintro ⟨table, hmem, rfl, hname, htarget, hplace⟩
      exact ⟨⟨hjunction.1, hcomplete, hmem, htarget⟩, hname.symm, hname ▸ hplace⟩
    · rintro ⟨hjoins, hname, hplace⟩
      exact ⟨res.table, hjoins.table_mem, rfl, hname.symm, hjoins.target, hname ▸ hplace⟩
  · next hjunction =>
    simp only [List.not_mem_nil, false_iff]
    rintro ⟨hjoins, -⟩
    exact hjunction ⟨hjoins.junctionType, by simpa [Junction.isComplete] using hjoins.complete⟩

/-- An entity gives rise to one resolution for a place at most. -/
theorem eq_of_mem_resolutionsOf {j : Entity} {res res' : Resolution} {table : Text}
    {origin position : Nat} (h : res ∈ Junction.resolutionsOf rules es j)
    (h' : res' ∈ Junction.resolutionsOf rules es j) (hfor : res.isFor table origin position)
    (hfor' : res'.isFor table origin position) : res = res' := by
  obtain ⟨hjoins, hname, r, hr, htable, hrelation⟩ := mem_resolutionsOf.mp h
  obtain ⟨hjoins', hname', r', hr', htable', hrelation'⟩ := mem_resolutionsOf.mp h'
  obtain ⟨table, origin, position, relation, target, junction⟩ := res
  obtain ⟨table', origin', position', relation', target', junction'⟩ := res'
  simp only [isFor, Bool.and_eq_true, decide_eq_true_eq] at hfor hfor'
  obtain ⟨⟨rfl, rfl⟩, rfl⟩ := hfor
  obtain ⟨⟨rfl, rfl⟩, rfl⟩ := hfor'
  obtain rfl : r = r' := hr.unique hr'
  obtain rfl : target = target' := Option.some.inj (hjoins.target.symm.trans hjoins'.target)
  dsimp only at hname hname' hrelation hrelation'
  rw [← hname, ← hname', ← hrelation, ← hrelation']

/-- The last resolution for a place comes from the last entity that gives rise to one. -/
theorem lastFor?_resolutions {table : Text} {origin position : Nat} {res : Resolution} :
    lastFor? (Junction.resolutions rules es) table origin position = some res ↔
      ∃ before j after, es = before ++ j :: after ∧ res ∈ Junction.resolutionsOf rules es j ∧
        res.isFor table origin position ∧
        ∀ later ∈ after, ∀ res' ∈ Junction.resolutionsOf rules es later,
          ¬ res'.isFor table origin position := by
  have hfound (j : Entity) :
      (Junction.resolutionsOf rules es j).reverse.find? (isFor table origin position) = some res ↔
        res ∈ Junction.resolutionsOf rules es j ∧ res.isFor table origin position := by
    constructor
    · intro h
      exact ⟨List.mem_reverse.mp (List.mem_of_find?_eq_some h), List.find?_some h⟩
    · rintro ⟨hmem, hfor⟩
      have hsome : ((Junction.resolutionsOf rules es j).reverse.find?
          (isFor table origin position)).isSome :=
        List.find?_isSome.mpr ⟨res, List.mem_reverse.mpr hmem, hfor⟩
      obtain ⟨res', hres'⟩ := Option.isSome_iff_exists.mp hsome
      rw [hres', eq_of_mem_resolutionsOf
        (List.mem_reverse.mp (List.mem_of_find?_eq_some hres')) hmem (List.find?_some hres') hfor]
  have hnone (j : Entity) :
      (Junction.resolutionsOf rules es j).reverse.find? (isFor table origin position) = none ↔
        ∀ res' ∈ Junction.resolutionsOf rules es j, ¬ res'.isFor table origin position := by
    simp
  rw [lastFor?, Junction.resolutions_eq_flatMap, List.reverse_flatMap, List.find?_flatMap,
    List.findSome?_eq_some_iff]
  simp only [Function.comp_apply, hfound, hnone]
  constructor
  · rintro ⟨after, j, before, hes, ⟨hmem, hfor⟩, hlater⟩
    refine ⟨before.reverse, j, after.reverse, ?_, hmem, hfor, ?_⟩
    · rw [← List.reverse_reverse es, hes]
      simp
    · exact fun later hl => hlater later (List.mem_reverse.mp hl)
  · rintro ⟨before, j, after, hes, hmem, hfor, hlater⟩
    refine ⟨after.reverse, j, before.reverse, ?_, ⟨hmem, hfor⟩, ?_⟩
    · rw [hes]
      simp
    · exact fun later hl => hlater later (List.mem_reverse.mp hl)

/-- The last resolution for a place is what is assigned there. -/
theorem exists_assigned_of_lastFor? {table : Text} {origin position : Nat} {res : Resolution}
    (h : lastFor? (Junction.resolutions rules es) table origin position = some res) :
    ∃ r, Assigned rules es table origin position r res.finalTarget ∧
      r.relatedTable = res.junctionTable ∧ r.name = res.relation := by
  obtain ⟨before, j, after, hes, hmem, hfor, hlater⟩ := lastFor?_resolutions.mp h
  obtain ⟨hjoins, hname, r, hr, hjunction, hrelation⟩ := mem_resolutionsOf.mp hmem
  simp only [isFor, Bool.and_eq_true, decide_eq_true_eq] at hfor
  obtain ⟨⟨rfl, rfl⟩, rfl⟩ := hfor
  refine ⟨r, ⟨hr, before, j, after, hes, hname.trans hjunction.symm, hjoins, ?_⟩, hjunction,
    hrelation⟩
  intro later hl hlname other hother
  refine hlater later hl ⟨res.table, res.origin, res.position, r.name, other, later.name⟩
    (mem_resolutionsOf.mpr ⟨hother, rfl, r, hr, hlname.symm, rfl⟩) ?_
  simp [isFor]

/-- The last resolution at a place makes the assignment there. -/
theorem lastFor?_of_assigned {table : Text} {origin position : Nat} {r : Relation} {target : Text}
    (h : Assigned rules es table origin position r target) :
    lastFor? (Junction.resolutions rules es) table origin position =
      some ⟨table, origin, position, r.name, target, r.relatedTable⟩ := by
  obtain ⟨before, j, after, hes, hname, hjoins, hlater⟩ := h.joins
  refine lastFor?_resolutions.mpr ⟨before, j, after, hes,
    mem_resolutionsOf.mpr ⟨hjoins, hname, r, h.stands, rfl, rfl⟩, by simp [isFor], ?_⟩
  intro later hl res' hres' hfor
  obtain ⟨hjoins', hname', r', hr', hjunction, -⟩ := mem_resolutionsOf.mp hres'
  simp only [isFor, Bool.and_eq_true, decide_eq_true_eq] at hfor
  obtain ⟨⟨rfl, rfl⟩, rfl⟩ := hfor
  obtain rfl : r = r' := h.stands.unique hr'
  exact hlater later hl (hname'.trans hjunction.symm) _ hjoins'

end Resolution

namespace Junction

/-- What becomes of an entity: the relations that are assigned a target get it, together with their
junction, and nothing else changes. Relations in the place of an assigned one, in a list of the same
origin, are the same records. -/
structure ResolvesTo (rules : HeuristicRules) (entities : List Entity) (e e' : Entity) : Prop where
  fields : e' = { e with relations := e'.relations }
  relations : Option.Rel (fun list list' => list'.origin = list.origin ∧
      list'.items.length = list.items.length ∧
      ∀ i r r', list.items[i]? = some r → list'.items[i]? = some r' →
        (∀ found target, Assigned rules entities e.name list.origin i found target →
          r' = { r with finalTarget := some target, junctionTable := some found.relatedTable }) ∧
        ((∀ found target, ¬ Assigned rules entities e.name list.origin i found target) → r' = r))
    e.relations e'.relations

/-- Settling an entity assigns what its junctions call for and nothing else. -/
theorem resolvesTo_settle (rules : HeuristicRules) (es : List Entity) (e : Entity) :
    ResolvesTo rules es e (settle (resolutions rules es) e) := by
  rw [settle_eq]
  refine ⟨rfl, ?_⟩
  cases hlist : e.relations with
  | none => exact .none
  | some list =>
    refine .some ⟨rfl, by simp [Resolution.settledList], ?_⟩
    intro i r r' hr hr'
    obtain rfl : Resolution.settled (resolutions rules es) e.name list.origin i r = r' := by
      simpa [Resolution.settledList, hr] using hr'
    constructor
    · intro found target hassigned
      rw [Resolution.settled, Resolution.lastFor?_of_assigned hassigned]
      rfl
    · intro hnone
      rw [Resolution.settled]
      cases hlast : Resolution.lastFor? (resolutions rules es) e.name list.origin i with
      | none => rfl
      | some res =>
        obtain ⟨found, hassigned, -⟩ := Resolution.exists_assigned_of_lastFor? hlast
        exact absurd hassigned (hnone found _)

/-- There is a resolution for a name iff some relation of that name is assigned a target. -/
theorem exists_mem_resolutions_iff (table name : Text) :
    (∃ res ∈ resolutions rules es, res.table = table ∧ res.relation = name) ↔
      ∃ origin position r target, Assigned rules es table origin position r target ∧
        r.name = name := by
  constructor
  · rintro ⟨res, hres, rfl, rfl⟩
    have hsome : (Resolution.lastFor? (resolutions rules es) res.table res.origin
        res.position).isSome :=
      List.find?_isSome.mpr ⟨res, List.mem_reverse.mpr hres, by simp [Resolution.isFor]⟩
    obtain ⟨last, hlast⟩ := Option.isSome_iff_exists.mp hsome
    obtain ⟨r, hassigned, -⟩ := Resolution.exists_assigned_of_lastFor? hlast
    -- the relation in the place of a resolution is the one that it names
    rw [resolutions_eq_flatMap] at hres
    obtain ⟨j, -, hj⟩ := List.mem_flatMap.mp hres
    obtain ⟨-, -, r', hr', -, hname⟩ := Resolution.mem_resolutionsOf.mp hj
    obtain rfl : r = r' := hassigned.stands.unique hr'
    exact ⟨res.origin, res.position, r, _, hassigned, hname⟩
  · rintro ⟨origin, position, r, target, hassigned, rfl⟩
    obtain ⟨hmem, -⟩ := Resolution.lastFor?_eq_some (Resolution.lastFor?_of_assigned hassigned)
    exact ⟨_, hmem, rfl, rfl⟩

/-- Resolving gives exactly the assigned relations their targets, changes nothing else, and counts
the assigned relations by table and name. -/
theorem resolve_assigns (rules : HeuristicRules) (es : List Entity) :
    List.Forall₂ (ResolvesTo rules es) es (resolve rules es).1 ∧
    ∃ pairs : List (Text × Text), pairs.Nodup ∧
      (∀ table name, (table, name) ∈ pairs ↔ ∃ origin position r target,
        Assigned rules es table origin position r target ∧ r.name = name) ∧
      (resolve rules es).2 = pairs.length := by
  refine ⟨?_, ((resolutions rules es).map fun res => (res.table, res.relation)).eraseDups,
    nodup_eraseDups _, fun table name => ?_, rfl⟩
  · exact List.forall₂_map_right_iff.mpr
      (List.forall₂_same.mpr fun e _ => resolvesTo_settle rules es e)
  · rw [← exists_mem_resolutions_iff, List.mem_eraseDups]
    simp

/-- A user that two junctions of one name join to groups and to teams, twice with the same list of
relations. -/
def memberEntities : List Entity :=
  let user : Entity := { name := "users", tableName := "users", relations := some ⟨0,
    [{ name := "groups", type := .manyToMany, relatedTable := "members" }]⟩ }
  let memberOf (table : Text) : Entity := {
    name := "members", tableName := "members", entityType := some .junction
    columns := [{ name := "user", references := some { table := "users", column := "id" } },
      { name := "other", references := some { table := table, column := "id" } }] }
  [user, user, memberOf "groups", memberOf "teams"]

theorem resolve_assigns_memberEntities :
    (∃ r, Assigned {} memberEntities "users" 0 0 r "teams") ∧
    List.Forall₂ (ResolvesTo {} memberEntities) memberEntities (resolve {} memberEntities).1 ∧
    ((resolve {} memberEntities).1.map fun e => e.relationItems.map (·.finalTarget)) =
      [[some ("teams" : Text)], [some ("teams" : Text)], [], []] ∧
    (resolve {} memberEntities).2 = 1 := by
  have hlast : (Resolution.lastFor? (resolutions {} memberEntities) "users" 0 0).map
      (·.finalTarget) = some "teams" := by decide +kernel
  obtain ⟨res, hres, htarget⟩ := Option.map_eq_some_iff.mp hlast
  obtain ⟨r, hassigned, -⟩ := Resolution.exists_assigned_of_lastFor? hres
  exact ⟨⟨r, htarget ▸ hassigned⟩, (resolve_assigns {} memberEntities).1, by decide +kernel,
    by decide +kernel⟩

end Junction
end SchemaAtlas
