import Mathlib.Data.List.Find
import SchemaAtlas.Batch.Document
import SchemaAtlas.Proofs.Relation.Junctions
import SchemaAtlas.Proofs.Relation.Settlement

/-!
# Renaming the origins of relations

The origin of a list of relations only tells it apart from other lists. To rename the origins of all
entities renames those of the resolutions that are found among them, and settling the renamed
entities gives the settled entities renamed, as long as no list gets the origin of another one that
a resolution for its table is meant for.
-/

namespace SchemaAtlas

variable {rules : HeuristicRules}

/-- A change of entities that resolutions only see as a renaming of origins. -/
structure Entity.Renaming (f : Entity → Entity) (g : Nat → Nat) : Prop where
  name (e : Entity) : (f e).name = e.name
  entityType (e : Entity) : (f e).entityType = e.entityType
  links (e : Entity) : (f e).columns.map Column.link = e.columns.map Column.link
  relations (e : Entity) : (f e).relations.map RelationList.unresolved =
    e.relations.map fun list => { list.unresolved with origin := g list.origin }

def Entity.mapOrigin (f : Nat → Nat) (e : Entity) : Entity :=
  { e with relations := e.relations.map fun list => { list with origin := f list.origin } }

def Resolution.mapOrigin (f : Nat → Nat) (res : Resolution) : Resolution :=
  { res with origin := f res.origin }

namespace Resolution

variable {items items' : List Relation}

/-- The search for a relation does not see what resolutions fill in. -/
theorem findIdx?_leadsThrough (h : items.map Relation.unresolved = items'.map Relation.unresolved)
    (junction : Text) :
    items.findIdx? (leadsThrough junction) = items'.findIdx? (leadsThrough junction) := by
  have hunresolved (items : List Relation) : (items.map Relation.unresolved).findIdx?
      (leadsThrough junction) = items.findIdx? (leadsThrough junction) := by
    rw [List.findIdx?_map]
    rfl
  rw [← hunresolved, h, hunresolved]

theorem map_name_getElem? (h : items.map Relation.unresolved = items'.map Relation.unresolved)
    (i : Nat) : items[i]?.map (·.name) = items'[i]?.map (·.name) := by
  have hnames : items.map (·.name) = items'.map (·.name) := by
    simpa [Function.comp_def, Relation.unresolved] using congrArg (List.map (·.name)) h
  rw [← List.getElem?_map, hnames, List.getElem?_map]

end Resolution

namespace Entity

theorem withOrigin_mapOrigin (origin : Nat) (f : Nat → Nat) (e : Entity) :
    (e.mapOrigin f).withOrigin origin = e.withOrigin origin := by
  simp [withOrigin, mapOrigin, Function.comp_def]

theorem renaming_mapOrigin (f : Nat → Nat) : Renaming (mapOrigin f) f :=
  ⟨fun _ => rfl, fun _ => rfl, fun _ => rfl,
    fun e => by simp [mapOrigin, RelationList.unresolved, Function.comp_def]⟩

end Entity

section Renaming

variable {f : Entity → Entity} {g : Nat → Nat} (h : Entity.Renaming f g)

include h

theorem firstNamed?_map (es : List Entity) (name : Text) :
    firstNamed? (es.map f) name = (firstNamed? es name).map f := by
  rw [firstNamed?, List.find?_map, firstNamed?]
  congr 2
  funext e
  rw [Function.comp_apply, h.name]

theorem joinedTables_map (es : List Entity) (junction : Entity) :
    joinedTables rules (es.map f) (f junction) = joinedTables rules es junction :=
  joinedTables_congr_links (fun name => by simp [Named, h.name]) (h.links junction)

theorem Resolution.of?_map (es : List Entity) (junction : Text) (joined : List Text)
    (table : Text) : of? (es.map f) junction joined table =
      (of? es junction joined table).map (Resolution.mapOrigin g) := by
  simp only [of?, firstNamed?_map h]
  cases firstNamed? es table with
  | none => rfl
  | some e =>
    cases hlist : e.relations with
    | none =>
      have hnone : (f e).relations = none := by simpa [hlist] using h.relations e
      simp [hlist, hnone]
    | some list =>
      obtain ⟨list', hlist', hsame⟩ : ∃ list', (f e).relations = some list' ∧
          list'.unresolved = { list.unresolved with origin := g list.origin } := by
        simpa [hlist] using h.relations e
      have horigin : list'.origin = g list.origin := congrArg RelationList.origin hsame
      have hitems : list'.items.map Relation.unresolved = list.items.map Relation.unresolved :=
        congrArg RelationList.items hsame
      simp only [Option.map_some, Option.bind_eq_bind, Option.bind_some, hlist', hlist, horigin,
        h.name, findIdx?_leadsThrough hitems, Option.map_bind]
      congr 1
      funext position
      have hname := map_name_getElem? hitems position
      cases hr : list.items[position]? with
      | none =>
        have hr' : list'.items[position]? = none := by simpa [hr] using hname
        simp [hr, hr']
      | some r =>
        obtain ⟨r', hr', hname⟩ : ∃ r', list'.items[position]? = some r' ∧ r'.name = r.name := by
          simpa [hr] using hname
        simp [hr, hr', hname, Function.comp_def, Resolution.mapOrigin]

namespace Junction

theorem resolutionsThrough_map (es : List Entity) (junction : Entity) :
    resolutionsThrough rules (es.map f) (f junction) =
      (resolutionsThrough rules es junction).map (Resolution.mapOrigin g) := by
  simp [resolutionsThrough, joinedTables_map h, h.name, Resolution.of?_map h, List.map_filterMap]

/-- Resolutions follow the origins of the lists that they are found in. -/
theorem resolutions_map (es : List Entity) :
    resolutions rules (es.map f) = (resolutions rules es).map (Resolution.mapOrigin g) := by
  have hjunctions : junctions (es.map f) = (junctions es).map f := by
    rw [junctions, List.filter_map]
    congr 2
    funext e
    rw [Function.comp_apply, h.entityType]
  have hcomplete (junction : Entity) :
      isComplete rules (es.map f) (f junction) = isComplete rules es junction := by
    rw [isComplete, joinedTables_map h, isComplete]
  rw [resolutions, hjunctions, List.filter_map, List.flatMap_map, resolutions, List.map_flatMap]
  simp only [Function.comp_def, hcomplete, resolutionsThrough_map h]

end Junction
end Renaming

theorem Junction.resolutions_mapOrigin (f : Nat → Nat) (es : List Entity) :
    resolutions rules (es.map (Entity.mapOrigin f)) =
      (resolutions rules es).map (Resolution.mapOrigin f) :=
  resolutions_map (Entity.renaming_mapOrigin f) es

namespace Resolution

variable {f : Nat → Nat} {rs : List Resolution} {table : Text} {origin : Nat}

/-- Renaming keeps the last resolution for a place. -/
theorem lastFor?_mapOrigin
    (hf : ∀ res ∈ rs, res.table = table → f res.origin = f origin → res.origin = origin)
    (position : Nat) : lastFor? (rs.map (Resolution.mapOrigin f)) table (f origin) position =
      (lastFor? rs table origin position).map (Resolution.mapOrigin f) := by
  have hfor : ∀ res ∈ rs.reverse, (isFor table (f origin) position ∘ Resolution.mapOrigin f) res =
      isFor table origin position res := by
    intro res hres
    by_cases htable : res.table = table
    · have horigin : f res.origin = f origin ↔ res.origin = origin :=
        ⟨hf res (List.mem_reverse.mp hres) htable, congrArg f⟩
      change (res.table = table && f res.origin = f origin && res.position = position) = _
      simp only [horigin, isFor]
    · simp [isFor, Resolution.mapOrigin, htable]
  rw [lastFor?, ← List.map_reverse, List.find?_map, List.find?_congr hfor, lastFor?]

end Resolution

namespace Junction

/-- Settling goes along with renaming, if it keeps the origin of a list apart from those of the
other lists that resolutions for its table are meant for. -/
theorem settle_mapOrigin {f : Nat → Nat} {rs : List Resolution} {e : Entity}
    (hf : ∀ list, e.relations = some list → ∀ res ∈ rs, res.table = e.name →
      f res.origin = f list.origin → res.origin = list.origin) :
    settle (rs.map (Resolution.mapOrigin f)) (e.mapOrigin f) = (settle rs e).mapOrigin f := by
  rw [settle_eq, settle_eq]
  cases hlist : e.relations with
  | none => simp [Entity.mapOrigin, hlist]
  | some list =>
    have hsettled : Resolution.settled (rs.map (Resolution.mapOrigin f)) e.name (f list.origin) =
        Resolution.settled rs e.name list.origin := by
      funext position r
      simp only [Resolution.settled, Resolution.lastFor?_mapOrigin (hf list hlist)]
      cases Resolution.lastFor? rs e.name list.origin position <;> rfl
    simp [Entity.mapOrigin, hlist, Resolution.settledList, hsettled]

end Junction
end SchemaAtlas
