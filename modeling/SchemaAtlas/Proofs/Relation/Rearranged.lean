import Mathlib.Data.List.Find
import Mathlib.Data.List.Nodup
import SchemaAtlas.Proofs.Relation.Junctions
import SchemaAtlas.Proofs.Relation.Settlement

/-!
# Resolutions of rearranged entities

Among entities with different names the order does not matter: each name means one entity, so the
same resolutions are found, and no two of them are meant for the same place of a table. Settling
then gives the same, in whatever order the resolutions are made.
-/

namespace SchemaAtlas

variable {rules : HeuristicRules} {es es' : List Entity}

theorem firstNamed?_of_perm (h : es.Perm es') (hnames : (es.map (·.name)).Nodup) (name : Text) :
    firstNamed? es name = firstNamed? es' name := by
  refine List.find?_eq_find?_of_perm h ?_
  rintro e ⟨he, hname⟩ e' ⟨he', hname'⟩
  rw [decide_eq_true_eq] at hname hname'
  exact List.inj_on_of_nodup_map hnames he he' (hname.trans hname'.symm)

theorem joinedTables_of_perm (h : es.Perm es') (junction : Entity) :
    joinedTables rules es junction = joinedTables rules es' junction :=
  joinedTables_congr (fun name => by simp [Named, h.mem_iff]) rfl

namespace Junction

/-- The resolutions are found in another order, that of the junctions. -/
theorem resolutions_of_perm (h : es.Perm es') (hnames : (es.map (·.name)).Nodup) :
    (resolutions rules es).Perm (resolutions rules es') := by
  have hfirst : firstNamed? es = firstNamed? es' := funext (firstNamed?_of_perm h hnames)
  have hjoined : joinedTables rules es = joinedTables rules es' := funext (joinedTables_of_perm h)
  have hcomplete : isComplete rules es = isComplete rules es' := by
    funext junction
    rw [isComplete, isComplete, hjoined]
  have hthrough : resolutionsThrough rules es = resolutionsThrough rules es' := by
    funext junction
    have hof : Resolution.of? es = Resolution.of? es' := by
      funext name joined table
      simp only [Resolution.of?, hfirst]
    rw [resolutionsThrough, resolutionsThrough, hjoined, hof]
  rw [resolutions, resolutions, hcomplete, hthrough]
  exact ((h.filter _).filter _).flatMap_right _

/-- A place is meant by one resolution only: the relation there names the junction, and the table
and the junction together determine the resolution. -/
theorem resolution_unique (hnames : (es.map (·.name)).Nodup) {res res' : Resolution}
    (h : res ∈ resolutions rules es) (h' : res' ∈ resolutions rules es)
    (htable : res.table = res'.table) (hposition : res.position = res'.position) : res = res' := by
  obtain ⟨junction, hthrough, hof⟩ := Resolution.exists_foundThrough_of? h
  obtain ⟨junction', hthrough', hof'⟩ := Resolution.exists_foundThrough_of? h'
  obtain ⟨e, he, hname, list, hlist, -, r, hr, hleads⟩ := hthrough.place
  obtain ⟨e', he', hname', list', hlist', -, r', hr', hleads'⟩ := hthrough'.place
  obtain rfl : e = e' :=
    List.inj_on_of_nodup_map hnames he he' (hname.trans (htable.trans hname'.symm))
  obtain rfl : list = list' := Option.some.inj (hlist.symm.trans hlist')
  obtain rfl : r = r' := by
    rw [hposition, hr'] at hr
    exact (Option.some.inj hr).symm
  simp only [Resolution.leadsThrough, Bool.and_eq_true, decide_eq_true_eq] at hleads hleads'
  obtain rfl : junction = junction' := List.inj_on_of_nodup_map hnames hthrough.mem hthrough'.mem
    (hleads.1.symm.trans hleads'.1)
  rw [htable, hof'] at hof
  exact (Option.some.inj hof).symm

/-- Settling by resolutions for different places does not depend on their order. -/
theorem settle_of_perm {rs rs' : List Resolution} (h : rs.Perm rs')
    (hunique : ∀ res ∈ rs, ∀ res' ∈ rs, res.table = res'.table → res.position = res'.position →
      res = res') (e : Entity) : settle rs e = settle rs' e := by
  have hlast (table : Text) (origin position : Nat) :
      Resolution.lastFor? rs table origin position =
        Resolution.lastFor? rs' table origin position := by
    refine List.find?_eq_find?_of_perm
      (rs.reverse_perm.trans (h.trans rs'.reverse_perm.symm)) ?_
    rintro res ⟨hres, hfor⟩ res' ⟨hres', hfor'⟩
    simp only [Resolution.isFor, Bool.and_eq_true, decide_eq_true_eq] at hfor hfor'
    exact hunique res (List.mem_reverse.mp hres) res' (List.mem_reverse.mp hres')
      (hfor.1.1.trans hfor'.1.1.symm) (hfor.2.trans hfor'.2.symm)
  have hsettled : Resolution.settled rs = Resolution.settled rs' := by
    funext table origin position r
    rw [Resolution.settled, Resolution.settled, hlast]
  have hlists : Resolution.settledList rs = Resolution.settledList rs' := by
    funext table list
    rw [Resolution.settledList, Resolution.settledList, hsettled]
  rw [settle_eq, settle_eq, hlists]

/-- Rearranged entities are settled to the same. -/
theorem settle_resolutions_of_perm (h : es.Perm es') (hnames : (es.map (·.name)).Nodup)
    (e : Entity) : settle (resolutions rules es) e = settle (resolutions rules es') e :=
  settle_of_perm (resolutions_of_perm h hnames)
    (fun _ hres _ hres' => resolution_unique hnames hres hres') e

end Junction
end SchemaAtlas
