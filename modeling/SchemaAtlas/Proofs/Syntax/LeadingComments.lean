import Mathlib.Data.List.Basic
import SchemaAtlas.Syntax.Tree

/-!
# Comments and the nodes they lead

Among the children of a node a comment leads at most one: the next that is no comment, unless the
comment starts on the row where the last other child before it ends. The comments collected for a
child are exactly those that lead it, in source order. Both sides are followed from one position to
the next: a comment adds itself to those that lead its successor, any other child starts afresh.
-/

namespace SchemaAtlas.Syntax

def CommentsFrom (siblings : List Tree) (k i : Nat) : Prop :=
  ∀ m, k ≤ m → m < i → ∃ s, siblings[m]? = some s ∧ s.isComment = true

def LastOther (siblings : List Tree) (k : Nat) (boundary : Tree) : Prop :=
  ∃ j < k, siblings[j]? = some boundary ∧ boundary.isComment = false ∧
    CommentsFrom siblings (j + 1) k

/-- The sibling at a position starts on the row where the last other sibling before it ends. -/
def Trails (source : Bytes) (siblings : List Tree) (k : Nat) : Prop :=
  ∃ comment boundary, siblings[k]? = some comment ∧ LastOther siblings k boundary ∧
    rowAt source comment.start = rowAt source boundary.stop

/-- The sibling at position `k` is a comment that leads the one at position `i`. -/
structure Leads (source : Bytes) (siblings : List Tree) (k i : Nat) : Prop where
  lt : k < i
  comments : CommentsFrom siblings k i
  apart : ¬ Trails source siblings k

variable {source : Bytes} {siblings : List Tree} {k i j : Nat} {t : Tree}

theorem CommentsFrom.at (h : CommentsFrom siblings k i) (hk : k ≤ j) (hj : j < i)
    (ht : siblings[j]? = some t) : t.isComment = true := by
  obtain ⟨s, hs, hcomment⟩ := h j hk hj
  rw [ht] at hs
  cases hs
  exact hcomment

/-- One position further on, one sibling more has to be a comment. -/
theorem commentsFrom_succ (ht : siblings[i]? = some t) :
    CommentsFrom siblings k (i + 1) ↔
      CommentsFrom siblings k i ∧ (k ≤ i → t.isComment = true) := by
  constructor
  · intro h
    exact ⟨fun m hk hm => h m hk (by omega), fun hk => h.at hk (by omega) ht⟩
  · rintro ⟨h, hcomment⟩ m hk hm
    by_cases hlast : m = i
    · subst hlast
      exact ⟨t, ht, hcomment hk⟩
    · exact h m hk (by omega)

/-- A comment leads only nodes before which nothing but comments stands, so at most one. -/
theorem Leads.unique {c d : Tree} (hi : Leads source siblings k i) (hj : Leads source siblings k j)
    (hc : siblings[i]? = some c) (hd : siblings[j]? = some d) (hcother : c.isComment = false)
    (hdother : d.isComment = false) : i = j := by
  have hki := hi.lt
  have hkj := hj.lt
  rcases Nat.lt_trichotomy i j with hlt | heq | hlt
  · rw [hj.comments.at (by omega) hlt hc] at hcother
    cases hcother
  · exact heq
  · rw [hi.comments.at (by omega) hlt hd] at hdother
    cases hdother

section Step

variable (ht : siblings[i]? = some t)

include ht

/-- Behind a sibling that is no comment, that one is the last. -/
theorem lastOther_succ_of_other (hother : t.isComment = false) (boundary : Tree) :
    LastOther siblings (i + 1) boundary ↔ boundary = t := by
  constructor
  · rintro ⟨j, hj, hb, -, hcomments⟩
    by_cases hlast : j = i
    · subst hlast
      rw [ht] at hb
      exact (Option.some.inj hb).symm
    · rw [hcomments.at (by omega) (Nat.lt_succ_self i) ht] at hother
      cases hother
  · rintro rfl
    exact ⟨i, Nat.lt_succ_self i, ht, hother, fun m hm hlt => by omega⟩

/-- A comment leaves the last other sibling where it was. -/
theorem lastOther_succ_of_comment (hcomment : t.isComment = true) (boundary : Tree) :
    LastOther siblings (i + 1) boundary ↔ LastOther siblings i boundary := by
  constructor
  · rintro ⟨j, hj, hb, hother, hcomments⟩
    have hne : j ≠ i := by
      rintro rfl
      rw [ht] at hb
      cases hb
      rw [hcomment] at hother
      cases hother
    exact ⟨j, by omega, hb, hother, ((commentsFrom_succ ht).mp hcomments).1⟩
  · rintro ⟨j, hj, hb, hother, hcomments⟩
    exact ⟨j, by omega, hb, hother, (commentsFrom_succ ht).mpr ⟨hcomments, fun _ => hcomment⟩⟩

/-- Nothing leads a node behind a sibling that is no comment. -/
theorem not_leads_succ_of_other (hother : t.isComment = false) (k : Nat) :
    ¬ Leads source siblings k (i + 1) := by
  intro h
  have hk := h.lt
  rw [h.comments.at (by omega) (Nat.lt_succ_self i) ht] at hother
  cases hother

/-- What leads a comment leads its successor, and so does the comment unless it trails. -/
theorem leads_succ_of_comment (hcomment : t.isComment = true) (k : Nat) :
    Leads source siblings k (i + 1) ↔
      Leads source siblings k i ∨ k = i ∧ ¬ Trails source siblings i := by
  constructor
  · rintro ⟨hlt, hcomments, hapart⟩
    by_cases hlast : k = i
    · subst hlast
      exact .inr ⟨rfl, hapart⟩
    · exact .inl ⟨by omega, ((commentsFrom_succ ht).mp hcomments).1, hapart⟩
  · rintro (⟨hlt, hcomments, hapart⟩ | ⟨rfl, hapart⟩)
    · exact ⟨by omega, (commentsFrom_succ ht).mpr ⟨hcomments, fun _ => hcomment⟩, hapart⟩
    · have hnone : CommentsFrom siblings k k := fun m hm hlt => by omega
      exact ⟨Nat.lt_succ_self k, (commentsFrom_succ ht).mpr ⟨hnone, fun _ => hcomment⟩, hapart⟩

theorem reverse_take_succ :
    (siblings.take (i + 1)).reverse = t :: (siblings.take i).reverse := by
  rw [List.take_add_one, ht]
  simp

end Step

/-- The last other sibling is the nearest one found backwards. -/
theorem lastOther_iff (hi : i ≤ siblings.length) (boundary : Tree) :
    LastOther siblings i boundary ↔
      ((siblings.take i).reverse.dropWhile Tree.isComment).head? = some boundary := by
  induction i with
  | zero => simp [LastOther]
  | succ i ih =>
    obtain ⟨t, ht⟩ : ∃ t, siblings[i]? = some t := ⟨_, List.getElem?_eq_getElem hi⟩
    rw [reverse_take_succ ht]
    cases hcomment : t.isComment with
    | false =>
      rw [lastOther_succ_of_other ht hcomment, List.dropWhile_cons_of_neg (by simp [hcomment])]
      simp [eq_comm]
    | true =>
      rw [lastOther_succ_of_comment ht hcomment, List.dropWhile_cons_of_pos hcomment]
      exact ih (by omega)

/-- A comment trails iff it starts where the nearest other sibling, found backwards, ends. -/
theorem trails_iff (ht : siblings[i]? = some t) :
    Trails source siblings i ↔
      ((siblings.take i).reverse.dropWhile Tree.isComment).head?.any
        fun boundary => rowAt source t.start == rowAt source boundary.stop := by
  obtain ⟨hi, -⟩ := List.getElem?_eq_some_iff.mp ht
  rw [Option.any_eq_true]
  constructor
  · rintro ⟨comment, boundary, hcomment, hboundary, hrow⟩
    rw [ht] at hcomment
    cases hcomment
    exact ⟨boundary, (lastOther_iff (by omega) boundary).mp hboundary, beq_iff_eq.mpr hrow⟩
  · rintro ⟨boundary, hboundary, hrow⟩
    exact ⟨t, boundary, ht, (lastOther_iff (by omega) boundary).mpr hboundary, beq_iff_eq.mp hrow⟩

theorem leadingComments_cons_of_other (source : Bytes) (hother : t.isComment = false)
    (before : List Tree) : leadingComments source (t :: before) = [] := by
  unfold leadingComments
  simp [hother]

/-- A comment is collected behind those before it, unless it trails. -/
theorem leadingComments_cons_of_comment (source : Bytes) (hcomment : t.isComment = true)
    (before : List Tree) : leadingComments source (t :: before) =
      leadingComments source before ++
        if (before.dropWhile Tree.isComment).head?.any fun boundary =>
          rowAt source t.start == rowAt source boundary.stop then [] else [t.text source] := by
  unfold leadingComments
  rw [List.takeWhile_cons_of_pos hcomment, List.dropWhile_cons_of_pos hcomment]
  cases before.dropWhile Tree.isComment with
  | nil => simp
  | cons boundary others =>
    by_cases hrow : rowAt source t.start = rowAt source boundary.stop
    · simp [hrow]
    · simp [hrow]

/-- The comments collected before a position are those that lead it. -/
theorem exists_positions (source : Bytes) (siblings : List Tree) (hi : i ≤ siblings.length) :
    ∃ positions : List Nat, positions.Pairwise (· < ·) ∧
      (∀ k, k ∈ positions ↔ Leads source siblings k i) ∧
      leadingComments source (siblings.take i).reverse =
        positions.filterMap fun k => siblings[k]?.map (·.text source) := by
  induction i with
  | zero =>
    refine ⟨[], .nil, fun k => ?_, rfl⟩
    simp only [List.not_mem_nil, false_iff]
    intro h
    have hlt := h.lt
    omega
  | succ i ih =>
    obtain ⟨t, ht⟩ : ∃ t, siblings[i]? = some t := ⟨_, List.getElem?_eq_getElem hi⟩
    rw [reverse_take_succ ht]
    cases hcomment : t.isComment with
    | false =>
      rw [leadingComments_cons_of_other source hcomment]
      exact ⟨[], .nil, fun k => by simp [not_leads_succ_of_other ht hcomment k], rfl⟩
    | true =>
      obtain ⟨positions, hsorted, hleads, htexts⟩ := ih (by omega)
      have hbelow (k : Nat) (hk : k ∈ positions) : k < i := ((hleads k).mp hk).lt
      rw [leadingComments_cons_of_comment source hcomment, htexts]
      by_cases htrails : Trails source siblings i
      · rw [if_pos ((trails_iff ht).mp htrails), List.append_nil]
        refine ⟨positions, hsorted, fun k => ?_, rfl⟩
        rw [leads_succ_of_comment ht hcomment, hleads]
        simp [htrails]
      · rw [if_neg (mt (trails_iff ht).mpr htrails)]
        refine ⟨positions ++ [i], ?_, fun k => ?_, ?_⟩
        · exact List.pairwise_append.mpr
            ⟨hsorted, List.pairwise_singleton _ i, fun k hk m hm => by
              rw [List.mem_singleton.mp hm]
              exact hbelow k hk⟩
        · rw [leads_succ_of_comment ht hcomment, ← hleads]
          simp [htrails]
        · simp [ht]

theorem getElem?_withBefore (before ts : List Tree) (i : Nat) :
    (withBefore before ts)[i]? = ts[i]?.map fun t => ((ts.take i).reverse ++ before, t) := by
  induction ts generalizing before i with
  | nil => rfl
  | cons t rest ih =>
    cases i with
    | zero => rfl
    | succ i => simp [withBefore, ih]

/-- A child stands behind the children before it. -/
theorem Tree.getElem?_placedChildren (t : Tree) (i : Nat) :
    t.placedChildren[i]? = t.children[i]?.map fun c => ((t.children.take i).reverse, c) := by
  rw [placedChildren, getElem?_withBefore]
  simp only [List.append_nil]

/-- The comments collected for a child are, in source order, those that lead it. None of them
trails, and none leads another child. -/
theorem Tree.leadingComments_of_child (source : Bytes) (t : Tree) {i : Nat} {c : Tree}
    (hc : t.children[i]? = some c) (hother : c.isComment = false) :
    ∃ (before : List Tree) (positions : List Nat), t.placedChildren[i]? = some (before, c) ∧
      leadingComments source before =
        positions.filterMap (fun k => t.children[k]?.map (·.text source)) ∧
      positions.Pairwise (· < ·) ∧
      (∀ k, k ∈ positions ↔ Leads source t.children k i) ∧
      ∀ k ∈ positions, ¬ Trails source t.children k ∧
        ∀ j d, t.children[j]? = some d → d.isComment = false → Leads source t.children k j →
          j = i := by
  obtain ⟨hi, -⟩ := List.getElem?_eq_some_iff.mp hc
  obtain ⟨positions, hsorted, hleads, htexts⟩ :=
    exists_positions source t.children (Nat.le_of_lt hi)
  refine ⟨_, positions, ?_, htexts, hsorted, hleads, fun k hk => ?_⟩
  · rw [getElem?_placedChildren, hc]
    rfl
  · have hlead := (hleads k).mp hk
    exact ⟨hlead.apart, fun j d hd hdother hj => hj.unique hlead hd hc hdother hother⟩

/-- The source of an object whose first entry is trailed by a comment. -/
def trailedSource : Bytes :=
  Utf8.encodePoints "\x7ba, // of a\n/* of b\n */ /* too */ b\x7d"

def leaf (kind : Kind) (start stop : Nat) : Tree := .node kind start stop true none []

def trailedObject : Tree := .node .object 0 36 true none [
  leaf (.other "\x7b") 0 1, leaf .shorthandProperty 1 2, leaf (.other ",") 2 3,
  leaf .comment 4 11, leaf .comment 12 23, leaf .comment 24 33, leaf .shorthandProperty 34 35,
  leaf (.other "\x7d") 35 36]

theorem trails_trailedObject : Trails trailedSource trailedObject.children 3 := by
  refine ⟨_, _, rfl, ⟨2, by decide, rfl, rfl, fun m hm hlt => ?_⟩, by decide +kernel⟩
  omega

/-- The comment behind the first entry trails it, and the two in front of the second lead that. -/
theorem Tree.leadingComments_of_child_trailedObject :
    ∃ (before : List Tree) (positions : List Nat),
      trailedObject.placedChildren[6]? = some (before, leaf .shorthandProperty 34 35) ∧
      leadingComments trailedSource before = [("/* of b\n */" : Text), "/* too */"] ∧
      (∀ k, k ∈ positions ↔ Leads trailedSource trailedObject.children k 6) ∧ 3 ∉ positions := by
  obtain ⟨before, positions, hplaced, -, -, hleads, hapart⟩ :=
    leadingComments_of_child trailedSource trailedObject (i := 6) rfl rfl
  have hbefore : before = (trailedObject.children.take 6).reverse := by
    rw [getElem?_placedChildren] at hplaced
    cases hplaced
    rfl
  refine ⟨before, positions, hplaced, ?_, hleads, fun h => (hapart 3 h).1 trails_trailedObject⟩
  rw [hbefore]
  decide +kernel

end SchemaAtlas.Syntax
