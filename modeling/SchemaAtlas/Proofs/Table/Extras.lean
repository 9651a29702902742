import SchemaAtlas.Proofs.Outcome
import SchemaAtlas.Table.Extras

/-!
# What the extras of a table hold

Lists of columns without empty names, and without repetitions where a check lists them. Both hold of
whatever is read, since the reader leaves out what would break them. Which reader an entry goes to
is decided by its innermost call.
-/

namespace SchemaAtlas.Extra

/-- Keep a text unless it was found before. -/
def keepNew (found : List Text) (t : Text) : List Text :=
  if found.contains t then found else found ++ [t]

theorem distinct_eq (texts : List Text) : distinct texts = texts.foldl keepNew [] := rfl

theorem nodup_foldl_keepNew (found texts : List Text) (h : found.Nodup) :
    (texts.foldl keepNew found).Nodup := by
  induction texts generalizing found with
  | nil => exact h
  | cons t rest ih =>
    apply ih
    by_cases ht : t ∈ found
    · simpa [keepNew, ht] using h
    · simpa [keepNew, ht, List.nodup_append] using ⟨h, fun a ha he => ht (he ▸ ha)⟩

/-- Every text is kept once. -/
theorem mem_foldl_keepNew (found texts : List Text) (t : Text) :
    t ∈ texts.foldl keepNew found ↔ t ∈ found ∨ t ∈ texts := by
  induction texts generalizing found with
  | nil => simp
  | cons s rest ih =>
    rw [List.foldl_cons, ih]
    by_cases hs : s ∈ found
    · have hkeep : keepNew found s = found := by simp [keepNew, hs]
      rw [hkeep, List.mem_cons]
      constructor
      · rintro (h | h)
        · exact .inl h
        · exact .inr (.inr h)
      · rintro (h | rfl | h)
        · exact .inl h
        · exact .inl hs
        · exact .inr h
    · simp [keepNew, hs, or_assoc]

/-- Different texts are all kept in their order. -/
theorem foldl_keepNew_of_nodup (found texts : List Text) (h : (found ++ texts).Nodup) :
    texts.foldl keepNew found = found ++ texts := by
  induction texts generalizing found with
  | nil => simp
  | cons t rest ih =>
    have ht : t ∉ found := by
      intro hmem
      exact (List.nodup_append.mp h).2.2 t hmem t List.mem_cons_self rfl
    have hkeep : keepNew found t = found ++ [t] := by simp [keepNew, ht]
    rw [List.foldl_cons, hkeep, ih (found ++ [t]) (by simpa using h)]
    simp

theorem nodup_distinct (texts : List Text) : (distinct texts).Nodup :=
  nodup_foldl_keepNew [] texts List.nodup_nil

@[simp] theorem mem_distinct (texts : List Text) (t : Text) :
    t ∈ distinct texts ↔ t ∈ texts := by
  simp [distinct_eq, mem_foldl_keepNew]

theorem distinct_of_nodup (texts : List Text) (h : texts.Nodup) : distinct texts = texts :=
  foldl_keepNew_of_nodup [] texts (by simpa using h)

/-- No list of columns holds an empty name. -/
theorem nil_notMem_columnNames (es : List Expr) : [] ∉ columnNames es := by
  simp [columnNames]

/-- An index is marked as partial by the branch that sets its condition. -/
theorem isPartial_restricted {i : Index} (hwhole : i.isPartial = false) (hnone : i.condition = none)
    (condition : Option Text) :
    (restricted i condition).isPartial = (restricted i condition).condition.isSome := by
  cases condition with
  | none => rw [restricted, hwhole, hnone]; rfl
  | some _ => rfl

theorem isPartial_of_ofIndex {table : Text} {key : Option Text} {base : List Expr}
    {modifiers : List Expr.Link} {unique : Bool} {i : Index}
    (h : ofIndex table key base modifiers unique = .ok i) : i.isPartial = i.condition.isSome := by
  unfold ofIndex at h
  split at h <;> cases h
  exact isPartial_restricted rfl rfl _

/-- An index has no column without a name. -/
theorem nil_notMem_columns_of_ofIndex {table : Text} {key : Option Text} {base : List Expr}
    {modifiers : List Expr.Link} {unique : Bool} {i : Index}
    (h : ofIndex table key base modifiers unique = .ok i) : [] ∉ i.columns := by
  unfold ofIndex at h
  split at h
  · cases h
  · next columns method htarget =>
    cases h
    rw [columns_restricted]
    unfold indexTarget? at htarget
    split at htarget
    · cases htarget
      exact nil_notMem_columnNames _
    · cases htarget
      exact nil_notMem_columnNames _
    · cases htarget

/-- A check lists each of its columns once. -/
theorem columns_of_ofCheck {key : Option Text} {base : List Expr} {c : Check}
    (h : ofCheck key base = .ok c) : c.columns.Nodup ∧ [] ∉ c.columns := by
  unfold ofCheck at h
  split at h
  · split at h
    · cases h
    · cases h
      exact ⟨nodup_distinct _, by simp [nil_notMem_columnNames]⟩
  · cases h

/-- What an extra was read from, given the innermost call and the calls around it. -/
def ReadFrom (table : Text) (key : Option Text) (base : Expr.Link) (modifiers : List Expr.Link) :
    Extra → Prop
  | index i => ∃ unique, ofIndex table key base.arguments modifiers unique = .ok i
  | check c => base.name = some "check" ∧ ofCheck key base.arguments = .ok c
  | foreignKey k =>
    base.name = some "foreignKey" ∧ ofForeignKey key base.arguments modifiers = .ok k
  | ignored => True

/-- The innermost call decides what an entry is read as. -/
theorem readFrom_of_ofEntry {table : Text} {key : Option Text} {value : Expr} {extra : Extra}
    (h : ofEntry table key value = .ok extra) :
    ∃ base, value.chain.getLast? = some base ∧
      extra.ReadFrom table key base value.chain.dropLast := by
  unfold ofEntry at h
  split at h
  · cases h
  · next base hbase =>
    refine ⟨base, hbase, ?_⟩
    dsimp only at h
    split at h
    · obtain ⟨i, hi, rfl⟩ := Except.map_eq_ok.mp h
      exact ⟨_, hi⟩
    · split at h
      · obtain ⟨i, hi, rfl⟩ := Except.map_eq_ok.mp h
        exact ⟨_, hi⟩
      · split at h
        · next hname =>
          obtain ⟨c, hc, rfl⟩ := Except.map_eq_ok.mp h
          exact ⟨hname, hc⟩
        · split at h
          · next hname =>
            obtain ⟨k, hk, rfl⟩ := Except.map_eq_ok.mp h
            exact ⟨hname, hk⟩
          · cases h
            trivial

/-- The extras that the entries of a table can be read as, in order. -/
def readable (table : Text) (entries : List (Option Text × Expr)) : List Extra :=
  entries.filterMap fun x => (ofEntry table x.1 x.2).toOption

section Readable

variable {table : Text} {entries : List (Option Text × Expr)}

/-- An extra that is read comes from an entry whose innermost call declares it. -/
theorem exists_entry_of_mem {extra : Extra} (h : extra ∈ readable table entries) :
    ∃ x ∈ entries, ofEntry table x.1 x.2 = .ok extra ∧
      ∃ base, x.2.chain.getLast? = some base ∧
        extra.ReadFrom table x.1 base x.2.chain.dropLast := by
  obtain ⟨x, hx, hentry⟩ := Except.exists_ok_of_mem_filterMap h
  exact ⟨x, hx, hentry, readFrom_of_ofEntry hentry⟩

theorem index_of_mem {i : Index} (h : i ∈ (readable table entries).filterMap index?) :
    i.isPartial = i.condition.isSome ∧ [] ∉ i.columns := by
  obtain ⟨extra, hextra, hindex⟩ := List.mem_filterMap.mp h
  obtain ⟨x, -, -, base, -, hread⟩ := exists_entry_of_mem hextra
  cases extra <;> cases hindex
  obtain ⟨unique, hof⟩ := hread
  exact ⟨isPartial_of_ofIndex hof, nil_notMem_columns_of_ofIndex hof⟩

theorem check_columns_of_mem {c : Check} (h : c ∈ (readable table entries).filterMap check?) :
    c.columns.Nodup ∧ [] ∉ c.columns := by
  obtain ⟨extra, hextra, hcheck⟩ := List.mem_filterMap.mp h
  obtain ⟨x, -, -, base, -, hread⟩ := exists_entry_of_mem hextra
  cases extra <;> cases hcheck
  exact columns_of_ofCheck hread.2

/-- A foreign key that is read comes from an entry whose innermost call is `foreignKey`. -/
theorem exists_foreignKey_entry_of_mem {k : ForeignKey}
    (h : k ∈ (readable table entries).filterMap foreignKey?) :
    ∃ x ∈ entries, ofEntry table x.1 x.2 = .ok (.foreignKey k) ∧
      x.2.chain.getLast?.bind (·.name) = some "foreignKey" := by
  obtain ⟨extra, hextra, hkey⟩ := List.mem_filterMap.mp h
  obtain ⟨x, hx, hentry, base, hbase, hread⟩ := exists_entry_of_mem hextra
  cases extra <;> cases hkey
  refine ⟨x, hx, hentry, ?_⟩
  rw [hbase]
  exact hread.1

end Readable

end SchemaAtlas.Extra
