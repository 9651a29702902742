import SchemaAtlas.Proofs.Entity.Texts
import SchemaAtlas.Proofs.Table.Extras

/-!
# The texts of indexes and constraints

The indexes, checks and foreign keys among the extras of a table hold texts of their entries and
fixed words. Only the name of an index without one is put together, from the name of the table, the
columns and a word for the kind.
-/

namespace SchemaAtlas

variable {P : CodePoint → Prop}

namespace Extra

variable {es : List Expr} {modifiers : List Expr.Link}

theorem within_columnNames (h : ∀ e ∈ es, e.Within P) : ∀ t ∈ columnNames es, t.Within P := by
  intro t ht
  obtain ⟨e, he, hname⟩ := List.mem_filterMap.mp (List.mem_filter.mp ht).1
  exact (h e he).unwrap.invokedName? t hname

theorem within_stringArgument? (h : ∀ e ∈ es, e.Within P) :
    ∀ t ∈ stringArgument? es, t.Within P := by
  intro t ht
  unfold stringArgument? at ht
  split at ht
  · cases ht
    exact (h _ List.mem_cons_self).string? t rfl
  · cases ht

theorem within_substitutions {e : Expr} (h : e.Within P) :
    ∀ s ∈ substitutions e, s.Within P := by
  intro s hs
  have hunwrap := h.unwrap
  unfold substitutions at hs
  generalize e.unwrap = bare at hunwrap hs
  split at hs
  · cases hunwrap with
    | call _ _ harguments =>
      cases harguments _ List.mem_cons_self with
      | template _ _ hsubstitutions => exact hsubstitutions s hs
  · cases hunwrap with
    | template _ _ hsubstitutions => exact hsubstitutions s hs
  · cases hs

theorem within_sqlText {e : Expr} (h : e.Within P) : (sqlText e).Within P := by
  have hunwrap := h.unwrap
  unfold sqlText
  generalize e.unwrap = bare at hunwrap
  split
  · cases hunwrap with
    | call _ _ harguments =>
      cases harguments _ List.mem_cons_self with
      | template _ hraw _ => exact hraw
  · cases hunwrap with
    | call _ _ harguments =>
      cases harguments _ List.mem_cons_self with
      | string _ hvalue => exact hvalue
  · cases hunwrap with
    | template _ hraw _ => exact hraw
  · exact hunwrap.text

theorem within_modifier? (h : ∀ link ∈ modifiers, link.Within P) (name : Text) :
    ∀ es ∈ modifier? modifiers name, ∀ e ∈ es, e.Within P := by
  intro es hes
  obtain ⟨link, hlink, rfl⟩ := Option.map_eq_some_iff.mp hes
  exact (h link (List.mem_reverse.mp (List.mem_of_find?_eq_some hlink))).arguments

theorem within_modifierArgument? (h : ∀ link ∈ modifiers, link.Within P) (name : Text) :
    ∀ e ∈ modifierArgument? modifiers name, e.Within P := by
  intro e he
  obtain ⟨es, hes, hhead⟩ := Option.bind_eq_some_iff.mp he
  exact within_modifier? h name es hes e (List.mem_of_head? hhead)

theorem within_indexTarget? (h : ∀ link ∈ modifiers, link.Within P) {columns : List Text}
    {method : Option IndexMethod} (htarget : indexTarget? modifiers = some (columns, method)) :
    ∀ t ∈ columns, t.Within P := by
  unfold indexTarget? at htarget
  split at htarget
  · next es hes =>
    cases htarget
    exact within_columnNames (within_modifier? h _ _ hes)
  · next es _ hes =>
    cases htarget
    exact within_columnNames fun e he => within_modifier? h _ _ hes e (List.mem_of_mem_drop he)
  · cases htarget

theorem within_indexName (hP : HoldsOfScalars P) {table : Text} (htable : table.Within P)
    {key : Option Text} (hkey : ∀ t ∈ key, t.Within P) {columns : List Text}
    (hcolumns : ∀ t ∈ columns, t.Within P) (unique : Bool) :
    (indexName table key columns unique).Within P := by
  unfold indexName
  split
  · exact hkey _ rfl
  · have hmark : Text.Within P "_" := Text.within_ofString hP _
    simp only [Text.within_append]
    exact ⟨⟨⟨⟨htable, hmark⟩, Text.within_join hmark hcolumns⟩, hmark⟩,
      Text.within_ofString hP _⟩

/-- A condition adds its text to those of an index. -/
theorem within_restricted {i : Index} (h : ∀ t ∈ i.texts, t.Within P) {condition : Option Text}
    (hcondition : ∀ t ∈ condition, t.Within P) :
    ∀ t ∈ (restricted i condition).texts, t.Within P := by
  cases condition with
  | none => exact h
  | some text =>
    simp only [restricted, Index.texts, List.forall_mem_cons, List.forall_mem_append] at h ⊢
    exact ⟨h.1, ⟨h.2.1.1, by simpa using hcondition⟩, h.2.2⟩

section Reading

variable (hP : HoldsOfScalars P) {table : Text} {key : Option Text}
  (hkey : ∀ t ∈ key, t.Within P)

include hkey

/-- An index has its texts from the table, its key and the expressions that it is read from. -/
theorem within_ofIndex (hP : HoldsOfScalars P) (htable : table.Within P)
    (hes : ∀ e ∈ es, e.Within P) (hmodifiers : ∀ link ∈ modifiers, link.Within P) {unique : Bool}
    {i : Index} (h : ofIndex table key es modifiers unique = .ok i) :
    ∀ t ∈ i.texts, t.Within P := by
  unfold ofIndex at h
  split at h
  · cases h
  · next columns method htarget =>
    cases h
    have hcolumns := within_indexTarget? hmodifiers htarget
    have hname :
        Text.Within P ((stringArgument? es).getD (indexName table key columns unique)) := by
      cases hargument : stringArgument? es with
      | none => exact within_indexName hP htable hkey hcolumns unique
      | some name => exact within_stringArgument? hes name hargument
    refine within_restricted ?_ fun t ht => ?_
    · simp only [Index.texts, List.forall_mem_cons, List.forall_mem_append, List.forall_mem_map,
        Option.mem_toList]
      exact ⟨hname, ⟨hcolumns, by simp⟩, fun m _ => Text.within_ofString hP _⟩
    · obtain ⟨e, he, rfl⟩ := Option.map_eq_some_iff.mp ht
      exact within_sqlText (within_modifierArgument? hmodifiers _ e he)

theorem within_checkName? (hes : ∀ e ∈ es, e.Within P) :
    ∀ t ∈ checkName? key es, t.Within P := by
  intro t ht
  unfold checkName? at ht
  split at ht
  · next c rest hargument =>
    cases ht
    exact within_stringArgument? hes _ hargument
  · exact hkey t ht

theorem within_ofCheck (hes : ∀ e ∈ es, e.Within P) {c : Check} (h : ofCheck key es = .ok c) :
    ∀ t ∈ c.texts, t.Within P := by
  have hname := within_checkName? hkey hes
  unfold ofCheck at h
  split at h
  · next first expression rest =>
    have hexpression := hes expression (List.mem_cons_of_mem _ List.mem_cons_self)
    split at h
    · cases h
    · next name hread =>
      cases h
      simp only [Check.texts, List.forall_mem_cons, mem_distinct]
      exact ⟨hname name hread, within_sqlText hexpression,
        within_columnNames (within_substitutions hexpression)⟩
  · cases h

omit hkey in
theorem within_tableOf? {e : Expr} (h : e.Within P) : ∀ t ∈ tableOf? e, t.Within P := by
  intro t ht
  have hunwrap := h.unwrap
  unfold tableOf? at ht
  generalize e.unwrap = bare at hunwrap ht
  split at ht
  · cases hunwrap with
    | memberAccess _ hreceiver _ =>
      have hreceiver := hreceiver.unwrap
      split at ht
      · next hidentifier =>
        rw [hidentifier] at hreceiver
        cases hreceiver with
        | identifier _ hname =>
          cases ht
          exact hname
      · cases ht
  · cases ht

theorem within_ofForeignKey (hP : HoldsOfScalars P) (hes : ∀ e ∈ es, e.Within P) {k : ForeignKey}
    (h : ofForeignKey key es modifiers = .ok k) : ∀ t ∈ k.texts, t.Within P := by
  unfold ofForeignKey at h
  split at h
  · cases h
  · next config hconfig =>
    obtain ⟨first, hfirst, hproperties⟩ := Option.bind_eq_some_iff.mp hconfig
    have hentries := (hes first (List.mem_of_head? hfirst)).unwrap.properties? config hproperties
    have helements (key : Text) : ∀ es ∈ (lastValue? config key).bind Expr.elements?,
        ∀ e ∈ es, e.Within P := by
      intro es hread
      obtain ⟨value, hvalue, hread⟩ := Option.bind_eq_some_iff.mp hread
      exact (within_lastValue? hentries key value hvalue).elements? es hread
    split at h
    · next columns foreign hcolumns hforeign =>
      split at h
      · cases h
      · next table htable =>
        cases h
        have hforeign := helements _ foreign hforeign
        obtain ⟨target, htarget, hread⟩ := List.exists_of_findSome?_eq_some htable
        have hname : ∀ t ∈ ((lastValue? config "name").bind Expr.string?).or key,
            t.Within P := by
          intro t ht
          rcases Option.or_eq_some_iff.mp ht with hstring | ⟨-, hkeyed⟩
          · obtain ⟨value, hvalue, hstring⟩ := Option.bind_eq_some_iff.mp hstring
            exact (within_lastValue? hentries _ value hvalue).string? t hstring
          · exact hkey t hkeyed
        simp only [ForeignKey.texts, List.forall_mem_cons, List.forall_mem_append,
          Option.mem_toList]
        exact ⟨⟨⟨within_columnNames (helements _ columns hcolumns),
          within_tableOf? (hforeign target htarget) table hread, within_columnNames hforeign⟩,
          ReferentialAction.within_spellings hP _ _⟩, hname⟩
    · cases h

def texts : Extra → List Text
  | index i => i.texts
  | check c => c.texts
  | foreignKey k => k.texts
  | ignored => []

/-- An extra has its texts from the table, its key and its value. -/
theorem within_ofEntry (hP : HoldsOfScalars P) (htable : table.Within P) {value : Expr}
    (hvalue : value.Within P) {extra : Extra} (h : ofEntry table key value = .ok extra) :
    ∀ t ∈ extra.texts, t.Within P := by
  obtain ⟨base, hbase, hread⟩ := readFrom_of_ofEntry h
  have hchain := hvalue.chain
  have hmodifiers : ∀ link ∈ value.chain.dropLast, link.Within P :=
    fun link hlink => hchain link (List.dropLast_subset _ hlink)
  have harguments := (hchain base (List.mem_of_getLast? hbase)).arguments
  cases extra with
  | index i =>
    obtain ⟨unique, hof⟩ := hread
    exact within_ofIndex hkey hP htable harguments hmodifiers hof
  | check c => exact within_ofCheck hkey harguments hread.2
  | foreignKey k => exact within_ofForeignKey hkey hP harguments hread.2
  | ignored => simp [texts]

end Reading

/-- The entries of the extras, with the texts of their keys. -/
theorem within_entries {callback : Expr} (h : callback.Within P) :
    ∀ x ∈ entries callback, (∀ t ∈ x.1, t.Within P) ∧ x.2.Within P := by
  intro x hx
  have hunwrap := h.unwrap
  unfold entries at hx
  generalize callback.unwrap = bare at hunwrap hx
  split at hx
  · cases hunwrap with
    | function _ _ hbody =>
      split at hx
      · next y properties hresult =>
        obtain ⟨p, hp, rfl⟩ := List.mem_map.mp hx
        have hproperty := (hbody.result? _ hresult).properties? properties rfl p hp
        exact ⟨by simpa using hproperty.key, hproperty.value⟩
      · next y elements hresult =>
        obtain ⟨e, he, rfl⟩ := List.mem_map.mp hx
        exact ⟨by simp, (hbody.result? _ hresult).elements? elements rfl e he⟩
      · cases hx
  · cases hx

/-- The indexes, checks and foreign keys among the extras have the texts of their entries. -/
theorem within_readable (hP : HoldsOfScalars P) {table : Text} (htable : table.Within P)
    {entries : List (Option Text × Expr)}
    (h : ∀ x ∈ entries, (∀ t ∈ x.1, t.Within P) ∧ x.2.Within P) :
    (∀ i ∈ (readable table entries).filterMap index?, ∀ t ∈ i.texts, t.Within P) ∧
    (∀ c ∈ (readable table entries).filterMap check?, ∀ t ∈ c.texts, t.Within P) ∧
    ∀ k ∈ (readable table entries).filterMap foreignKey?, ∀ t ∈ k.texts, t.Within P := by
  have hread : ∀ extra ∈ readable table entries, ∀ t ∈ extra.texts, t.Within P := by
    intro extra hextra
    obtain ⟨x, hx, hentry, -⟩ := exists_entry_of_mem hextra
    obtain ⟨hkey, hvalue⟩ := h x hx
    exact within_ofEntry hkey hP htable hvalue hentry
  refine ⟨fun i hi => ?_, fun c hc => ?_, fun k hk => ?_⟩
  · obtain ⟨extra, hextra, hindex⟩ := List.mem_filterMap.mp hi
    cases extra <;> cases hindex
    exact hread _ hextra
  · obtain ⟨extra, hextra, hcheck⟩ := List.mem_filterMap.mp hc
    cases extra <;> cases hcheck
    exact hread _ hextra
  · obtain ⟨extra, hextra, hkey⟩ := List.mem_filterMap.mp hk
    cases extra <;> cases hkey
    exact hread _ hextra

end Extra
end SchemaAtlas
