import SchemaAtlas.Proofs.Batch.Parsed
import SchemaAtlas.Proofs.Entity.Classification
import SchemaAtlas.Proofs.Table.Texts

/-!
# The texts of declared entities and relations

Entities and relations hold texts of their declarations, besides the values of enums and fixed
words. A test on code points that scalar values pass holds of all that is read from a declaration
if it holds of the declaration.
-/

namespace SchemaAtlas

variable {P : CodePoint → Prop}

/-! ## Relations -/

namespace Relation

theorem within_tableName? {e : Expr} (h : e.Within P) : ∀ t ∈ tableName? e, t.Within P := by
  intro t ht
  cases h <;> cases ht <;> assumption

theorem within_target? {e : Expr} (h : e.Within P) : ∀ t ∈ target? e, t.Within P := by
  intro t ht
  have hunwrap := h.unwrap
  unfold target? at ht
  generalize e.unwrap = bare at hunwrap ht
  split at ht
  · cases hunwrap with
    | function _ _ hbody =>
      obtain ⟨result, hresult, ht⟩ := Option.bind_eq_some_iff.mp ht
      exact within_tableName? (hbody.result? result hresult) t ht
  · exact within_tableName? hunwrap t ht

theorem within_names {es : List Expr} (h : ∀ e ∈ es, e.Within P) : ∀ t ∈ names es, t.Within P := by
  intro t ht
  obtain ⟨e, he, hname⟩ := List.mem_filterMap.mp (List.mem_filter.mp ht).1
  exact (h e he).referencedName? t hname

theorem within_setting? {config : List Entry} (h : ∀ p ∈ config, p.Within P) (key : Text) :
    ∀ e ∈ setting? config key, e.Within P := by
  intro e he
  obtain ⟨value, hvalue, rfl⟩ := Option.map_eq_some_iff.mp he
  exact (within_lastValue? h key value hvalue).unwrap

theorem within_withConfig {r : Relation} (h : ∀ t ∈ r.texts, t.Within P) {config : List Entry}
    (hconfig : ∀ p ∈ config, p.Within P) : ∀ t ∈ (r.withConfig config).texts, t.Within P := by
  have hnames (key : Text) :
      ∀ t ∈ (((setting? config key).bind Expr.elements?).map names).getD [], t.Within P := by
    cases helements : (setting? config key).bind Expr.elements? with
    | none => simp
    | some es =>
      obtain ⟨value, hvalue, hes⟩ := Option.bind_eq_some_iff.mp helements
      exact within_names ((within_setting? hconfig key value hvalue).elements? es hes)
  have hlabel : ∀ t ∈ (setting? config "relationName").bind Expr.string?, t.Within P := by
    intro t ht
    obtain ⟨value, hvalue, hstring⟩ := Option.bind_eq_some_iff.mp ht
    exact (within_setting? hconfig _ value hvalue).string? t hstring
  simp only [texts, List.forall_mem_cons, List.forall_mem_append, Option.mem_toList] at h ⊢
  obtain ⟨hname, htype, htable, ⟨-, htarget⟩, hjunction⟩ := h
  exact ⟨hname, htype, htable, ⟨⟨⟨hnames _, hnames _⟩, hlabel⟩, htarget⟩, hjunction⟩

theorem within_config? {es : List Expr} (h : ∀ e ∈ es, e.Within P) :
    ∀ config ∈ config? es, ∀ p ∈ config, p.Within P := by
  intro config hconfig
  unfold config? at hconfig
  split at hconfig
  · exact (h _ (List.mem_cons_of_mem _ List.mem_cons_self)).unwrap.properties? config hconfig
  · cases hconfig

theorem within_bare (hP : HoldsOfScalars P) {name table : Text} (hname : name.Within P)
    (htable : table.Within P) (type : Cardinality) :
    ∀ t ∈ texts { name := name, type := type, relatedTable := table }, t.Within P := by
  simp only [texts, List.forall_mem_cons]
  exact ⟨hname, Text.within_ofString hP _, htable, by simp⟩

/-- The cardinality is a fixed word. -/
theorem within_withType (hP : HoldsOfScalars P) {r : Relation} (h : ∀ t ∈ r.texts, t.Within P)
    (isSelfReferencing : Bool) (type : Cardinality) :
    ∀ t ∈ texts { r with isSelfReferencing := isSelfReferencing, type := type }, t.Within P := by
  simp only [texts, List.forall_mem_cons] at h ⊢
  exact ⟨h.1, Text.within_ofString hP _, h.2.2⟩

/-- The relation that an entry of a mapping declares has the texts of the entry. -/
theorem within_ofEntry (hP : HoldsOfScalars P) {rules : HeuristicRules} {entry : Entry}
    (hentry : entry.Within P) {r : Relation} (h : ofEntry rules entry = .ok r) :
    ∀ t ∈ r.texts, t.Within P := by
  have hunwrap := hentry.value.unwrap
  unfold ofEntry at h
  generalize entry.value.unwrap = bare at hunwrap h
  split at h
  · next x y helper arguments =>
    cases hunwrap with
    | call _ _ harguments =>
      split at h
      · cases h
      · next tentative _ =>
        split at h
        · cases h
        · next first rest =>
          split at h
          · cases h
          · next table htable =>
            have htable := within_target? (harguments first List.mem_cons_self) table htable
            have hbare := within_bare hP hentry.key htable tentative
            cases h
            apply within_withType hP
            cases hconfig : config? (first :: rest) with
            | none => exact hbare
            | some config => exact within_withConfig hbare (within_config? harguments config hconfig)
  · cases h

end Relation

/-! ## Declarations -/

/-- All texts of a declaration pass a test on code points. -/
structure Declaration.Within (P : CodePoint → Prop) (d : Declaration) : Prop where
  name : d.name.Within P
  initializer : ∀ e ∈ d.initializer, e.Within P
  statementComments : ∀ comment ∈ d.statementComments, comment.Within P
  comments : ∀ comment ∈ d.comments, comment.Within P

namespace Declaration.Within

variable {d : Declaration} (h : d.Within P)

include h

theorem arguments? : ∀ es ∈ d.arguments?, ∀ e ∈ es, e.Within P := by
  intro es hes
  have hvalue := h.initializer
  unfold Declaration.arguments? at hes
  split at hes
  · next hcall =>
    cases hvalue _ hcall with
    | call _ _ harguments =>
      cases hes
      exact harguments
  · cases hes

theorem enumValues? : ∀ values ∈ d.enumValues?, ∀ t ∈ values, t.Within P := by
  intro values hvalues
  unfold Declaration.enumValues? at hvalues
  split at hvalues
  · next harguments =>
    cases hvalues
    have harray := h.arguments? _ harguments _ (List.mem_cons_of_mem _ List.mem_cons_self)
    exact within_filterMap_string? (harray.elements? _ rfl)
  · cases hvalues

/-- The table that relations are declared for, and the entries of their mapping. -/
theorem mapping {rules : DeclarationRules} {table : Text} {entries : List Entry}
    (hmapping : Relation.mapping rules d = .ok (table, entries)) :
    table.Within P ∧ ∀ p ∈ entries, p.Within P := by
  unfold Relation.mapping at hmapping
  split at hmapping
  · cases hmapping
  · next owner howner =>
    have htable : owner.Within P := by
      unfold Relation.owner? at howner
      simp only at howner
      split at howner
      · cases howner
        exact h.name.dropEnd _
      · cases howner
    split at hmapping
    · next callback rest harguments =>
      have hcallback := h.arguments? _ harguments callback
        (List.mem_cons_of_mem _ List.mem_cons_self)
      have hunwrap := hcallback.unwrap
      generalize callback.unwrap = bare at hunwrap hmapping
      split at hmapping
      · cases hunwrap with
        | function _ _ hbody =>
          split at hmapping
          · next properties hresult =>
            cases hmapping
            exact ⟨htable, (hbody.result? _ hresult).properties? _ rfl⟩
          · cases hmapping
      · cases hmapping
    · cases hmapping

theorem declared? (hP : HoldsOfScalars P) {config : Config} {table : Text}
    {relations : List Relation}
    (hdeclared : Relation.declared? config d = some (table, relations)) :
    table.Within P ∧ ∀ r ∈ relations, ∀ t ∈ r.texts, t.Within P := by
  obtain ⟨⟨owner, entries⟩, hmapping, heq⟩ := Option.map_eq_some_iff.mp hdeclared
  cases heq
  obtain ⟨htable, hentries⟩ := h.mapping (Except.toOption_eq_some.mp hmapping)
  refine ⟨htable, fun r hr => ?_⟩
  obtain ⟨entry, hentry, hread⟩ := Except.exists_ok_of_mem_filterMap hr
  exact Relation.within_ofEntry hP (hentries entry hentry) hread

end Declaration.Within

/-! ## Entities -/

namespace Entity

theorem within_columnMap? {e : Expr} (h : e.Within P) :
    ∀ entries ∈ columnMap? e, ∀ p ∈ entries, p.Within P := by
  intro entries hentries
  have hunwrap := h.unwrap
  unfold columnMap? at hentries
  generalize e.unwrap = bare at hunwrap hentries
  split at hentries
  · cases hunwrap with
    | function _ _ hbody =>
      obtain ⟨result, hresult, hproperties⟩ := Option.bind_eq_some_iff.mp hentries
      exact (hbody.result? result hresult).properties? entries hproperties
  · cases hentries
    exact hunwrap.properties? _ rfl
  · cases hentries

/-- The parts of a table declaration have their texts from the declaration. -/
theorem within_shape {d : Declaration} (h : d.Within P) {parts : Shape}
    (hshape : shape d = .ok parts) : parts.tableName.Within P ∧
      (∀ p ∈ parts.columns, p.Within P) ∧
      ∀ x ∈ parts.extras, (∀ t ∈ x.1, t.Within P) ∧ x.2.Within P := by
  unfold shape at hshape
  split at hshape
  · next name columns rest harguments =>
    have hes := h.arguments? _ harguments
    simp only [List.forall_mem_cons] at hes
    obtain ⟨hname, hcolumns, hrest⟩ := hes
    split at hshape
    · cases hshape
    · cases hshape
    · next tableName _ hstring =>
      split at hshape
      · cases hshape
      · next entries hentries =>
        cases hshape
        refine ⟨hname.unwrap.string? _ hstring, within_columnMap? hcolumns entries hentries, ?_⟩
        cases rest with
        | nil => simp
        | cons callback _ => exact Extra.within_entries (hrest callback List.mem_cons_self)
  · cases hshape

/-- The foreign key of a column has the texts of the column. -/
theorem within_foreignKeyOf? (hP : HoldsOfScalars P) {c : Column} (h : c.Within P) :
    ∀ k ∈ foreignKeyOf? c, ∀ t ∈ k.texts, t.Within P := by
  intro k hk
  obtain ⟨r, hr, rfl⟩ := Option.map_eq_some_iff.mp hk
  obtain ⟨htable, hcolumn⟩ := h.references r hr
  simp only [ForeignKey.texts, List.forall_mem_append, List.forall_mem_cons]
  exact ⟨⟨⟨⟨h.name, by simp⟩, htable, hcolumn, by simp⟩,
    ReferentialAction.within_spellings hP _ _⟩, by simp⟩

/-- An entity holds the texts of its columns and extras. -/
theorem within_ofParts (hP : HoldsOfScalars P) {name tableName : Text} (hname : name.Within P)
    (htable : tableName.Within P) {columns : List Column} (hcolumns : ∀ c ∈ columns, c.Within P)
    {entries : List (Option Text × Expr)}
    (hentries : ∀ x ∈ entries, (∀ t ∈ x.1, t.Within P) ∧ x.2.Within P) :
    ∀ t ∈ (ofParts name tableName columns (Extra.readable tableName entries)).texts,
      t.Within P := by
  obtain ⟨hindexes, hchecks, hfurther⟩ := Extra.within_readable hP htable hentries
  have hkeys : ∀ t ∈ (columns.filter (·.primaryKey)).map (·.name), t.Within P := by
    intro t ht
    obtain ⟨c, hc, rfl⟩ := List.mem_map.mp ht
    exact (hcolumns c (List.mem_filter.mp hc).1).name
  have hown : ∀ k ∈ columns.filterMap foreignKeyOf?, ∀ t ∈ k.texts, t.Within P := by
    intro k hk
    obtain ⟨c, hc, hkey⟩ := List.mem_filterMap.mp hk
    exact within_foreignKeyOf? hP (hcolumns c hc) k hkey
  simp only [texts, ofParts, List.forall_mem_cons, List.forall_mem_append,
    List.forall_mem_flatMap]
  exact ⟨hname, htable, ⟨⟨⟨⟨⟨⟨⟨fun c hc => (hcolumns c hc).texts hP, hkeys⟩, hown, hfurther⟩,
    hindexes⟩, hchecks⟩, by simp [relationItems]⟩, by simp⟩, by simp⟩, by simp⟩

/-- What the options add to an entity are comments of its declaration, the names of columns and
fixed words. -/
theorem within_described (hP : HoldsOfScalars P) (config : Config) {d : Declaration}
    (hd : d.Within P) {e : Entity} (hcolumns : ∀ c ∈ e.columns, c.name.Within P)
    (h : ∀ t ∈ e.texts, t.Within P) : ∀ t ∈ (e.described config d).texts, t.Within P := by
  have hcomments : ∀ t ∈ (if config.options.includeComments then
      Comment.documentation? [d.statementComments, d.comments] else none), t.Within P := by
    intro t ht
    split at ht
    · refine Comment.within_documentation? hP ?_ ht
      simpa using ⟨hd.statementComments, hd.comments⟩
    · cases ht
  have haudit : ∀ found ∈ (if config.options.detectAuditColumns then
      some (AuditColumns.detect config.heuristics.auditColumns e.columns) else none),
      ∀ t ∈ AuditRole.all.filterMap found.get, t.Within P := by
    intro found hfound t ht
    split at hfound
    · cases hfound
      obtain ⟨role, -, hrole⟩ := List.mem_filterMap.mp ht
      obtain ⟨c, hc, rfl⟩ := AuditColumns.exists_column_of_get_detect hrole
      exact hcolumns c hc
    · cases hfound
  simp only [texts, described, relationItems, List.forall_mem_cons, List.forall_mem_append,
    List.forall_mem_flatMap, List.forall_mem_map, Option.mem_toList] at h ⊢
  obtain ⟨hname, htable, ⟨⟨⟨hparts, -⟩, -⟩, -⟩⟩ := h
  exact ⟨hname, htable, ⟨⟨⟨hparts, hcomments⟩, fun type _ => Text.within_ofString hP _⟩, haudit⟩⟩

/-- An entity that a declaration declares has the texts of the declaration and of the enums. -/
theorem within_ofDeclaration (hP : HoldsOfScalars P) {config : Config} {enums : Enums}
    (henums : enums.Within P) {d : Declaration} (h : d.Within P) {e : Entity}
    (hof : (ofDeclaration config enums d).outcome = .ok (.ok e)) :
    ∀ t ∈ e.texts, t.Within P := by
  obtain ⟨parts, columns, hshape, hcolumns, rfl⟩ := eq_described_of_ofDeclaration hof
  obtain ⟨htable, hentries, hextras⟩ := within_shape h hshape
  have hcolumns := Column.within_ofEntries hP henums hentries hcolumns
  exact within_described hP config h (fun c hc => (hcolumns c hc).name)
    (within_ofParts hP h.name htable hcolumns hextras)

/-- An entity with relations holds their texts besides its own. -/
theorem within_withRelations {e : Entity} (h : ∀ t ∈ e.texts, t.Within P)
    {relations : Option RelationList}
    (hrelations : ∀ list ∈ relations, ∀ r ∈ list.items, ∀ t ∈ r.texts, t.Within P) :
    ∀ t ∈ texts { e with relations := relations }, t.Within P := by
  have hitems : ∀ r ∈ relationItems { e with relations := relations }, ∀ t ∈ r.texts,
      t.Within P := by
    cases relations with
    | none => simp [relationItems]
    | some list => exact hrelations list rfl
  simp only [texts, List.forall_mem_cons, List.forall_mem_append, List.forall_mem_flatMap] at h ⊢
  obtain ⟨hname, htable, ⟨⟨⟨hparts, -⟩, hcomments⟩, htype⟩, haudit⟩ := h
  exact ⟨hname, htable, ⟨⟨⟨hparts, hitems⟩, hcomments⟩, htype⟩, haudit⟩

end Entity
end SchemaAtlas
