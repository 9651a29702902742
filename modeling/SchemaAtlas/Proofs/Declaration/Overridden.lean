import SchemaAtlas.Proofs.Relation.Rewritten
import SchemaAtlas.Proofs.Table.Rewritten

/-!
# Repeated keys

Of the entries of an object with one key the last counts, so the others may be deleted. That holds of
the configuration of a relation or a foreign key, of the actions of a reference and of the numbers in
the options of a type. The values of an enum are the exception: they come from the last entry that
holds an array, even if an entry behind it holds none.
-/

namespace SchemaAtlas

open SchemaAtlas.Expr (Faithful Link Matching Rewritten SameNode)

/-! ### Entries that count -/

/-- The entries whose key does not occur again behind them. -/
def lastEntries : List Entry → List Entry
  | [] => []
  | entry :: rest =>
    if rest.any (·.key = entry.key) then lastEntries rest else entry :: lastEntries rest

theorem lastValue?_append (before after : List Entry) (key : Text) :
    lastValue? (before ++ after) key = (lastValue? after key).or (lastValue? before key) := by
  simp [lastValue?, List.find?_append, Option.map_or]

theorem lastValue?_cons (entry : Entry) (rest : List Entry) (key : Text) :
    lastValue? (entry :: rest) key =
      (lastValue? rest key).or (if entry.key = key then some entry.value else none) := by
  rw [← List.singleton_append, lastValue?_append]
  by_cases h : entry.key = key <;> simp [lastValue?, h]

theorem lastValue?_eq_none {entries : List Entry} {key : Text} :
    lastValue? entries key = none ↔ ∀ entry ∈ entries, entry.key ≠ key := by
  simp [lastValue?]

/-- An entry does not count whose key occurs again behind it. -/
theorem lastValue?_delete (before after : List Entry) {entry later : Entry} (hlater : later ∈ after)
    (hkey : later.key = entry.key) (key : Text) :
    lastValue? (before ++ after) key = lastValue? (before ++ entry :: after) key := by
  rw [lastValue?_append, lastValue?_append, lastValue?_cons]
  by_cases h : entry.key = key
  · cases hafter : lastValue? after key with
    | some value => rfl
    | none => exact absurd (hkey.trans h) (lastValue?_eq_none.mp hafter later hlater)
  · rw [if_neg h, Option.or_none]

/-- Only entries that no later one overrides matter to a key. -/
theorem lastValue?_lastEntries (entries : List Entry) (key : Text) :
    lastValue? (lastEntries entries) key = lastValue? entries key := by
  induction entries with
  | nil => rfl
  | cons entry rest ih =>
    rw [lastEntries]
    split_ifs with hlater
    · obtain ⟨later, hmem, hkey⟩ := List.any_eq_true.mp hlater
      rw [ih]
      exact lastValue?_delete [] rest hmem (of_decide_eq_true hkey) key
    · rw [lastValue?_cons, lastValue?_cons, ih]

namespace Expr

/-- An object loses an entry whose key occurs again behind it. -/
inductive Shortened : Expr → Expr → Prop
  | delete (x : Extent) (before after : List Entry) {entry later : Entry} (hlater : later ∈ after)
      (hkey : later.key = entry.key) :
      Shortened (.object x (before ++ entry :: after)) (.object x (before ++ after))

/-- Any number of objects in an expression lose entries whose keys occur again behind them. -/
abbrev Overridden : Expr → Expr → Prop := Rewritten Shortened

/-- Deleting one entry after the other leaves those that count. -/
theorem overridden_lastEntries (x : Extent) (before entries : List Entry) :
    Overridden (.object x (before ++ entries)) (.object x (before ++ lastEntries entries)) := by
  induction entries generalizing before with
  | nil => exact .refl _
  | cons entry rest ih =>
    rw [lastEntries]
    split_ifs with hlater
    · obtain ⟨later, hmem, hkey⟩ := List.any_eq_true.mp hlater
      exact .trans (.here (.delete x before rest hmem (of_decide_eq_true hkey))) (ih before)
    · have hrest := ih (before ++ [entry])
      rwa [List.append_assoc, List.append_assoc] at hrest

/-- Entries from which some that do not count are left out: the last values of all keys are related,
and every entry is related to one with its key. -/
structure Lasting (R : Expr → Expr → Prop) (entries entries' : List Entry) : Prop where
  last : ∀ key, Option.Rel R (lastValue? entries key) (lastValue? entries' key)
  origin : ∀ entry' ∈ entries', ∃ entry ∈ entries, entry'.key = entry.key ∧
    R entry.value entry'.value

namespace Lasting

variable {R : Expr → Expr → Prop}

theorem of_matching {entries entries' : List Entry} (h : Matching R entries entries') :
    Lasting R entries entries' where
  last := h.last
  origin entry' hentry' := by
    induction h with
    | nil => cases hentry'
    | @cons entry _ _ _ hhead _ ih =>
      rcases List.mem_cons.mp hentry' with rfl | hrest
      · exact ⟨entry, List.mem_cons_self, hhead⟩
      · obtain ⟨origin, hmem, horigin⟩ := ih hrest
        exact ⟨origin, List.mem_cons_of_mem _ hmem, horigin⟩

/-- Leaving out twice is leaving out at once. -/
theorem trans (hR : ∀ a b c, R a b → R b c → R a c) {as bs cs : List Entry}
    (h : Lasting R as bs) (h' : Lasting R bs cs) : Lasting R as cs where
  last key := by
    have hlast := h.last key
    have hlast' := h'.last key
    generalize lastValue? as key = a, lastValue? bs key = b, lastValue? cs key = c
      at hlast hlast'
    cases hlast with
    | none => exact hlast'
    | some hab => cases hlast' with | some hbc => exact .some (hR _ _ _ hab hbc)
  origin entry'' hentry'' := by
    obtain ⟨entry', hmem', hkey', hvalue'⟩ := h'.origin entry'' hentry''
    obtain ⟨entry, hmem, hkey, hvalue⟩ := h.origin entry' hmem'
    exact ⟨entry, hmem, hkey'.trans hkey, hR _ _ _ hvalue hvalue'⟩

end Lasting

theorem faithful_overridden : Faithful Overridden (Lasting Overridden) where
  node h := by
    refine h.sameNode ?_ (fun entries => .of_matching (.refl .refl entries))
      (fun _ _ _ => .trans fun _ _ _ => .trans)
      (fun before after entry _ h => .of_matching (.value .refl before after entry h))
    rintro _ _ ⟨x, before, after, hlater, hkey⟩
    refine .object x ⟨fun key => ?_, fun entry hentry => ⟨entry, ?_, rfl, .refl _⟩⟩
    · rw [lastValue?_delete before after hlater hkey]
      cases lastValue? (before ++ _ :: after) key with
      | none => exact .none
      | some value => exact .some (.refl value)
    · simp only [List.mem_append, List.mem_cons] at hentry ⊢
      exact hentry.imp_right .inr
  last h := h.last

theorem form_eq_of_overridden {e e' : Expr} (h : e.Overridden e') : e'.form = e.form := by
  refine h.form_eq ?_
  rintro _ _ ⟨⟩
  rfl

end Expr

/-! ### The values of an enum -/

namespace Column

def lastEnum? (options : List Entry) : Option (List Expr) :=
  (lastValue? options "enum").bind (·.unwrap.elements?)

/-- An array gives the values of an enum, although the last entry for them holds none. -/
def StaleEnum (options : List Entry) : Prop :=
  (enumElements? options).isSome ∧ lastEnum? options = none

/-- A column without the values of an enum. -/
def withoutEnum (c : Column) : Column := { c with enumValues := none }

/-- The first entry for an enum gives way to a later one only if that has elements. -/
theorem enumElements?_cons (entry : Entry) (rest : List Entry) :
    enumElements? (entry :: rest) = (enumElements? rest).or
      (if entry.key = "enum" then entry.value.unwrap.elements? else none) := by
  unfold enumElements?
  rw [List.filter_cons]
  by_cases h : entry.key = "enum"
  · rw [if_pos h, if_pos (decide_eq_true h), List.filterMap_cons]
    cases entry.value.unwrap.elements? with
    | none => exact Option.or_none.symm
    | some elements => rw [List.getLast?_cons]; cases List.getLast? _ <;> rfl
  · rw [if_neg h, if_neg (by simpa using h), Option.or_none]

theorem enumElements?_eq_none {options : List Entry} : enumElements? options = none ↔
    ∀ entry ∈ options, entry.key = "enum" → entry.value.unwrap.elements? = none := by
  simp [enumElements?]

theorem enumElements?_of_lastValue? {options : List Entry}
    (h : lastValue? options "enum" = none) : enumElements? options = none :=
  enumElements?_eq_none.mpr fun entry hentry hkey =>
    absurd hkey (lastValue?_eq_none.mp h entry hentry)

/-- An array in the last entry for the values is the last array. -/
theorem enumElements?_of_lastEnum? {options : List Entry} {elements : List Expr}
    (h : lastEnum? options = some elements) : enumElements? options = some elements := by
  induction options with
  | nil => cases h
  | cons entry rest ih =>
    rw [enumElements?_cons]
    rw [lastEnum?, lastValue?_cons] at h
    cases hrest : lastValue? rest "enum" with
    | some value =>
      rw [hrest, Option.some_or] at h
      rw [ih (by rw [lastEnum?, hrest, h]), Option.some_or]
    | none =>
      rw [hrest, Option.none_or] at h
      rw [enumElements?_of_lastValue? hrest, Option.none_or]
      split_ifs at h ⊢ with hkey
      · exact h
      · cases h

theorem not_staleEnum {options : List Entry} :
    ¬ StaleEnum options ↔ enumElements? options = lastEnum? options := by
  unfold StaleEnum
  cases hlast : lastEnum? options with
  | none => simp
  | some elements => simp [enumElements?_of_lastEnum? hlast]

/-- The entries that count give the values of an enum by the last of them alone. -/
theorem enumElements?_lastEntries (options : List Entry) :
    enumElements? (lastEntries options) = lastEnum? options := by
  induction options with
  | nil => rfl
  | cons entry rest ih =>
    rw [lastEntries]
    split_ifs with hlater
    · obtain ⟨later, hmem, hkey⟩ := List.any_eq_true.mp hlater
      have hrest := lastValue?_delete [] rest hmem (of_decide_eq_true hkey) "enum"
      rw [ih, lastEnum?, lastEnum?]
      exact congrArg (Option.bind · _) hrest
    · rw [enumElements?_cons, ih, lastEnum?, lastEnum?, lastValue?_cons]
      by_cases hkey : entry.key = "enum"
      · have hrest : lastValue? rest "enum" = none := lastValue?_eq_none.mpr fun later hmem h =>
          hlater (List.any_eq_true.mpr ⟨later, hmem, decide_eq_true (h.trans hkey.symm)⟩)
        rw [hrest, if_pos hkey, if_pos hkey]
        rfl
      · rw [if_neg hkey, if_neg hkey, Option.or_none, Option.or_none]

/-- The options without the entries that do not count are read as the options are, unless the values
of the enum are stale. -/
theorem applyType_lastEntries_iff (x : Extent) (name : Option Text) (options : List Entry)
    {c : Column} (hempty : c.enumValues = none) :
    applyType c ⟨name, [.object x (lastEntries options)]⟩ =
      applyType c ⟨name, [.object x options]⟩ ↔ ¬ StaleEnum options := by
  have happly (entries : List Entry) : applyType c ⟨name, [.object x entries]⟩ =
      optioned entries { c with type := name.getD c.type } := foldl_applyOption_eq entries _
  rw [not_staleEnum, happly, happly, optioned, optioned]
  simp only [lastValue?_lastEntries, mk.injEq, true_and, and_true, hempty, Option.or_none,
    enumOption?_eq_map, enumElements?_lastEntries]
  cases hlast : lastEnum? options with
  | none => cases enumElements? options <;> simp
  | some elements => simp [enumElements?_of_lastEnum? hlast]

/-- Options give the same enum without the entries that do not count, unless one of these gives a
stale enum. -/
theorem enumOption?_eq_of_lasting {R : Expr → Expr → Prop} (hR : Faithful R (Expr.Lasting R))
    (hform : ∀ e e', R e e' → e'.form = e.form) {options options' : List Entry}
    (h : Expr.Lasting R options options') (hfresh : ¬ StaleEnum options) :
    enumOption? options' = enumOption? options := by
  rw [not_staleEnum] at hfresh
  rw [enumOption?_eq_map, enumOption?_eq_map, hfresh]
  have helements : Option.Rel (List.Forall₂ R) (lastEnum? options) (lastEnum? options') :=
    rel_bind_of_rel (h.last "enum") fun _ _ hvalue => (hR.node hvalue).elements?
  generalize hfound : lastEnum? options = elements, hfound' : lastEnum? options' = elements'
    at helements
  cases helements with
  | none =>
    -- no entry holds an array, so none of those that are left does
    have hnone : enumElements? options' = none := by
      refine enumElements?_eq_none.mpr fun entry' hentry' hkey => ?_
      obtain ⟨entry, hentry, hsame, hvalue⟩ := h.origin entry' hentry'
      have hnode := (hR.node hvalue).elements?
      rw [enumElements?_eq_none.mp (hfresh.trans hfound) entry hentry (hsame ▸ hkey)] at hnode
      generalize entry'.value.unwrap.elements? = found at hnode
      cases hnode
      rfl
    rw [hnone]
  | some helements =>
    rw [enumElements?_of_lastEnum? hfound']
    exact congrArg some (hR.filterMap_string?_eq helements
      (Expr.map_string?_isSome_eq hform helements))

/-- A column is the same without the entries that do not count, its enum apart. -/
theorem ofEntry_overridden (includeComments : Bool) (enums : Enums) {entry : Entry} {e' : Expr}
    (h : entry.value.Overridden e') :
    withoutEnum <$> ofEntry includeComments enums { entry with value := e' } =
        withoutEnum <$> ofEntry includeComments enums entry ∧
      (¬ StaleEnum (baseOptions entry.value) →
        ofEntry includeComments enums { entry with value := e' } =
          ofEntry includeComments enums entry) := by
  have hR := Expr.faithful_overridden
  have hplace : optionsPlace? (baseArguments e') = optionsPlace? (baseArguments entry.value) :=
    optionsPlace?_eq_of_form
      ((hR.baseArguments h).imp fun _ _ hargument => Expr.form_eq_of_overridden hargument)
  have hoptions := hR.baseOptions (.of_matching .nil) h hplace
  rw [ofEntry_eq_plain, ofEntry_eq_plain, hR.plain_eq includeComments h]
  refine ⟨?_, fun hfresh => ?_⟩
  · simp only [withOptions, hR.number?_eq hoptions]
    cases plain includeComments entry <;> rfl
  · have hvalues := enumOption?_eq_of_lasting hR (fun _ _ => Expr.form_eq_of_overridden) hoptions
      hfresh
    simp only [withOptions, hR.number?_eq hoptions, hvalues]

end Column

/-- Entries whose key occurs again behind them make no difference to a relation, an index, a check or
a foreign key. To a column they make none but for the values of an enum, and none at all unless an
array gives these although the last entry for them holds none. -/
theorem read_of_overridden (includeComments : Bool) (enums : Enums) (rules : HeuristicRules)
    (table : Text) :
    (∀ (x : Extent) (entries : List Entry),
      (Expr.object x entries).Overridden (.object x (lastEntries entries))) ∧
    (∀ (entry : Entry) (e' : Expr), entry.value.Overridden e' →
      Column.withoutEnum <$> Column.ofEntry includeComments enums { entry with value := e' } =
          Column.withoutEnum <$> Column.ofEntry includeComments enums entry ∧
        (¬ Column.StaleEnum (Column.baseOptions entry.value) →
          Column.ofEntry includeComments enums { entry with value := e' } =
            Column.ofEntry includeComments enums entry)) ∧
    (∀ (x : Extent) (name : Option Text) (options : List Entry) (c : Column), c.enumValues = none →
      (Column.applyType c ⟨name, [.object x (lastEntries options)]⟩ =
        Column.applyType c ⟨name, [.object x options]⟩ ↔ ¬ Column.StaleEnum options)) ∧
    (∀ (entry : Entry) (e' : Expr), entry.value.Overridden e' →
      (Relation.ofEntry rules { entry with value := e' }).toOption =
        (Relation.ofEntry rules entry).toOption) ∧
    ∀ (key : Option Text) (e e' : Expr), e.Overridden e' →
      Extra.ofEntry table key e' = Extra.ofEntry table key e := by
  have hR := Expr.faithful_overridden
  refine ⟨fun x entries => Expr.overridden_lastEntries x [] entries,
    fun entry e' h => Column.ofEntry_overridden includeComments enums h,
    fun x name options c hempty => Column.applyType_lastEntries_iff x name options hempty,
    fun entry e' h => ?_, fun key e e' h => ?_⟩
  · exact hR.relation_eq rules h
  · exact hR.extra_eq table key h (hR.sight_eq (fun _ _ => Expr.form_eq_of_overridden) h)

def repeated (key : Text) (first second : Expr) : List Entry :=
  [⟨default, key, first, []⟩, ⟨default, key, second, []⟩]

def textColumn (options : List Entry) : Entry :=
  ⟨default, "state", .call default (.identifier default "text") [.object default options], []⟩

def ownPosts (config : List Entry) : Entry := ⟨default, "posts",
  .call default (.identifier default "many") [.identifier default "posts", .object default config],
  []⟩

def authorKey (name : List Entry) : Expr :=
  .call default (.identifier default "foreignKey") [.object default (name ++
    [⟨default, "columns", .array default [.identifier default "author"], []⟩,
      ⟨default, "foreignColumns", .array default
        [.memberAccess default (.identifier default "users") "id"], []⟩])]

/-- The length of a column, the label of a relation and the name of a key, each given twice. -/
theorem read_of_overridden_names :
    let lengths := repeated "length" (.number default (.integer 10)) (.number default (.integer 20))
    let labels := repeated "relationName" (.string default "posts") (.string default "own")
    let names := repeated "name" (.string default "author") (.string default "author_key")
    Column.ofEntry true [] (textColumn (lastEntries lengths)) =
        Column.ofEntry true [] (textColumn lengths) ∧
      (Relation.ofEntry {} (ownPosts (lastEntries labels))).toOption =
        (Relation.ofEntry {} (ownPosts labels)).toOption ∧
      Extra.ofEntry "posts" none (authorKey (lastEntries names)) =
        Extra.ofEntry "posts" none (authorKey names) := by
  intro lengths labels names
  obtain ⟨hlast, hcolumn, -, hrelation, hextra⟩ := read_of_overridden true [] {} "posts"
  refine ⟨(hcolumn (textColumn lengths) _ ?_).2 ?_, hrelation (ownPosts labels) _ ?_,
    hextra none _ _ ?_⟩
  · exact .argument default _ [] [] (hlast default lengths)
  · rintro ⟨h, -⟩
    cases h
  · exact .argument default _ [_] [] (hlast default labels)
  · exact .argument default _ [] [] (.here (.delete default [] _ List.mem_cons_self rfl))

/-- The values of an enum, and behind them a name for them. -/
def staleOptions : List Entry :=
  repeated "enum" (.array default [.string default "new"]) (.identifier default "states")

/-- An array still gives the values of an enum, although an entry behind it overrides it. -/
theorem enum_kept_overridden : ∃ c c',
    (textColumn staleOptions).value.Overridden (textColumn (lastEntries staleOptions)).value ∧
    Column.ofEntry true [] (textColumn staleOptions) = .ok c ∧
    Column.ofEntry true [] (textColumn (lastEntries staleOptions)) = .ok c' ∧
    c.enumValues = some [("new" : Text)] ∧ c'.enumValues = none :=
  ⟨_, _, .argument default _ [] [] (Expr.overridden_lastEntries default [] staleOptions), rfl, rfl,
    rfl, rfl⟩

end SchemaAtlas
