import SchemaAtlas.Proofs.Column.Respelled
import SchemaAtlas.Proofs.Declaration.Recast
import SchemaAtlas.Proofs.Expr.Returned

/-!
# Spellings of a table

A table may be spelled in many ways: its map of columns given directly or returned by a function, the
types of its columns with or without a qualifier and a label, its extras with keys or without. The
entity is the same, provided that no index or constraint takes its name from a key.
-/

namespace SchemaAtlas

namespace Entity

/-- An expression that gives a map of columns: the object itself, or a function that returns it. -/
inductive GivesMap (entries : List Entry) : Expr → Prop
  | direct {e : Expr} (x : Extent) (h : e.unwrap = .object x entries) : GivesMap entries e
  | returned {e body : Expr} (x y : Extent) (parameters : List Text)
      (h : e.unwrap = .function x parameters body) (hbody : body.Yields (.object y entries)) :
      GivesMap entries e

theorem GivesMap.columnMap?_eq {entries : List Entry} {e : Expr} (h : GivesMap entries e) :
    columnMap? e = some entries := by
  cases h with
  | direct x h => rw [columnMap?, h]
  | returned x y parameters h hbody =>
    have hresult := hbody.result?_eq (by simp)
    rw [columnMap?, h]
    simp only [hresult]
    rfl

end Entity

namespace Extra

/-- A call that gives a name of its own: that of an index or a check is its first argument, that of
a foreign key is in its configuration. -/
structure NamesItself (base : Expr.Link) : Prop where
  firstArgument : base.name = some "index" ∨ base.name = some "uniqueIndex" ∨
    base.name = some "unique" ∨ base.name = some "check" →
    ∃ c rest, stringArgument? base.arguments = some (c :: rest)
  configuration : base.name = some "foreignKey" →
    ∀ config, base.arguments.head?.bind (·.unwrap.properties?) = some config →
      ∃ name, (lastValue? config "name").bind Expr.string? = some name

/-- An extra that does not need its key, since the call that it starts with gives it a name. -/
def Named (value : Expr) : Prop := ∀ base ∈ value.chain.getLast?, NamesItself base

/-- A function that returns the given extras, in an object or an array. -/
inductive GivesExtras (values : List Expr) : Expr → Prop
  | object {e body : Expr} (x y : Extent) (parameters : List Text) {properties : List Entry}
      (h : e.unwrap = .function x parameters body) (hbody : body.Yields (.object y properties))
      (hvalues : properties.map (·.value) = values) : GivesExtras values e
  | array {e body : Expr} (x y : Extent) (parameters : List Text)
      (h : e.unwrap = .function x parameters body) (hbody : body.Yields (.array y values)) :
      GivesExtras values e

/-- The extras are the values in their order, whatever their keys. -/
theorem GivesExtras.map_entries {values : List Expr} {e : Expr} (h : GivesExtras values e) :
    (entries e).map (·.2) = values := by
  cases h with
  | object x y parameters h hbody hvalues =>
    have hresult := hbody.result?_eq (by simp)
    rw [entries, h]
    simp [hresult, ← hvalues]
  | array x y parameters h hbody =>
    have hresult := hbody.result?_eq (by simp)
    rw [entries, h]
    simp [hresult, Function.comp_def]

section Keys

variable (table : Text) (key key' : Option Text) {arguments : List Expr}

theorem ofIndex_of_name {name : Text} (h : stringArgument? arguments = some name)
    (modifiers : List Expr.Link) (unique : Bool) :
    ofIndex table key' arguments modifiers unique =
      ofIndex table key arguments modifiers unique := by
  simp only [ofIndex, h, Option.getD_some]

/-- A check with a name of its own does not need its key. -/
theorem ofCheck_of_name {c : CodePoint} {rest : Text}
    (h : stringArgument? arguments = some (c :: rest)) :
    ofCheck key' arguments = ofCheck key arguments := by
  have hname (key : Option Text) : checkName? key arguments = some (c :: rest) := by
    rw [checkName?, h]
  cases arguments with
  | nil => rfl
  | cons first rest =>
    cases rest with
    | nil => rfl
    | cons expression others => simp only [ofCheck, hname]

theorem ofForeignKey_of_name (modifiers : List Expr.Link)
    (h : ∀ config, arguments.head?.bind (·.unwrap.properties?) = some config →
      ∃ name, (lastValue? config "name").bind Expr.string? = some name) :
    ofForeignKey key' arguments modifiers = ofForeignKey key arguments modifiers := by
  unfold ofForeignKey
  cases hconfig : arguments.head?.bind (·.unwrap.properties?) with
  | none => rfl
  | some config =>
    obtain ⟨name, hname⟩ := h config hconfig
    simp only [hname, Option.some_or]

/-- The key of an extra is only asked for a name. -/
theorem ofEntry_of_named {value : Expr} (h : Named value) :
    ofEntry table key' value = ofEntry table key value := by
  unfold ofEntry
  cases hlast : value.chain.getLast? with
  | none => rfl
  | some base =>
    obtain ⟨hfirst, hconfig⟩ := h base hlast
    dsimp only
    split
    · next hindex =>
      obtain ⟨c, rest, hname⟩ := hfirst (.inl hindex)
      rw [ofIndex_of_name table key key' hname]
    split
    · next hunique =>
      rw [Bool.or_eq_true, decide_eq_true_eq, decide_eq_true_eq] at hunique
      obtain ⟨c, rest, hname⟩ := hfirst (.inr (hunique.imp_right .inl))
      rw [ofIndex_of_name table key key' hname]
    split
    · next hcheck =>
      obtain ⟨c, rest, hname⟩ := hfirst (.inr (.inr (.inr hcheck)))
      rw [ofCheck_of_name key key' hname]
    split
    · next hkey => rw [ofForeignKey_of_name key key' _ (hconfig hkey)]
    · rfl

end Keys

/-- Extras that do not need their keys are read as if they had none. -/
theorem GivesExtras.readable_entries {values : List Expr} {e : Expr} (h : GivesExtras values e)
    (table : Text) (hvalues : ∀ value ∈ values, Named value) :
    readable table (entries e) =
      values.filterMap fun value => (ofEntry table none value).toOption := by
  rw [← h.map_entries] at hvalues ⊢
  rw [List.filterMap_map]
  refine List.filterMap_congr fun x hx => ?_
  exact congrArg Except.toOption
    (ofEntry_of_named table none x.1 (hvalues x.2 (List.mem_map_of_mem hx)))

end Extra

namespace Declaration

/-- Two declarations of one name with the same comments. -/
structure SameHead (d d' : Declaration) : Prop where
  name_eq : d'.name = d.name
  statementComments_eq : d'.statementComments = d.statementComments
  comments_eq : d'.comments = d.comments

/-- Two spellings of one table declaration, at one place or at several in turn: elsewhere in the
source, with another spelling of its columns, or with another spelling of its extras. -/
inductive Respelled : Declaration → Declaration → Prop
  | symm {d d' : Declaration} (h : Respelled d d') : Respelled d' d
  | trans {d d' d'' : Declaration} (h : Respelled d d') (h' : Respelled d' d'') : Respelled d d''
  | moved {d d' : Declaration} (hhead : SameHead d d')
      (h : d'.initializer.map (Expr.recast .unlined) = d.initializer.map (Expr.recast .unlined)) :
      Respelled d d'
  | columns {d d' : Declaration} {name columns columns' : Expr} {rest : List Expr}
      {entries entries' : List Entry} (hhead : SameHead d d')
      (h : d.arguments? = some (name :: columns :: rest))
      (h' : d'.arguments? = some (name :: columns' :: rest))
      (hcolumns : Entity.GivesMap entries columns) (hcolumns' : Entity.GivesMap entries' columns')
      (hentries : List.Forall₂ Column.RespelledEntry entries entries') : Respelled d d'
  | extras {d d' : Declaration} {name columns extras extras' : Expr} {rest : List Expr}
      {values : List Expr} (hhead : SameHead d d')
      (h : d.arguments? = some (name :: columns :: extras :: rest))
      (h' : d'.arguments? = some (name :: columns :: extras' :: rest))
      (hextras : Extra.GivesExtras values extras) (hextras' : Extra.GivesExtras values extras')
      (hvalues : ∀ value ∈ values, Extra.Named value) : Respelled d d'

end Declaration

namespace Entity

section Shape

variable {d d' : Declaration} {includeComments : Bool} {enums : Enums}
  {name columns columns' : Expr} {rest rest' : List Expr}

/-- Declarations with one name for the table are read alike if their columns and extras are. -/
theorem read_shape_congr (h : d.arguments? = some (name :: columns :: rest))
    (h' : d'.arguments? = some (name :: columns' :: rest'))
    (hcolumns : Option.Rel (fun entries entries' =>
        (Column.ofEntries includeComments enums entries').outcome =
          (Column.ofEntries includeComments enums entries).outcome)
      (columnMap? columns) (columnMap? columns'))
    (hextras : ∀ table, Extra.readable table ((rest'.head?.map Extra.entries).getD []) =
      Extra.readable table ((rest.head?.map Extra.entries).getD [])) :
    Shape.read includeComments enums <$> shape d' =
      Shape.read includeComments enums <$> shape d := by
  unfold shape
  rw [h, h']
  dsimp only
  cases name.unwrap.string? with
  | none => rfl
  | some tableName =>
    cases tableName with
    | nil => rfl
    | cons c others =>
      generalize columnMap? columns = map, columnMap? columns' = map' at hcolumns
      cases hcolumns with
      | none => rfl
      | some hentries => simp only [Except.map_ok, Shape.read, hentries, hextras]

end Shape

theorem outcome_ofDeclaration_of_sameHead {config : Config} {enums : Enums} {d d' : Declaration}
    (hhead : Declaration.SameHead d d')
    (h : Shape.read config.options.includeComments enums <$> shape d' =
      Shape.read config.options.includeComments enums <$> shape d) :
    (ofDeclaration config enums d').outcome = (ofDeclaration config enums d).outcome :=
  outcome_ofDeclaration_congr hhead.name_eq
    (fun _ => ⟨hhead.statementComments_eq, hhead.comments_eq⟩) h

/-- The entity of a table does not depend on where it is declared. -/
theorem outcome_ofDeclaration_of_moved (config : Config) (enums : Enums) {d d' : Declaration}
    (hhead : Declaration.SameHead d d')
    (h : d'.initializer.map (Expr.recast .unlined) = d.initializer.map (Expr.recast .unlined)) :
    (ofDeclaration config enums d').outcome = (ofDeclaration config enums d).outcome := by
  have hkeeps : Recasting.unlined.Keeps config.options.includeComments := fun _ _ => rfl
  have hshape : shape (d'.recast .unlined) = shape (d.recast .unlined) := by
    simp only [shape, Declaration.arguments?, Declaration.recast, h]
  rw [← outcome_ofDeclaration_recast hkeeps enums d', ← outcome_ofDeclaration_recast hkeeps enums d]
  have hhead' : Declaration.SameHead (d.recast .unlined) (d'.recast .unlined) :=
    ⟨hhead.name_eq, hhead.statementComments_eq, hhead.comments_eq⟩
  exact outcome_ofDeclaration_of_sameHead hhead' (by rw [hshape])

/-- A table declaration has the same entity, or is rejected for the same cause, in all its
spellings. -/
theorem outcome_ofDeclaration_of_respelled (config : Config) (enums : Enums) {d d' : Declaration}
    (h : Declaration.Respelled d d') :
    (ofDeclaration config enums d').outcome = (ofDeclaration config enums d).outcome := by
  induction h with
  | symm _ ih => exact ih.symm
  | trans _ _ ih ih' => exact ih'.trans ih
  | moved hhead h => exact outcome_ofDeclaration_of_moved config enums hhead h
  | columns hhead h h' hcolumns hcolumns' hentries =>
    refine outcome_ofDeclaration_of_sameHead hhead (read_shape_congr h h' ?_ fun _ => rfl)
    rw [hcolumns.columnMap?_eq, hcolumns'.columnMap?_eq]
    exact .some (Column.outcome_ofEntries_of_respelled _ enums hentries)
  | extras hhead h h' hextras hextras' hvalues =>
    refine outcome_ofDeclaration_of_sameHead hhead (read_shape_congr h h' ?_ fun table => ?_)
    · cases columnMap? _ with
      | none => exact .none
      | some entries => exact .some rfl
    · -- both are read as the same values without keys
      show Extra.readable table (Extra.entries _) = Extra.readable table (Extra.entries _)
      rw [hextras.readable_entries table hvalues, hextras'.readable_entries table hvalues]

/-- The declaration of a table of users, with the name of the table on a given line. -/
def usersTable (line : Nat) (columns extras : Expr) : Declaration where
  name := "users"
  initializer := some (.call default (.identifier default "pgTable")
    [.string ⟨[], line⟩ "users", columns, extras])
  exported := true
  line := 1

def entryOf (key : Text) (value : Expr) : Entry := ⟨default, key, value, []⟩

def calledOn (receiver : Expr) (name : Text) : Expr :=
  .call default (.memberAccess default receiver name) []

def lengthOptions : Expr := .object default [entryOf "length" (.number default (.integer 20))]

/-- The columns without labels and qualifiers, the second of them an entry that is no column. -/
def plainColumns : List Entry := [
  entryOf "id" (calledOn (.call default (.identifier default "integer") []) "primaryKey"),
  entryOf "note" (.string default "none"),
  entryOf "email" (.call default (.identifier default "varchar") [lengthOptions])]

def dressedColumns : List Entry := [
  entryOf "id" (calledOn (.call default
    (.memberAccess default (.identifier default "t") "integer") [.string default "id"])
    "primaryKey"),
  entryOf "note" (.string default "none"),
  entryOf "email" (.call default (.memberAccess default (.identifier default "t") "varchar")
    [.string default "email", lengthOptions])]

theorem respelled_columns :
    List.Forall₂ Column.RespelledEntry plainColumns dressedColumns :=
  .cons ⟨rfl, rfl, .method _ _ _ _ _ _ (.trans (.qualified _ default _ default default "t" _ _)
      (.symm (.unlabelled _ _ _ _ (Expr.unchained_member default default _ _) (by decide))))⟩
    (.cons ⟨rfl, rfl, .refl _⟩
      (.cons ⟨rfl, rfl, .trans (.qualified _ default _ default default "t" _ _)
        (.symm (.unlabelled _ _ _ _ (Expr.unchained_member default default _ _) (by decide)))⟩
        .nil))

def emailExtra : Expr := .call default (.memberAccess default
  (.call default (.identifier default "uniqueIndex") [.string default "users_email"]) "on")
  [.memberAccess default (.identifier default "t") "email"]

theorem named_emailExtra : Extra.Named emailExtra := by
  rintro base ⟨⟩
  exact ⟨fun _ => ⟨_, _, rfl⟩, fun h => absurd h (by decide)⟩

/-- The extras in an array, and in an object in parentheses. -/
def listedExtras : Expr := .function default ["t"] (.array default [emailExtra])

def keyedExtras : Expr := .function default ["t"]
  (.parenthesized default (.object default [entryOf "byEmail" emailExtra]))

def returnedColumns : Expr := .function default ["t"] (.block default
  [.returned default (some (.parenthesized default (.object default dressedColumns)))])

theorem respelled_users : Declaration.Respelled
    (usersTable 1 (.object default plainColumns) listedExtras)
    (usersTable 3 returnedColumns keyedExtras) := by
  have hcolumns : Declaration.Respelled (usersTable 1 (.object default plainColumns) listedExtras)
      (usersTable 1 returnedColumns listedExtras) :=
    .columns ⟨rfl, rfl, rfl⟩ rfl rfl (.direct _ rfl)
      (.returned _ _ _ rfl (.of_returned ..)) respelled_columns
  have hextras : Declaration.Respelled (usersTable 1 returnedColumns listedExtras)
      (usersTable 1 returnedColumns keyedExtras) := by
    refine .extras ⟨rfl, rfl, rfl⟩ rfl rfl (.array _ _ _ rfl (.expression rfl))
      (.object _ _ _ rfl (.expression rfl) rfl) fun value hvalue => ?_
    rw [List.mem_singleton.mp hvalue]
    exact named_emailExtra
  exact hcolumns.trans (hextras.trans (.moved ⟨rfl, rfl, rfl⟩ rfl))

/-- The users in two spellings. -/
theorem outcome_ofDeclaration_of_respelled_users :
    let plain := usersTable 1 (.object default plainColumns) listedExtras
    let dressed := usersTable 3 returnedColumns keyedExtras
    (ofDeclaration {} [] dressed).outcome = (ofDeclaration {} [] plain).outcome ∧
    ∃ e, (ofDeclaration {} [] dressed).outcome = .ok (.ok e) ∧
      e.columns.map (·.name) = [("id" : Text), "email"] ∧
      e.indexes.map (·.name) = [("users_email" : Text)] := by
  have hsame := outcome_ofDeclaration_of_respelled {} [] respelled_users
  refine ⟨hsame, ?_⟩
  rw [hsame]
  exact ⟨_, rfl, rfl, rfl⟩

end Entity

end SchemaAtlas
