import SchemaAtlas.Proofs.Table.Extras
import SchemaAtlas.Proofs.Table.WrittenColumn

/-!
# Indexes and constraints read back from their builder chains

Indexes, checks and foreign keys over several columns are written as elements of an array, each as a
chain that names its columns by `t.name`. Empty column names are left out by the reader, so the
names that are written must not be empty.
-/

namespace SchemaAtlas

def writtenNames (table : Text) (names : List Text) : List Written :=
  names.map fun name => .member (.identifier table) name

/-- References to columns are read back as their names. -/
theorem columnNames_writtenNames (table : Text) (names : List Text) (h : [] ∉ names)
    (l : Layout) : Extra.columnNames (Written.all (writtenNames table names) l) = names := by
  have hread : (Written.all (writtenNames table names) l).filterMap Extra.columnName? = names := by
    clear h
    induction names generalizing l with
    | nil => rfl
    | cons name others ih =>
      have hname : Extra.columnName? (Written.member (.identifier table) name l.first)
          = some name := rfl
      simp only [writtenNames, List.map_cons, Written.all, List.filterMap_cons, hname]
      exact congrArg _ (ih l.rest)
  rw [Extra.columnNames, hread, List.filter_eq_self]
  intro name hmem
  cases name with
  | nil => exact absurd hmem h
  | cons c rest => rfl

namespace Index

/-- The call that names the columns, and the method if there is one. -/
def target (i : Index) : Written.Step :=
  match i.method with
  | none => ("on", writtenNames "t" i.columns)
  | some m => ("using", .string m.label :: writtenNames "t" i.columns)

/-- The call that gives the condition, if there is one. -/
def restriction (i : Index) : List Written.Step :=
  i.condition.toList.map fun condition => ("where", [.tagged "sql" condition []])

def written (i : Index) : Written :=
  .chain (if i.unique then "uniqueIndex" else "index", [.string i.name])
    (i.restriction ++ [i.target])

end Index

namespace Check

def written (c : Check) : Written :=
  .chain ("check", [.string c.name, .tagged "sql" c.expression (writtenNames "t" c.columns)]) []

end Check

namespace ForeignKey

/-- The configuration: the columns on both sides, and the name if there is one. -/
def config (k : ForeignKey) : List (Text × Written) :=
  ("columns", .array (writtenNames "t" k.columns)) ::
    ("foreignColumns", .array (writtenNames k.references.table k.references.columns)) ::
    k.name.toList.map fun name => ("name", .string name)

/-- The call that gives an action, if there is one. -/
def action (method : Text) (a : Option ReferentialAction) : List Written.Step :=
  a.toList.map fun a => (method, [a.written])

def written (k : ForeignKey) : Written :=
  .chain ("foreignKey", [.object k.config])
    (action "onUpdate" k.onUpdate ++ action "onDelete" k.onDelete)

end ForeignKey

namespace Extra

def written : Extra → Written
  | index i => i.written
  | check c => c.written
  | foreignKey k => k.written
  | ignored => .chain ("primaryKey", []) []

/-- What a written extra must fulfil to be read back: the names that count as missing when they are
empty are not, a check does not list a column twice, and an index is partial iff it has a condition,
as nothing else is written of that. -/
def Proper : Extra → Prop
  | index i => i.isPartial = i.condition.isSome ∧ [] ∉ i.columns
  | check c => c.name ≠ [] ∧ c.columns.Nodup ∧ [] ∉ c.columns
  | foreignKey k =>
    [] ∉ k.columns ∧ k.references.columns ≠ [] ∧ [] ∉ k.references.columns
  | ignored => True

theorem ofLabel?_label (m : IndexMethod) :
    IndexMethod.ofLabel? (Text.ofString m.label).lower = some m := by
  cases m <;> decide +kernel

@[simp] theorem sqlText_tagged (tag raw : Text) (substitutions : List Written) (l : Layout) :
    sqlText (Written.tagged tag raw substitutions l) = raw := by
  cases substitutions <;> rfl

@[simp] theorem substitutions_tagged (tag raw : Text) (ws : List Written) (l : Layout) :
    substitutions (Written.tagged tag raw ws l) = Written.all ws l.rest.first := by
  cases ws <;> rfl

/-- An index is read back as it was written. -/
theorem ofEntry_index (table : Text) (i : Index) (h : Proper (.index i)) (l : Layout) :
    ofEntry table none (i.written l) = .ok (.index i) := by
  obtain ⟨name, columns, unique, isPartial, condition, method⟩ := i
  obtain ⟨hpartial, hnil⟩ := h
  obtain rfl : isPartial = condition.isSome := hpartial
  have hcolumns := columnNames_writtenNames "t" columns hnil
  obtain ⟨l', hchain⟩ := Written.chain_eq
    (if unique then "uniqueIndex" else "index", [.string name])
    (Index.restriction ⟨name, columns, unique, condition.isSome, condition, method⟩
      ++ [Index.target ⟨name, columns, unique, condition.isSome, condition, method⟩]) l
  simp only [ofEntry, Index.written, hchain, List.getLast?_concat, List.dropLast_concat]
  cases unique <;> cases condition <;> cases method <;>
    simp [Index.restriction, Index.target, Written.links, ofIndex, indexTarget?, modifier?,
      modifierArgument?, restricted, hcolumns, Written.all, stringArgument?, Written.string,
      ofLabel?_label, Functor.map, Except.map]

/-- So is a check. -/
theorem ofEntry_check (table : Text) (c : Check) (h : Proper (.check c)) (l : Layout) :
    ofEntry table none (c.written l) = .ok (.check c) := by
  obtain ⟨name, expression, columns⟩ := c
  obtain ⟨hname, hnodup, hnil⟩ := h
  obtain ⟨c, rest, rfl⟩ := List.exists_cons_of_ne_nil hname
  have hcolumns := columnNames_writtenNames "t" columns hnil
  obtain ⟨l', hchain⟩ := Written.chain_eq ("check", [.string (c :: rest),
    .tagged "sql" expression (writtenNames "t" columns)]) [] l
  simp only [ofEntry, Check.written, hchain, List.getLast?_concat, List.dropLast_concat]
  simp [Written.all, ofCheck, checkName?, stringArgument?, Written.string, hcolumns,
    distinct_of_nodup columns hnodup, Functor.map, Except.map]

theorem findSome?_tableOf? (table : Text) (names : List Text) (h : names ≠ []) (l : Layout) :
    (Written.all (writtenNames table names) l).findSome? tableOf? = some table := by
  obtain ⟨name, others, rfl⟩ := List.exists_cons_of_ne_nil h
  rfl

/-- So is a foreign key over several columns. -/
theorem ofEntry_foreignKey (table : Text) (k : ForeignKey) (h : Proper (.foreignKey k))
    (l : Layout) : ofEntry table none (k.written l) = .ok (.foreignKey k) := by
  obtain ⟨columns, ⟨target, foreign⟩, onDelete, onUpdate, name⟩ := k
  obtain ⟨hcolumns, hne, hforeign⟩ := h
  have hc := columnNames_writtenNames "t" columns hcolumns
  have hf := columnNames_writtenNames target foreign hforeign
  have ht := findSome?_tableOf? target foreign hne
  obtain ⟨l', hchain⟩ := Written.chain_eq
    ("foreignKey", [.object (ForeignKey.config ⟨columns, ⟨target, foreign⟩, onDelete, onUpdate,
      name⟩)])
    (ForeignKey.action "onUpdate" onUpdate ++ ForeignKey.action "onDelete" onDelete) l
  simp only [ofEntry, ForeignKey.written, hchain, List.getLast?_concat, List.dropLast_concat]
  cases onDelete <;> cases onUpdate <;> cases name <;>
    simp [ForeignKey.action, ForeignKey.config, Written.links, Written.all, Written.object,
      Written.entries, Written.array, Written.string, ofForeignKey, modifier?, modifierArgument?,
      lastValue?, Expr.unwrap, Expr.properties?, Expr.elements?, Expr.string?, hc, hf, ht,
      Functor.map, Except.map]

/-- The entry of a written extra gives the extra back. -/
theorem ofEntry_written (table : Text) (e : Extra) (h : e.Proper) (l : Layout) :
    ofEntry table none (e.written l) = .ok e := by
  cases e with
  | index i => exact ofEntry_index table i h l
  | check c => exact ofEntry_check table c h l
  | foreignKey k => exact ofEntry_foreignKey table k h l
  | ignored => rfl

/-- No extra of a written array is lost or reported. -/
theorem ofEntries_written (table : Text) (extras : List Extra) (h : ∀ e ∈ extras, e.Proper)
    (l : Layout) :
    ofEntries table ((Written.all (extras.map written) l).map (none, ·)) = pure extras := by
  induction extras generalizing l with
  | nil => rfl
  | cons e others ih =>
    have hothers := ih (fun e hmem => h e (List.mem_cons_of_mem _ hmem)) l.rest
    have hentry := ofEntry_written table e (h e List.mem_cons_self) l.first
    simp only [List.map_cons, Written.all, ofEntries, hentry, hothers]
    rfl

end Extra
end SchemaAtlas
