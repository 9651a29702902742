import SchemaAtlas.Expr.Basic

/-!
# Expressions as they are written

An expression is put together from its parts first, and a layout then says what text each node
covers and on which line it starts. Nothing is assumed of a layout, so what is read from a written
expression is read from it however it is laid out.
-/

namespace SchemaAtlas

/-- The text and line of every node of an expression, by the way to the node from the root. -/
abbrev Layout := List Bool → Extent

namespace Layout

/-- The text and line of the root. -/
def here (l : Layout) : Extent := l []

def first (l : Layout) : Layout := fun path => l (false :: path)

def rest (l : Layout) : Layout := fun path => l (true :: path)

end Layout

/-- An expression that still lacks the texts and lines of its nodes. -/
abbrev Written := Layout → Expr

namespace Written

def all : List Written → Layout → List Expr
  | [], _ => []
  | w :: ws, l => w l.first :: all ws l.rest

def entries : List (Text × Written) → Layout → List Entry
  | [], _ => []
  | e :: others, l => ⟨l.first.here, e.1, e.2 l.first.first, []⟩ :: entries others l.rest

def string (value : Text) : Written := fun l => .string l.here value

def number (value : Number) : Written := fun l => .number l.here value

def identifier (name : Text) : Written := fun l => .identifier l.here name

def array (elements : List Written) : Written := fun l => .array l.here (all elements l)

def object (properties : List (Text × Written)) : Written := fun l =>
  .object l.here (entries properties l)

def function (parameters : List Text) (body : Written) : Written := fun l =>
  .function l.here parameters (body l.first)

def member (receiver : Written) (property : Text) : Written := fun l =>
  .memberAccess l.here (receiver l.first) property

def call (callee : Written) (arguments : List Written) : Written := fun l =>
  .call l.here (callee l.first) (all arguments l.rest)

/-- A template with its substitutions; one without any is read as a string. -/
def template (raw : Text) (substitutions : List Written) : Written := fun l =>
  match substitutions with
  | [] => .string l.here raw
  | _ => .template l.here raw (all substitutions l)

/-- A tagged template, which is read as a call with one argument. -/
def tagged (tag raw : Text) (substitutions : List Written) : Written :=
  call (identifier tag) [template raw substitutions]

/-- The name and the arguments of one call of a builder chain. -/
abbrev Step := Text × List Written

/-- A builder chain: methods that are called, from the outermost inward, on a first call. -/
def chain (base : Step) : List Step → Written
  | [] => call (identifier base.1) base.2
  | step :: inner => call (member (chain base inner) step.1) step.2

/-- The calls of a chain under a layout, from the outermost inward. -/
def links : List Step → Layout → List Expr.Link
  | [], _ => []
  | step :: inner, l => ⟨some step.1, all step.2 l.rest⟩ :: links inner l.first.first

@[simp] theorem unwrap_chain (base : Step) (steps : List Step) (l : Layout) :
    (chain base steps l).unwrap = chain base steps l := by
  cases steps <;> rfl

theorem chain_chain (base : Step) (steps : List Step) (l : Layout) :
    (chain base steps l).chain = links (steps ++ [base]) l := by
  induction steps generalizing l with
  | nil => rfl
  | cons step inner ih =>
    change ⟨some step.1, all step.2 l.rest⟩ :: (chain base inner l.first.first).chain = _
    rw [ih]
    rfl

/-- The calls of two groups: those of the second lie deeper. -/
theorem links_append (outer inner : List Step) (l : Layout) :
    ∃ l', links (outer ++ inner) l = links outer l ++ links inner l' := by
  induction outer generalizing l with
  | nil => exact ⟨l, rfl⟩
  | cons step others ih =>
    obtain ⟨l', h⟩ := ih l.first.first
    exact ⟨l', by simp [links, h]⟩

/-- The innermost call of a chain stands at its end, behind all methods. -/
theorem chain_eq (base : Step) (steps : List Step) (l : Layout) :
    ∃ l', (chain base steps l).chain = links steps l ++ [⟨some base.1, all base.2 l'⟩] := by
  obtain ⟨l', h⟩ := links_append steps [base] l
  exact ⟨l'.rest, by rw [chain_chain, h]; rfl⟩

/-- The strings of a list are read back from its elements. -/
@[simp] theorem filterMap_string_all (values : List Text) (l : Layout) :
    (all (values.map string) l).filterMap Expr.string? = values := by
  induction values generalizing l with
  | nil => rfl
  | cons value others ih => simp [all, string, Expr.string?, ih]

end Written
end SchemaAtlas
