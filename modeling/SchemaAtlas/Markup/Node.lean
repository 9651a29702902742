import SchemaAtlas.Markup.Token

/-!
# Nodes

The tokens of a text are one document at most: a scalar, a sequence or a mapping, with an empty
scalar wherever a key, a value or an entry is missing. An anchor names a node, and an alias stands
for the node of that name.
-/

namespace SchemaAtlas.Markup

/-- How the type of a node is found: from its text, as plain text, or by the name given to it. -/
inductive Typing where
  | implicit
  | text
  | named (name : Text)
  deriving DecidableEq, Repr, Inhabited

/-- A node of a document; `cycle` is an alias that stands inside of the node it names. -/
inductive Node where
  | scalar (typing : Typing) (text : Text)
  | sequence (typing : Typing) (items : List Node)
  | mapping (typing : Typing) (entries : List (Node × Node))
  | cycle
  deriving Inhabited

def Node.empty : Node := .scalar .implicit []

/-- The start of the names of the types that every document knows. -/
def typeStart : Text := "tag:yaml.org,2002:"

/-- The tokens ahead, the nodes of the anchors so far, missing for a node that is still open, and
the short forms of type names. -/
structure NodeState where
  tokens : List Token
  anchors : List (Text × Option Node) := []
  handles : List (Text × Text) := []

abbrev NodeReader := StateT NodeState Option

namespace NodeReader

variable {α : Type}

def refuse : NodeReader α := fun _ => none

/-- The next token, which stays. -/
def peek : NodeReader (Option Token) := return (← get).tokens.head?

def sees (tokens : List Token) : NodeReader Bool := return (← peek).any tokens.contains

def skip : NodeReader Unit := modify fun s => { s with tokens := s.tokens.tail }

def accept (token : Token) : NodeReader Bool := do
  if ← sees [token] then
    skip
    return true
  else return false

def expect (token : Token) : NodeReader Unit := do
  if !(← accept token) then refuse

/-- Repeat rounds until one is the last. -/
def loop (round : α → NodeReader (Round α)) (a : α) : NodeReader α :=
  fun s => repeatRounds (·.tokens.length) round a s

/-! ## Properties -/

/-- The anchor of the next node, if it has one. -/
def anchor? : NodeReader (Option Text) := do
  match ← peek with
  | some (.anchor name) =>
    skip
    return some name
  | _ => return none

def fullName (handle : Option Text) (suffix : Text) : NodeReader Text := do
  match handle with
  | none => return suffix
  | some handle =>
    match (← get).handles.find? (·.1 = handle) with
    | some (_, start) => return start ++ suffix
    | none => refuse

/-- The name of the type of the next node, if it has one. -/
def tag? : NodeReader (Option Text) := do
  match ← peek with
  | some (.tag handle suffix) =>
    skip
    return some (← fullName handle suffix)
  | _ => return none

/-- Open an anchor; no name is given twice. -/
def openAnchor : Option Text → NodeReader Unit
  | none => pure ()
  | some name => do
    if (← get).anchors.any (·.1 = name) then refuse
    else modify fun s => { s with anchors := (name, none) :: s.anchors }

def closeAnchor (name : Option Text) (node : Node) : NodeReader Node := do
  match name with
  | none => return node
  | some name =>
    modify fun s => { s with anchors := (name, some node) :: s.anchors }
    return node

def aliased (name : Text) : NodeReader Node := do
  match (← get).anchors.find? (·.1 = name) with
  | some (_, some node) => return node
  | some (_, none) => return .cycle
  | none => refuse

/-! ## Collections -/

/-- Where a node stands: between brackets, in a block, or as the key or value of a block mapping,
where the entries of a sequence need no deeper column. -/
inductive Setting where
  | flow
  | block
  | mapping
  deriving DecidableEq, Repr

/-- A node, unless one of some tokens says that it is missing. -/
def nodeUnless (sub : Setting → NodeReader Node) (setting : Setting) (stops : List Token) :
    NodeReader Node := do
  if ← sees stops then return .empty else sub setting

/-- A value behind its colon, if it has one. -/
def valueUnless (sub : Setting → NodeReader Node) (setting : Setting) (stops : List Token) :
    NodeReader Node := do
  if ← accept .value then nodeUnless sub setting stops else return .empty

def blockItems (sub : Setting → NodeReader Node) : NodeReader (List Node) := do
  let items ← loop (fun found => do
    if ← accept .entry then
      return .more (found ++ [← nodeUnless sub .block [.entry, .blockClose]])
    else return .done found) []
  expect .blockClose
  return items

/-- The entries of a sequence in the block of the mapping around it. -/
def looseItems (sub : Setting → NodeReader Node) : NodeReader (List Node) :=
  loop (fun found => do
    if ← accept .entry then
      return .more (found ++ [← nodeUnless sub .block [.entry, .key, .value, .blockClose]])
    else return .done found) []

def blockEntries (sub : Setting → NodeReader Node) : NodeReader (List (Node × Node)) := do
  let stops : List Token := [.key, .value, .blockClose]
  let entries ← loop (fun found => do
    if ← accept .key then
      let key ← nodeUnless sub .mapping stops
      return .more (found ++ [(key, ← valueUnless sub .mapping stops)])
    else return .done found) []
  expect .blockClose
  return entries

/-- The items between two brackets, with commas between them. -/
def flowItems (close : Token) (item : NodeReader α) : NodeReader (List α) := do
  let items ← loop (fun (found : List α) => do
    if ← sees [close] then return .done found
    else
      if !found.isEmpty then expect .comma
      if ← sees [close] then return .done found else return .more (found ++ [← item])) []
  expect close
  return items

/-- A key and its value between brackets; what is not marked as a key has no value. -/
def flowPair (sub : Setting → NodeReader Node) (close : Token) : NodeReader (Node × Node) := do
  if ← accept .key then
    let key ← nodeUnless sub .flow [.value, .comma, close]
    return (key, ← valueUnless sub .flow [.comma, close])
  else return (← sub .flow, Node.empty)

/-- An item of a sequence between brackets; a key makes it a mapping of one entry. -/
def flowItem (sub : Setting → NodeReader Node) : NodeReader Node := do
  if ← sees [.key] then
    return .mapping .implicit [← flowPair sub .flowSequenceClose]
  else sub .flow

def collectionTyping (tag : Option Text) : Typing :=
  match tag with
  | none => .implicit
  | some name => if name = "!" then .implicit else .named name

/-- The typing of a scalar; an exclamation mark alone makes a quoted one count as plain. -/
def scalarTyping (tag : Option Text) (plain : Bool) : Typing :=
  match tag with
  | none => if plain then .implicit else .text
  | some name => if name = "!" then .implicit else .named name

/-- A node without its properties; a node with properties may be empty. -/
def content (sub : Setting → NodeReader Node) (setting : Setting) (tag : Option Text)
    (mayBeEmpty : Bool) : NodeReader Node := do
  let inBlock := setting != .flow
  match ← peek with
  | some (.scalar text plain) =>
    skip
    return .scalar (scalarTyping tag plain) text
  | some .flowSequenceOpen =>
    skip
    return .sequence (collectionTyping tag) (← flowItems .flowSequenceClose (flowItem sub))
  | some .flowMappingOpen =>
    skip
    return .mapping (collectionTyping tag)
      (← flowItems .flowMappingClose (flowPair sub .flowMappingClose))
  | some .entry =>
    if setting == .mapping then
      return .sequence (collectionTyping tag) (← looseItems sub)
    else if mayBeEmpty then return .scalar (scalarTyping tag true) []
    else refuse
  | some .sequenceOpen =>
    if inBlock then
      skip
      return .sequence (collectionTyping tag) (← blockItems sub)
    else refuse
  | some .mappingOpen =>
    if inBlock then
      skip
      return .mapping (collectionTyping tag) (← blockEntries sub)
    else refuse
  | _ => if mayBeEmpty then return .scalar (scalarTyping tag true) [] else refuse

def node : Nat → Setting → NodeReader Node
  | 0, _ => refuse
  | depth + 1, setting => do
    match ← peek with
    | some (.alias name) =>
      skip
      aliased name
    | _ =>
      let early ← anchor?
      let tag ← tag?
      let anchor ← if early.isNone && tag.isSome then anchor? else pure early
      openAnchor anchor
      closeAnchor anchor (← content (node depth) setting tag (anchor.isSome || tag.isSome))

/-! ## Documents -/

/-- The short forms of type names that need no directive. -/
def defaultHandles : List (Text × Text) := [("!", "!"), ("!!", typeStart)]

/-- Take the directives before a document: one version at most, which has to be of the first kind,
and no short form twice. -/
def directives : NodeReader Bool := do
  let found ← loop (fun (found : List Directive) => do
    match ← peek with
    | some (.directive d) =>
      skip
      return .more (found ++ [d])
    | _ => return .done found) []
  let versions := found.filterMap fun
    | .version major => some major
    | _ => none
  let handles := found.filterMap fun
    | .tagHandle handle start => some (handle, start)
    | _ => none
  if versions.length > 1 || versions.any (· != 1) || !(handles.map (·.1)).Nodup then refuse
  modify fun s => { s with handles := handles ++ defaultHandles }
  return !found.isEmpty

/-- The node of a document behind the mark that starts it; it may be missing. -/
def body (depth : Nat) : NodeReader Node := do
  match ← peek with
  | none | some (.directive _) | some .documentStart | some .documentEnd => return .empty
  | _ => node depth .block

def ends : NodeReader Unit :=
  loop (fun _ => do if ← accept .documentEnd then return .more () else return .done ()) ()

/-- The only document of a text, if there is one. -/
def single (depth : Nat) : NodeReader (Option Node) := do
  let opened ← directives
  match ← peek with
  | none => if opened then refuse else return none
  | some .documentStart =>
    skip
    let found ← body depth
    ends
    return some found
  | _ =>
    if opened then refuse
    let found ← node depth .block
    ends
    return some found

end NodeReader

/-- The node that tokens denote, if they denote any. -/
def Node.ofTokens? (tokens : List Token) : Option (Option Node) :=
  match NodeReader.single (tokens.length + 1) { tokens := tokens } with
  | some (found, s) => if s.tokens.isEmpty then some found else none
  | none => none

end SchemaAtlas.Markup
