import SchemaAtlas.Config.Value
import SchemaAtlas.Markup.Node

/-!
# Meaning

What the nodes of a document denote. A plain scalar may be a word for nothing or for a truth value,
an integer in one of five notations, a decimal number, or a date; every other scalar is a text. A
mapping may take over the entries of other mappings, which its own entries overrule.
-/

namespace SchemaAtlas.Markup

/-! ## Plain scalars -/

def nullWords : List Text := ["", "~", "null", "Null", "NULL"]

def trueWords : List Text :=
  ["yes", "Yes", "YES", "true", "True", "TRUE", "on", "On", "ON"]

def falseWords : List Text :=
  ["no", "No", "NO", "false", "False", "FALSE", "off", "Off", "OFF"]

/-- Whether a code point is a digit between two bounds, or an underscore. -/
def isDigitOf (least greatest : Char) (c : CodePoint) : Bool :=
  (least.toNat ≤ c.val && c.val ≤ greatest.toNat) || c = Numeral.underscore

def isDecimal (c : CodePoint) : Bool := 0x30 ≤ c.val && c.val ≤ 0x39

/-- The number with the digits of a text, from which underscores are dropped. -/
def digitsIn (base : Nat) (t : Text) : Option Nat :=
  Numeral.ofDigits base <$> Numeral.digits? base (t.filter (· ≠ Numeral.underscore))

def placesIn (base : Nat) (t : Text) : Option Nat :=
  if !t.isEmpty && t.all (fun c => c = Numeral.underscore || (hexValue? c).any (· < base)) then
    digitsIn base t
  else none

/-- The sixtieths behind a colon: one digit, or two that are less than sixty. -/
def sixtieths? (t : Text) : Option Nat :=
  match t with
  | [d] => if isDecimal d then some (d.val - 0x30) else none
  | [d, e] =>
    if isDecimal d && isDecimal e && d.val < 0x36 then
      some ((d.val - 0x30) * 10 + (e.val - 0x30))
    else none
  | _ => none

/-- A number whose places are written in full, sixty to one. -/
def sexagesimal? (whole : Text) (parts : List Text) : Option Nat := do
  let first ← placesIn 10 whole
  let rest ← parts.mapM sixtieths?
  return rest.foldl (fun n d => n * 60 + d) first

/-- The magnitude of an integer: binary, hexadecimal, octal, decimal, or in sixties. -/
def magnitude? : Text → Option Nat
  | [] => none
  | [d] => if isDecimal d then some (d.val - 0x30) else none
  | d :: e :: rest =>
    if d.is '0' then
      if e.is 'b' then placesIn 2 rest
      else if e.is 'x' then placesIn 16 rest
      else placesIn 8 (e :: rest)
    else if isDecimal d then
      match Text.splitOn (CodePoint.ofChar ':') (d :: e :: rest) with
      | whole :: parts => sexagesimal? whole parts
      | [] => none
    else none

def integer? (t : Text) : Option Int :=
  let (negative, t) := Numeral.sign t
  Numeral.signed negative <$> magnitude? t

/-- The exponent of a decimal number, which needs its sign. -/
def exponent? : Text → Option Int
  | [] => some 0
  | e :: rest =>
    if e.is 'e' || e.is 'E' then
      match rest with
      | s :: digits =>
        if (s.is '+' || s.is '-') && !digits.isEmpty && digits.all isDecimal then
          Numeral.signed (s.is '-') <$> digitsIn 10 digits
        else none
      | [] => none
    else none

/-- The digits behind the point of a decimal number, and the exponent. -/
def fraction? (negative : Bool) (whole : Nat) (t : Text) : Option Binary64 := do
  let places := t.takeWhile (isDigitOf '0' '9')
  let digits := places.filter (· ≠ Numeral.underscore)
  let exponent ← exponent? (t.drop places.length)
  let below ← digitsIn 10 digits
  return .ofDecimal negative (whole * Nat.pow 10 digits.length + below) (exponent - digits.length)

/-- A decimal number: with a digit before its point, or without a sign. -/
def pointed? (negative signed : Bool) (t : Text) : Option Binary64 :=
  let whole := t.takeWhile (!·.is '.')
  match t.drop whole.length with
  | [] => none
  | _ :: rest =>
    match Text.splitOn (CodePoint.ofChar ':') whole with
    | [] => none
    | [[]] =>
      if !signed && rest.head?.any isDecimal then fraction? negative 0 rest else none
    | first :: parts =>
      if first.head?.any isDecimal then do
        let n ← sexagesimal? first parts
        if !parts.isEmpty && !rest.all (isDigitOf '0' '9') then none
        else fraction? negative n rest
      else none

/-- The number, not an integer, that a plain scalar denotes. -/
def float? (t : Text) : Option Binary64 :=
  let (negative, magnitude) := Numeral.sign t
  let signed := magnitude.length != t.length
  if ([".inf", ".Inf", ".INF"] : List Text).contains magnitude then some (.infinite negative)
  else if ([".nan", ".NaN", ".NAN"] : List Text).contains t then some .notANumber
  else pointed? negative signed magnitude

def afterDigits (least limit : Nat) (t : Text) : Option Text :=
  let n := ((t.take limit).takeWhile isDecimal).length
  if least ≤ n then some (t.drop n) else none

def afterChar (character : Char) : Text → Option Text
  | [] => none
  | c :: rest => if c.is character then some rest else none

/-- Whether a text is the place of a time among the time zones. -/
def isZone (t : Text) : Bool :=
  match t.dropWhile isSpacing with
  | [] => t.isEmpty
  | [c] => c.is 'Z'
  | c :: rest =>
    (c.is '+' || c.is '-') && ((do
      let rest ← afterDigits 1 2 rest
      if rest.isEmpty then return true
      let rest ← afterDigits 2 2 (← afterChar ':' rest)
      return rest.isEmpty) : Option Bool).getD false

def isTime (t : Text) : Bool :=
  let start := match t with
    | c :: rest =>
      if c.is 'T' || c.is 't' then some rest
      else if isSpacing c then some (rest.dropWhile isSpacing)
      else none
    | [] => none
  ((do
    let t ← afterDigits 1 2 (← start)
    let t ← afterDigits 2 2 (← afterChar ':' t)
    let t ← afterDigits 2 2 (← afterChar ':' t)
    match t with
    | c :: rest => return isZone (if c.is '.' then rest.dropWhile isDecimal else c :: rest)
    | [] => return true) : Option Bool).getD false

/-- Whether a text is a date, or a date and a time. -/
def isDate (t : Text) : Bool :=
  ((do
    let day ← afterDigits 4 4 t
    let month ← afterChar '-' day
    let rest ← afterDigits 1 2 (← afterChar '-' (← afterDigits 1 2 month))
    return if rest.isEmpty then t.length == 10 else isTime rest) : Option Bool).getD false

/-- What a plain scalar denotes. The mark of taken-over entries and the equals sign denote nothing
that could be a value. -/
def plainValue? (t : Text) : Option Value :=
  if t = "<<" ∨ t = "=" then none
  else if nullWords.contains t then some .null
  else if trueWords.contains t then some (.boolean true)
  else if falseWords.contains t then some (.boolean false)
  else if let some x := float? t then some (.float x)
  else if let some n := integer? t then some (.integer n)
  else if isDate t then some (.foreign "date")
  else some (.text t)

/-! ## Named types -/

/-- The name of a type that every document knows. -/
def known (name : Text) : Text := typeStart ++ name

def namedValue? (name t : Text) : Option Value :=
  if name = known "str" then some (.text t)
  else if name = known "null" then some .null
  else if name = known "bool" then
    let word := Numeral.asciiLower t
    if trueWords.contains word then some (.boolean true)
    else if falseWords.contains word then some (.boolean false)
    else none
  else if name = known "int" then .integer <$> integer? t
  else if name = known "float" then
    .float <$> ((float? t).or ((integer? t).map fun n => .ofDecimal (n < 0) n.natAbs 0))
  else if name = known "binary" ∨ name = known "timestamp" then some (.foreign "scalar")
  else none

def isCommon (name : Text) (typing : Typing) : Bool :=
  typing == .implicit || typing == .named (known name)

/-- A list, unless a rarer type is named. -/
def sequenceValue? (typing : Typing) (items : List Value) : Option Value :=
  if isCommon "seq" typing then some (.list items)
  else if typing == .named (known "omap") ∨ typing == .named (known "pairs") then
    some (.foreign "pairs")
  else none

/-! ## Mappings -/

def Node.isTakeover : Node → Bool
  | .scalar .implicit t => t = "<<"
  | .scalar (.named name) _ => name = known "merge"
  | _ => false

/-- The entries that a value hands over: those of a mapping, or of several, the first of which
overrules the others. -/
def handedOver : Value → Option (List (Value × Value))
  | .map entries => some entries
  | .list items => do
    let all ← items.mapM fun
      | .map entries => some entries
      | _ => none
    return all.reverse.flatten
  | _ => none

def mayBeKey : Value → Bool
  | .list _ => false
  | .map _ => false
  | .foreign type => type != "pairs" && type != "cycle"
  | _ => true

/-- A key; an equals sign stands for itself. -/
def keyValue? (key : Node) (found : Option Value) : Option Value :=
  match key with
  | .scalar .implicit t => if t = "=" then some (.text t) else found
  | _ => found.filter mayBeKey

/-- Put an entry in front of the entries behind it, taken-over ones apart. -/
def addEntry (key : Node) (keyFound found : Option Value)
    (rest : Option (List (Value × Value) × List (Value × Value))) :
    Option (List (Value × Value) × List (Value × Value)) := do
  let (taken, own) ← rest
  if key.isTakeover then return ((← handedOver (← found)) ++ taken, own)
  else return (taken, (← keyValue? key keyFound, ← found) :: own)

mutual

def Node.value? : Node → Option Value
  | .scalar typing t => match typing with
    | .implicit => plainValue? t
    | .text => some (.text t)
    | .named name => namedValue? name t
  | .sequence typing items => do sequenceValue? typing (← Node.values? items)
  | .mapping typing entries => do
    let (taken, own) ← Node.entryValues? entries
    if isCommon "map" typing then return .map (taken ++ own)
    else if typing == .named (known "set") then return .foreign "pairs"
    else none
  | .cycle => some (.foreign "cycle")

def Node.values? : List Node → Option (List Value)
  | [] => some []
  | node :: rest => do return (← node.value?) :: (← Node.values? rest)

/-- What the entries of a mapping denote: those that are taken over, and its own. -/
def Node.entryValues? :
    List (Node × Node) → Option (List (Value × Value) × List (Value × Value))
  | [] => some ([], [])
  | (key, node) :: rest => addEntry key key.value? node.value? (Node.entryValues? rest)

end

/-- What a text denotes, if it is a single document without faults; a text without any document
denotes nothing. -/
def valueOfText? (t : Text) : Option Value := do
  match ← Node.ofTokens? (← Token.ofText? t) with
  | none => return .null
  | some node => node.value?

end SchemaAtlas.Markup
