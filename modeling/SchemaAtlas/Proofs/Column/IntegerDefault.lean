import SchemaAtlas.Proofs.Column.Modifiers
import SchemaAtlas.Proofs.Expr.Production
import SchemaAtlas.Proofs.Number.IntegerLiteral
import SchemaAtlas.Proofs.Text.Utf8

/-!
# Defaults that are integers

A node over an integer literal is read as the number that the literal spells, and a default given by
it is stored as the plain decimal digits of the number. So columns whose defaults denote the same
integer have the same default, however the two literals are spelled, and different integers give
different defaults.
-/

namespace SchemaAtlas

open CodePoint (IsDigit)
open Numeral (digitsOf digitLimit Writes)
open Number (SpellsInteger)
open Syntax (Tree)

namespace Text

/-- Different numbers have different digits. -/
theorem ofNat_inj {n n' : Nat} : Text.ofNat n = Text.ofNat n' ↔ n = n' := by
  refine ⟨fun h => ?_, fun h => h ▸ rfl⟩
  have hwrites (n : Nat) : Writes 10 n (Text.ofNat n) := ⟨0, Numeral.forall₂_ofNat n⟩
  have hread := (hwrites n).digits? (by decide)
  rw [h, (hwrites n').digits? (by decide)] at hread
  exact (Option.some.inj hread).symm

end Text

namespace Expr

/-- A node covers a literal that spells a natural number. -/
structure IsIntegerLiteral (source : Bytes) (n : Nat) (t : Tree) : Prop where
  kind : t.kind = .number
  spelled : ∃ literal, SpellsInteger n literal ∧ t.Covers source literal

/-- An expression was read from such a literal, parentheses around it apart. -/
def ReadsInteger (n : Nat) (e : Expr) : Prop :=
  ∃ source stack t, IsIntegerLiteral source n t ∧ ofTree source stack t = .ok e.unwrap

variable {source : Bytes} {n : Nat} {t : Tree}

theorem ofTree_of_isIntegerLiteral (h : IsIntegerLiteral source n t) (hn : n < 10 ^ digitLimit)
    {stack : Stack} (hholds : stack.Holds t.kind) :
    ofTree source stack t = .ok (.number (extentOf source t) (.integer n)) := by
  obtain ⟨literal, hspells, hcovers⟩ := h.spelled
  have hvalue : Number.ofLiteral? (t.text source) = some (.integer n) := by
    rw [hcovers.text_eq, Number.ofLiteral?_of_spells hspells hn]
  rw [ofTree_of_holds hholds, ofNode, h.kind, numberOf, hvalue]

/-- The text of such a default is the plain decimal digits of the number. -/
theorem defaultText?_of_readsInteger {e : Expr} (h : ReadsInteger n e) (hn : n < 10 ^ digitLimit) :
    defaultText? e = some (Text.ofNat n) := by
  obtain ⟨source, stack, t, ht, hread⟩ := h
  by_cases hholds : stack.Holds t.kind
  · rw [ofTree_of_isIntegerLiteral ht hn hholds] at hread
    rw [defaultText?, ← Except.ok.inj hread]
    exact Number.canonical?_integer hn
  · rw [ofTree_of_not_holds hholds] at hread
    cases hread

end Expr

namespace Column

open SchemaAtlas.Expr (ReadsInteger IsIntegerLiteral)

/-- A column that an entry declares and whose default is set by a literal of a number: of the
modifiers that set the default, the one that is called first is `default` with that literal. -/
inductive DefaultsTo (n : Nat) : Column → Prop where
  | intro {includeComments : Bool} {enums : Enums} {entry : Entry} {c : Column}
      {type : Expr.Link} {modifiers : List Expr.Link} {value : Expr} {rest : List Expr} :
      Expr.Chained type modifiers entry.value → ofEntry includeComments enums entry = .ok c →
      modifiers.find? setsDefault = some ⟨some "default", value :: rest⟩ →
      ReadsInteger n value → DefaultsTo n c

theorem DefaultsTo.defaultValue {n : Nat} {c : Column} (h : DefaultsTo n c)
    (hn : n < 10 ^ digitLimit) : c.defaultValue = some (Text.ofNat n) := by
  cases h with
  | @intro includeComments enums entry _ type modifiers value rest hchained hentry hfind hreads =>
    rw [ofEntry_eq_of_chained includeComments enums hchained] at hentry
    split_ifs at hentry with hwritable
    cases hentry
    rw [(madeBy_made includeComments enums entry type modifiers).defaultValue, hfind]
    exact Expr.defaultText?_of_readsInteger hreads hn

/-- An integer literal of any spelling denotes exactly its number and is stored as the plain decimal
digits of it, so two columns with such defaults have the same default iff the numbers are the
same. -/
theorem defaultValue_of_integer {n : Nat} (hn : n < 10 ^ 4300) :
    (∀ (source : Bytes) (t : Tree) (stack : Stack), IsIntegerLiteral source n t →
      stack.Holds t.kind →
      Expr.ofTree source stack t = .ok (.number (Expr.extentOf source t) (.integer n))) ∧
    List.Forall₂ IsDigit (Text.ofNat n) (digitsOf 10 n) ∧
    (∀ (column : Column) (value : Expr) (rest : List Expr), ReadsInteger n value →
      applyModifier column ⟨some "default", value :: rest⟩ =
        .ok { column with defaultValue := some (Text.ofNat n) }) ∧
    ∀ (n' : Nat) (c c' : Column), n' < 10 ^ 4300 → DefaultsTo n c → DefaultsTo n' c' →
      c.defaultValue = some (Text.ofNat n) ∧ (c.defaultValue = c'.defaultValue ↔ n = n') := by
  have hlimit {n : Nat} (hn : n < 10 ^ 4300) : n < 10 ^ digitLimit := by
    rw [digitLimit]
    exact hn
  replace hn := hlimit hn
  refine ⟨fun source t stack ht hholds => Expr.ofTree_of_isIntegerLiteral ht hn hholds,
    Numeral.forall₂_ofNat n, fun column value rest hreads => ?_, fun n' c c' hn' hc hc' => ?_⟩
  · have htext := Expr.defaultText?_of_readsInteger hreads hn
    simp [applyModifier, htext]
  · refine ⟨hc.defaultValue hn, ?_⟩
    rw [hc.defaultValue hn, hc'.defaultValue (hlimit hn'), Option.some_inj, Text.ofNat_inj]

def literalSource (literal : Text) : Bytes := Utf8.encodePoints literal

def literalNode : Tree := .node .number 0 5 true none []

def literalExpr (literal : Text) : Expr := .number ⟨literal, 1⟩ (.integer 255)

def literalEntry (literal : Text) : Entry := stateEntry [("default", [literalExpr literal])]

theorem isIntegerLiteral_hexadecimal :
    IsIntegerLiteral (literalSource "0X0fF") 255 literalNode := by
  have hdigits : Writes 16 255 "0fF" := ⟨1, by simp [digitsOf]; decide⟩
  have hbody : Numeral.Separated "0fF" "0fF" := .next _ 0 (.next _ 0 (.last _))
  have hspells : SpellsInteger 255 "0X0fF" :=
    .marked (by decide : ((0x58 : CodePoint), 16) ∈ Numeral.baseMarks) hdigits hbody
      (by decide : [] ∈ Number.suffixes)
  exact ⟨rfl, "0X0fF", hspells, by decide, Text.within_ofString (fun _ hc => hc) _⟩

theorem isIntegerLiteral_separated :
    IsIntegerLiteral (literalSource "2_55n") 255 literalNode := by
  have hdigits : List.Forall₂ IsDigit "255" (digitsOf 10 255) := by
    simp [digitsOf]
    decide
  have hbody : Numeral.Separated "255" "2_55" := .next _ 1 (.next _ 0 (.last _))
  have hspells : SpellsInteger 255 "2_55n" :=
    .decimal hdigits hbody (by decide : ("n" : Text) ∈ Number.suffixes)
  exact ⟨rfl, "2_55n", hspells, by decide, Text.within_ofString (fun _ hc => hc) _⟩

/-- Two columns whose default is the same number, in hexadecimal digits and with an underscore. -/
theorem defaultValue_of_two_spellings :
    255 < 10 ^ 4300 ∧
    Expr.ofTree (literalSource "0X0fF") (.levels 1) literalNode = .ok (literalExpr "0X0fF") ∧
    Expr.ofTree (literalSource "2_55n") (.levels 1) literalNode = .ok (literalExpr "2_55n") ∧
    ∃ c c', ofEntry true [] (literalEntry "0X0fF") = .ok c ∧
      ofEntry true [] (literalEntry "2_55n") = .ok c' ∧
      c.defaultValue = some ("255" : Text) ∧ c.defaultValue = c'.defaultValue := by
  have hn : 255 < 10 ^ 4300 :=
    (by decide : 255 < 10 ^ 3).trans_le (pow_le_pow_right₀ (by decide) (by decide))
  obtain ⟨hread, -, happly, hsame⟩ := defaultValue_of_integer hn
  have hholds : (Stack.levels 1).Holds literalNode.kind := by decide
  have hhexadecimal := hread _ _ _ isIntegerLiteral_hexadecimal hholds
  have hseparated := hread _ _ _ isIntegerLiteral_separated hholds
  have hmade {literal : Text} (hreads : ReadsInteger 255 (literalExpr literal)) :
      ∃ c, ofEntry true [] (literalEntry literal) = .ok c ∧ DefaultsTo 255 c := by
    have hchained := chained_stateEntry [("default", [literalExpr literal])]
    have hwritable : ∀ call ∈ [Expr.Link.mk (some "default") [literalExpr literal]],
        ¬ Unwritable call := by
      intro call hcall
      rw [List.mem_singleton.mp hcall, ← returns_applyModifier default]
      exact ⟨_, happly default _ [] hreads⟩
    have hentry := (ofEntry_eq_of_chained true [] hchained).trans (if_pos hwritable)
    exact ⟨_, hentry, .intro hchained hentry rfl hreads⟩
  obtain ⟨c, hc, hdefault⟩ := hmade ⟨_, _, _, isIntegerLiteral_hexadecimal, hhexadecimal⟩
  obtain ⟨c', hc', hdefault'⟩ := hmade ⟨_, _, _, isIntegerLiteral_separated, hseparated⟩
  obtain ⟨hvalue, hiff⟩ := hsame 255 c c' hn hdefault hdefault'
  exact ⟨hn, hhexadecimal, hseparated, c, c', hc, hc', hvalue, hiff.mpr rfl⟩

end Column
end SchemaAtlas
