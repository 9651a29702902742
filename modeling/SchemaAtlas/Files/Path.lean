import SchemaAtlas.Text.LowerCase

/-!
# Paths

A path is read once into its anchor and its parts. Empty parts and single dots vanish, double dots
stay, and exactly two leading slashes differ from one.
-/

namespace SchemaAtlas

/-- Where a path starts. -/
inductive Anchor where
  | relative
  | root
  | doubleRoot
  deriving DecidableEq, Repr, Inhabited

/-- A path: its anchor and its parts, from the anchor on. -/
structure Path where
  anchor : Anchor
  parts : List Text
  deriving DecidableEq, Repr, Inhabited

namespace Path

def slash : CodePoint := 0x2F

def anchorOf (t : Text) : Anchor :=
  match (t.takeWhile (· = slash)).length with
  | 0 => .relative
  | 2 => .doubleRoot
  | _ => .root

def ofText (t : Text) : Path where
  anchor := anchorOf t
  parts := (Text.splitOn slash t).filter fun part => !part.isEmpty && part != ("." : Text)

def anchorText : Anchor → Text
  | .relative => []
  | .root => [slash]
  | .doubleRoot => [slash, slash]

/-- Write a path; the empty relative path is a dot. -/
def toText (p : Path) : Text :=
  match p.anchor, p.parts with
  | .relative, [] => "."
  | anchor, parts => anchorText anchor ++ Text.join [slash] parts

def fileName (p : Path) : Text := p.parts.getLastD []

/-- The path that leads to `p` from `root`, if `root` is above it. -/
def relativeTo? (p root : Path) : Option Path :=
  if p.anchor = root.anchor ∧ root.parts.isPrefixOf p.parts then
    some ⟨.relative, p.parts.drop root.parts.length⟩
  else none

/-- The id of the document that a path holds: the path relative to the root where it lies below it,
and the path itself otherwise. -/
def documentId (p : Path) (root : Option Path) : Text :=
  ((root.bind p.relativeTo?).getD p).toText

end Path

/-- A dialect of the source language that can be read. -/
inductive Dialect where
  | typescript
  | tsx
  deriving DecidableEq, Repr, Inhabited

namespace Dialect

def label : Dialect → String
  | .typescript => "typescript"
  | .tsx => "tsx"

def ofLabel? (t : Text) : Option Dialect :=
  [typescript, tsx].find? fun d => (d.label : Text) = t

def markupEndings : List Text := [".tsx", ".jsx"]

def ofFileName (name : Text) : Dialect :=
  if markupEndings.any name.lower.endsWith then .tsx else .typescript

end Dialect
end SchemaAtlas
