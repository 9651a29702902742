import SchemaAtlas.Text.Basic

/-!
# Comments

The documentation text of comments. A comment is cleaned line by line; its paragraphs, which blank
lines divide, become one line each.
-/

namespace SchemaAtlas.Comment

def docOpening : Text := "/**"

def blockOpening : Text := "/*"

def blockClosing : Text := "*/"

def lineOpening : Text := "//"

def star : CodePoint := 0x2A

def dropBlank : Text → Text
  | [] => []
  | c :: rest => if c.isBlank then rest else c :: rest

/-- Drop the star in front of a line, the blanks before it and one blank behind it. A line without a
star stays as it is. -/
def dropStar (line : Text) : Text :=
  match line.dropWhile CodePoint.isBlank with
  | [] => line
  | c :: rest => if c = star then dropBlank rest else line

/-- Drop the blanks in front of a line, a star, and one blank behind it. -/
def dropMargin (line : Text) : Text :=
  match line.dropWhile CodePoint.isBlank with
  | [] => []
  | c :: rest => if c = star then dropBlank rest else c :: rest

def cleanedLines (comment : Text) : List Text :=
  let lines :=
    if docOpening.isPrefixOf comment then
      (comment.erase [docOpening, blockClosing]).lines.map dropStar
    else if blockOpening.isPrefixOf comment then
      (comment.erase [blockOpening, blockClosing]).lines.map dropMargin
    else [comment.erase [lineOpening]]
  lines.map Text.strip

/-- The maximal runs of texts that are not empty; `current` is the run under way. -/
def runs (current : List Text) : List Text → List (List Text)
  | [] => if current.isEmpty then [] else [current]
  | line :: rest =>
    if line.isEmpty then
      if current.isEmpty then runs [] rest else current :: runs [] rest
    else runs (current ++ [line]) rest

def normalize (comment : Text) : Text :=
  Text.join [lineFeed] ((runs [] (cleanedLines comment)).map (Text.join [space]))

def groupText (comments : List Text) : Text :=
  Text.join [lineFeed] ((comments.map normalize).filter (!·.isEmpty))

def documentation? (groups : List (List Text)) : Option Text :=
  (groups.map groupText).find? (!·.isEmpty)

end SchemaAtlas.Comment
