import SchemaAtlas.Files.Path
import SchemaAtlas.Text.Quoted
import SchemaAtlas.Text.Utf8

/-!
# Files

The files and directories of a machine, each at its location: the names that lead to it from the
root. A name is a sequence of bytes; how a path names a file is decided by the bytes of its text. A
path is followed part by part, from the working directory or, if it is absolute, from the root.
-/

namespace SchemaAtlas

/-- A surrogate that stands for one byte of a name that is not UTF-8. -/
def CodePoint.isEscapedByte (c : CodePoint) : Bool := 0xDC80 ≤ c.val && c.val ≤ 0xDCFF

namespace Path

/-- Why a path names nothing for the system, whatever files there are. -/
inductive Refusal where
  | unencodable (problem : Utf8.Unencodable)
  | embeddedNul
  deriving DecidableEq, Repr

def nameBytes (t : Text) : Bytes :=
  (t.flatMap fun c =>
    if c.isEscapedByte then [(c.val - 0xDC00).toUInt8] else Utf8.encodePoint c).toArray

/-- The first surrogate that stands for no byte, in a text that stands `start` code points into the
whole, with the surrogates that follow it. -/
def unnameableFrom (start : Nat) : Text → Option Utf8.Unencodable
  | [] => none
  | c :: rest =>
    if c.isSurrogate && !c.isEscapedByte then
      some ⟨start, c, (rest.takeWhile CodePoint.isSurrogate).length⟩
    else unnameableFrom (start + 1) rest

def refusal? (p : Path) : Option Refusal :=
  match unnameableFrom 0 p.toText with
  | some problem => some (.unencodable problem)
  | none => if p.toText.any (·.val = 0) then some .embeddedNul else none

end Path

/-- The files of a machine by their locations, each with its content unless it may not be opened,
further directories, and the directory that relative paths start from. -/
structure FileSystem where
  files : List (List Bytes × Option Bytes) := []
  directories : List (List Bytes) := []
  current : List Bytes := []
  deriving Inhabited

/-- Why a file cannot be opened. -/
inductive OpenProblem where
  | notFound
  | notADirectory
  | isADirectory
  | permissionDenied
  deriving DecidableEq, Repr

def OpenProblem.message (problem : OpenProblem) (path : Path) : Text :=
  let cause : Text := match problem with
    | .notFound => "[Errno 2] No such file or directory: "
    | .notADirectory => "[Errno 20] Not a directory: "
    | .isADirectory => "[Errno 21] Is a directory: "
    | .permissionDenied => "[Errno 13] Permission denied: "
  cause ++ path.toText.quoted

namespace FileSystem

/-- A machine with nothing but what lies below its working directory. -/
def ofCurrent (current : List Text) (files : List (List Text × Bytes))
    (directories : List (List Text)) : FileSystem where
  files := files.map fun file => ((current ++ file.1).map Path.nameBytes, some file.2)
  directories := directories.map fun directory => (current ++ directory).map Path.nameBytes
  current := current.map Path.nameBytes

inductive Found where
  | file (content : Option Bytes)
  | directory
  deriving Inhabited

/-- What lies at a location. What leads to something is a directory. -/
def find? (system : FileSystem) (location : List Bytes) : Option Found :=
  match system.files.find? (·.1 = location) with
  | some (_, content) => some (.file content)
  | none =>
    if location.isPrefixOf system.current || system.directories.any location.isPrefixOf
      || system.files.any (fun file => location.isPrefixOf file.1) then some .directory
    else none

/-- The location, in reverse, one name on from another one. The root is its own parent. -/
def next (reversed : List Bytes) (name : Bytes) : List Bytes :=
  if name = Path.nameBytes ".." then reversed.tail else name :: reversed

/-- Follow names from a location, given in reverse; all that is passed has to be a directory. -/
def walk (system : FileSystem) (reversed : List Bytes) : List Bytes → Except OpenProblem Found
  | [] =>
    match system.find? reversed.reverse with
    | some found => .ok found
    | none => .error .notFound
  | name :: rest =>
    match system.find? reversed.reverse with
    | none => .error .notFound
    | some (.file _) => .error .notADirectory
    | some .directory => walk system (next reversed name) rest

def lookup (system : FileSystem) (p : Path) : Except OpenProblem Found :=
  system.walk (if p.anchor = .relative then system.current.reverse else [])
    (p.parts.map Path.nameBytes)

def contains (system : FileSystem) (p : Path) : Bool :=
  p.refusal?.isNone && (system.lookup p).isOk

/-- Why the text of a file cannot be had. -/
inductive ReadProblem where
  | unopened (problem : OpenProblem) (path : Path)
  | undecodable (problem : Utf8.Undecodable)
  deriving DecidableEq, Repr

end FileSystem

def unifyLineEnds : Text → Text
  | [] => []
  | [c] => if c = carriageReturn then [lineFeed] else [c]
  | c :: d :: rest =>
    if c = carriageReturn then
      if d = lineFeed then unifyLineEnds (d :: rest) else lineFeed :: unifyLineEnds (d :: rest)
    else c :: unifyLineEnds (d :: rest)

namespace FileSystem

/-- The text of a file: UTF-8, with line feeds as the only line ends. -/
def readText (system : FileSystem) (p : Path) : Except ReadProblem Text :=
  match system.lookup p with
  | .error problem => .error (.unopened problem p)
  | .ok .directory => .error (.unopened .isADirectory p)
  | .ok (.file none) => .error (.unopened .permissionDenied p)
  | .ok (.file (some content)) =>
    match Utf8.decode content with
    | .error problem => .error (.undecodable problem)
    | .ok text => .ok (unifyLineEnds text)

end FileSystem

namespace Utf8

def Fault.message : Fault → Text
  | .invalidStart => "invalid start byte"
  | .invalidContinuation => "invalid continuation byte"
  | .unexpectedEnd => "unexpected end of data"

/-- The report of bytes that are not UTF-8. -/
def Undecodable.message (p : Undecodable) : Text :=
  let place : Text :=
    if p.size ≤ 1 then
      "byte 0x" ++ Text.hex 2 p.firstByte.toNat ++ " in position " ++ Text.ofNat p.start
    else "bytes in position " ++ Text.ofNat p.start ++ "-" ++ Text.ofNat (p.start + p.size - 1)
  "'utf-8' codec can't decode " ++ place ++ ": " ++ p.cause.message

def Unencodable.message (p : Unencodable) : Text :=
  let place : Text :=
    if p.more = 0 then
      "character " ++ Text.quoted [p.first] ++ " in position " ++ Text.ofNat p.start
    else "characters in position " ++ Text.ofNat p.start ++ "-" ++ Text.ofNat (p.start + p.more)
  "'utf-8' codec can't encode " ++ place ++ ": surrogates not allowed"

end Utf8

def FileSystem.ReadProblem.message : FileSystem.ReadProblem → Text
  | .unopened problem path => problem.message path
  | .undecodable problem => problem.message

end SchemaAtlas
