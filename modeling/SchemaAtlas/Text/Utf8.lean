import SchemaAtlas.Text.Basic

/-!
# UTF-8

`encode` writes a text as UTF-8 and refuses surrogates. Two readers share one step, which takes
one scalar value or the longest start of one: `decodeLossy` puts U+FFFD in place of each faulty
part, and `decode` stops at the first fault.
-/

namespace SchemaAtlas

abbrev Bytes := Array UInt8

namespace Utf8

def encodePoint (c : CodePoint) : List UInt8 :=
  let n := c.val
  if n < 0x80 then [n.toUInt8]
  else if n < 0x800 then [(0xC0 + n / 0x40).toUInt8, (0x80 + n % 0x40).toUInt8]
  else if n < 0x10000 then
    [(0xE0 + n / 0x1000).toUInt8, (0x80 + n / 0x40 % 0x40).toUInt8, (0x80 + n % 0x40).toUInt8]
  else
    [(0xF0 + n / 0x40000).toUInt8, (0x80 + n / 0x1000 % 0x40).toUInt8,
      (0x80 + n / 0x40 % 0x40).toUInt8, (0x80 + n % 0x40).toUInt8]

def encodePoints (t : Text) : Bytes := (t.flatMap encodePoint).toArray

/-- The first run of surrogates in a text: where it starts, and the run itself, not empty. -/
structure Unencodable where
  start : Nat
  first : CodePoint
  more : Nat
  deriving DecidableEq, Repr

def unencodableFrom (start : Nat) : Text → Option Unencodable
  | [] => none
  | c :: rest =>
    if c.isSurrogate then some ⟨start, c, (rest.takeWhile CodePoint.isSurrogate).length⟩
    else unencodableFrom (start + 1) rest

/-- The bytes of a text, if no surrogate is in it. -/
def encode (t : Text) : Except Unencodable Bytes :=
  match unencodableFrom 0 t with
  | some problem => .error problem
  | none => .ok (encodePoints t)

/-- Why bytes are not UTF-8. -/
inductive Fault where
  | invalidStart
  | invalidContinuation
  | unexpectedEnd
  deriving DecidableEq, Repr

/-- One step of reading: a scalar value and its number of bytes, or a fault and the number of bytes
of the faulty part. -/
inductive Step where
  | scalar (value : CodePoint) (size : Nat)
  | fault (cause : Fault) (size : Nat)
  deriving DecidableEq, Repr

def isTail (b : UInt8) : Bool := 0x80 ≤ b && b < 0xC0

def payload (b : UInt8) : Nat := b.toNat % 0x40

/-- The value with the given number; the ranges tested before keep it below the last code point. -/
def point (n : Nat) : CodePoint := CodePoint.ofNatD n 0xFFFD

/-- Whether a byte may follow the first byte of a sequence of three or four bytes: neither an
overlong form, nor a surrogate, nor a value beyond the last code point. -/
def maySecond (first second : UInt8) : Bool :=
  isTail second && !(first == 0xE0 && second < 0xA0) && !(first == 0xED && 0xA0 ≤ second)
    && !(first == 0xF0 && second < 0x90) && !(first == 0xF4 && 0x90 ≤ second)

/-- The first step of reading `first :: rest`. A sequence cut off by the end of the bytes reaches
to the end. -/
def step (first : UInt8) (rest : List UInt8) : Step :=
  let lead := first.toNat
  if lead < 0x80 then .scalar (point lead) 1
  else if lead < 0xC2 || 0xF5 ≤ lead then .fault .invalidStart 1
  else if lead < 0xE0 then
    match rest with
    | [] => .fault .unexpectedEnd 1
    | b :: _ =>
      if isTail b then .scalar (point (lead % 0x20 * 0x40 + payload b)) 2
      else .fault .invalidContinuation 1
  else if lead < 0xF0 then
    match rest with
    | [] => .fault .unexpectedEnd 1
    | b :: rest =>
      if !maySecond first b then .fault .invalidContinuation 1
      else match rest with
        | [] => .fault .unexpectedEnd 2
        | c :: _ =>
          if isTail c then
            .scalar (point (lead % 0x10 * 0x1000 + payload b * 0x40 + payload c)) 3
          else .fault .invalidContinuation 2
  else
    match rest with
    | [] => .fault .unexpectedEnd 1
    | b :: rest =>
      if !maySecond first b then .fault .invalidContinuation 1
      else match rest with
        | [] => .fault .unexpectedEnd 2
        | c :: rest =>
          if !isTail c then .fault .invalidContinuation 2
          else match rest with
            | [] => .fault .unexpectedEnd 3
            | d :: _ =>
              if isTail d then
                .scalar (point (lead % 8 * 0x40000 + payload b * 0x1000 + payload c * 0x40
                  + payload d)) 4
              else .fault .invalidContinuation 3

def Step.size : Step → Nat
  | .scalar _ size => size
  | .fault _ size => size

/-- Read bytes as steps; `pending` bytes of the current step are still to be passed over. -/
def steps (pending : Nat) : List UInt8 → List Step
  | [] => []
  | b :: rest => match pending with
    | pending + 1 => steps pending rest
    | 0 => let next := step b rest
      next :: steps (next.size - 1) rest

/-- Read bytes, with U+FFFD for each faulty part. -/
def decodeLossy (bytes : List UInt8) : Text :=
  (steps 0 bytes).map fun
    | .scalar value _ => value
    | .fault _ _ => 0xFFFD

/-- A fault and its place among the bytes. -/
structure Undecodable where
  start : Nat
  size : Nat
  firstByte : UInt8
  cause : Fault
  deriving DecidableEq, Repr

def collect (bytes : Bytes) (start : Nat) : List Step → Except Undecodable Text
  | [] => .ok []
  | .scalar value size :: rest => (value :: ·) <$> collect bytes (start + size) rest
  | .fault cause size :: _ => .error ⟨start, size, bytes.getD start 0, cause⟩

/-- Read bytes that have to be UTF-8 throughout. -/
def decode (bytes : Bytes) : Except Undecodable Text := collect bytes 0 (steps 0 bytes.toList)

end Utf8
end SchemaAtlas
