import Passwise.Error

set_option autoImplicit false

namespace Passwise.Csv

inductive Position where
  | lineStart
  | blankLine
  | blankReturn
  | fieldStart
  | plain
  | quoted
  | quoteInQuoted
  | fieldReturn
  deriving DecidableEq, Repr

structure Scan where
  position : Position
  skipped : List Char
  field : List Char
  line : List String
  lines : List (List String)

namespace Scan

def start : Scan := ⟨.lineStart, [], [], [], []⟩

def endField (s : Scan) : Scan :=
  { s with
    field := []
    line := String.ofList (s.field.reverse.takeWhile (· != '\x00')) :: s.line }

def endLine (s : Scan) : Scan :=
  { s with position := .lineStart, skipped := [], line := [], lines := s.line.reverse :: s.lines }

def skip (s : Scan) (position : Position) (c : Char) : Scan :=
  { s with position := position, skipped := c :: s.skipped }

def push (s : Scan) (c : Char) : Scan := { s with position := .plain, field := c :: s.field }

def separate? (s : Scan) (c : Char) : Option Scan :=
  if c = ',' then some { s.endField with position := .fieldStart }
  else if c = '\n' then some s.endField.endLine
  else if c = '\r' then some { s.endField with position := .fieldReturn }
  else none

def inField (s : Scan) (c : Char) : Scan := (s.separate? c).getD (s.push c)

def inFieldStart (s : Scan) (c : Char) : Scan :=
  (s.separate? c).getD (if c = '"' then { s with position := .quoted } else s.push c)

def isBlank (c : Char) : Bool := c == ' ' || c == '\t'

def inLineStart (s : Scan) (c : Char) : Scan :=
  if c = '\n' then { s with position := .lineStart, skipped := [] }
  else if c = '\r' then s.skip .blankReturn c
  else if isBlank c then s.skip .blankLine c
  else { s with skipped := [] }.inFieldStart c

def takeUp (s : Scan) : Scan :=
  let reread (s : Scan) (c : Char) : Scan :=
    match s.position with
    | .fieldReturn =>
      if c = ',' then { s.endLine.endField with position := .fieldStart }
      else s.endLine.inFieldStart c
    | _ => s.inField c
  s.skipped.reverse.foldl reread { s with position := .fieldStart, skipped := [] }

def step (s : Scan) (c : Char) : Scan :=
  match s.position with
  | .lineStart => s.inLineStart c
  | .blankLine =>
    if c = '\n' || c = '\r' || isBlank c then s.inLineStart c else s.takeUp.inField c
  | .blankReturn =>
    if c = ',' then s.skip .lineStart c else { s with position := .lineStart }.inLineStart c
  | .fieldStart => s.inFieldStart c
  | .plain => s.inField c
  | .quoted =>
    if c = '"' then { s with position := .quoteInQuoted } else { s with field := c :: s.field }
  | .quoteInQuoted =>
    (s.separate? c).getD
      (if c = '"' then { s with position := .quoted, field := c :: s.field } else s.push c)
  | .fieldReturn =>
    if c = '\n' then s.endLine
    else if c = ',' then { s.endLine.endField with position := .fieldStart }
    else s.endLine.inLineStart c

def finish (s : Scan) : Except Error (List (List String)) :=
  match s.position with
  | .lineStart | .blankLine | .blankReturn => .ok s.lines.reverse
  | .quoted => .error .raggedTable
  | .fieldStart | .plain | .quoteInQuoted => .ok s.endField.endLine.lines.reverse
  | .fieldReturn => .ok s.endLine.lines.reverse

end Scan

def withoutMark : List Char → List Char
  | '\ufeff' :: rest => rest
  | cs => cs

def scan (text : String) : Except Error (List (List String)) :=
  ((withoutMark text.toList).foldl Scan.step .start).finish

end Passwise.Csv
