/-!
Places in a YAML text. A cursor knows the characters that are left and how far it is; past the last
character it shows a mark that no text contains.
-/
namespace PerWorker.Yaml

/-- Shown past the end of a text. -/
def endMark : Char := '\x00'

def isReadable (c : Char) : Bool :=
  let n := c.toNat
  n = 0x09 || n = 0x0a || n = 0x0d || (0x20 ≤ n && n ≤ 0x7e) || n = 0x85
    || (0xa0 ≤ n && n ≤ 0xd7ff) || (0xe000 ≤ n && n ≤ 0xfffd) || 0x10000 ≤ n

def isBreak (c : Char) : Bool :=
  c = '\n' || c = '\r' || c = '\x85' || c = '\u2028' || c = '\u2029'

def isBlank (c : Char) : Bool := c = ' ' || c = '\t'

def isLineEnd (c : Char) : Bool := isBreak c || c = endMark

def isWordEnd (c : Char) : Bool := isBlank c || isLineEnd c

def isNameChar (c : Char) : Bool := c.isAlphanum || c = '_' || c = '-'

/-- The characters that delimit collections written in brackets. -/
def isFlowIndicator (c : Char) : Bool := ",[]\x7b\x7d".contains c

/-- The mark that may stand at the start of a line and belongs to no token. -/
def byteOrderMark : Char := '\ufeff'

structure Cursor where
  rest : List Char
  index : Nat := 0
  line : Nat := 0
  column : Nat := 0
  deriving Repr, Inhabited

namespace Cursor

def look (c : Cursor) (n : Nat := 0) : Char := c.rest.getD n endMark

def advance (c : Cursor) (n : Nat := 1) : Cursor :=
  { c with rest := c.rest.drop n, index := c.index + n, column := c.column + n }

/-- Goes past the characters in front that have a property and end no line. -/
def skipWhile (c : Cursor) (p : Char → Bool) : Cursor := c.advance (c.rest.takeWhile p).length

/-- Goes past the end of a line, which may be two characters. -/
def skipBreak (c : Cursor) : Cursor :=
  match c.rest with
  | '\r' :: '\n' :: rest => { rest, index := c.index + 2, line := c.line + 1 }
  | b :: rest => if isBreak b then { rest, index := c.index + 1, line := c.line + 1 } else c
  | [] => c

/-- What the end of a line contributes to a text: a line feed, but the separators of Unicode stand
for themselves. Nothing at the end of the text. -/
def breakText (c : Cursor) : List Char :=
  match c.look with
  | '\u2028' => ['\u2028']
  | '\u2029' => ['\u2029']
  | b => if isBreak b then ['\n'] else []

/-- Goes past blanks and a comment up to the end of the line. Nothing where something else stands
there. -/
def skipToLineEnd? (c : Cursor) : Option Cursor :=
  let c := c.skipWhile isBlank
  let c := if c.look = '#' then c.skipWhile (!isLineEnd ·) else c
  if isLineEnd c.look then some c else none

/-- Three characters of one kind at the start of a line, and nothing that goes on with them. -/
def isDocumentMark (c : Cursor) (kind : Char) : Bool :=
  c.column = 0 && c.look = kind && c.look 1 = kind && c.look 2 = kind && isWordEnd (c.look 3)

def isDocumentBoundary (c : Cursor) : Bool := c.isDocumentMark '-' || c.isDocumentMark '.'

end Cursor
end PerWorker.Yaml
