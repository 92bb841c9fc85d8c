import PerWorker.Yaml.Cursor

/-!
The texts of scalars. Lines of plain and quoted scalars are folded: one line end becomes a space and
of several the first one is dropped. Block scalars keep their lines, or fold those that start at
the common indentation.
-/
namespace PerWorker.Yaml

/-- What stands between two words: blanks on one line, or line ends. -/
structure Gap where
  blanks : List Char := []
  spansLines : Bool := false
  /-- The first line end, unless it was escaped. -/
  first : List Char := []
  /-- The line ends after the first. -/
  more : List Char := []
  deriving Repr, DecidableEq, Inhabited

namespace Gap

def text (g : Gap) : List Char :=
  if !g.spansLines then g.blanks
  else if g.first = ['\n'] then (if g.more.isEmpty then [' '] else g.more)
  else g.first ++ g.more

/-- Goes on over blanks and line ends, at most `fuel` of them. A tab is refused at the start of a
line before that column. -/
def scan? (tabColumn : Int) (g : Gap) (c : Cursor) : Nat → Option (Gap × Cursor)
  | 0 => none
  | fuel + 1 =>
    let b := c.look
    if isBlank b then
      if g.spansLines then
        if b = '\t' && (c.column : Int) < tabColumn then none
        else scan? tabColumn g c.advance fuel
      else scan? tabColumn { g with blanks := g.blanks ++ [b] } c.advance fuel
    else if isBreak b then
      if g.spansLines then
        scan? tabColumn { g with more := g.more ++ c.breakText } c.skipBreak fuel
      else scan? tabColumn { spansLines := true, first := c.breakText } c.skipBreak fuel
    else some (g, c)

end Gap

/-- The word of a plain scalar at the start of a text, which an indicator ends. Within brackets a
colon before a bracket or comma is refused. -/
def plainWord? (inFlow : Bool) : List Char → Option (List Char)
  | [] => some []
  | c :: rest =>
    let next := rest.headD endMark
    if isWordEnd c then some []
    else if inFlow && c = ':' && (isFlowIndicator next || next = '?') then none
    else if (c = ':' && isWordEnd next) || (inFlow && isFlowIndicator c) then some []
    else (plainWord? inFlow rest).map (c :: ·)

/-- Reads a plain scalar, at most `fuel` words, that is indented by `indent` columns at least. Tells
whether line ends follow the last word. -/
def plainScalar? (inFlow : Bool) (indent : Int) (text : List Char) (gap : Gap) (c : Cursor) :
    Nat → Option (List Char × Bool × Cursor)
  | 0 => none
  | fuel + 1 =>
    if c.isDocumentBoundary || c.look = '#' then some (text, gap.spansLines, c)
    else
      match plainWord? inFlow c.rest with
      | none => none
      | some word =>
        let (text, gap) := if word.isEmpty then (text, gap) else (text ++ gap.text ++ word, {})
        let c := c.advance word.length
        if isBlank c.look || isBreak c.look then
          match Gap.scan? indent {} c (c.rest.length + 1) with
          | none => none
          | some (gap, c) =>
            if !inFlow && (c.column : Int) < indent then some (text, gap.spansLines, c)
            else plainScalar? inFlow indent text gap c fuel
        else some (text, gap.spansLines, c)

def hexDigit? (c : Char) : Option Nat :=
  if c.isDigit then some (c.toNat - '0'.toNat)
  else if 'a' ≤ c && c ≤ 'f' then some (c.toNat - 'a'.toNat + 10)
  else if 'A' ≤ c && c ≤ 'F' then some (c.toNat - 'A'.toNat + 10)
  else none

def hexNumber? (digits : List Char) : Option Nat :=
  digits.foldlM (fun n c => (hexDigit? c).map (n * 16 + ·)) 0

/-- The character of a number, unless it is a surrogate or too large. -/
def charOfNat? (n : Nat) : Option Char :=
  if h : n.isValidChar then some (Char.ofNatAux n h) else none

/-- The escape after a backslash: the character that it stands for, and how many characters it
takes up. -/
def escape? (c : Cursor) : Option (Char × Nat) :=
  let coded (digits : Nat) : Option (Char × Nat) :=
    let written := (c.rest.drop 1).take digits
    if written.length < digits then none
    else ((hexNumber? written).bind charOfNat?).map (·, digits + 1)
  match c.look with
  | '0' => some ('\x00', 1)
  | 'a' => some ('\x07', 1)
  | 'b' => some ('\x08', 1)
  | 't' | '\t' => some ('\t', 1)
  | 'n' => some ('\n', 1)
  | 'v' => some ('\x0b', 1)
  | 'f' => some ('\x0c', 1)
  | 'r' => some ('\r', 1)
  | 'e' => some ('\x1b', 1)
  | ' ' => some (' ', 1)
  | '"' => some ('"', 1)
  | '/' => some ('/', 1)
  | '\\' => some ('\\', 1)
  | 'N' => some ('\x85', 1)
  | '_' => some ('\xa0', 1)
  | 'L' => some ('\u2028', 1)
  | 'P' => some ('\u2029', 1)
  | 'x' => coded 2
  | 'u' => coded 4
  | 'U' => coded 8
  | _ => none

/-- The characters of a quoted scalar up to a blank, a line end or the closing quote, at most `fuel`
of them. Tells whether an escaped line end was met. -/
def quotedRun? (single : Bool) (c : Cursor) : Nat → Option (List Char × Bool × Cursor)
  | 0 => none
  | fuel + 1 =>
    let b := c.look
    let after (b : Char) (length : Nat) : Option (List Char × Bool × Cursor) :=
      (quotedRun? single (c.advance length) fuel).map fun (run, escaped, c) =>
        (b :: run, escaped, c)
    if isWordEnd b then some ([], false, c)
    else if single && b = '\'' && c.look 1 = '\'' then after b 2
    else if b = (if single then '\'' else '"') then some ([], false, c)
    else if !single && b = '\\' then
      if isBreak (c.look 1) then some ([], true, c.advance.skipBreak)
      else (escape? c.advance).bind fun (e, length) => after e (length + 1)
    else after b 1

/-- Reads a quoted scalar from behind its opening quote, at most `fuel` words. -/
def quotedScalar? (single : Bool) (text : List Char) (c : Cursor) :
    Nat → Option (List Char × Cursor)
  | 0 => none
  | fuel + 1 =>
    if c.isDocumentBoundary || c.look = endMark then none
    else
      match quotedRun? single c (c.rest.length + 1) with
      | none => none
      | some (run, escaped, c) =>
        let text := text ++ run
        if c.look = (if single then '\'' else '"') then some (text, c.advance)
        else
          match Gap.scan? 0 { spansLines := escaped } c (c.rest.length + 1) with
          | none => none
          | some (gap, c) => quotedScalar? single (text ++ gap.text) c fuel

/-- What becomes of the line ends after the last line of a block scalar. -/
inductive Chomping where
  | strip
  | clip
  | keep
  deriving Repr, DecidableEq, Inhabited

/-- The signs behind a block scalar's indicator: chomping and indentation, in either order. -/
def blockHeader? (c : Cursor) : Option (Chomping × Nat × Cursor) :=
  let chomping? (c : Cursor) : Option Chomping := match c.look with
    | '+' => some .keep
    | '-' => some .strip
    | _ => none
  let width? (c : Cursor) : Option (Nat × Cursor) :=
    if c.look = '0' then none
    else if c.look.isDigit then some (c.look.toNat - '0'.toNat, c.advance)
    else some (0, c)
  match chomping? c with
  | some chomping => (width? c.advance).map fun (width, c) => (chomping, width, c)
  | none =>
    (width? c).map fun (width, next) =>
      match if width = 0 then none else chomping? next with
      | some chomping => (chomping, width, next.advance)
      | none => (.clip, width, next)

/-- Goes past indentation and empty lines, at most `fuel` of them. Without a known indentation all
spaces count, and the widest run is told. A tab within the indentation is refused. -/
def blockBreaks? (indent : Nat) (widest : Nat) (breaks : List Char) (c : Cursor) :
    Nat → Option (Nat × List Char × Cursor)
  | 0 => none
  | fuel + 1 =>
    let spaces := (c.rest.takeWhile (· = ' ')).length
    let c := c.advance (if indent = 0 then spaces else min spaces (indent - c.column))
    let widest := max widest c.column
    if (indent = 0 || c.column < indent) && c.look = '\t' then none
    else if isBreak c.look then
      blockBreaks? indent widest (breaks ++ c.breakText) c.skipBreak fuel
    else some (widest, breaks, c)

/-- The line ends before a line of a block scalar: that of the line before, and those of the empty
lines between. -/
structure LineEnds where
  last : List Char := []
  empty : List Char := []
  /-- The line before starts with a blank. -/
  afterBlank : Bool := false
  deriving Repr, DecidableEq, Inhabited

def LineEnds.text (e : LineEnds) (folded beforeBlank : Bool) : List Char :=
  if folded && e.last = ['\n'] && !e.afterBlank && !beforeBlank then
    (if e.empty.isEmpty then [' '] else []) ++ e.empty
  else e.last ++ e.empty

/-- Reads the lines of a block scalar, at most `fuel` of them. -/
def blockLines? (folded : Bool) (indent : Nat) (text : List Char) (ends : LineEnds) (c : Cursor) :
    Nat → Option (List Char × LineEnds × Cursor)
  | 0 => none
  | fuel + 1 =>
    if c.column = indent && c.look ≠ endMark then
      let blank := isBlank c.look
      let line := c.rest.takeWhile (!isLineEnd ·)
      let c := c.advance line.length
      match blockBreaks? indent 0 [] c.skipBreak (c.rest.length + 1) with
      | none => none
      | some (_, empty, next) =>
        blockLines? folded indent (text ++ ends.text folded blank ++ line)
          { last := c.breakText, empty, afterBlank := blank } next fuel
    else some (text, ends, c)

/-- Reads a block scalar from behind its indicator, within a block indented by `parent` columns. -/
def blockScalar? (folded : Bool) (parent : Int) (c : Cursor) : Option (List Char × Cursor) := do
  let (chomping, width, c) ← blockHeader? c
  let c ← c.skipToLineEnd?
  let c := c.skipBreak
  let given := if width = 0 then 0 else (max parent 0).toNat + width
  let (widest, empty, c) ← blockBreaks? given 0 [] c (c.rest.length + 1)
  let indent := if width = 0 then max widest (max (parent + 1).toNat 1) else given
  let (text, ends, c) ← blockLines? folded indent [] { empty } c (c.rest.length + 1)
  let tail := match chomping with
    | .strip => []
    | .clip => ends.last
    | .keep => ends.last ++ ends.empty
  return (text ++ tail, c)

end PerWorker.Yaml
