import PerWorker.Yaml.Tag

/-!
The sequence of tokens of a text, found on demand. A token that may turn out to be a key on one line
holds back what comes from its place on, because the tokens that say so are put in front of it when
the colon is met; so a text that breaks off is refused at the right token.
-/
namespace PerWorker.Yaml

/-- A token that may turn out to be a key. -/
structure PossibleKey where
  /-- Its number among the tokens. -/
  number : Nat
  index : Nat
  line : Nat
  column : Nat
  /-- Nothing but a key can stand at its place. -/
  required : Bool
  deriving Repr, DecidableEq, Inhabited

/-- The tokens found so far and the state of the search for the next ones. -/
structure Tokens where
  cursor : Cursor
  found : Array Token := #[]
  /-- How many tokens have been used. -/
  used : Nat := 0
  /-- The column of the innermost block, or -1 outside of blocks. -/
  indent : Int := -1
  /-- The columns of the blocks around it, innermost first. -/
  outer : List Int := []
  /-- The possible key of each collection in brackets, innermost first, and of the block around. -/
  keys : List (Option PossibleKey) := [none]
  /-- Whether a key on one line may start here. -/
  keyAllowed : Bool := true
  deriving Repr, Inhabited

namespace Tokens

def inFlow (s : Tokens) : Bool := 1 < s.keys.length

def add (s : Tokens) (token : Token) : Tokens := { s with found := s.found.push token }

def insert (s : Tokens) (number : Nat) (token : Token) : Tokens :=
  { s with found := s.found.insertIdxIfInBounds number token }

/-- Whether a possible key can no longer become one: a key stays on one line and is short. -/
def PossibleKey.isStale (key : PossibleKey) (c : Cursor) : Bool :=
  key.line < c.line || key.index + 1024 < c.index

/-- Gives up the possible keys that can no longer become one. -/
def dropStaleKeys? (s : Tokens) : Option Tokens :=
  let stale (key : Option PossibleKey) : Bool := key.any (PossibleKey.isStale · s.cursor)
  if s.keys.any fun key => stale key && key.any (·.required) then none
  else some { s with keys := s.keys.map fun key => if stale key then none else key }

def dropKey? (s : Tokens) : Option Tokens :=
  match s.keys with
  | some key :: rest => if key.required then none else some { s with keys := none :: rest }
  | _ => some s

def saveKey? (s : Tokens) : Option Tokens :=
  if s.keyAllowed then do
    let s ← s.dropKey?
    let key : PossibleKey :=
      { number := s.found.size, index := s.cursor.index, line := s.cursor.line,
        column := s.cursor.column,
        required := !s.inFlow && s.indent = (s.cursor.column : Int) }
    return { s with keys := some key :: s.keys.drop 1 }
  else some s

/-- Opens a block at a column to the right of the current one. -/
def openBlock (s : Tokens) (column : Nat) (insert : Tokens → Tokens) : Tokens :=
  if !s.inFlow && s.indent < (column : Int) then
    insert { s with indent := column, outer := s.indent :: s.outer }
  else s

def closeBlocks (s : Tokens) (column : Int) : Tokens :=
  if s.inFlow then s
  else
    let closed := (s.indent :: s.outer).takeWhile (column < ·)
    let left := (s.indent :: s.outer).dropWhile (column < ·)
    { s with
      found := s.found ++ Array.replicate closed.length Token.blockEnd
      indent := left.headD (-1)
      outer := left.drop 1 }

/-- Goes past blanks, comments and line ends, at most `fuel` lines. A tab counts as a blank where no
key on one line may start. -/
def skipToToken (s : Tokens) : Nat → Tokens
  | 0 => s
  | fuel + 1 =>
    let c := s.cursor
    let c := if c.column = 0 && c.look = byteOrderMark then c.advance else c
    let tabs := s.inFlow || !s.keyAllowed
    let c := c.skipWhile fun b => b = ' ' || (tabs && b = '\t')
    let c := if c.look = '#' then c.skipWhile (!isLineEnd ·) else c
    if isBreak c.look then
      skipToToken { s with cursor := c.skipBreak, keyAllowed := s.keyAllowed || !s.inFlow } fuel
    else { s with cursor := c }

def take (s : Tokens) (token : Token) (length : Nat := 1) : Tokens :=
  { s.add token with cursor := s.cursor.advance length }

/-- A token that ends all blocks: a directive or the mark of a document. -/
def outermost? (s : Tokens) : Option Tokens := do
  let s ← (s.closeBlocks (-1)).dropKey?
  return { s with keyAllowed := false }

/-- A scalar, an anchor, an alias or a tag: any of them may start a key. -/
def content? (s : Tokens) (read : Tokens → Option (Token × Cursor)) : Option Tokens := do
  let s ← s.saveKey?
  let (token, cursor) ← read s
  return { s.add token with cursor, keyAllowed := false }

def openFlow? (s : Tokens) (token : Token) : Option Tokens := do
  let s ← s.saveKey?
  return { s.take token with keys := none :: s.keys, keyAllowed := true }

def closeFlow? (s : Tokens) (token : Token) : Option Tokens := do
  let s ← s.dropKey?
  return { s.take token with
    keys := if s.inFlow then s.keys.drop 1 else s.keys, keyAllowed := false }

def comma? (s : Tokens) : Option Tokens := do
  let s ← s.dropKey?
  return { s.take .flowEntry with keyAllowed := true }

def dash? (s : Tokens) : Option Tokens := do
  if !s.inFlow && !s.keyAllowed then failure
  let s ← (s.openBlock s.cursor.column (·.add .blockSequenceStart)).dropKey?
  return { s.take .blockEntry with keyAllowed := true }

def key? (s : Tokens) : Option Tokens := do
  if !s.inFlow && !s.keyAllowed then failure
  let s ← (s.openBlock s.cursor.column (·.add .blockMappingStart)).dropKey?
  return { s.take .key with keyAllowed := !s.inFlow }

/-- A colon makes the possible key in front of it a key, or else follows a key that has more than
one line. -/
def value? (s : Tokens) : Option Tokens :=
  match s.keys with
  | some key :: rest =>
    let s := (s.insert key.number .key).openBlock key.column
      (·.insert key.number .blockMappingStart)
    some { s.take .value with keys := none :: rest, keyAllowed := false }
  | _ => do
    if !s.inFlow && !s.keyAllowed then failure
    let s := s.openBlock s.cursor.column (·.add .blockMappingStart)
    return { s.take .value with keyAllowed := !s.inFlow }

def plain? (s : Tokens) : Option Tokens := do
  let s ← s.saveKey?
  let c := s.cursor
  let (text, linesFollow, cursor) ←
    plainScalar? s.inFlow (s.indent + 1) [] {} c (c.rest.length + 1)
  return { s.add (.scalar .plain (String.ofList text)) with cursor, keyAllowed := linesFollow }

def quoted? (s : Tokens) (single : Bool) : Option Tokens :=
  s.content? fun s => do
    let c := s.cursor.advance
    let (text, c) ← quotedScalar? single [] c (c.rest.length + 1)
    return (.scalar (if single then .singleQuoted else .doubleQuoted) (String.ofList text), c)

def block? (s : Tokens) (folded : Bool) : Option Tokens := do
  let s ← s.dropKey?
  let (text, cursor) ← blockScalar? folded s.indent s.cursor.advance
  return { s.add (.scalar (if folded then .folded else .literal) (String.ofList text)) with
    cursor, keyAllowed := true }

def startsPlain (s : Tokens) : Bool :=
  let c := s.cursor.look
  let next := s.cursor.look 1
  !(isWordEnd c || "-?:,[]\x7b\x7d#&*!|>'\"%@`".contains c) || (c = '-' && !isBlank next)
    || (!s.inFlow && (c = '?' || c = ':') && !isWordEnd next)

/-- Finds the next token, with the tokens that have to stand before it. -/
def findNext? (s : Tokens) : Option Tokens := do
  let s ← (s.skipToToken (s.cursor.rest.length + 1)).dropStaleKeys?
  let s := s.closeBlocks s.cursor.column
  let c := s.cursor
  let isIndicator (flowToo : Bool) : Bool := (flowToo && s.inFlow) || isWordEnd (c.look 1)
  if c.look = endMark then
    let line := if c.column = 0 then c.line else c.line + 1
    let s ← { s with cursor := { c with line, column := 0 } }.outermost?
    return s.add .streamEnd
  else if c.column = 0 && c.look = '%' then
    let s ← s.outermost?
    let (token, cursor) ← directive? s.cursor.advance
    return { s.add token with cursor }
  else if c.isDocumentMark '-' then return (← s.outermost?).take .documentStart 3
  else if c.isDocumentMark '.' then return (← s.outermost?).take .documentEnd 3
  else
    match c.look with
    | '[' => s.openFlow? .flowSequenceStart
    | '\x7b' => s.openFlow? .flowMappingStart
    | ']' => s.closeFlow? .flowSequenceEnd
    | '\x7d' => s.closeFlow? .flowMappingEnd
    | ',' => s.comma?
    | '*' => s.content? fun s => (anchorName? s.cursor.advance).map fun (n, c) => (.alias n, c)
    | '&' => s.content? fun s => (anchorName? s.cursor.advance).map fun (n, c) => (.anchor n, c)
    | '!' => s.content? fun s => tagToken? s.inFlow s.cursor
    | '\'' => s.quoted? true
    | '"' => s.quoted? false
    | b =>
      if b = '-' && isIndicator false then s.dash?
      else if b = '?' && isIndicator true then s.key?
      else if b = ':' && isIndicator true then s.value?
      else if b = '|' && !s.inFlow then s.block? false
      else if b = '>' && !s.inFlow then s.block? true
      else if s.startsPlain then s.plain?
      else none

/-- Finds tokens, at most `fuel` of them, until the next one to use is certain. -/
def fill? (s : Tokens) : Nat → Option Tokens
  | 0 => none
  | fuel + 1 =>
    if s.used < s.found.size then
      match s.dropStaleKeys? with
      | none => none
      | some s =>
        if s.keys.any fun key => key.any (·.number = s.used) then
          match s.findNext? with
          | none => none
          | some s => fill? s fuel
        else some s
    else
      match s.findNext? with
      | none => none
      | some s => fill? s fuel

def next? (s : Tokens) : Option (Token × Tokens) := do
  let s ← s.fill? (s.cursor.rest.length + 2)
  return (← s.found[s.used]?, s)

def drop (s : Tokens) : Tokens := { s with used := s.used + 1 }

/-- The tokens of a text, none of them found yet. A byte order mark in front is no part of it. -/
def ofText (text : String) : Tokens :=
  match text.toList with
  | '\ufeff' :: rest => { cursor := { rest } }
  | rest => { cursor := { rest } }

end Tokens
end PerWorker.Yaml
