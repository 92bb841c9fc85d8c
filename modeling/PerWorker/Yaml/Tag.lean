import PerWorker.Yaml.ScalarText
import PerWorker.Yaml.Token

/-!
Anchors, tags and directives.
-/
namespace PerWorker.Yaml

def nameAt (c : Cursor) : String := String.ofList (c.rest.takeWhile isNameChar)

/-- Reads the name behind the indicator of an anchor or alias, and what may follow a name. -/
def anchorName? (c : Cursor) : Option (String × Cursor) :=
  let name := nameAt c
  let c := c.advance name.length
  if name.isEmpty || !(isWordEnd c.look || "?:,]\x7d%@`".contains c.look) then none
  else some (name, c)

/-- How many bytes a character's encoding has, by its first byte. -/
def encodedLength? (first : Nat) : Option Nat :=
  if first < 0x80 then some 1
  else if 0xc0 ≤ first && first < 0xe0 then some 2
  else if 0xe0 ≤ first && first < 0xf0 then some 3
  else if 0xf0 ≤ first && first < 0xf8 then some 4
  else none

def escapedByte? (c : Cursor) : Option (Nat × Cursor) :=
  let digits := (c.rest.drop 1).take 2
  if c.look = '%' && digits.length = 2 then (hexNumber? digits).map (·, c.advance 3) else none

/-- Reads further bytes of an escaped character, each of which has to continue it. -/
def continuationBytes? (bytes : List Nat) (c : Cursor) : Nat → Option (List Nat × Cursor)
  | 0 => some (bytes, c)
  | more + 1 =>
    match escapedByte? c with
    | some (byte, c) =>
      if 0x80 ≤ byte && byte < 0xc0 then continuationBytes? (bytes ++ [byte]) c more else none
    | none => none

def escapedChar? (c : Cursor) : Option (Char × Cursor) := do
  let (first, c) ← escapedByte? c
  let length ← encodedLength? first
  let (bytes, c) ← continuationBytes? [first] c (length - 1)
  let text ← String.fromUTF8? ⟨(bytes.map (·.toUInt8)).toArray⟩
  return (← text.toList.head?, c)

/-- Characters of the suffix of a tag. Within angle brackets commas and square brackets may stand
too. -/
def isTagChar (verbatim : Bool) (c : Char) : Bool :=
  isNameChar c || ";/?:@&=+$.%!~*'()".contains c || (verbatim && ",[]".contains c)

/-- Reads the suffix of a tag after `text`, at most `fuel` characters. -/
def tagSuffix (verbatim : Bool) (text : List Char) (c : Cursor) : Nat → Option (List Char × Cursor)
  | 0 => none
  | fuel + 1 =>
    if c.look = '%' then
      match escapedChar? c with
      | some (b, c) => tagSuffix verbatim (text ++ [b]) c fuel
      | none => none
    else if isTagChar verbatim c.look then
      tagSuffix verbatim (text ++ [c.look]) c.advance fuel
    else some (text, c)

/-- Reads a handle: an exclamation mark, a name, and a second mark if one follows. -/
def tagHandle? (c : Cursor) : Option (String × Cursor) :=
  if c.look ≠ '!' then none
  else
    let name := nameAt c.advance
    let c := c.advance (name.length + 1)
    if c.look = '!' then some ("!" ++ name ++ "!", c.advance) else some ("!" ++ name, c)

/-- Reads a tag. Its handle is empty where the suffix is the whole tag. -/
def tagToken? (inFlow : Bool) (c : Cursor) : Option (Token × Cursor) := do
  let (token, c) ←
    if c.look 1 = '<' then do
      let (suffix, c) ← tagSuffix true [] (c.advance 2) (c.rest.length + 1)
      if suffix.isEmpty || c.look ≠ '>' then failure
      pure (Token.tag "" (String.ofList suffix), c.advance)
    else do
      let (handle, c) ← tagHandle? c
      if 1 < handle.length && handle.endsWith "!" then do
        let (suffix, c) ← tagSuffix false [] c (c.rest.length + 1)
        if suffix.isEmpty then failure
        pure (Token.tag handle (String.ofList suffix), c)
      else do
        let (suffix, c) ← tagSuffix false (handle.toList.drop 1) c (c.rest.length + 1)
        let suffix := String.ofList suffix
        pure (if suffix.isEmpty then Token.tag "" "!" else Token.tag "!" suffix, c)
  if isWordEnd c.look || (inFlow && c.look = ',') then some (token, c) else none

/-- Reads a part of a version: at most nine digits. -/
def versionNumber? (c : Cursor) : Option (Nat × Cursor) :=
  let digits := c.rest.takeWhile Char.isDigit
  if digits.isEmpty || 9 < digits.length then none
  else some (digits.foldl (fun n d => n * 10 + (d.toNat - '0'.toNat)) 0, c.advance digits.length)

/-- Reads a directive from behind its percent sign, up to the end of its line. -/
def directive? (c : Cursor) : Option (Token × Cursor) := do
  let name := nameAt c
  let c := c.advance name.length
  if name.isEmpty || !isWordEnd c.look then failure
  let c := c.skipWhile isBlank
  let (token, c) ← match name with
    | "YAML" => do
      let (major, c) ← versionNumber? c
      if c.look ≠ '.' then failure
      let (minor, c) ← versionNumber? c.advance
      pure (Token.version major minor, c)
    | "TAG" => do
      let (handle, c) ← tagHandle? c
      if handle ≠ "!" && !(1 < handle.length && handle.endsWith "!") then failure
      if !isBlank c.look then failure
      let c := c.skipWhile isBlank
      let (expansion, c) ← tagSuffix true [] c (c.rest.length + 1)
      if expansion.isEmpty || !isWordEnd c.look then failure
      pure (Token.tagHandle handle (String.ofList expansion), c)
    | _ => failure
  let c ← c.skipToLineEnd?
  return (token, c.skipBreak)

end PerWorker.Yaml
