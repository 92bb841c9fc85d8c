import PerWorker.Yaml.Tokens

/-!
The events of a YAML document: its scalars, aliases, and the starts and ends of its collections. The
grammar is a stack of expectations; a step looks at the next token and the innermost expectation,
and what it expects next takes its place. Where the text is not well formed the events stop.
-/
namespace PerWorker.Yaml

structure Scalar where
  text : String
  style : ScalarStyle := .plain
  tag : Option String := none
  deriving Repr, DecidableEq, Inhabited

/-- An event. Nodes may carry an anchor, by which an alias names them. -/
inductive Event where
  | scalar (anchor : Option String) (value : Scalar)
  | alias (name : String)
  | sequenceStart (anchor : Option String)
  | sequenceEnd
  | mappingStart (anchor : Option String)
  | mappingEnd
  deriving Repr, DecidableEq, Inhabited

inductive Expectation where
  /-- A document, which needs a start mark if it is not the first one. -/
  | document (first : Bool)
  /-- What follows the mark that starts a document. -/
  | content
  | documentEnd
  /-- A node, in a block or within brackets. After a key a sequence needs no indentation. -/
  | node (inBlock afterKey : Bool)
  | blockItem
  | flatItem
  | blockKey
  | blockValue
  | flowItem (first : Bool)
  /-- The key, value and end of a mapping that is one item of a sequence in brackets. -/
  | pairKey
  | pairValue
  | pairEnd
  | flowKey (first : Bool)
  | flowValue
  /-- The value of a key that no colon follows. -/
  | noValue
  deriving Repr, DecidableEq, Inhabited

structure Outline where
  tokens : Tokens
  expected : List Expectation := [.document true]
  /-- Tag handles of the document and their expansions. -/
  handles : List (String × String) := []
  deriving Inhabited

namespace Outline

def standardHandles : List (String × String) := [("!", "!"), ("!!", "tag:yaml.org,2002:")]

def missing : Event := .scalar none { text := "" }

def expand? (o : Outline) (handle suffix : String) : Option String :=
  if handle.isEmpty then some suffix else (o.handles.lookup handle).map (· ++ suffix)

/-- Reads the directives in front of a document, at most `fuel` of them. -/
def directives? (tokens : Tokens) (version : Bool) (handles : List (String × String)) :
    Nat → Option (Tokens × List (String × String))
  | 0 => none
  | fuel + 1 => do
    let (token, tokens) ← tokens.next?
    match token with
    | .version major minor =>
      if version || major ≠ 1 || (minor ≠ 1 && minor ≠ 2) then failure
      directives? tokens.drop true handles fuel
    | .tagHandle handle expansion =>
      if (handles.lookup handle).isSome then failure
      directives? tokens.drop version (handles ++ [(handle, expansion)]) fuel
    | _ => return (tokens, handles)

/-- Goes past the marks that end a document, at most `fuel` of them. -/
def skipDocumentEnds? (tokens : Tokens) : Nat → Option (Token × Tokens)
  | 0 => none
  | fuel + 1 => do
    let (token, tokens) ← tokens.next?
    if token = .documentEnd then skipDocumentEnds? tokens.drop fuel else return (token, tokens)

/-- An anchor and a tag in front of a node, in either order. -/
def properties? (tokens : Tokens) :
    Option (Option String × Option (String × String) × Token × Tokens) := do
  let (token, tokens) ← tokens.next?
  match token with
  | .anchor name =>
    let (token, tokens) ← tokens.drop.next?
    match token with
    | .tag handle suffix =>
      let (token, tokens) ← tokens.drop.next?
      return (some name, some (handle, suffix), token, tokens)
    | token => return (some name, none, token, tokens)
  | .tag handle suffix =>
    let (token, tokens) ← tokens.drop.next?
    match token with
    | .anchor name =>
      let (token, tokens) ← tokens.drop.next?
      return (some name, some (handle, suffix), token, tokens)
    | token => return (none, some (handle, suffix), token, tokens)
  | token => return (none, none, token, tokens)

/-- What a step yields: an event if one is complete, and the expectations in place of the innermost
one. -/
abbrev Step := Option (Option Event × Outline)

def go (o : Outline) (tokens : Tokens) (expected : List Expectation) : Step :=
  some (none, { o with tokens, expected })

def emit (o : Outline) (tokens : Tokens) (event : Event) (expected : List Expectation) : Step :=
  some (some event, { o with tokens, expected })

def node (o : Outline) (inBlock afterKey : Bool) (below : List Expectation) : Step := do
  let (first, tokens) ← o.tokens.next?
  match first with
  | .alias name => o.emit tokens.drop (.alias name) below
  | _ =>
    let (anchor, written, token, tokens) ← properties? tokens
    let tag ← match written with
      | some (handle, suffix) => (o.expand? handle suffix).map some
      | none => pure none
    match token with
    | .scalar style text =>
      let tag := if tag = some "!" then none else tag
      o.emit tokens.drop (.scalar anchor { text, style, tag }) below
    | .flowSequenceStart => o.emit tokens.drop (.sequenceStart anchor) (.flowItem true :: below)
    | .flowMappingStart => o.emit tokens.drop (.mappingStart anchor) (.flowKey true :: below)
    | .blockEntry =>
      if afterKey then o.emit tokens (.sequenceStart anchor) (.flatItem :: below)
      else if anchor.isSome || tag.isSome then
        o.emit tokens (.scalar anchor { text := "", tag }) below
      else none
    | token =>
      if inBlock && token = .blockSequenceStart then
        o.emit tokens.drop (.sequenceStart anchor) (.blockItem :: below)
      else if inBlock && token = .blockMappingStart then
        o.emit tokens.drop (.mappingStart anchor) (.blockKey :: below)
      else if anchor.isSome || tag.isSome then
        o.emit tokens (.scalar anchor { text := "", tag }) below
      else none

def step (o : Outline) : Step := do
  match o.expected with
  | [] => none
  | .document first :: _ =>
    let (token, tokens) ←
      if first then o.tokens.next?
      else skipDocumentEnds? o.tokens (o.tokens.cursor.rest.length + o.tokens.found.size + 2)
    let explicit : Bool := match token with
      | .version .. | .tagHandle .. | .documentStart => true
      | _ => false
    if token = .streamEnd then o.go tokens []
    else if first && !explicit then
      Outline.go { o with handles := standardHandles } tokens [.node true false, .documentEnd]
    else
      let (tokens, handles) ← directives? tokens false [] (tokens.cursor.rest.length + 2)
      let (token, tokens) ← tokens.next?
      if token ≠ .documentStart then failure
      Outline.go { o with handles := handles ++ standardHandles } tokens.drop
        [.content, .documentEnd]
  | .content :: below =>
    let (token, tokens) ← o.tokens.next?
    match token with
    | .version .. | .tagHandle .. | .documentStart | .documentEnd | .streamEnd =>
      o.emit tokens missing below
    | _ => o.go tokens (.node true false :: below)
  | .documentEnd :: _ =>
    let (token, tokens) ← o.tokens.next?
    o.go (if token = .documentEnd then tokens.drop else tokens) [.document false]
  | .node inBlock afterKey :: below => o.node inBlock afterKey below
  | .blockItem :: below =>
    let (token, tokens) ← o.tokens.next?
    match token with
    | .blockEntry =>
      let (token, tokens) ← tokens.drop.next?
      match token with
      | .blockEntry | .blockEnd => o.emit tokens missing (.blockItem :: below)
      | _ => o.go tokens (.node true false :: .blockItem :: below)
    | .blockEnd => o.emit tokens.drop .sequenceEnd below
    | _ => none
  | .flatItem :: below =>
    let (token, tokens) ← o.tokens.next?
    match token with
    | .blockEntry =>
      let (token, tokens) ← tokens.drop.next?
      match token with
      | .blockEntry | .key | .value | .blockEnd => o.emit tokens missing (.flatItem :: below)
      | _ => o.go tokens (.node true false :: .flatItem :: below)
    | _ => o.emit tokens .sequenceEnd below
  | .blockKey :: below =>
    let (token, tokens) ← o.tokens.next?
    match token with
    | .key =>
      let (token, tokens) ← tokens.drop.next?
      match token with
      | .key | .value | .blockEnd => o.emit tokens missing (.blockValue :: below)
      | _ => o.go tokens (.node true true :: .blockValue :: below)
    | .blockEnd => o.emit tokens.drop .mappingEnd below
    | _ => none
  | .blockValue :: below =>
    let (token, tokens) ← o.tokens.next?
    match token with
    | .value =>
      let (token, tokens) ← tokens.drop.next?
      match token with
      | .key | .value | .blockEnd => o.emit tokens missing (.blockKey :: below)
      | _ => o.go tokens (.node true true :: .blockKey :: below)
    | _ => o.emit tokens missing (.blockKey :: below)
  | .flowItem first :: below =>
    let (token, tokens) ← o.tokens.next?
    if token = .flowSequenceEnd then o.emit tokens.drop .sequenceEnd below
    else
      let (token, tokens) ←
        if first then some (token, tokens)
        else if token = .flowEntry then tokens.drop.next?
        else none
      match token with
      | .key => o.emit tokens.drop (.mappingStart none) (.pairKey :: below)
      | .flowSequenceEnd => o.emit tokens.drop .sequenceEnd below
      | _ => o.go tokens (.node false false :: .flowItem false :: below)
  | .pairKey :: below =>
    let (token, tokens) ← o.tokens.next?
    match token with
    | .value | .flowEntry | .flowSequenceEnd => o.emit tokens.drop missing (.pairValue :: below)
    | _ => o.go tokens (.node false false :: .pairValue :: below)
  | .pairValue :: below =>
    let (token, tokens) ← o.tokens.next?
    if token = .value then
      let (token, tokens) ← tokens.drop.next?
      match token with
      | .flowEntry | .flowSequenceEnd => o.emit tokens missing (.pairEnd :: below)
      | _ => o.go tokens (.node false false :: .pairEnd :: below)
    else o.emit tokens missing (.pairEnd :: below)
  | .pairEnd :: below => o.emit o.tokens .mappingEnd (.flowItem false :: below)
  | .flowKey first :: below =>
    let (token, tokens) ← o.tokens.next?
    if token = .flowMappingEnd then o.emit tokens.drop .mappingEnd below
    else
      let (token, tokens) ←
        if first then some (token, tokens)
        else if token = .flowEntry then tokens.drop.next?
        else none
      match token with
      | .key =>
        let (token, tokens) ← tokens.drop.next?
        match token with
        | .value | .flowEntry | .flowMappingEnd => o.emit tokens missing (.flowValue :: below)
        | _ => o.go tokens (.node false false :: .flowValue :: below)
      | .flowMappingEnd => o.emit tokens.drop .mappingEnd below
      | _ => o.go tokens (.node false false :: .noValue :: below)
  | .flowValue :: below =>
    let (token, tokens) ← o.tokens.next?
    if token = .value then
      let (token, tokens) ← tokens.drop.next?
      match token with
      | .flowEntry | .flowMappingEnd => o.emit tokens missing (.flowKey false :: below)
      | _ => o.go tokens (.node false false :: .flowKey false :: below)
    else o.emit tokens missing (.flowKey false :: below)
  | .noValue :: below =>
    let (_, tokens) ← o.tokens.next?
    o.emit tokens missing (.flowKey false :: below)

def isPastDocument (o : Outline) : Bool := o.expected = [.document false]

def isAtEnd (o : Outline) : Bool :=
  match o.step with
  | some (none, next) => next.expected.isEmpty
  | _ => false

end Outline

/-- The events of the first document of a text, as far as the text is well formed, and whether all
of it is one well-formed document. -/
structure Events where
  events : List Event
  complete : Bool
  deriving Repr, Inhabited

namespace Events

/-- Takes steps, at most `fuel` of them, up to the end of the first document. -/
def take (o : Outline) : Nat → Events
  | 0 => { events := [], complete := false }
  | fuel + 1 =>
    if o.expected.isEmpty then { events := [], complete := true }
    else if o.isPastDocument then { events := [], complete := o.isAtEnd }
    else
      match o.step with
      | none => { events := [], complete := false }
      | some (event, o) =>
        let later := take o fuel
        { later with events := event.toList ++ later.events }

def ofText (text : String) : Events :=
  if text.toList.all isReadable then
    take { tokens := .ofText text } (20 * (text.length + 20))
  else { events := [], complete := false }

end Events
end PerWorker.Yaml
