import PerWorker.Yaml.Event

/-!
Documents as trees. A tree is cut where its text stops being well formed; the parts before the cut
can still be looked at. Anchors are numbered, and a number stands for the node that took it last.
-/
namespace PerWorker.Yaml

inductive Node where
  | scalar (anchor : Option Nat) (value : Scalar)
  /-- Stands for the node with that anchor. -/
  | alias (anchor : Nat)
  | sequence (anchor : Option Nat) (items : List Node)
  | mapping (anchor : Option Nat) (entries : List (Node × Node))
  /-- Stands where the text breaks off; nothing else comes after it. -/
  | cut
  deriving Repr, Inhabited

namespace Node

def empty : Node := .scalar none { text := "" }

mutual
def isWhole : Node → Bool
  | .scalar .. | .alias _ => true
  | .sequence _ items => areWhole items
  | .mapping _ entries => areWholeEntries entries
  | .cut => false

def areWhole : List Node → Bool
  | [] => true
  | node :: rest => isWhole node && areWhole rest

def areWholeEntries : List (Node × Node) → Bool
  | [] => true
  | (key, value) :: rest => isWhole key && isWhole value && areWholeEntries rest
end

mutual
/-- The last node, in the order of the text, that takes an anchor. -/
def anchored? (anchor : Nat) : Node → Option Node
  | .scalar own value => if own = some anchor then some (.scalar own value) else none
  | .sequence own items =>
    (anchoredItem? anchor items).or
      (if own = some anchor then some (.sequence own items) else none)
  | .mapping own entries =>
    (anchoredPair? anchor entries).or
      (if own = some anchor then some (.mapping own entries) else none)
  | .alias _ | .cut => none

def anchoredItem? (anchor : Nat) : List Node → Option Node
  | [] => none
  | node :: rest => (anchoredItem? anchor rest).or (anchored? anchor node)

def anchoredPair? (anchor : Nat) : List (Node × Node) → Option Node
  | [] => none
  | (key, value) :: rest =>
    ((anchoredPair? anchor rest).or (anchored? anchor value)).or (anchored? anchor key)
end

/-- The events that are left, and the numbers of the anchors met so far. -/
structure Reading where
  events : List Event
  anchors : List (String × Nat) := []
  deriving Inhabited

/-- Numbers an anchor: it takes the number of different names before it, and the name stands for
that number from then on. -/
def Reading.bind (r : Reading) : Option String → Option Nat × Reading
  | none => (none, r)
  | some name =>
    let number := r.anchors.length
    (some number, { r with anchors := (name, number) :: r.anchors.filter (·.1 ≠ name) })

mutual
/-- Reads a node, at most `fuel` levels deep. An alias of an unknown anchor breaks the text off. -/
def read (r : Reading) : Nat → Node × Reading
  | 0 => (.cut, { r with events := [] })
  | fuel + 1 =>
    match r.events with
    | .scalar anchor value :: rest =>
      let (anchor, r) := { r with events := rest }.bind anchor
      (.scalar anchor value, r)
    | .alias name :: rest =>
      match r.anchors.lookup name with
      | some anchor => (.alias anchor, { r with events := rest })
      | none => (.cut, { r with events := [] })
    | .sequenceStart anchor :: rest =>
      let (anchor, r) := { r with events := rest }.bind anchor
      let (items, r) := readItems r fuel
      (.sequence anchor items, r)
    | .mappingStart anchor :: rest =>
      let (anchor, r) := { r with events := rest }.bind anchor
      let (entries, r) := readEntries r fuel
      (.mapping anchor entries, r)
    | _ => (.cut, { r with events := [] })

def readItems (r : Reading) : Nat → List Node × Reading
  | 0 => ([.cut], { r with events := [] })
  | fuel + 1 =>
    match r.events with
    | [] => ([.cut], r)
    | .sequenceEnd :: rest => ([], { r with events := rest })
    | _ =>
      let (item, r) := read r fuel
      let (items, r) := readItems r fuel
      (item :: items, r)

def readEntries (r : Reading) : Nat → List (Node × Node) × Reading
  | 0 => ([(.cut, .cut)], { r with events := [] })
  | fuel + 1 =>
    match r.events with
    | [] => ([(.cut, .cut)], r)
    | .mappingEnd :: rest => ([], { r with events := rest })
    | _ =>
      let (key, r) := read r fuel
      let (value, r) := read r fuel
      let (entries, r) := readEntries r fuel
      ((key, value) :: entries, r)
end

end Node

structure Document where
  root : Node
  /-- Nothing is wrong with the text behind the document, and no other document follows. -/
  complete : Bool
  deriving Repr, Inhabited

namespace Document

/-- Reads a text. Nothing at all counts as a value that is not written. -/
def ofText (text : String) : Document :=
  let { events, complete } := Events.ofText text
  match events, complete with
  | [], true => { root := .empty, complete }
  | events, complete => { root := (Node.read { events } (2 * events.length + 2)).1, complete }

def resolve (d : Document) : Node → Node
  | .alias anchor => (d.root.anchored? anchor).getD .cut
  | node => node

end Document
end PerWorker.Yaml
