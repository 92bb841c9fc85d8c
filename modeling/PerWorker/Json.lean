/-!
JSON values and their compact text. A value keeps the order of its members and the exact size of
its integers; a numeral that is no 64-bit integer is kept as it is written. The text has no
blanks, and inside a string only the quote, the backslash and the control characters below space
are escaped.
-/
namespace PerWorker

inductive Json where
  | null
  | bool (value : Bool)
  | int (value : Int)
  | real (numeral : String)
  | str (value : String)
  | arr (items : List Json)
  | obj (members : List (String × Json))
  deriving Repr, Inhabited

namespace Json

def nat (n : Nat) : Json := .int n

def strings (items : List String) : Json := .arr (items.map .str)

def member? (name : String) : Json → Option Json
  | .obj members => (members.find? (·.1 == name)).map (·.2)
  | _ => none

/-- The member of that name, where a member that says null counts as missing. -/
def field? (value : Json) (name : String) : Option Json :=
  match value.member? name with
  | some .null => none
  | found => found

def hexDigit (n : Nat) : Char :=
  if n < 10 then Char.ofNat ('0'.toNat + n) else Char.ofNat ('a'.toNat + (n - 10))

def escaped (c : Char) : List Char :=
  if c = '"' then ['\\', '"']
  else if c = '\\' then ['\\', '\\']
  else if c = '\x08' then ['\\', 'b']
  else if c = '\x0c' then ['\\', 'f']
  else if c = '\n' then ['\\', 'n']
  else if c = '\r' then ['\\', 'r']
  else if c = '\t' then ['\\', 't']
  else if c.toNat < 0x20 then
    ['\\', 'u', '0', '0', hexDigit (c.toNat / 16), hexDigit (c.toNat % 16)]
  else [c]

def stringBody (chars : List Char) : List Char := chars.flatMap escaped

def quoted (s : String) : String := "\"" ++ String.ofList (stringBody s.toList) ++ "\""

mutual
def render : Json → String
  | .null => "null"
  | .bool true => "true"
  | .bool false => "false"
  | .int n => toString n
  | .real numeral => numeral
  | .str s => quoted s
  | .arr items => "[" ++ renderItems items ++ "]"
  | .obj members => "\x7b" ++ renderMembers members ++ "\x7d"

def renderItems : List Json → String
  | [] => ""
  | [last] => render last
  | item :: rest => render item ++ "," ++ renderItems rest

def renderMembers : List (String × Json) → String
  | [] => ""
  | [(name, last)] => quoted name ++ ":" ++ render last
  | (name, value) :: rest => quoted name ++ ":" ++ render value ++ "," ++ renderMembers rest
end

end Json
end PerWorker
