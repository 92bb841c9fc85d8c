/-!
Files and directories as a value. A path is walked component by component from the working
directory, and every component but the last one has to be a directory.
-/
namespace PerWorker

inductive FileError where
  | notFound
  | notADirectory
  | isADirectory
  | notUtf8
  deriving Repr, DecidableEq, Inhabited

def FileError.message : FileError → String
  | .notFound => "No such file or directory (os error 2)"
  | .notADirectory => "Not a directory (os error 20)"
  | .isADirectory => "Is a directory (os error 21)"
  | .notUtf8 => "stream did not contain valid UTF-8"

/-- What a path leads to: its absolute form if something is there, and the text that is there. -/
structure Found where
  absolute : Except FileError String
  text : Except FileError String

/-- A file with its bytes, or a directory with its entries. -/
inductive FileTree where
  | file (bytes : ByteArray)
  | directory (entries : List (String × FileTree))

namespace FileTree

instance : Inhabited FileTree := ⟨.directory []⟩

def entry? (tree : FileTree) (name : String) : Option FileTree :=
  match tree with
  | .file _ => none
  | .directory entries => entries.lookup name

def setEntry (tree : FileTree) (name : String) (entry : FileTree) : FileTree :=
  match tree with
  | .file bytes => .file bytes
  | .directory entries => .directory (entries.filter (·.1 ≠ name) ++ [(name, entry)])

/-- Puts something under a path, with the directories that lead there. -/
def put (leaf : FileTree) : List String → FileTree → FileTree
  | [], _ => leaf
  | name :: rest, tree =>
    tree.setEntry name (put leaf rest ((tree.entry? name).getD (.directory [])))

/-- Walks along components. `above` are the directories passed on the way with the names taken in
them, innermost first; empty components and single dots lead nowhere but need a directory. -/
def walk (above : List (String × FileTree)) (here : FileTree) :
    List String → Except FileError (List String × FileTree)
  | [] => .ok ((above.map (·.1)).reverse, here)
  | name :: rest =>
    match here with
    | .file _ => .error .notADirectory
    | .directory entries =>
      if name = "" || name = "." then walk above here rest
      else if name = ".." then
        match above with
        | [] => .error .notFound
        | (_, outer) :: above => walk above outer rest
      else
        match entries.lookup name with
        | none => .error .notFound
        | some entry => walk ((name, here) :: above) entry rest

def text : FileTree → Except FileError String
  | .directory _ => .error .isADirectory
  | .file bytes =>
    match String.fromUTF8? bytes with
    | some text => .ok text
    | none => .error .notUtf8

/-- The components of a path inside the working directory, which is known by its absolute name.
Nothing for other absolute paths. -/
def components? (root path : String) : Option (List String) :=
  let parts := path.splitOn "/"
  if path = root then some []
  else if path.startsWith (root ++ "/") then some (parts.drop (root.splitOn "/").length)
  else if path.startsWith "/" || path.isEmpty then none
  else some parts

def look (tree : FileTree) (root path : String) : Found :=
  match components? root path with
  | none => { absolute := .error .notFound, text := .error .notFound }
  | some parts =>
    match walk [] tree parts with
    | .error e => { absolute := .error e, text := .error e }
    | .ok (names, found) =>
      { absolute := .ok ("/".intercalate (root :: names)), text := found.text }

end FileTree
end PerWorker
