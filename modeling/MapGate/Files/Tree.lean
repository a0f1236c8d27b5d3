import MapGate.Text.List

/-!
# File trees

The files below a directory by their paths. Directories exist where they were
made and wherever something that can be seen lies below them.
-/

namespace MapGate

/-- A path: the names on the way down. -/
abbrev Path := List String

/-- The path that a text writes, where empty names and single points lead
nowhere. -/
def Path.ofText (text : String) : Path :=
  (Text.splitOn '/' text).filter fun name => name ≠ "" && name ≠ "."

/-- The text for a name in a directory. A name that starts at the root of all files stands
for itself, and a directory that is not named is the one that all other names start from. -/
def Path.join (directory name : String) : String :=
  if name.toList.head? = some '/' then name
  else if directory = "" ∨ directory.toList.getLast? = some '/' then directory ++ name
  else directory ++ "/" ++ name

/-- The text for a path below a directory. -/
def Path.textBelow (directory : String) (path : Path) : String := path.foldl join directory

/-- What can lie at a path. -/
inductive FileEntry where
  | file (content : ByteArray)
  /-- A file that nobody is let into, for the given reason. -/
  | locked (reason : String)
  /-- A file that is there, but that nobody can look at, for the given reason: it may lie
  in a directory that lets nobody through. -/
  | unseen (reason : String)
  | directory

/-- Whether anybody can look at what lies at a path. -/
def FileEntry.isSeen : FileEntry → Bool
  | file _ | locked _ | directory => true
  | unseen _ => false

/-- What lies below a directory. -/
structure FileTree where
  entries : List (Path × FileEntry)

namespace FileTree

/-- A directory with nothing in it. -/
def empty : FileTree := ⟨[]⟩

/-- What was put at a path. -/
def get? (tree : FileTree) (path : Path) : Option FileEntry := tree.entries.lookup path

/-- The content of the file at a path. -/
def read? (tree : FileTree) (path : Path) : Option ByteArray :=
  match tree.get? path with
  | some (.file content) => some content
  | _ => none

/-- Whether anything can be seen at a path. -/
def hasEntry (tree : FileTree) (path : Path) : Bool :=
  path.isEmpty || tree.entries.any fun (other, entry) => path.isPrefixOf other && entry.isSeen

/-- What lies below a path. -/
def below (tree : FileTree) (path : Path) : FileTree :=
  ⟨tree.entries.filterMap fun (other, entry) =>
    if path.isPrefixOf other then some (other.drop path.length, entry) else none⟩

/-- The text of the file at a path, or why there is none to be had. -/
def readText (tree : FileTree) (path : Path) : Except String String :=
  match tree.get? path with
  | some (.file content) =>
    match String.fromUTF8? content with
    | some text => .ok text
    | none => .error "stream did not contain valid UTF-8"
  | some (.locked reason) | some (.unseen reason) => .error reason
  | some .directory => .error "Is a directory (os error 21)"
  | none => .error "No such file or directory (os error 2)"

/-- Whether there is a file at a path that cannot be opened. -/
def isBarred (tree : FileTree) (path : Path) : Bool :=
  match tree.get? path with
  | some (.locked _) | some (.unseen _) => true
  | some (.file _) | some .directory | none => false

/-- Whether a file can be seen at a path. One that cannot be opened counts, but not one
that nobody can look at. -/
def isFile (tree : FileTree) (path : Path) : Bool :=
  match tree.get? path with
  | some (.file _) | some (.locked _) => true
  | some (.unseen _) | some .directory | none => false

/-- Whether there is a directory at a path. -/
def isDirectory (tree : FileTree) (path : Path) : Bool :=
  path.isEmpty || tree.entries.any fun (other, entry) =>
    path.isPrefixOf other && match entry with
      | .directory => true
      | .file _ | .locked _ => path.length < other.length
      | .unseen _ => false

/-- The tree with an entry at a path. -/
def put (tree : FileTree) (path : Path) (entry : FileEntry) : FileTree :=
  ⟨(path, entry) :: tree.entries.filter (·.1 ≠ path)⟩

/-- The tree with a directory at a path, unless a file is on the way. -/
def makeDirectory? (tree : FileTree) (path : Path) : Option FileTree :=
  let isTaken (place : Path) := tree.isFile place || tree.isBarred place
  if (List.range (path.length + 1)).any fun n => isTaken (path.take n) then none
  else if tree.isDirectory path then some tree
  else some (tree.put path .directory)

/-- The tree with some bytes after those of the file at a path, which is made if
there is none. -/
def append (tree : FileTree) (path : Path) (bytes : ByteArray) : FileTree :=
  tree.put path (.file ((tree.read? path).getD ByteArray.empty ++ bytes))

end FileTree

end MapGate
