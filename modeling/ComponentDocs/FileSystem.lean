import ComponentDocs.Path
import ComponentDocs.Text.Quoted
import ComponentDocs.Text.Utf8

/-!
# File systems

A file system is a value: a tree of directories and files together with the current and the home
directory.  Looking up a path follows its segments one by one, a double dot leading back to the
directory before; every operation on files is a function of the tree.
-/

namespace ComponentDocs

/-- A file with its bytes, or a directory with its entries; the time of the last change is in
nanoseconds since the start of the year 1970. -/
inductive Entry where
  | file (content : List UInt8) (modified : Int)
  | directory (modified : Int) (children : List (String × Entry))

/-- What is wrong with a path that cannot be used. -/
inductive FileProblem where
  | missing
  | notDirectory
  | isDirectory
  | nameTooLong
  deriving DecidableEq, Repr

/-- A failed operation on a file. -/
structure FileError where
  problem : FileProblem
  path : Path
  deriving DecidableEq, Repr

/-- The number and the wording of a problem. -/
def FileProblem.text : FileProblem → String
  | .missing => "[Errno 2] No such file or directory"
  | .notDirectory => "[Errno 20] Not a directory"
  | .isDirectory => "[Errno 21] Is a directory"
  | .nameTooLong => "[Errno 36] File name too long"

/-- The message of a failed operation. -/
def FileError.message (e : FileError) : String :=
  e.problem.text ++ ": " ++ Text.quoted e.path.toString

namespace Entry

/-- The time of the last change. -/
def modified : Entry → Int
  | file _ t => t
  | directory t _ => t

/-- The entries of a directory; a file has none. -/
def children : Entry → List (String × Entry)
  | file _ _ => []
  | directory _ children => children

/-- The entries with one set: in place where the name is known, at the end otherwise. -/
def setChild (name : String) (entry : Entry) : List (String × Entry) → List (String × Entry)
  | [] => [(name, entry)]
  | (n, e) :: rest => if n = name then (name, entry) :: rest else (n, e) :: setChild name entry rest

/-- The entry a name leads to. -/
def child? (name : String) (e : Entry) : Option Entry := e.children.lookup name

/-- The time that new directories have. -/
def defaultTime : Int := 1700000000000000000

/-- The tree with an entry put at the given place; missing directories on the way are made. -/
def put (entry : Entry) : List String → Entry → Entry
  | [], _ => entry
  | name :: rest, here =>
    let below := (here.child? name).getD (directory defaultTime [])
    directory here.modified (setChild name (put entry rest below) here.children)

/-- The tree with the directory at the given place made, if nothing stands there. -/
def makeDirectory (place : List String) (here : Entry) : Entry :=
  match place with
  | [] => here
  | name :: rest =>
    let below := (here.child? name).getD (directory defaultTime [])
    directory here.modified (setChild name (makeDirectory rest below) here.children)

/-- The tree without the entry at the given place. -/
def remove : List String → Entry → Entry
  | [], here => here
  | [name], here =>
    match here with
    | directory t children => directory t (children.filter fun (n, _) => n ≠ name)
    | other => other
  | name :: rest, here =>
    match here.child? name with
    | some below => directory here.modified (setChild name (remove rest below) here.children)
    | none => here

/-- The tree with the time of the entry at the given place set. -/
def touch (time : Int) : List String → Entry → Entry
  | [], file content _ => file content time
  | [], directory _ children => directory time children
  | name :: rest, here =>
    match here.child? name with
    | some below => directory here.modified (setChild name (touch time rest below) here.children)
    | none => here

mutual

/-- The number of bytes in the files below an entry, and two more for each file. -/
def weight : Entry → Nat
  | file content _ => content.length + 2
  | directory _ children => weightOfAll children

/-- The weight of several entries. -/
def weightOfAll : List (String × Entry) → Nat
  | [] => 0
  | (_, entry) :: rest => entry.weight + weightOfAll rest

end

/-- The greatest length of a file name, in bytes. -/
def nameLimit : Nat := 255

/-- Follows segments from an entry; `above` are the directories that lead to it, nearest first. -/
def follow (above : List Entry) (here : Entry) : List String → Except FileProblem Entry
  | [] => .ok here
  | segment :: rest =>
    match here with
    | file _ _ => .error .notDirectory
    | directory _ children =>
      if segment = ".." then
        match above with
        | up :: more => follow more up rest
        | [] => follow [] here rest
      else if nameLimit < segment.utf8ByteSize then .error .nameTooLong
      else
        match children.lookup segment with
        | some below => follow (here :: above) below rest
        | none => .error .missing

end Entry

/-- A tree with a current and a home directory, both given by their segments from the root. -/
structure FileSystem where
  top : Entry
  current : List String
  home : List String

namespace FileSystem

/-- The current directory. -/
def currentPath (fs : FileSystem) : Path := ⟨.root, fs.current⟩

/-- The path from the root, double dots and all. -/
def absolute (fs : FileSystem) (p : Path) : Path := fs.currentPath.join p

/-- The path from the root with its double dots resolved by their segments alone; the tree has no
links, so that is where the path leads. -/
def resolve (fs : FileSystem) (p : Path) : Path :=
  ⟨.root, Path.resolveDots (fs.absolute p).segments⟩

/-- The path with a leading tilde replaced by the home directory; the home of another user is not
known. -/
def expandHome? (fs : FileSystem) (p : Path) : Option Path :=
  match p.anchor, p.segments with
  | .relative, first :: rest =>
    if first = "~" then some ⟨.root, fs.home ++ rest⟩
    else if first.toList.head? == some '~' then none
    else some p
  | _, _ => some p

/-- The greatest length of a path, in bytes. -/
def pathLimit : Nat := 4095

/-- The entry a path leads to. -/
def lookup (fs : FileSystem) (p : Path) : Except FileProblem Entry :=
  if pathLimit < p.toString.utf8ByteSize then .error .nameTooLong
  else Entry.follow [] fs.top (fs.absolute p).segments

/-- The entry a path leads to, or nothing if there is none; only a name that is too long is an
error. -/
def entry? (fs : FileSystem) (p : Path) : Except FileError (Option Entry) :=
  match fs.lookup p with
  | .ok e => .ok (some e)
  | .error .nameTooLong => .error ⟨.nameTooLong, p⟩
  | .error _ => .ok none

/-- Whether the path leads to a file. -/
def isFile (fs : FileSystem) (p : Path) : Except FileError Bool := do
  match ← fs.entry? p with
  | some (.file ..) => return true
  | _ => return false

/-- Whether the path leads to a directory. -/
def isDirectory (fs : FileSystem) (p : Path) : Except FileError Bool := do
  match ← fs.entry? p with
  | some (.directory ..) => return true
  | _ => return false

/-- Whether the path leads anywhere. -/
def exists? (fs : FileSystem) (p : Path) : Except FileError Bool := do
  return (← fs.entry? p).isSome

/-- The bytes of the file a path leads to. -/
def read (fs : FileSystem) (p : Path) : Except FileError (List UInt8) :=
  match fs.lookup p with
  | .ok (.file content _) => .ok content
  | .ok (.directory ..) => .error ⟨.isDirectory, p⟩
  | .error problem => .error ⟨problem, p⟩

/-- The time of the last change of what a path leads to. -/
def modified? (fs : FileSystem) (p : Path) : Option Int :=
  (fs.lookup p).toOption.map Entry.modified

/-- The file system with a file written. -/
def write (fs : FileSystem) (p : Path) (content : List UInt8) (time : Int) : FileSystem :=
  { fs with top := Entry.put (.file content time) (fs.resolve p).segments fs.top }

/-- The file system with bytes added at the end of a file, which is made if it is missing. -/
def append (fs : FileSystem) (p : Path) (bytes : List UInt8) (time : Int) :
    Except FileError FileSystem :=
  match fs.lookup p with
  | .ok (.file content _) => .ok (fs.write p (content ++ bytes) time)
  | .ok (.directory ..) => .error ⟨.isDirectory, p⟩
  | .error .missing =>
    match fs.lookup p.parent with
    | .ok (.directory ..) => .ok (fs.write p bytes time)
    | .ok (.file ..) => .error ⟨.notDirectory, p⟩
    | .error problem => .error ⟨problem, p⟩
  | .error problem => .error ⟨problem, p⟩

/-- The file system with a directory made. -/
def makeDirectory (fs : FileSystem) (p : Path) : FileSystem :=
  { fs with top := fs.top.makeDirectory (fs.resolve p).segments }

/-- The file system without what the path leads to. -/
def delete (fs : FileSystem) (p : Path) : FileSystem :=
  { fs with top := fs.top.remove (fs.resolve p).segments }

/-- The file system with the time of an entry set. -/
def touch (fs : FileSystem) (p : Path) (time : Int) : FileSystem :=
  { fs with top := fs.top.touch time (fs.resolve p).segments }

end FileSystem

end ComponentDocs
