import ComponentDocs.FileSystem
import ComponentDocs.Time.Display

/-!
# Faults of paths and files

Why a path given by a caller, or the file it leads to, could not be used.
-/

namespace ComponentDocs

/-- Why a path or its file could not be used. -/
inductive Fault where
  | file (error : FileError)
  /-- The path starts at the home of somebody else. -/
  | unknownHome
  /-- A name is asked of a path that has none. -/
  | unnamed (path : Path)
  /-- The bytes of the file are no text. -/
  | notText (path : Path)
  /-- The file was changed at no moment of the calendar. -/
  | time (error : CalendarError)
  deriving DecidableEq, Repr

/-- The message of a fault. -/
def Fault.message : Fault → String
  | .file error => error.message
  | .unknownHome => "Could not determine home directory."
  | .unnamed path => "PosixPath(" ++ Text.quoted path.toString ++ ") has an empty name"
  | .notText path => path.toString ++ " is not well-formed UTF-8"
  | .time error => error.message

namespace FileSystem

/-- The path from the root that a path given by a caller stands for. -/
def canonical (fs : FileSystem) (p : Path) : Except Fault Path :=
  match fs.expandHome? p with
  | some p => .ok (fs.resolve p)
  | none => .error .unknownHome

/-- The characters of a text file. -/
def readText (fs : FileSystem) (p : Path) : Except Fault (List Char) :=
  match fs.read p with
  | .error e => .error (.file e)
  | .ok bytes =>
    match Text.readText? bytes with
    | some cs => .ok cs
    | none => .error (.notText p)

/-- The first of several paths that leads to a file. -/
def firstFile (fs : FileSystem) : List Path → Except Fault (Option Path)
  | [] => .ok none
  | path :: rest =>
    match fs.isFile path with
    | .error e => .error (.file e)
    | .ok true => .ok (some path)
    | .ok false => firstFile fs rest

end FileSystem

end ComponentDocs
