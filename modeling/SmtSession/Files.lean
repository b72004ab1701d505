import SmtSession.Text.Display

/-!
# Paths and files

**A path** is a row of names, from the working directory unless it is
absolute. Names that say nothing, empty ones and single dots, are left out.

**The files** at hand are known by their places: the names on the way from
the working directory, or from the root, which has a name of its own. A place
has double dots only in front, for the directories that the working directory
is in. Walking a path goes through directories only; what stands in the way is
an error, and so is a use that does not fit what is found.
-/

namespace SmtSession

/-- A path. -/
structure Path where
  absolute : Bool := false
  names : List String
  deriving DecidableEq, Inhabited

namespace Path

/-- The path that a text writes. -/
def ofText (s : String) : Path :=
  { absolute := s.startsWith "/"
    names := ((s.splitOn "/").filter fun name => name ≠ "" ∧ name ≠ ".") }

/-- The shortest text that writes the path. -/
def text (p : Path) : String :=
  let row := String.intercalate "/" p.names
  if p.absolute then "/" ++ row else if p.names.isEmpty then "." else row

/-- The last name, if there is one. -/
def name (p : Path) : String :=
  p.names.getLastD ""

/-- The path with one more name. -/
def join (p : Path) (name : String) : Path :=
  { p with names := p.names ++ [name] }

end Path

/-- Why a file cannot be used. -/
inductive FileFault
  | notFound
  | malformed
  | denied
  | notDirectory
  | isDirectory
  deriving DecidableEq, Inhabited

namespace FileFault

/-- The number and the words of the system for a fault. -/
def description : FileFault → Nat × String
  | .notFound => (2, "No such file or directory")
  | .malformed => (8, "Exec format error")
  | .denied => (13, "Permission denied")
  | .notDirectory => (20, "Not a directory")
  | .isDirectory => (21, "Is a directory")

/-- The message about a fault with the file that a text names. -/
def message (f : FileFault) (shown : String) : String :=
  "[Errno " ++ toString f.description.1 ++ "] " ++ f.description.2 ++ ": " ++ Text.display shown

end FileFault

/-- What is at a place. -/
inductive Entry
  | directory
  | file (content : String) (executable : Bool)
  deriving DecidableEq, Inhabited

/-- Where a file or a directory is. -/
abbrev Place : Type := List String

namespace Place

/-- The root of all directories. -/
def root : Place := ["/"]

/-- Whether a place is the working directory or one that it is in. -/
def isAbove (p : Place) : Bool :=
  p.all (· == "..")

/-- The directory that a place is in. The root is in itself. -/
def parent (p : Place) : Place :=
  if p = root then root else if p.isAbove then p ++ [".."] else p.dropLast

/-- Where one gets from a place by a name. -/
def step (p : Place) (name : String) : Place :=
  if name = ".." then p.parent else p ++ [name]

/-- The place that a path leads to. -/
def ofPath (p : Path) : Place :=
  p.names.foldl step (if p.absolute then root else [])

/-- The text that writes a place as a path. -/
def text (p : Place) : String :=
  match p with
  | "/" :: names => Path.text { absolute := true, names := names }
  | names => Path.text { names := names }

end Place

/-- The files at hand, by place. The root is always there, and so are the
working directory and those that it is in. -/
structure Files where
  entries : List (Place × Entry) := []
  deriving Inhabited

namespace Files

/-- What is at a place. -/
def at? (fs : Files) (place : Place) : Option Entry :=
  if place.isAbove || place = Place.root then some .directory else fs.entries.lookup place

/-- Walks on from a place: the place that is reached and what is there. -/
def walk (fs : Files) (place : Place) : List String → Except FileFault (Place × Option Entry)
  | [] => .ok (place, fs.at? place)
  | name :: names =>
    match fs.at? place with
    | none => .error .notFound
    | some (.file _ _) => .error .notDirectory
    | some .directory => walk fs (place.step name) names

/-- The place of a path, and what is there, if anything is. -/
def resolve (fs : Files) (p : Path) : Except FileFault (Place × Option Entry) :=
  fs.walk (if p.absolute then Place.root else []) p.names

/-- The content of the file at a path. -/
def read (fs : Files) (p : Path) : Except FileFault String := do
  match (← fs.resolve p).2 with
  | none => .error .notFound
  | some .directory => .error .isDirectory
  | some (.file content _) => .ok content

/-- The files with an entry at a place. -/
def put (fs : Files) (place : Place) (e : Entry) : Files :=
  { entries := (place, e) :: fs.entries.filter fun (other, _) => other ≠ place }

/-- Makes the file at a path empty, and makes it if there is none: its place,
and the files then. -/
def truncate (fs : Files) (p : Path) : Except FileFault (Place × Files) := do
  match ← fs.resolve p with
  | (_, some .directory) => .error .isDirectory
  | (place, some (.file _ executable)) => .ok (place, fs.put place (.file "" executable))
  | (place, none) => .ok (place, fs.put place (.file "" false))

/-- The files with a text added to the file at a place. -/
def append (fs : Files) (place : Place) (text : String) : Files :=
  match fs.at? place with
  | some (.file content executable) => fs.put place (.file (content ++ text) executable)
  | _ => fs

/-- Whether a program can be run from a path. -/
def isExecutable (fs : Files) (p : Path) : Bool :=
  match fs.resolve p with
  | .ok (_, some (.file _ executable)) => executable
  | _ => false

/-- The script that a text names as a program. A name alone is looked for
elsewhere, where there are no scripts; and a program is a script if it says
so at its start. -/
def script (fs : Files) (shown : String) : Except FileFault String := do
  if !shown.contains '/' then .error .notFound
  else
    match (← fs.resolve (Path.ofText shown)).2 with
    | none => .error .notFound
    | some .directory => .error .denied
    | some (.file content executable) =>
      if !executable then .error .denied
      else if content.startsWith "#!" then .ok content
      else .error .malformed

end Files

end SmtSession
