import ExprTranslate.Text.Quoted
/-!
# The surroundings of a run

A run of the command line reads its standard input and the files named on
it. `World` gives both: the text of standard input, and for every path what
opening it finds: a file and its text, a directory, nothing, or a file
where a directory was needed.

`World.listing` describes a working directory that holds some files and
some empty directories, all directly inside it. A path is followed name by
name: `.` stays, `..` goes up (above the working directory nothing is
known), an empty name (from a doubled or trailing slash) stays in a
directory, and any name after a file finds no directory. An absolute path
starts at the root, which holds the directories of every system (`bin`,
`dev`, `etc`, `tmp`, `usr` and the like); of these, only `/dev/null` is
known inside: an empty file.
-/

namespace ExprTranslate.Cli

/-- What opening a path finds. -/
inductive Entry
  | file (text : String)
  | directory
  | missing
  | notDirectory
  deriving DecidableEq, Repr

/-- Standard input and the entries of paths. -/
structure World where
  stdin : String
  entry : String → Entry

/-- The directories at the root of the file system. -/
def systemDirs : List String :=
  ["bin", "boot", "dev", "etc", "home", "lib", "media", "mnt", "opt", "proc", "root", "run",
    "sbin", "srv", "sys", "tmp", "usr", "var"]

/-- A place reached while following a path. -/
inductive Place
  /-- The working directory. -/
  | top
  /-- One of the directories in it. -/
  | emptyDir
  /-- A directory above it, of which nothing is known. -/
  | above
  /-- The root of the file system. -/
  | root
  /-- A directory at the root. -/
  | systemDir (name : String)
  /-- A file and its text. -/
  | file (text : String)
  /-- Nothing. -/
  | gone
  /-- A path through a file. -/
  | broken

/-- The place one name leads to. -/
def Place.step (files : List (String × String)) (dirs : List String) (p : Place) (name : String) : Place :=
  match p with
  | .top =>
    if name.isEmpty ∨ name == "." then .top
    else if name == ".." then .above
    else match files.find? (·.1 == name) with
      | some (_, t) => .file t
      | none => if dirs.contains name then .emptyDir else .gone
  | .emptyDir => if name.isEmpty ∨ name == "." then .emptyDir else if name == ".." then .top else .gone
  | .above => if name.isEmpty ∨ name == "." ∨ name == ".." then .above else .gone
  | .root =>
    if name.isEmpty ∨ name == "." ∨ name == ".." then .root
    else if systemDirs.contains name then .systemDir name else .gone
  | .systemDir d =>
    if name.isEmpty ∨ name == "." then .systemDir d
    else if name == ".." then .root
    else if d == "dev" && name == "null" then .file ""
    else .gone
  | .file _ => .broken
  | .gone => .gone
  | .broken => .broken

/-- A working directory holding files and empty directories, with a standard input. -/
def World.listing (stdin : String) (files : List (String × String)) (dirs : List String) : World where
  stdin := stdin
  entry path :=
    if path.isEmpty then .missing
    else
      let start := if path.startsWith "/" then Place.root else Place.top
      match (path.splitOn "/").foldl (Place.step files dirs) start with
      | .top | .emptyDir | .above | .root | .systemDir _ => .directory
      | .file t => .file t
      | .gone => .missing
      | .broken => .notDirectory

/-- Where a text comes from: given on the command line, standard input, or a path. -/
inductive Source
  | given (text : String)
  | stdin
  | path (p : String)
  deriving DecidableEq, Repr

/-- The name of a source in messages. -/
def Source.name : Source → String
  | .given _ => "-e"
  | .stdin => "-"
  | .path p => p

/-- The source named by an argument: `-` is standard input. -/
def Source.ofArg (a : String) : Source := if a == "-" then .stdin else .path a

/-- The text of a source, or why it cannot be read. -/
def World.read (w : World) : Source → Except String String
  | .given t => .ok t
  | .stdin => .ok w.stdin
  | .path p =>
    match w.entry p with
    | .file t => .ok t
    | .directory => .error ("scanner cannot read input: read " ++ p ++ ": is a directory")
    | .missing => .error ("cannot open " ++ p ++ ": open " ++ p ++ ": no such file or directory")
    | .notDirectory => .error ("cannot open " ++ p ++ ": open " ++ p ++ ": not a directory")

end ExprTranslate.Cli
