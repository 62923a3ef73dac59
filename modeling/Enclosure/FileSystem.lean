import Enclosure.Text.Bytes

/-!
# Files

The files that can be read are those below one directory; every beginning of a file's path is a
directory. A path is walked component by component: `.` stays, `..` goes up, and nothing is known of
what lies outside the directory.
-/

namespace Enclosure

/-- Why a file cannot be read. -/
inductive FileError
  | notFound
  | isDirectory
  | notDirectory
  | nameTooLong
  | notText
  | zeroInName
  deriving DecidableEq, Repr

namespace FileError

def message : FileError → String
  | .notFound => "No such file or directory (os error 2)"
  | .isDirectory => "Is a directory (os error 21)"
  | .notDirectory => "Not a directory (os error 20)"
  | .nameTooLong => "File name too long (os error 36)"
  | .notText => "stream did not contain valid UTF-8"
  | .zeroInName => "file name contained an unexpected NUL byte"

/-- The message without its number, and the number. -/
def short : FileError → String × Nat
  | .notFound => ("No such file or directory", 2)
  | .isDirectory => ("Is a directory", 21)
  | .notDirectory => ("Not a directory", 20)
  | .nameTooLong => ("File name too long", 36)
  | .notText => ("Invalid argument", 22)
  | .zeroInName => ("Invalid argument", 22)

end FileError

/-- The files, each with the components of its path. -/
structure FileSystem where
  files : List (List String × Bytes) := []

namespace FileSystem

/-- Components of a path; an empty one stands for `.`. -/
def components (path : String) : List String :=
  (path.splitOn "/").map fun c => if c.isEmpty then "." else c

def file? (fs : FileSystem) (path : List String) : Option Bytes :=
  (fs.files.find? (·.1 == path)).map (·.2)

/-- Whether `a` is a proper beginning of `b`. -/
def isAbove : List String → List String → Bool
  | [], b => !b.isEmpty
  | x :: a, y :: b => x == y && isAbove a b
  | _ :: _, [] => false

def isDirectory (fs : FileSystem) (path : List String) : Bool :=
  path.isEmpty || fs.files.any fun f => isAbove path f.1

/-- Where a walk has come to: a place below the directory, or so many levels above it. -/
inductive Place
  | below (path : List String)
  | above (levels : Nat)

/-- One component further. -/
def step (fs : FileSystem) (p : Place) (c : String) : Except FileError Place :=
  if c.utf8ByteSize > 255 then .error .nameTooLong
  else
    match p with
    | .above n =>
      if c == "." then .ok p
      else if c == ".." then .ok (.above (n + 1))
      else .error .notFound
    | .below path =>
      if (fs.file? path).isSome then .error .notDirectory
      else if !fs.isDirectory path then .error .notFound
      else if c == "." then .ok p
      else if c == ".." then
        if path.isEmpty then .ok (.above 1) else .ok (.below path.dropLast)
      else .ok (.below (path ++ [c]))

def walk (fs : FileSystem) : Place → List String → Except FileError Place
  | p, [] => .ok p
  | p, c :: rest =>
    match fs.step p c with
    | .ok p => walk fs p rest
    | .error e => .error e

/-- The place that a path names; a path from the root is known only as far as the root. -/
def locate (fs : FileSystem) (path : String) : Except FileError Place :=
  if path.isEmpty then .error .notFound
  else if path.contains (Char.ofNat 0) then .error .zeroInName
  else if path.utf8ByteSize ≥ 4096 then .error .nameTooLong
  else if path.startsWith "/" then fs.walk (.above 0) (components path)
  else fs.walk (.below []) (components path)

def read (fs : FileSystem) (path : String) : Except FileError Bytes :=
  match fs.locate path with
  | .error e => .error e
  | .ok (.above _) => .error .isDirectory
  | .ok (.below p) =>
    match fs.file? p with
    | some b => .ok b
    | none => if fs.isDirectory p then .error .isDirectory else .error .notFound

/-- Puts a file in place of what its path names. -/
def write (fs : FileSystem) (path : String) (content : Bytes) : Except FileError FileSystem :=
  match fs.locate path with
  | .error e => .error e
  | .ok (.above _) => .error .isDirectory
  | .ok (.below p) =>
    if fs.isDirectory p then .error .isDirectory
    else .ok ⟨(p, content) :: fs.files.filter (·.1 != p)⟩

def remove (fs : FileSystem) (path : String) : Except FileError FileSystem :=
  match fs.locate path with
  | .error e => .error e
  | .ok (.above _) => .error .isDirectory
  | .ok (.below p) =>
    if (fs.file? p).isSome then .ok ⟨fs.files.filter (·.1 != p)⟩
    else if fs.isDirectory p then .error .isDirectory
    else .error .notFound

end FileSystem

end Enclosure
