import SheetRecords.Files.Device

/-!
# Files in memory

A `FileTree` holds files under the parts of their paths; its directories are the beginnings of those
paths.  `FileTree.files` lets a program read and write it.  A path is followed part by part, and
every part but the last must lead to a directory.

Around the tree there are the directories above it, the root, the directories of the system and the
devices.  The tree keeps what the devices are sent.
-/

namespace SheetRecords

/-- Files under their paths, each path once, and what was sent to devices, in order. -/
structure FileTree where
  entries : List (List String × List UInt8)
  sent : List (Device × List UInt8)
  deriving DecidableEq, Repr, Inhabited

namespace FileTree

/-- No files. -/
def empty : FileTree := ⟨[], []⟩

/-- What the file or the device at a place holds. -/
def content? (t : FileTree) (place : List String) : Option (List UInt8) :=
  match Device.ofPlace? place with
  | some d => some d.contents
  | none => t.entries.lookup place

/-- Puts a file in the place of the one of that path. -/
def insert (t : FileTree) (path : List String) (bytes : List UInt8) : FileTree :=
  { t with entries := (path, bytes) :: t.entries.filter (·.1 ≠ path) }

def send (t : FileTree) (d : Device) (bytes : List UInt8) : FileTree :=
  { t with sent := t.sent ++ [(d, bytes)] }

def received (t : FileTree) (d : Device) : List UInt8 :=
  t.sent.flatMap fun (e, bytes) => if e = d then bytes else []

/-- Whether a place is the directory of the tree or one above it. -/
def isAbove (place : List String) : Bool :=
  place.all (· = "..")

def isDirectory (t : FileTree) (path : List String) : Bool :=
  isAbove path || systemDirectories.contains path || Device.isAbove path ||
    t.entries.any fun (p, _) => path.isPrefixOf p && path != p

def parent (place : List String) : List String :=
  if isAbove place then place ++ [".."]
  else if place = rootPlace then rootPlace
  else place.dropLast

/-- A part of a path takes this many bytes at most. -/
def nameLimit : Nat := 255

def pathLimit : Nat := 4095

def follow (t : FileTree) (place : List String) : List String → Except FileError (List String)
  | [] => .ok place
  | part :: rest =>
    if (t.content? place).isSome then .error .notADirectory
    else if !t.isDirectory place then .error .notFound
    else if part = "" || part = "." then t.follow place rest
    else if part = ".." then t.follow (parent place) rest
    else if nameLimit < part.utf8ByteSize then .error .nameTooLong
    else t.follow (place ++ [part]) rest

/-- The place where a path starts and the parts of the path, if it can be a path. -/
def split (path : String) : Except FileError (List String × List String) :=
  if path.toList.contains '\x00' then .error .notAName
  else if pathLimit < path.utf8ByteSize then .error .nameTooLong
  else
    let parts := (splitAtSlashes path.toList).map String.ofList
    match path.toList with
    | [] => .error .notFound
    | '/' :: _ => .ok (rootPlace, parts)
    | _ => .ok ([], parts)

def read (t : FileTree) (path : String) : Except FileError (List UInt8) := do
  let (start, parts) ← split path
  let place ← t.follow start parts
  match t.content? place with
  | some bytes => return bytes
  | none => throw (if t.isDirectory place then .isADirectory else .notFound)

/-- Whether the last of some parts is a name with nothing but slashes after it. -/
def endsInSlash (parts : List String) : Bool :=
  match parts.reverse.dropWhile (· = "") with
  | [] => false
  | name :: _ => parts.getLast? = some "" && name ≠ "." && name ≠ ".."

/-- The parts before the last one that is not empty, and an empty one, which leads nowhere but
insists on a directory. -/
def directoryParts (parts : List String) : List String :=
  ((parts.reverse.dropWhile (· = "")).drop 1).reverse ++ [""]

/-- Writes a file into a directory that is there.  A path with a slash at its end stands for a
directory, be there one or not. -/
def write (t : FileTree) (path : String) (bytes : List UInt8) : Except FileError FileTree := do
  let (start, parts) ← split path
  if endsInSlash parts then
    let _ ← t.follow start (directoryParts parts)
    throw .isADirectory
  let place ← t.follow start parts
  if t.isDirectory place then throw .isADirectory
  match Device.ofPlace? place with
  | none => return t.insert place bytes
  | some d => if d.accepts bytes then return t.send d bytes else throw .noSpace

/-- The tree of files with the given paths, of which a later one takes the place of an earlier one.
-/
def ofList (files : List (String × List UInt8)) : FileTree :=
  files.foldl (fun t (path, bytes) => t.insert (pathParts path) bytes) empty

def files : Files (StateM FileTree) where
  read path := do return (← get).read path
  write path bytes := do
    match (← get).write path bytes with
    | .error e => return .error e
    | .ok t =>
      set t
      return .ok ()

end FileTree

end SheetRecords
