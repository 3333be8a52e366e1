/-!
# Files

What the program needs of the files around it: to read one and to write one (`Files`), in whatever
monad that happens.  `FileError` says why a file cannot be read or written, and `fileStem` takes
from a path the name of its file without the extension.
-/

namespace SheetRecords

/-- Why a file cannot be read or written. -/
inductive FileError where
  | notFound
  | notADirectory
  | isADirectory
  | nameTooLong
  /-- There is no room for what is written to an open file. -/
  | noSpace
  /-- A null character stands in the path. -/
  | notAName
  /-- Any other reason, in the words and with the number of the operating system. -/
  | other (reason : String) (code : Nat)
  deriving DecidableEq, Repr

namespace FileError

/-- The wording of a `FileError`. -/
def message : FileError → String
  | .notFound => wording "No such file or directory" 2
  | .notADirectory => wording "Not a directory" 20
  | .isADirectory => wording "Is a directory" 21
  | .nameTooLong => wording "File name too long" 36
  | .noSpace => wording "No space left on device" 28
  | .notAName => "file name contained an unexpected NUL byte"
  | .other reason code => wording reason code
where
  /-- The words and the number of an error. -/
  wording (reason : String) (code : Nat) : String := s!"{reason} (os error {code})"

/-- Whether the file can be opened all the same, and the error shows only as it is read. -/
def isAfterOpening : FileError → Bool
  | .isADirectory => true
  | _ => false

end FileError

/-- The files that a program may read and write. -/
structure Files (m : Type → Type) where
  read : String → m (Except FileError (List UInt8))
  /-- Writes a whole file, which need not be there before. -/
  write : String → List UInt8 → m (Except FileError Unit)

/-! ### Paths -/

/-- The text between slashes, in order. -/
def splitAtSlashes (cs : List Char) : List (List Char) :=
  match cs with
  | [] => [[]]
  | c :: rest =>
    match c, splitAtSlashes rest with
    | '/', parts => [] :: parts
    | c, [] => [[c]]
    | c, part :: parts => (c :: part) :: parts

/-- The parts of a path that lead somewhere: neither empty nor a lone full stop. -/
def pathParts (path : String) : List String :=
  ((splitAtSlashes path.toList).map String.ofList).filter fun part => part ≠ "" && part ≠ "."

/-- The text before the last full stop, if there is one. -/
def beforeLastStop? : List Char → Option (List Char)
  | [] => none
  | c :: rest =>
    match beforeLastStop? rest with
    | some before => some (c :: before)
    | none => if c = '.' then some [] else none

/-- The name of the file of a path without its extension, empty if the path names no file.  A full
stop in front begins no extension. -/
def fileStem (path : String) : String :=
  match (pathParts path).getLast? with
  | none => ""
  | some ".." => ""
  | some name =>
    match beforeLastStop? name.toList with
    | none => name
    | some [] => name
    | some before => String.ofList before

end SheetRecords
