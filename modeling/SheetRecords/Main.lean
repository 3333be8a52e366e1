import SheetRecords.CommandLine.Run

/-!
# The program

Gives the command line the files of the operating system, prints what it says and exits with its
status.
-/

namespace SheetRecords

/-- The reason why the operating system refuses a file. -/
def FileError.ofSystem (e : IO.Error) : FileError :=
  match e with
  | .noFileOrDirectory _ _ _ => .notFound
  | .noSuchThing _ _ _ => .notFound
  | .inappropriateType _ code reason => ofCode code reason
  | .resourceExhausted _ code reason => ofCode code reason
  | .permissionDenied _ code reason => ofCode code reason
  | .otherError code reason => ofCode code reason
  | e => .other e.toString 0
where
  /-- The reason of a number, which may come negated. -/
  ofCode (code : UInt32) (reason : String) : FileError :=
    match (min code (0 - code)).toNat with
    | 20 => .notADirectory
    | 21 => .isADirectory
    | 28 => .noSpace
    | n => .other reason.capitalize n

def attempt {α : Type} (action : IO α) : IO (Except FileError α) := do
  match ← action.toBaseIO with
  | .ok a => return .ok a
  | .error e => return .error (FileError.ofSystem e)

def systemFiles : Files IO where
  read path := attempt do return (← IO.FS.readBinFile path).toList
  write path bytes := attempt (IO.FS.writeBinFile path ⟨bytes.toArray⟩)

end SheetRecords

def main (args : List String) : IO UInt32 := do
  let outcome ← SheetRecords.CommandLine.run SheetRecords.systemFiles args
  let output ← IO.getStdout
  output.write ⟨outcome.output.toArray⟩
  output.flush
  IO.eprint outcome.diagnostics
  return outcome.status.toUInt32
