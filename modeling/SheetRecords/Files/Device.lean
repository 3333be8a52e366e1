import SheetRecords.Files.Basic

/-!
# Devices

Around the files that are kept there are those that the system makes: a place that leads to one of
them (`Device.ofPlace?`) is no place for another file.  `Device.contents` is what a program reads
from a device, and `Device.accepts` says whether it takes what a program writes to it.

A place is a list of the parts of a path, and the root directory is the place `rootPlace`.
-/

namespace SheetRecords

def rootPlace : List String := ["/"]

/-- The places under the root where a system has directories. -/
def systemDirectories : List (List String) :=
  ["bin", "boot", "dev", "etc", "home", "lib", "media", "mnt", "opt", "proc", "root", "run", "sbin",
    "srv", "sys", "tmp", "usr", "var"].map fun name => rootPlace ++ [name]

/-- A file that the system makes. -/
inductive Device where
  /-- Holds nothing, and what is written to it is lost. -/
  | null
  /-- Holds zero bytes without an end, and what is written to it is lost. -/
  | zero
  /-- Holds zero bytes without an end, and has no room for another byte. -/
  | full
  /-- What the program is given to read, which is nothing. -/
  | input
  /-- What the program prints. -/
  | output
  /-- The diagnostics of the program. -/
  | diagnostics
  deriving DecidableEq, Repr

namespace Device

def named : List (String × Device) :=
  [("null", null), ("zero", zero), ("full", full), ("stdin", input), ("stdout", output),
    ("stderr", diagnostics)]

/-- The devices with which a program starts, under their numbers. -/
def numbered : List (String × Device) :=
  [("0", input), ("1", output), ("2", diagnostics)]

def places : List (List String × Device) :=
  (named.map fun (name, d) => (rootPlace ++ ["dev", name], d)) ++
    (numbered.map fun (name, d) => (rootPlace ++ ["dev", "fd", name], d)) ++
    numbered.map fun (name, d) => (rootPlace ++ ["proc", "self", "fd", name], d)

def ofPlace? (place : List String) : Option Device := places.lookup place

/-- Whether a place is a directory on the way to a device. -/
def isAbove (place : List String) : Bool :=
  places.any fun (p, _) => place.isPrefixOf p && place != p

/-- What a program reads from a device, of which only the beginning is told if there is no end. -/
def contents : Device → List UInt8
  | zero => [0]
  | full => [0]
  | _ => []

/-- Whether a device takes some bytes. -/
def accepts (d : Device) (bytes : List UInt8) : Bool :=
  d != full || bytes.isEmpty

end Device

end SheetRecords
