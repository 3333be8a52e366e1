import Std.Data.HashSet.Lemmas

/-!
# Pools of texts

A `Pool` is the set of the different texts that were put into it.
-/

namespace SheetRecords.Text

/-- A set of texts that only grows. -/
structure Pool where
  texts : Std.HashSet String

namespace Pool

/-- The pool without texts. -/
def empty : Pool := ⟨∅⟩

/-- Adds a text unless it is there already. -/
def insert (p : Pool) (s : String) : Pool := ⟨p.texts.insert s⟩

def size (p : Pool) : Nat := p.texts.size

def isEmpty (p : Pool) : Bool := p.texts.isEmpty

end Pool

end SheetRecords.Text
