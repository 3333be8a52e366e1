/-!
# UTF-8

`decode` reads bytes as UTF-8: the characters of the longest run of whole characters they begin
with, and the bytes after it, none if and only if all bytes are UTF-8.  Overlong forms, surrogates
and code points beyond the last one are no characters.  `encode` writes a text as UTF-8.
-/

namespace SheetRecords.Text.Utf8

def encode (s : String) : List UInt8 :=
  s.toUTF8.toList

def isContinuation (b : UInt8) : Bool :=
  b.toNat / 64 = 2

/-- The code point of a first byte without its length mark and the bytes that follow it. -/
def codePoint (head : Nat) (tail : List UInt8) : Nat :=
  tail.foldl (fun n b => n * 64 + b.toNat % 64) head

/-- Takes `n` continuation bytes. -/
def continuation? : Nat → List UInt8 → Option (List UInt8 × List UInt8)
  | 0, bytes => some ([], bytes)
  | _ + 1, [] => none
  | n + 1, b :: bytes =>
    if isContinuation b then (continuation? n bytes).map fun (tail, rest) => (b :: tail, rest)
    else none

/-- The length mark of a first byte: how many bytes follow it, what it adds to the code point, and
the least code point that needs that length. -/
def lengthMark? (b : UInt8) : Option (Nat × Nat × Nat) :=
  let n := b.toNat
  if n < 0x80 then some (0, n, 0)
  else if n < 0xC0 then none
  else if n < 0xE0 then some (1, n - 0xC0, 0x80)
  else if n < 0xF0 then some (2, n - 0xE0, 0x800)
  else if n < 0xF8 then some (3, n - 0xF0, 0x10000)
  else none

/-- Reads one character. -/
def readChar? : List UInt8 → Option (Char × List UInt8)
  | [] => none
  | b :: bytes =>
    match lengthMark? b with
    | none => none
    | some (more, head, least) =>
      match continuation? more bytes with
      | none => none
      | some (tail, rest) =>
        let n := codePoint head tail
        if least ≤ n ∧ n.isValidChar then some (Char.ofNat n, rest) else none

theorem continuation?_length_le {n : Nat} {bytes tail rest : List UInt8}
    (h : continuation? n bytes = some (tail, rest)) : rest.length ≤ bytes.length := by
  induction n generalizing bytes tail with
  | zero => simp_all [continuation?]
  | succ n ih =>
    cases bytes with
    | nil => simp [continuation?] at h
    | cons b bytes =>
      simp only [continuation?] at h
      split at h
      · obtain ⟨⟨t, r⟩, hr, heq⟩ := Option.map_eq_some_iff.1 h
        obtain ⟨-, rfl⟩ := Prod.mk.inj heq
        exact Nat.le_succ_of_le (ih hr)
      · simp at h

theorem readChar?_length_lt {bytes rest : List UInt8} {c : Char}
    (h : readChar? bytes = some (c, rest)) : rest.length < bytes.length := by
  unfold readChar? at h
  split at h
  · simp at h
  · split at h
    · simp at h
    · split at h
      · simp at h
      · next hc =>
        dsimp only at h
        split at h
        · obtain ⟨-, rfl⟩ := Prod.mk.inj (Option.some.inj h)
          exact Nat.lt_succ_of_le (continuation?_length_le hc)
        · simp at h

/-- Reads characters after those in `done`, which are in reverse. -/
def decodeFrom (done : List Char) (bytes : List UInt8) : List Char × List UInt8 :=
  match h : readChar? bytes with
  | none => (done.reverse, bytes)
  | some (c, rest) =>
    have := readChar?_length_lt h
    decodeFrom (c :: done) rest
termination_by bytes.length

/-- The characters that the bytes begin with, and the bytes after them. -/
def decode (bytes : List UInt8) : List Char × List UInt8 :=
  decodeFrom [] bytes

end SheetRecords.Text.Utf8
