import SheetRecords.Json.Number
import SheetRecords.Text.Utf8

/-!
# Tokens of JSON documents

`tokens` cuts the bytes of a text into the tokens of JSON.  From the first place on that is no
token, the rest of the text counts as one token `bad`, so that what stands before it can still be
looked at.

The text is read byte by byte, and a byte is looked at as the character with its number
(`byteChar`): outside of quotes only ASCII has a meaning, and what stands between quotes is put
together to characters at the closing quote, which is where a text that is not UTF-8 is found out.
-/

namespace SheetRecords.Json

/-- Where a text stops being JSON. -/
inductive NotationError where
  /-- At the end of the text, inside an array. -/
  | endInArray
  /-- At the end of the text, inside an object. -/
  | endInObject
  /-- At the end of the text, between quotes. -/
  | endInText
  /-- At the end of the text, where a value belongs. -/
  | endInValue
  /-- At the end of the text, inside a word or a number. -/
  | endInScalar
  | noColon
  /-- After an item, where a comma or the end of the array belongs. -/
  | noCommaInArray
  /-- After a member, where a comma or the end of the object belongs. -/
  | noCommaInObject
  /-- Inside a word that is neither `null` nor a truth value. -/
  | badWord
  | noValue
  | badEscape
  | badNumber
  /-- At a number that is too great for a float. -/
  | hugeNumber
  /-- At a control character between quotes. -/
  | controlCharacter
  /-- At a member that has no name. -/
  | noKey
  /-- At half a character that is written by its code. -/
  | halfCharacter
  /-- After the first half of a character, where the code of the second belongs. -/
  | noSecondHalf
  /-- At the end of a text that is not UTF-8. -/
  | notUtf8
  /-- At the end of an array or an object, after a comma. -/
  | trailingComma
  /-- At something after the document. -/
  | trailingCharacters
  /-- At an array or an object inside too many others. -/
  | tooDeep
  deriving DecidableEq, Repr

namespace NotationError

/-- The wording of a `NotationError`. -/
def message : NotationError → String
  | .endInArray => "EOF while parsing a list"
  | .endInObject => "EOF while parsing an object"
  | .endInText => "EOF while parsing a string"
  | .endInValue | .endInScalar => "EOF while parsing a value"
  | .noColon => "expected \x60:\x60"
  | .noCommaInArray => "expected \x60,\x60 or \x60]\x60"
  | .noCommaInObject => "expected \x60,\x60 or \x60\x7d\x60"
  | .badWord => "expected ident"
  | .noValue => "expected value"
  | .badEscape => "invalid escape"
  | .badNumber => "invalid number"
  | .hugeNumber => "number out of range"
  | .controlCharacter => "control character (\\u0000-\\u001F) found while parsing a string"
  | .noKey => "key must be a string"
  | .halfCharacter => "lone leading surrogate in hex escape"
  | .noSecondHalf => "unexpected end of hex escape"
  | .notUtf8 => "invalid unicode code point"
  | .trailingComma => "trailing comma"
  | .trailingCharacters => "trailing characters"
  | .tooDeep => "recursion limit exceeded"

def isInText : NotationError → Bool
  | .endInText | .badEscape | .controlCharacter | .halfCharacter | .noSecondHalf | .notUtf8 => true
  | _ => false

/-- Whether the fault lies inside a word or a number. -/
def isInScalar : NotationError → Bool
  | .endInScalar | .badWord | .badNumber | .hugeNumber => true
  | _ => false

end NotationError

/-- A token of a document. -/
inductive Token where
  | openArray
  | closeArray
  | openObject
  | closeObject
  | colon
  | comma
  | null
  | boolean (b : Bool)
  | number (n : Number)
  | text (s : String)
  /-- The rest of a text that is not JSON. -/
  | bad (e : NotationError)
  deriving BEq, Repr

/-- Whether a character may stand between tokens. -/
def isSpace (c : Char) : Bool :=
  c == ' ' || c == '\n' || c == '\t' || c == '\r'

def hexDigit? (c : Char) : Option Nat :=
  if c.isDigit then some (c.toNat - '0'.toNat)
  else if 'a' ≤ c ∧ c ≤ 'f' then some (c.toNat - 'a'.toNat + 10)
  else if 'A' ≤ c ∧ c ≤ 'F' then some (c.toNat - 'A'.toNat + 10)
  else none

def hexWord? (a b c d : Char) : Option Nat :=
  match hexDigit? a, hexDigit? b, hexDigit? c, hexDigit? d with
  | some a, some b, some c, some d => some (((a * 16 + b) * 16 + c) * 16 + d)
  | _, _, _, _ => none

/-- The character that a backslash and a letter stand for. -/
def escaped? : Char → Option Char
  | '"' => some '"'
  | '\\' => some '\\'
  | '/' => some '/'
  | 'b' => some '\x08'
  | 'f' => some '\x0c'
  | 'n' => some '\n'
  | 'r' => some '\r'
  | 't' => some '\t'
  | _ => none

/-- Whether a 16-bit unit is the first half of a character. -/
def isHighHalf (n : Nat) : Bool :=
  0xD800 ≤ n && n ≤ 0xDBFF

/-- Whether a 16-bit unit is the second half of a character. -/
def isLowHalf (n : Nat) : Bool :=
  0xDC00 ≤ n && n ≤ 0xDFFF

def byteChar (b : UInt8) : Char :=
  Char.ofNat b.toNat

def joinBytes (cs : List Char) : Except NotationError String :=
  match Text.Utf8.decode (cs.map Char.toUInt8) with
  | (cs, []) => .ok (String.ofList cs)
  | _ => .error .notUtf8

def splitChar (c : Char) : List Char :=
  (Text.Utf8.encode (String.singleton c)).map byteChar

/-- Reads a text up to its closing quote, after the bytes in `done`, which are in reverse.  Half a
character and a control character are not allowed. -/
def readText (done : List Char) : List Char → Except NotationError (String × List Char)
  | [] => .error .endInText
  | '"' :: rest => (joinBytes done.reverse).map (·, rest)
  | '\\' :: 'u' :: a :: b :: c :: d :: rest =>
    match hexWord? a b c d with
    | none => .error .badEscape
    | some n =>
      if isLowHalf n then .error .halfCharacter
      else if isHighHalf n then
        match rest with
        | '\\' :: 'u' :: a :: b :: c :: d :: rest =>
          match hexWord? a b c d with
          | none => .error .badEscape
          | some m =>
            if isLowHalf m then
              let c := Char.ofNat ((n - 0xD800) * 0x400 + (m - 0xDC00) + 0x10000)
              readText ((splitChar c).reverse ++ done) rest
            else .error .halfCharacter
        | '\\' :: 'u' :: _ => .error .endInText
        | [] => .error .endInText
        | ['\\'] => .error .endInText
        | _ => .error .noSecondHalf
      else readText ((splitChar (Char.ofNat n)).reverse ++ done) rest
  | '\\' :: 'u' :: _ => .error .endInText
  | ['\\'] => .error .endInText
  | '\\' :: c :: rest =>
    match escaped? c with
    | none => .error .badEscape
    | some c => readText (c :: done) rest
  | c :: rest => if c.toNat < 0x20 then .error .controlCharacter else readText (c :: done) rest

/-- Reads one digit or more. -/
def readDigits (cs : List Char) : Except NotationError (List Char × List Char) :=
  match cs with
  | [] => .error .endInScalar
  | c :: _ =>
    if c.isDigit then .ok (cs.takeWhile Char.isDigit, cs.dropWhile Char.isDigit)
    else .error .badNumber

/-- Reads the digits before the point: a zero alone, or digits that do not begin with one. -/
def readWhole (cs : List Char) : Except NotationError (List Char × List Char) :=
  match cs with
  | '0' :: rest => if rest.head?.any Char.isDigit then .error .badNumber else .ok (['0'], rest)
  | _ => readDigits cs

/-- Reads the digits after a point, if there is one. -/
def readFraction : List Char → Except NotationError (List Char × List Char)
  | '.' :: rest => readDigits rest
  | cs => .ok ([], cs)

/-- Reads an exponent, if there is one. -/
def readExponent (cs : List Char) : Except NotationError (Option Int × List Char) :=
  match cs with
  | [] => .ok (none, [])
  | e :: rest =>
    if e = 'e' ∨ e = 'E' then
      let (isNegative, rest) := match rest with
        | '+' :: rest => (false, rest)
        | '-' :: rest => (true, rest)
        | rest => (false, rest)
      (readDigits rest).map fun (digits, rest) =>
        let n : Int := Nat.ofDigitChars 10 digits 0
        (some (if isNegative then -n else n), rest)
    else .ok (none, cs)

def readNumber (cs : List Char) : Except NotationError (Number × List Char) := do
  let (isNegative, cs) := match cs with
    | '-' :: rest => (true, rest)
    | cs => (false, cs)
  let (whole, cs) ← readWhole cs
  let (fraction, cs) ← readFraction cs
  let (exponent, cs) ← readExponent cs
  match Number.ofParts? isNegative whole fraction exponent with
  | some n => return (n, cs)
  | none => throw .hugeNumber

/-- Reads the rest of a word that stands for a value. -/
def readWord (t : Token) : List Char → List Char → Token × List Char
  | [], cs => (t, cs)
  | _ :: _, [] => (.bad .endInScalar, [])
  | w :: word, c :: cs => if w = c then readWord t word cs else (.bad .badWord, [])

/-- Reads one token, which begins with the given character. -/
def readToken (c : Char) (rest : List Char) : Token × List Char :=
  match c with
  | '[' => (.openArray, rest)
  | ']' => (.closeArray, rest)
  | '\x7b' => (.openObject, rest)
  | '\x7d' => (.closeObject, rest)
  | ':' => (.colon, rest)
  | ',' => (.comma, rest)
  | 'n' => readWord .null ['u', 'l', 'l'] rest
  | 't' => readWord (.boolean true) ['r', 'u', 'e'] rest
  | 'f' => readWord (.boolean false) ['a', 'l', 's', 'e'] rest
  | '"' =>
    match readText [] rest with
    | .ok (s, rest) => (.text s, rest)
    | .error e => (.bad e, [])
  | _ =>
    if c = '-' ∨ c.isDigit then
      match readNumber (c :: rest) with
      | .ok (n, rest) => (.number n, rest)
      | .error e => (.bad e, [])
    else (.bad .noValue, [])

/-- Reads tokens after those in `done`, which are in reverse, for as long as `budget` lasts: one
token needs one character at least. -/
def readTokens (done : List Token) (cs : List Char) (budget : Nat) : List Token :=
  match budget, cs.dropWhile isSpace with
  | _, [] => done.reverse
  | 0, _ => (.bad .noValue :: done).reverse
  | budget + 1, c :: rest =>
    match readToken c rest with
    | (.bad e, _) => (.bad e :: done).reverse
    | (t, rest) => readTokens (t :: done) rest budget

def tokens (bytes : List UInt8) : List Token :=
  readTokens [] (bytes.map byteChar) bytes.length

end SheetRecords.Json
