import SheetRecords.Json.Tree

/-!
# Writing documents

`Tree.render` writes a tree without spaces, the members of an object in their order.  In a text only
the quote, the backslash and the control characters are escaped.
-/

namespace SheetRecords.Json

def hexChar (n : Nat) : Char :=
  if n < 10 then Char.ofNat ('0'.toNat + n) else Char.ofNat ('a'.toNat + n - 10)

def escape (c : Char) : List Char :=
  match c with
  | '"' => ['\\', '"']
  | '\\' => ['\\', '\\']
  | '\x08' => ['\\', 'b']
  | '\x0c' => ['\\', 'f']
  | '\n' => ['\\', 'n']
  | '\r' => ['\\', 'r']
  | '\t' => ['\\', 't']
  | _ =>
    if c.toNat < 0x20 then ['\\', 'u', '0', '0', hexChar (c.toNat / 16), hexChar (c.toNat % 16)]
    else [c]

def quote (s : String) : String :=
  String.ofList ('"' :: s.toList.flatMap escape ++ ['"'])

mutual

def Tree.render : Tree → String
  | .null => "null"
  | .boolean true => "true"
  | .boolean false => "false"
  | .number n => n.text
  | .text s => quote s
  | .array items _ => "[" ++ ",".intercalate (renderItems items) ++ "]"
  | .object members _ => "\x7b" ++ ",".intercalate (renderMembers members) ++ "\x7d"
  | .malformed _ => ""

def renderItems : List Tree → List String
  | [] => []
  | t :: rest => t.render :: renderItems rest

def renderMembers : List (String × Tree) → List String
  | [] => []
  | (key, t) :: rest => (quote key ++ ":" ++ t.render) :: renderMembers rest

end

end SheetRecords.Json
