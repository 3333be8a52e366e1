import SheetRecords.Json.Token

/-!
# Documents as trees

`parse` makes a tree of a text whether or not it is JSON.  Where the text stops being JSON, the tree
holds what was read so far: the value that could not be read is `Tree.malformed`, and the arrays and
objects around it do not end.  So a reader that goes through the tree from left to right meets the
first fault of the text in the place where it stands, be it in the notation or in what the document
says.

The tree is built from the tokens with a stack of the arrays and objects that are open
(`Frame`), up to `nestingLimit` of them.
-/

namespace SheetRecords.Json

/-- A document, or as much of it as could be read.  An array or an object either ends with its
bracket, or with the error found where its next item or its bracket belongs. -/
inductive Tree where
  | null
  | boolean (b : Bool)
  | number (n : Number)
  | text (s : String)
  | array (items : List Tree) (broken : Option NotationError)
  | object (members : List (String × Tree)) (broken : Option NotationError)
  /-- There is no value here. -/
  | malformed (e : NotationError)
  deriving Repr, Inhabited

/-- Arrays and objects may be nested this deep. -/
def nestingLimit : Nat := 127

mutual

def Tree.error? : Tree → Option NotationError
  | .array items broken => itemsError? items <|> broken
  | .object members broken => membersError? members <|> broken
  | .malformed e => some e
  | _ => none

def itemsError? : List Tree → Option NotationError
  | [] => none
  | t :: rest => t.error? <|> itemsError? rest

/-- The first error of notation within the values of members. -/
def membersError? : List (String × Tree) → Option NotationError
  | [] => none
  | (_, t) :: rest => t.error? <|> membersError? rest

end

/-- An array or object that has not ended yet, its contents in reverse. -/
inductive Frame where
  | array (items : List Tree)
  /-- An object between two members. -/
  | object (members : List (String × Tree))
  /-- An object in the middle of a member. -/
  | member (members : List (String × Tree)) (key : String)
  deriving Repr, Inhabited

namespace Frame

/-- The frame with one more value. -/
def push (t : Tree) : Frame → Frame
  | .array items => .array (t :: items)
  | .object members => .object members
  | .member members key => .object ((key, t) :: members)

def toTree (broken : Option NotationError) : Frame → Tree
  | .array items => .array items.reverse broken
  | .object members => .object members.reverse broken
  | .member members _ => .object members.reverse broken

end Frame

/-- The document around a value that is the last one read, given the frames around it. -/
def wrap (e : NotationError) (t : Tree) : List Frame → Tree
  | [] => t
  | frame :: frames => wrap e ((frame.push t).toTree (some e)) frames

/-- The document if the text stops being JSON between the values of the innermost frame. -/
def breakOff (e : NotationError) : List Frame → Tree
  | [] => .malformed e
  | frame :: frames => wrap e (frame.toTree (some e)) frames

/-- What may come next. -/
inductive Expectation where
  | value
  /-- A value or the end of an array without items. -/
  | valueOrEnd
  | key
  /-- A key or the end of an object without members. -/
  | keyOrEnd
  | colon
  /-- A comma or the end of the innermost array or object. -/
  | commaOrEnd
  deriving DecidableEq, Repr

/-- The value of a token that is a value by itself. -/
def Token.scalar? : Token → Option Tree
  | .null => some .null
  | .boolean b => some (.boolean b)
  | .number n => some (.number n)
  | .text s => some (.text s)
  | _ => none

/-- How far the tokens have been read. -/
inductive Progress where
  /-- Inside the given frames, the innermost one first. -/
  | reading (frames : List Frame) (expected : Expectation)
  /-- At the end of the document. -/
  | complete (t : Tree)
  /-- Past a token that does not belong there.  The error is one of what follows a document that is
  complete, if it is none of the document itself. -/
  | stopped (t : Tree) (after : Option NotationError)
  deriving Repr, Inhabited

namespace Progress

/-- A value is complete: it is the document itself, or belongs to the innermost frame. -/
def accept (t : Tree) : List Frame → Progress
  | [] => .complete t
  | frame :: frames => .reading (frame.push t :: frames) .commaOrEnd

/-- There is no value where one belongs. -/
def refuse (e : NotationError) (frames : List Frame) : Progress :=
  .stopped (wrap e (.malformed e) frames) none

def beginValue (frames : List Frame) (token : Token) : Progress :=
  match token with
  | .openArray => nest (.array []) .valueOrEnd
  | .openObject => nest (.object []) .keyOrEnd
  | .bad e => refuse e frames
  | _ =>
    match token.scalar? with
    | some t => accept t frames
    | none => refuse .noValue frames
where
  /-- Opens one more frame. -/
  nest (frame : Frame) (expected : Expectation) : Progress :=
    if frames.length < nestingLimit then .reading (frame :: frames) expected
    else refuse .tooDeep frames

/-- The text stops being JSON between two values. -/
def stop (e : NotationError) (frames : List Frame) : Progress :=
  .stopped (breakOff e frames) none

/-- Reads the name of a member, of the innermost frame. -/
def beginMember (frames : List Frame) (token : Token) : Progress :=
  match token, frames with
  | .text s, .object members :: frames => .reading (.member members s :: frames) .colon
  | .bad e, _ => stop (if e.isInText then e else .noKey) frames
  | _, _ => stop .noKey frames

/-- Reads one token inside the frames. -/
def read (frames : List Frame) (expected : Expectation) (token : Token) : Progress :=
  match expected, token, frames with
  | .value, .closeArray, .array _ :: _ => refuse .trailingComma frames
  | .value, _, _ => beginValue frames token
  | .valueOrEnd, .closeArray, frame :: frames => accept (frame.toTree none) frames
  | .valueOrEnd, _, _ => beginValue frames token
  | .keyOrEnd, .closeObject, frame :: frames => accept (frame.toTree none) frames
  | .keyOrEnd, _, _ => beginMember frames token
  | .key, .closeObject, _ => stop .trailingComma frames
  | .key, _, _ => beginMember frames token
  | .colon, .colon, _ => .reading frames .value
  | .colon, _, _ => refuse .noColon frames
  | .commaOrEnd, .comma, .array _ :: _ => .reading frames .value
  | .commaOrEnd, .closeArray, .array items :: frames =>
    accept (Frame.toTree none (.array items)) frames
  | .commaOrEnd, _, .array _ :: _ => stop .noCommaInArray frames
  | .commaOrEnd, .comma, _ => .reading frames .key
  | .commaOrEnd, .closeObject, frame :: frames => accept (frame.toTree none) frames
  | .commaOrEnd, _, _ => stop .noCommaInObject frames

/-- Reads one token. -/
def step : Progress → Token → Progress
  | .reading frames expected, token => read frames expected token
  | .complete t, _ => .stopped t (some .trailingCharacters)
  | .stopped t after, _ => .stopped t after

def endText (frames : List Frame) (expected : Expectation) : Tree :=
  match expected, frames with
  | .value, _ => wrap .endInValue (.malformed .endInValue) frames
  | .valueOrEnd, _ => breakOff .endInArray frames
  | .key, _ => breakOff .endInValue frames
  | .keyOrEnd, _ => breakOff .endInObject frames
  | .colon, _ => wrap .endInObject (.malformed .endInObject) frames
  | .commaOrEnd, .array _ :: _ => breakOff .endInArray frames
  | .commaOrEnd, _ => breakOff .endInObject frames

end Progress

/-- A document, and the error in what follows it. -/
structure Document where
  root : Tree
  after : Option NotationError

def Progress.finish : Progress → Document
  | .reading frames expected => ⟨endText frames expected, none⟩
  | .complete t => ⟨t, none⟩
  | .stopped t after => ⟨t, after⟩

def parse (bytes : List UInt8) : Document :=
  ((tokens bytes).foldl Progress.step (.reading [] .value)).finish

end SheetRecords.Json
