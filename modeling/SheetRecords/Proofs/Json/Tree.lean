import SheetRecords.Proofs.Json.Token

/-!
# Documents read back

A tree is written if it has no errors, nests no deeper than it may and its numbers are read back
(`Tree.IsWritten`).  Its text is cut into its tokens again (`Tree.IsWritten.scans`), and these are
put together to the tree (`Tree.IsWritten.foldl_step`), so it is read back from its text
(`Tree.IsWritten.parse_render`).

Conversely the tree of any text has sound numbers only, whether the text is JSON or not
(`isSound_parse`): each step keeps the numbers of the frames sound (`Progress.isSound_step`).
-/

namespace SheetRecords.Json

open Text.Utf8

/-! ### Written trees -/

namespace Tree

/-- A tree that ends all its arrays and objects, nests them no deeper than `depth`, and has numbers
that are read back from their texts. -/
inductive IsWritten : Nat → Tree → Prop where
  | null {depth : Nat} : IsWritten depth .null
  | boolean {depth : Nat} (b : Bool) : IsWritten depth (.boolean b)
  | number {depth : Nat} {n : Number} (h : n.ReadsBack) : IsWritten depth (.number n)
  | text {depth : Nat} (s : String) : IsWritten depth (.text s)
  | array {depth : Nat} {items : List Tree} (h : ∀ t ∈ items, IsWritten depth t) :
    IsWritten (depth + 1) (.array items none)
  | object {depth : Nat} {members : List (String × Tree)} (h : ∀ m ∈ members, IsWritten depth m.2) :
    IsWritten (depth + 1) (.object members none)

mutual

/-- The tokens that a tree is written as. -/
def tokens : Tree → List Token
  | .null => [.null]
  | .boolean b => [.boolean b]
  | .number n => [.number n]
  | .text s => [.text s]
  | .array items _ => .openArray :: ([.comma].intercalate (itemsTokens items) ++ [.closeArray])
  | .object members _ =>
    .openObject :: ([.comma].intercalate (membersTokens members) ++ [.closeObject])
  | .malformed _ => []

def itemsTokens : List Tree → List (List Token)
  | [] => []
  | t :: rest => t.tokens :: itemsTokens rest

def membersTokens : List (String × Tree) → List (List Token)
  | [] => []
  | (key, t) :: rest => (.text key :: .colon :: t.tokens) :: membersTokens rest

end

theorem itemsTokens_eq_map (items : List Tree) : itemsTokens items = items.map tokens := by
  induction items with
  | nil => rfl
  | cons t rest ih => rw [itemsTokens, ih, List.map_cons]

theorem membersTokens_eq_map (members : List (String × Tree)) :
    membersTokens members = members.map fun m => .text m.1 :: .colon :: m.2.tokens := by
  induction members with
  | nil => rfl
  | cons m rest ih => rw [membersTokens, ih, List.map_cons]

end Tree

theorem renderItems_eq_map (items : List Tree) : renderItems items = items.map Tree.render := by
  induction items with
  | nil => rfl
  | cons t rest ih => rw [renderItems, ih, List.map_cons]

theorem renderMembers_eq_map (members : List (String × Tree)) :
    renderMembers members = members.map fun m => quote m.1 ++ ":" ++ m.2.render := by
  induction members with
  | nil => rfl
  | cons m rest ih => rw [renderMembers, ih, List.map_cons]

/-! ### The tokens of a written tree -/

theorem chars_of_ascii {s : String} (h : ∀ c ∈ s.toList, c.toNat < 0x80) : chars s = s.toList := by
  rw [← String.ofList_toList (s := s), chars_ofList, flatMap_splitChar h, String.ofList_toList]

theorem chars_intercalate (ss : List String) :
    chars (",".intercalate ss) = [','].intercalate (ss.map chars) := by
  have hcomma : chars "," = [','] := chars_of_ascii (by simp)
  induction ss with
  | nil => exact chars_of_ascii (s := "") (by simp)
  | cons s ss ih =>
    cases ss with
    | nil => rw [String.intercalate_singleton, List.map_singleton, List.intercalate_singleton]
    | cons s' ss =>
      simp only [List.map_cons] at ih ⊢
      rw [String.intercalate_cons_cons, chars_append, chars_append, ih, hcomma,
        List.intercalate_cons_cons]

/-- Stretches with commas between them and marks around them. -/
theorem Scans.enclose {before after : String} {opening closing : Char} {first last : Token}
    {ss : List String} {tss : List (List Token)} (hopening : IsMark opening first)
    (hbefore : chars before = [opening]) (hclosing : IsMark closing last)
    (hafter : chars after = [closing]) (h : List.Forall₂ Scans (ss.map chars) tss) :
    Scans (chars (before ++ ",".intercalate ss ++ after))
      (first :: ([.comma].intercalate tss ++ [last])) := by
  rw [chars_append, chars_append, chars_intercalate, hbefore, hafter, List.singleton_append]
  exact ((Scans.intercalate h).append_mark hclosing nil).cons hopening

/-- A written tree is cut into its tokens again. -/
theorem Tree.IsWritten.scans {depth : Nat} {t : Tree} (h : t.IsWritten depth) :
    Scans (chars t.render) t.tokens := by
  induction h with
  | null =>
    rw [render, chars_of_ascii (by simp)]
    exact .word (by decide) nofun fun _ => rfl
  | boolean b =>
    cases b
    · rw [render, chars_of_ascii (by simp)]
      exact .word (by decide) nofun fun _ => rfl
    · rw [render, chars_of_ascii (by simp)]
      exact .word (by decide) nofun fun _ => rfl
  | number h => exact .number h
  | text s => exact .text s
  | @array depth items h ih =>
    rw [render, renderItems_eq_map, tokens, itemsTokens_eq_map]
    refine .enclose isMark_openArray (chars_of_ascii (by simp)) isMark_closeArray
      (chars_of_ascii (by simp)) ?_
    rw [List.map_map, List.forall₂_map_left_iff, List.forall₂_map_right_iff, List.forall₂_same]
    exact ih
  | @object depth members h ih =>
    rw [render, renderMembers_eq_map, tokens, membersTokens_eq_map]
    refine .enclose isMark_openObject (chars_of_ascii (by simp)) isMark_closeObject
      (chars_of_ascii (by simp)) ?_
    rw [List.map_map, List.forall₂_map_left_iff, List.forall₂_map_right_iff, List.forall₂_same]
    intro m hm
    have hcolon : chars ":" = [':'] := chars_of_ascii (by simp)
    rw [Function.comp, chars_append, chars_append, hcolon, List.append_assoc, List.singleton_append]
    exact (Scans.text m.1).append_mark isMark_colon (ih m hm)

/-! ### The tree of the tokens -/

namespace Progress

/-- Where a value may begin, a token that ends no array is read as the begin of one. -/
theorem read_eq_beginValue {expected : Expectation} (h : expected = .value ∨ expected = .valueOrEnd)
    {token : Token} (htoken : token ≠ .closeArray) (frames : List Frame) :
    read frames expected token = beginValue frames token := by
  obtain rfl | rfl := h
  · exact read.eq_2 frames token fun _ _ h _ => htoken h
  · exact read.eq_4 frames token fun _ _ h _ => htoken h

/-- The entries of an array or an object are read one after the other.  `frame` holds those read so
far in reverse, `first` and `next` are what is expected before the first entry and before a further
one. -/
theorem foldl_entries {α : Type} {tokens : α → List Token} (frame : List α → Frame)
    (first next : Expectation) (closeToken : Token) {frames : List Frame} {entries : List α}
    (hentry : ∀ a ∈ entries, ∀ done, ∀ expected, expected = first ∨ expected = next →
      (tokens a).foldl step (.reading (frame done :: frames) expected) =
        .reading (frame (a :: done) :: frames) .commaOrEnd)
    (hcomma : ∀ done,
      read (frame done :: frames) .commaOrEnd .comma = .reading (frame done :: frames) next)
    (hempty : read (frame [] :: frames) first closeToken = accept ((frame []).toTree none) frames)
    (hclose : ∀ done, read (frame done :: frames) .commaOrEnd closeToken =
      accept ((frame done).toTree none) frames) :
    ([.comma].intercalate (entries.map tokens) ++ [closeToken]).foldl step
        (.reading (frame [] :: frames) first) =
      accept ((frame entries.reverse).toTree none) frames := by
  -- the induction is on the entries that are left, with any expectation before them
  have hentries (a : α) (rest done : List α) (expected : Expectation)
      (hexpected : expected = first ∨ expected = next) (hsubset : ∀ b ∈ a :: rest, b ∈ entries) :
      ([.comma].intercalate ((a :: rest).map tokens)).foldl step
          (.reading (frame done :: frames) expected) =
        .reading (frame ((a :: rest).reverse ++ done) :: frames) .commaOrEnd := by
    induction rest generalizing a done expected with
    | nil =>
      rw [List.map_singleton, List.intercalate_singleton,
        hentry a (hsubset a List.mem_cons_self) done expected hexpected]
      rfl
    | cons b rest ih =>
      obtain ⟨ha, hrest⟩ := List.forall_mem_cons.mp hsubset
      rw [List.map_cons, List.map_cons, List.intercalate_cons_cons, List.append_assoc,
        List.foldl_append, hentry a ha done expected hexpected, List.singleton_append,
        List.foldl_cons, step, hcomma, ← List.map_cons, ih b (a :: done) next (.inr rfl) hrest,
        List.reverse_cons (a := a), List.append_assoc, List.singleton_append]
  rw [List.foldl_append]
  cases entries with
  | nil => exact hempty
  | cons a rest =>
    rw [hentries a rest [] first (.inl rfl) (fun _ h => h), List.append_nil]
    exact hclose _

end Progress

/-- The tokens of a written tree become the tree again, where a value may begin. -/
theorem Tree.IsWritten.foldl_step {depth : Nat} {t : Tree} (h : t.IsWritten depth)
    {frames : List Frame} (hdepth : frames.length + depth ≤ nestingLimit) {expected : Expectation}
    (hexpected : expected = .value ∨ expected = .valueOrEnd) :
    t.tokens.foldl Progress.step (.reading frames expected) = Progress.accept t frames := by
  induction h generalizing frames expected with
  | null | boolean | number | text =>
    exact Progress.read_eq_beginValue hexpected (fun h => by cases h) frames
  | @array depth items h ih =>
    have hopen : Progress.step (.reading frames expected) .openArray =
        .reading (.array [] :: frames) .valueOrEnd :=
      (Progress.read_eq_beginValue hexpected (fun h => by cases h) frames).trans
        (if_pos (by omega))
    have hitem (t : Tree) (ht : t ∈ items) (done : List Tree) (expected : Expectation)
        (hexpected : expected = .valueOrEnd ∨ expected = .value) :
        t.tokens.foldl Progress.step (.reading (.array done :: frames) expected) =
          .reading (.array (t :: done) :: frames) .commaOrEnd :=
      ih t ht (by rw [List.length_cons]; omega) hexpected.symm
    have hitems := Progress.foldl_entries .array .valueOrEnd .value .closeArray hitem
      (fun _ => rfl) rfl fun _ => rfl
    rw [tokens, itemsTokens_eq_map, List.foldl_cons, hopen, hitems, Frame.toTree,
      List.reverse_reverse]
  | @object depth members h ih =>
    have hopen : Progress.step (.reading frames expected) .openObject =
        .reading (.object [] :: frames) .keyOrEnd :=
      (Progress.read_eq_beginValue hexpected (fun h => by cases h) frames).trans
        (if_pos (by omega))
    have hmember (m : String × Tree) (hm : m ∈ members) (done : List (String × Tree))
        (expected : Expectation) (hexpected : expected = .keyOrEnd ∨ expected = .key) :
        (.text m.1 :: .colon :: m.2.tokens).foldl Progress.step
            (.reading (.object done :: frames) expected) =
          .reading (.object (m :: done) :: frames) .commaOrEnd := by
      -- the frame of the object holds the name until the value is complete
      have hkey : Progress.step (.reading (.object done :: frames) expected) (.text m.1) =
          .reading (.member done m.1 :: frames) .colon := by
        obtain rfl | rfl := hexpected <;> rfl
      have hcolon : Progress.step (.reading (.member done m.1 :: frames) .colon) .colon =
          .reading (.member done m.1 :: frames) .value := rfl
      rw [List.foldl_cons, List.foldl_cons, hkey, hcolon,
        ih m hm (by rw [List.length_cons]; omega) (.inl rfl)]
      rfl
    have hmembers := Progress.foldl_entries .object .keyOrEnd .key .closeObject hmember
      (fun _ => rfl) rfl fun _ => rfl
    rw [tokens, membersTokens_eq_map, List.foldl_cons, hopen, hmembers, Frame.toTree,
      List.reverse_reverse]

/-- **A written document is read back.** -/
theorem Tree.IsWritten.parse_render {t : Tree} (h : t.IsWritten nestingLimit) :
    parse (encode t.render) = ⟨t, none⟩ := by
  rw [parse, h.scans.tokens_eq, h.foldl_step (by simp) (.inl rfl)]
  rfl

/-! ### The numbers of a tree -/

/-- A tree without numbers out of bounds. -/
inductive Tree.IsSound : Tree → Prop where
  | null : IsSound .null
  | boolean (b : Bool) : IsSound (.boolean b)
  | number {n : Number} (h : n.IsSound) : IsSound (.number n)
  | text (s : String) : IsSound (.text s)
  | array {items : List Tree} (broken : Option NotationError) (h : ∀ t ∈ items, IsSound t) :
    IsSound (.array items broken)
  | object {members : List (String × Tree)} (broken : Option NotationError)
    (h : ∀ m ∈ members, IsSound m.2) : IsSound (.object members broken)
  | malformed (e : NotationError) : IsSound (.malformed e)

/-- A frame without numbers out of bounds. -/
def Frame.IsSound : Frame → Prop
  | .array items => ∀ t ∈ items, t.IsSound
  | .object members | .member members _ => ∀ m ∈ members, m.2.IsSound

namespace Frame

theorem isSound_push {t : Tree} (ht : t.IsSound) {f : Frame} (hf : f.IsSound) :
    (f.push t).IsSound := by
  cases f with
  | array items => exact List.forall_mem_cons.mpr ⟨ht, hf⟩
  | object members => exact hf
  | member members key => exact List.forall_mem_cons.mpr ⟨ht, hf⟩

theorem isSound_toTree (broken : Option NotationError) {f : Frame} (hf : f.IsSound) :
    (f.toTree broken).IsSound := by
  cases f with
  | array items => exact .array broken fun t ht => hf t (List.mem_reverse.mp ht)
  | object members => exact .object broken fun m hm => hf m (List.mem_reverse.mp hm)
  | member members key => exact .object broken fun m hm => hf m (List.mem_reverse.mp hm)

end Frame

section

variable {frames : List Frame} (hframes : ∀ f ∈ frames, f.IsSound)

include hframes

theorem isSound_wrap (e : NotationError) {t : Tree} (ht : t.IsSound) :
    (wrap e t frames).IsSound := by
  induction frames generalizing t with
  | nil => exact ht
  | cons f frames ih =>
    obtain ⟨hf, hframes⟩ := List.forall_mem_cons.mp hframes
    exact ih hframes (Frame.isSound_toTree _ (Frame.isSound_push ht hf))

theorem isSound_breakOff (e : NotationError) : (breakOff e frames).IsSound := by
  cases frames with
  | nil => exact .malformed e
  | cons f frames =>
    obtain ⟨hf, hframes⟩ := List.forall_mem_cons.mp hframes
    exact isSound_wrap hframes e (Frame.isSound_toTree _ hf)

end

namespace Progress

/-- Progress without numbers out of bounds. -/
def IsSound : Progress → Prop
  | .reading frames _ => ∀ f ∈ frames, f.IsSound
  | .complete t | .stopped t _ => t.IsSound

section

variable {frames : List Frame} (hframes : ∀ f ∈ frames, f.IsSound)

include hframes

theorem isSound_accept {t : Tree} (ht : t.IsSound) : (accept t frames).IsSound := by
  cases frames with
  | nil => exact ht
  | cons f frames =>
    obtain ⟨hf, hframes⟩ := List.forall_mem_cons.mp hframes
    exact List.forall_mem_cons.mpr ⟨Frame.isSound_push ht hf, hframes⟩

theorem isSound_refuse (e : NotationError) : (refuse e frames).IsSound :=
  isSound_wrap hframes e (.malformed e)

theorem isSound_beginValue {token : Token} (htoken : token.IsSound) :
    (beginValue frames token).IsSound := by
  have hnest {f : Frame} (hf : f.IsSound) (expected : Expectation) :
      (beginValue.nest frames f expected).IsSound := by
    unfold beginValue.nest
    split
    · exact List.forall_mem_cons.mpr ⟨hf, hframes⟩
    · exact isSound_refuse hframes _
  cases token with
  | openArray => exact hnest (f := .array []) (by simp [Frame.IsSound]) _
  | openObject => exact hnest (f := .object []) (by simp [Frame.IsSound]) _
  | null => exact isSound_accept hframes .null
  | boolean b => exact isSound_accept hframes (.boolean b)
  | number n => exact isSound_accept hframes (.number htoken)
  | text s => exact isSound_accept hframes (.text s)
  | bad e => exact isSound_refuse hframes e
  | _ => exact isSound_refuse hframes .noValue

theorem isSound_stop (e : NotationError) : (stop e frames).IsSound :=
  isSound_breakOff hframes e

/-- The innermost frame ends. -/
theorem isSound_close {f : Frame} {outer : List Frame} (h : f :: outer = frames) :
    (accept (f.toTree none) outer).IsSound := by
  subst h
  obtain ⟨hf, houter⟩ := List.forall_mem_cons.mp hframes
  exact isSound_accept houter (Frame.isSound_toTree _ hf)

theorem isSound_beginMember (token : Token) : (beginMember frames token).IsSound := by
  fun_cases beginMember frames token with
  | case1 members outer s =>
    obtain ⟨hf, houter⟩ := List.forall_mem_cons.mp hframes
    exact List.forall_mem_cons.mpr ⟨hf, houter⟩
  | case2 | case3 => exact isSound_stop hframes _

theorem isSound_read (expected : Expectation) {token : Token} (htoken : token.IsSound) :
    (read frames expected token).IsSound := by
  fun_cases read frames expected token with
  | case1 | case10 => exact isSound_refuse hframes _
  | case2 | case4 => exact isSound_beginValue hframes htoken
  | case3 | case5 | case12 | case15 => exact isSound_close hframes rfl
  | case6 | case8 => exact isSound_beginMember hframes _
  | case7 | case13 | case16 => exact isSound_stop hframes _
  | case9 | case11 | case14 => exact hframes

theorem isSound_endText (expected : Expectation) : (endText frames expected).IsSound := by
  fun_cases endText frames expected with
  | case1 | case5 => exact isSound_wrap hframes _ (.malformed _)
  | _ => exact isSound_breakOff hframes _

end

theorem isSound_step {p : Progress} (hp : p.IsSound) {token : Token} (htoken : token.IsSound) :
    (p.step token).IsSound := by
  cases p with
  | reading frames expected => exact isSound_read hp expected htoken
  | complete t => exact hp
  | stopped t after => exact hp

theorem isSound_foldl {p : Progress} (hp : p.IsSound) {tokens : List Token}
    (htokens : ∀ t ∈ tokens, t.IsSound) : (tokens.foldl step p).IsSound := by
  induction tokens generalizing p with
  | nil => exact hp
  | cons token tokens ih =>
    obtain ⟨htoken, htokens⟩ := List.forall_mem_cons.mp htokens
    exact ih (isSound_step hp htoken) htokens

theorem isSound_finish {p : Progress} (hp : p.IsSound) : p.finish.root.IsSound := by
  cases p with
  | reading frames expected => exact isSound_endText hp expected
  | complete t => exact hp
  | stopped t after => exact hp

end Progress

/-- No text, whether it is JSON or not, has a number out of bounds. -/
theorem isSound_parse (bytes : List UInt8) : (parse bytes).root.IsSound := by
  have hstart : (Progress.reading [] .value).IsSound := by simp [Progress.IsSound]
  exact Progress.isSound_finish (Progress.isSound_foldl hstart fun _ => isSound_of_mem_tokens)

end SheetRecords.Json
