import Mathlib.Data.List.Nodup
import Mathlib.Data.List.Perm.Basic
import SheetRecords.Proofs.Scan.Stream

/-!
# The names of the sheets of a workbook

A workbook lets a sheet in only under a name that keeps the rules (`Workbook.refusal?_eq_none_iff`),
as a name that is made of a text does (`isSheetName_sanitizeName`).  So its names keep them, pairwise
too, as long as sheets are added, removed and written into (`HasValidNames`).  A sheet that is in can
be given any name, though.  The names stay valid through a sequence of edits just if every rename in
it is to a name under which the sheet could have been added to the others (`names_of_edits`).  While
they are valid, each sheet is found under its name, and a scan of the workbook reaches the cells of
all sheets (`FindsSheets`).
-/

namespace SheetRecords

open Cell

/-! ### Names -/

/-- The rules on the name of a sheet that do not depend on the other sheets. -/
structure IsSheetName (name : String) : Prop where
  ne_empty : name ≠ ""
  length_le : name.length ≤ nameLimit
  isForbidden_eq_false : ∀ c ∈ name.toList, isForbidden c = false

theorem nameError?_eq_none_iff {name : String} : nameError? name = none ↔ IsSheetName name := by
  unfold nameError?
  split
  · rename_i h
    exact iff_of_false (by simp) fun hname => hname.ne_empty (String.isEmpty_iff.mp h)
  · rename_i hne
    split
    · rename_i h
      exact iff_of_false (by simp) fun hname => absurd hname.length_le (not_le.mpr h)
    · rename_i hlength
      rw [Option.map_eq_none_iff, List.find?_eq_none]
      constructor
      · intro h
        exact ⟨fun he => hne (String.isEmpty_iff.mpr he), not_lt.mp hlength,
          fun c hc => Bool.eq_false_iff.mpr (h c hc)⟩
      · intro h c hc
        rw [h.isForbidden_eq_false c hc]
        exact Bool.false_ne_true

/-- What is made into a name keeps the rules. -/
theorem isSheetName_sanitizeName (s : String) : IsSheetName (sanitizeName s) := by
  unfold sanitizeName
  dsimp only
  split
  · exact nameError?_eq_none_iff.mp (by decide +kernel)
  · next hne =>
    refine ⟨?_, ?_, ?_⟩
    · intro hempty
      rw [String.ofList_eq_empty_iff] at hempty
      exact hne (List.isEmpty_iff.mpr hempty)
    · rw [String.length_ofList]
      exact List.length_take_le ..
    · intro c hc
      rw [String.toList_ofList] at hc
      obtain ⟨d, -, rfl⟩ := List.mem_map.mp (List.mem_of_mem_take hc)
      split
      · decide
      · next hd => exact Bool.eq_false_iff.mpr hd

/-- A name that keeps the rules is left as it is. -/
theorem IsSheetName.sanitizeName_eq {name : String} (h : IsSheetName name) :
    sanitizeName name = name := by
  have hkeep : name.toList.map (fun c => if isForbidden c then '_' else c) = name.toList := by
    conv_rhs => rw [← List.map_id name.toList]
    apply List.map_congr_left
    intro c hc
    rw [h.isForbidden_eq_false c hc, if_neg Bool.false_ne_true, id]
  have hne : name.toList.isEmpty = false := by
    rw [List.isEmpty_eq_false_iff]
    exact mt String.toList_eq_nil_iff.mp h.ne_empty
  have hlength : name.toList.length ≤ nameLimit := by
    rw [String.length_toList]
    exact h.length_le
  rw [sanitizeName, hkeep, List.take_of_length_le hlength, hne, if_neg Bool.false_ne_true,
    String.ofList_toList]

namespace Workbook

/-- The names of the sheets without regard to letter case. -/
def lowerNames (w : Workbook) : List String :=
  w.names.map Text.lowercase

/-- The sheets have names that keep the rules and differ in more than letter case. -/
structure HasValidNames (w : Workbook) : Prop where
  isSheetName : ∀ name ∈ w.names, IsSheetName name
  nodup : w.lowerNames.Nodup

variable {w w' : Workbook} {s : Sheet} {name : String}

theorem mem_lowerNames_iff : Text.lowercase name ∈ w.lowerNames ↔
    w.names.any (Text.lowercase · = Text.lowercase name) = true := by
  simp [lowerNames]

theorem refusal?_eq_none_iff :
    w.refusal? name = none ↔ IsSheetName name ∧ Text.lowercase name ∉ w.lowerNames := by
  rw [← nameError?_eq_none_iff, refusal?, mem_lowerNames_iff]
  cases nameError? name with
  | some e => simp
  | none => simp

theorem HasValidNames.nodup_names (h : w.HasValidNames) : w.names.Nodup :=
  h.nodup.of_map

theorem hasValidNames_empty : empty.HasValidNames where
  isSheetName := by simp [names, empty]
  nodup := List.nodup_nil

theorem hasValidNames_new : new.HasValidNames where
  isSheetName name h := by
    obtain rfl : name = "Sheet1" := List.mem_singleton.mp h
    exact nameError?_eq_none_iff.mp (by decide +kernel)
  nodup := List.nodup_singleton _

/-! ### Edits -/

/-- A way to get hold of a sheet in order to change it. -/
inductive Handle where
  | index (i : Nat)
  /-- The first sheet of a name, letter case included. -/
  | name (name : String)

/-- The sheet and its place, if there is one. -/
def Handle.find? (w : Workbook) : Handle → Option (Nat × Sheet)
  | .index i => w.sheets[i]?.map (i, ·)
  | .name name => (w.index? name).bind fun i => w.sheets[i]?.map (i, ·)

theorem Handle.getElem?_of_find? {h : Handle} {i : Nat} (hfind : h.find? w = some (i, s)) :
    w.sheets[i]? = some s := by
  have hplace (j : Nat) (hj : w.sheets[j]?.map (j, ·) = some (i, s)) : w.sheets[i]? = some s := by
    obtain ⟨s', hs', heq⟩ := Option.map_eq_some_iff.mp hj
    obtain ⟨rfl, rfl⟩ := Prod.mk.inj heq
    exact hs'
  cases h with
  | index j => exact hplace j hfind
  | name name =>
    obtain ⟨j, -, hj⟩ := Option.bind_eq_some_iff.mp hfind
    exact hplace j hj

/-- A change of one sheet. -/
inductive SheetEdit where
  | set (a : Address) (v : Value)
  | clear (a : Address)
  | rename (name : String)

/-- Changes a sheet, unless the cell to write is outside the limits. -/
def SheetEdit.apply (s : Sheet) : SheetEdit → Except BoundsError Sheet
  | .set a v => s.set a v
  | .clear a => .ok (s.clear a)
  | .rename name => .ok (s.rename name)

/-- A change of a workbook. -/
inductive Edit where
  | add (s : Sheet)
  | remove (i : Nat)
  | change (h : Handle) (e : SheetEdit)

/-- Changes a sheet of the workbook, if there is one. -/
def change (w : Workbook) (h : Handle) (e : SheetEdit) : Except WorkbookError Workbook :=
  match h.find? w with
  | none => .ok w
  | some (i, s) =>
    match e.apply s with
    | .error cause => .error (.bounds cause)
    | .ok s' => .ok (w.modify i fun _ => s')

def edit (w : Workbook) : Edit → Except WorkbookError Workbook
  | .add s => (w.add s).mapError .name
  | .remove i => (w.remove i).map (·.2)
  | .change h e => w.change h e

/-- The workbook after an edit: as it was if the edit fails. -/
def step (w : Workbook) (e : Edit) : Workbook :=
  match w.edit e with
  | .ok w' => w'
  | .error _ => w

/-- The workbook after some edits, one after the other. -/
def run (w : Workbook) (edits : List Edit) : Workbook :=
  edits.foldl step w

/-- A rename is to a name under which the sheet could have been added to the others.  Nothing is
asked of other edits. -/
def Edit.IsChecked (w : Workbook) : Edit → Prop
  | .change h (.rename name) =>
    ∀ i s, h.find? w = some (i, s) → refusal? ⟨w.sheets.eraseIdx i⟩ name = none
  | _ => True

/-- All renames among some edits are checked, each in the workbook that it is done in. -/
def IsChecked (w : Workbook) : List Edit → Prop
  | [] => True
  | e :: edits => e.IsChecked w ∧ (w.step e).IsChecked edits

/-! ### Names through an edit -/

theorem HasValidNames.of_names_eq (h : w.HasValidNames) (hnames : w'.names = w.names) :
    w'.HasValidNames where
  isSheetName := hnames ▸ h.isSheetName
  nodup := by
    rw [lowerNames, hnames]
    exact h.nodup

theorem HasValidNames.of_perm (h : w.HasValidNames) (hperm : w'.sheets.Perm w.sheets) :
    w'.HasValidNames where
  isSheetName name hname := h.isSheetName name ((hperm.map _).mem_iff.mp hname)
  nodup := ((hperm.map _).map _).nodup_iff.mpr h.nodup

/-- A sheet that comes to others has to have a name under which it could have been added. -/
theorem hasValidNames_cons_iff :
    HasValidNames ⟨s :: w.sheets⟩ ↔ w.refusal? s.name = none ∧ w.HasValidNames := by
  rw [refusal?_eq_none_iff]
  constructor
  · intro h
    obtain ⟨hmem, hnodup⟩ := List.nodup_cons.mp h.nodup
    obtain ⟨hname, hnames⟩ := List.forall_mem_cons.mp h.isSheetName
    exact ⟨⟨hname, hmem⟩, hnames, hnodup⟩
  · rintro ⟨⟨hname, hmem⟩, h⟩
    exact ⟨List.forall_mem_cons.mpr ⟨hname, h.isSheetName⟩,
      List.nodup_cons.mpr ⟨hmem, h.nodup⟩⟩

theorem HasValidNames.add (h : w.HasValidNames) (hadd : w.add s = .ok w') : w'.HasValidNames := by
  unfold Workbook.add at hadd
  split at hadd
  · cases hadd
  · rename_i hs
    obtain rfl := Except.ok.inj hadd
    exact (hasValidNames_cons_iff.mpr ⟨hs, h⟩).of_perm (List.perm_append_singleton s w.sheets)

/-- A sheet is let in just if its name is not there yet, as long as the name keeps the rules. -/
theorem add_eq (h : IsSheetName s.name) :
    w.add s = if Text.lowercase s.name ∈ w.lowerNames then .error (.duplicate s.name)
      else .ok ⟨w.sheets ++ [s]⟩ := by
  rw [Workbook.add, refusal?, nameError?_eq_none_iff.mpr h]
  simp only [mem_lowerNames_iff]
  cases w.names.any (Text.lowercase · = Text.lowercase s.name) <;> rfl

/-- Sheets with names that keep the rules are let in one after the other, all of them or those before
the first one whose name is there. -/
theorem foldlM_add (hw : w.HasValidNames) {sheets : List Sheet}
    (hsheets : ∀ s ∈ sheets, IsSheetName s.name) :
    (HasValidNames ⟨w.sheets ++ sheets⟩ ∧ sheets.foldlM Workbook.add w = .ok ⟨w.sheets ++ sheets⟩) ∨
      ∃ before s after, sheets = before ++ s :: after ∧ HasValidNames ⟨w.sheets ++ before⟩ ∧
        Text.lowercase s.name ∈ lowerNames ⟨w.sheets ++ before⟩ ∧
        sheets.foldlM Workbook.add w = .error (.duplicate s.name) := by
  induction sheets generalizing w with
  | nil =>
    rw [List.append_nil]
    exact .inl ⟨hw, rfl⟩
  | cons s sheets ih =>
    -- Either the first sheet is refused, or the others meet the workbook with it let in.
    obtain ⟨hs, hrest⟩ := List.forall_mem_cons.mp hsheets
    have hadd := add_eq (w := w) hs
    rw [List.foldlM_cons]
    split at hadd
    · next hmem =>
      refine .inr ⟨[], s, sheets, rfl, ?_, ?_, ?_⟩
      · rwa [List.append_nil]
      · rwa [List.append_nil]
      · rw [hadd]
        rfl
    · have hfirst := ih (hw.add hadd) hrest
      rw [hadd]
      simp only [List.append_assoc, List.singleton_append] at hfirst
      rcases hfirst with hall | ⟨before, s', after, rfl, hbefore, hmem, hfold⟩
      · exact .inl hall
      · exact .inr ⟨s :: before, s', after, rfl, hbefore, hmem, hfold⟩

theorem HasValidNames.eraseIdx (h : w.HasValidNames) (i : Nat) :
    HasValidNames ⟨w.sheets.eraseIdx i⟩ where
  isSheetName name hname := h.isSheetName name
    (((List.eraseIdx_sublist w.sheets i).map _).subset hname)
  nodup := h.nodup.sublist (((List.eraseIdx_sublist w.sheets i).map _).map _)

/-- A sheet that takes the place of another has to have a name under which it could have been added
to the others. -/
theorem HasValidNames.set_iff (h : w.HasValidNames) {i : Nat} (hi : i < w.sheets.length) :
    HasValidNames ⟨w.sheets.set i s⟩ ↔ refusal? ⟨w.sheets.eraseIdx i⟩ s.name = none := by
  have hperm := List.set_perm_cons_eraseIdx hi s
  constructor
  · intro hset
    exact (hasValidNames_cons_iff.mp (hset.of_perm hperm.symm)).1
  · intro hs
    exact (hasValidNames_cons_iff.mpr ⟨hs, h.eraseIdx i⟩).of_perm hperm

/-- A change that cannot be done changes nothing, and any other replaces one sheet. -/
theorem step_change {h : Handle} {i : Nat} (hfind : h.find? w = some (i, s)) (e : SheetEdit) :
    w.step (.change h e) =
      match e.apply s with
      | .error _ => w
      | .ok s' => ⟨w.sheets.set i s'⟩ := by
  simp only [step, edit, change, hfind]
  cases e.apply s with
  | error cause => rfl
  | ok s' =>
    have : Inhabited Sheet := ⟨s⟩
    simp only [modify, List.modify_eq_set]

theorem step_change_of_find?_eq_none {h : Handle} (hfind : h.find? w = none) (e : SheetEdit) :
    w.step (.change h e) = w := by
  simp only [step, edit, change, hfind]

/-- Cells are written and cleared under the name that the sheet has. -/
theorem SheetEdit.name_of_apply {e : SheetEdit} {s' : Sheet} (he : ∀ name, e ≠ .rename name)
    (h : e.apply s = .ok s') : s'.name = s.name := by
  cases e with
  | set a v =>
    simp only [apply, Sheet.set] at h
    split at h
    · cases h
    · obtain rfl := Except.ok.inj h
      rfl
  | clear a =>
    obtain rfl := Except.ok.inj h
    rfl
  | rename name => exact absurd rfl (he name)

theorem names_step_change {h : Handle} {e : SheetEdit} (he : ∀ name, e ≠ .rename name) :
    (w.step (.change h e)).names = w.names := by
  cases hfind : h.find? w with
  | none => rw [step_change_of_find?_eq_none hfind]
  | some found =>
    obtain ⟨i, s⟩ := found
    rw [step_change hfind]
    cases happly : e.apply s with
    | error cause => rfl
    | ok s' =>
      obtain ⟨hi, rfl⟩ := List.getElem?_eq_some_iff.mp (Handle.getElem?_of_find? hfind)
      simp only [names, List.map_set, SheetEdit.name_of_apply he happly]
      rw [← List.getElem_map (fun s : Sheet => s.name), List.set_getElem_self]
      rwa [List.length_map]

/-- An edit keeps the names valid just if it is checked. -/
theorem HasValidNames.step_iff (hw : w.HasValidNames) (e : Edit) :
    (w.step e).HasValidNames ↔ e.IsChecked w := by
  cases e with
  | add s =>
    refine iff_of_true ?_ trivial
    simp only [step, edit]
    cases hadd : w.add s with
    | error cause => exact hw
    | ok w' => exact hw.add hadd
  | remove i =>
    refine iff_of_true ?_ trivial
    simp only [step, edit, remove]
    cases w.sheets[i]? with
    | none => exact hw
    | some s => exact hw.eraseIdx i
  | change h e =>
    cases e with
    | set a v => exact iff_of_true (hw.of_names_eq (names_step_change (by simp))) trivial
    | clear a => exact iff_of_true (hw.of_names_eq (names_step_change (by simp))) trivial
    | rename name =>
      cases hfind : h.find? w with
      | none =>
        rw [step_change_of_find?_eq_none hfind]
        exact iff_of_true hw fun i s hs => by simp [hfind] at hs
      | some found =>
        obtain ⟨i, s⟩ := found
        obtain ⟨hi, -⟩ := List.getElem?_eq_some_iff.mp (Handle.getElem?_of_find? hfind)
        rw [step_change hfind]
        refine (hw.set_iff hi).trans ?_
        simp [Edit.IsChecked, hfind, Sheet.rename]

/-- The names stay valid through all edits just if all edits are checked. -/
theorem HasValidNames.run_iff (hw : w.HasValidNames) (edits : List Edit) :
    (∀ before, before <+: edits → (w.run before).HasValidNames) ↔ w.IsChecked edits := by
  induction edits generalizing w with
  | nil =>
    refine iff_of_true (fun before hbefore => ?_) trivial
    rwa [List.prefix_nil.mp hbefore]
  | cons e edits ih =>
    constructor
    · intro h
      have hstep : (w.step e).HasValidNames := h [e] (List.prefix_append [e] edits)
      exact ⟨(hw.step_iff e).mp hstep, (ih hstep).mp fun before hbefore =>
        h (e :: before) (List.cons_prefix_cons.mpr ⟨rfl, hbefore⟩)⟩
    · rintro ⟨he, hedits⟩ before hbefore
      cases before with
      | nil => exact hw
      | cons e' before =>
        obtain ⟨rfl, hrest⟩ := List.cons_prefix_cons.mp hbefore
        exact (ih ((hw.step_iff e').mpr he)).mpr hedits before hrest

/-! ### What valid names are for -/

/-- Each sheet is found under its name, and a scan of the sheets in order reaches all of them. -/
structure FindsSheets (w : Workbook) : Prop where
  index?_eq_some : ∀ i s, w.sheets[i]? = some s → w.index? s.name = some i
  names_order : (SheetOrder.ofWorkbook w).names = w.names
  /-- The cells that are visited are those of the sheets that hold something. -/
  mem_visits_iff : ∀ v, v ∈ (Scan.mk w (.ofWorkbook w)).visits ↔
    ∃ i s, w.sheets[i]? = some s ∧ v.position.rank = .sheet i ∧
      s.cells.get? v.position.address = some v.value

end Workbook

theorem SheetOrder.dropRepeats_eq_self {names : List String} (h : names.Nodup) :
    dropRepeats names = names := by
  induction names with
  | nil => rfl
  | cons name rest ih =>
    obtain ⟨hname, hrest⟩ := List.nodup_cons.mp h
    rw [dropRepeats, ih hrest, List.filter_eq_self.mpr]
    intro other hother
    exact decide_eq_true (ne_of_mem_of_not_mem hother hname)

namespace Workbook

variable {w : Workbook} {s : Sheet}

theorem index?_eq_some_of_nodup (h : w.names.Nodup) {i : Nat} (hs : w.sheets[i]? = some s) :
    w.index? s.name = some i := by
  obtain ⟨hi, rfl⟩ := List.getElem?_eq_some_iff.mp hs
  refine List.findIdx?_eq_some_iff_getElem.mpr ⟨hi, decide_eq_true rfl, fun j hji => ?_⟩
  have hne := List.pairwise_iff_getElem.mp h j i (by simp [names]; omega) (by simpa [names]) hji
  simpa [names] using hne

theorem HasValidNames.findsSheets (h : w.HasValidNames) : w.FindsSheets where
  index?_eq_some i s hs := index?_eq_some_of_nodup h.nodup_names hs
  names_order := SheetOrder.dropRepeats_eq_self h.nodup_names
  mem_visits_iff v := by
    have horder : (SheetOrder.ofWorkbook w).names = w.sheets.map (·.name) :=
      SheetOrder.dropRepeats_eq_self h.nodup_names
    rw [Workbook.mem_visits_iff h.nodup_names, horder]
    constructor
    · rintro ⟨i, s, hmem, hname, hrank, hcell⟩
      rw [List.getElem?_map] at hname
      obtain ⟨s', hs', heq⟩ := Option.map_eq_some_iff.mp hname
      obtain rfl : s' = s :=
        List.inj_on_of_nodup_map h.nodup_names (List.mem_of_getElem? hs') hmem heq
      exact ⟨i, s', hs', hrank, hcell⟩
    · rintro ⟨i, s, hs, hrank, hcell⟩
      refine ⟨i, s, List.mem_of_getElem? hs, ?_, hrank, hcell⟩
      rw [List.getElem?_map, hs, Option.map_some]

/-- From a new or an empty workbook, the names stay valid through all edits just if every rename is
to a name under which the sheet could have been added to the others.  Then each sheet is found under
its name, and a scan of the workbook reaches all of them. -/
theorem names_of_edits {start : Workbook} (hstart : start = new ∨ start = empty)
    (edits : List Edit) :
    ((∀ before, before <+: edits → (start.run before).HasValidNames) ↔ start.IsChecked edits) ∧
      (start.IsChecked edits →
        (start.run edits).HasValidNames ∧ (start.run edits).FindsSheets) := by
  have hvalid : start.HasValidNames := by
    rcases hstart with rfl | rfl
    · exact hasValidNames_new
    · exact hasValidNames_empty
  have hrun := hvalid.run_iff edits
  refine ⟨hrun, fun hchecked => ?_⟩
  have hend := hrun.mpr hchecked edits (List.prefix_refl edits)
  exact ⟨hend, hend.findsSheets⟩

/-- A sheet is added, given another name, written into under that name, and left alone. -/
def draftEdits : List Edit :=
  [.add (.blank "Draft"), .change (.name "Draft") (.rename "SHEET2"),
    .change (.name "SHEET2") (.set ⟨0, 0⟩ (.boolean true)), .remove 0]

theorem names_of_edits_draft :
    new.IsChecked draftEdits ∧ (new.run draftEdits).names = ["SHEET2"] ∧
      (new.run draftEdits).HasValidNames ∧ (new.run draftEdits).FindsSheets := by
  have hchecked : new.IsChecked draftEdits := by
    refine ⟨trivial, ?_, trivial, trivial, trivial⟩
    intro i s hs
    have hfind : (Handle.name "Draft").find? (new.step (.add (.blank "Draft"))) =
        some (1, .blank "Draft") := by rfl
    obtain ⟨rfl, rfl⟩ := Prod.mk.inj (Option.some.inj (hfind.symm.trans hs))
    decide +kernel
  exact ⟨hchecked, by rfl, (names_of_edits (.inl rfl) draftEdits).2 hchecked⟩

/-- A sheet is added, written into, and given the name of the sheet before it. -/
def clashingEdits : List Edit :=
  [.add (.blank "Data"), .change (.index 1) (.set ⟨0, 0⟩ (.boolean true)),
    .change (.index 1) (.rename "Sheet1")]

/-- A rename is not checked: two sheets can have the same name, and then the second one is neither
found under it nor scanned. -/
theorem clash_of_rename :
    (new.run clashingEdits).names = ["Sheet1", "Sheet1"] ∧
      ¬ (new.run clashingEdits).HasValidNames ∧
      ((new.run clashingEdits).sheets[1]?.bind fun s => (new.run clashingEdits).index? s.name) =
        some 0 ∧
      ((new.run clashingEdits).sheets[1]?.map (·.cells.size)) = some 1 ∧
      (Scan.mk (new.run clashingEdits) (.ofWorkbook (new.run clashingEdits))).visits = [] := by
  have hnames : (new.run clashingEdits).names = ["Sheet1", "Sheet1"] := by rfl
  refine ⟨hnames, fun h => ?_, by decide +kernel, by decide +kernel,
    List.eq_nil_of_length_eq_zero (by decide +kernel)⟩
  have hnodup := h.nodup_names
  rw [hnames] at hnodup
  simp at hnodup

end Workbook

end SheetRecords
