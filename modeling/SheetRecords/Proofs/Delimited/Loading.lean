import Mathlib.Data.List.Forall2
import SheetRecords.Files.Tree
import SheetRecords.Proofs.Delimited.Import
import SheetRecords.Proofs.Workbook

/-!
# Workbooks of files

The name of a file is made into a name that keeps the rules for sheets.  So files that all make
sheets (`LoadsAs`) become a workbook just if no two of the names made of theirs are the same, letter
case aside, and the first file with the name of one before it is at fault otherwise
(`loadWorkbook_names`).  As a file is loaded without a change to any file, loading comes down to
adding the sheets one after the other (`loadWorkbook_run`).
-/

namespace SheetRecords.Delimited

open Cell

/-- The name of a file as that of a sheet, without regard to letter case. -/
def lowerSheetName (path : String) : String :=
  Text.lowercase (sanitizeName (fileStem path))

/-- The file is the first one that has the name of a file before it, letter case aside. -/
def IsFirstCollision (paths : List String) (path : String) : Prop :=
  ∃ before after, paths = before ++ path :: after ∧ (before.map lowerSheetName).Nodup ∧
    lowerSheetName path ∈ before.map lowerSheetName

section

variable {σ : Type} {files : Files (StateM σ)} {o : ImportOptions} {t : σ}

/-- The file can be read, which changes nothing, and makes the sheet. -/
def LoadsAs (files : Files (StateM σ)) (o : ImportOptions) (t : σ) (path : String) (s : Sheet) :
    Prop :=
  ∃ bytes, (files.read path).run t = (.ok bytes, t) ∧
    importSheet o (sheetNameOfFile path) bytes = .ok s

/-- A file that can be read and whose fields are texts within the limits makes a sheet. -/
theorem exists_loadsAs {path : String} {bytes : List UInt8} {table : List (List String)}
    (hread : (files.read path).run t = (.ok bytes, t))
    (hdecodes : Decodes (readRecords o.dialect bytes) table)
    (hfits : ∀ a, Stands table a → a.IsInside) : ∃ s, LoadsAs files o t path s := by
  obtain ⟨s, hs⟩ := (exists_sheetOfRecords_iff o (sheetNameOfFile path) hdecodes).mpr hfits
  exact ⟨s, bytes, hread, hs⟩

/-- After a step that succeeds comes the next one, and a failure is the last step. -/
theorem run_bind_of_run {ε α β : Type} {x : ExceptT ε (StateM σ) α}
    {f : α → ExceptT ε (StateM σ) β} {r : Except ε α} {t t' : σ} : x.run.run t = (r, t') →
    (x >>= f).run.run t =
      match r with
      | .ok a => (f a).run.run t'
      | .error e => (.error e, t') := by
  intro h
  rw [ExceptT.run_bind, StateT.run_bind, h]
  cases r <;> rfl

theorem LoadsAs.loadSheet_run {path : String} {s : Sheet} (h : LoadsAs files o t path s) :
    (loadSheet files o none path).run.run t = (.ok s, t) := by
  obtain ⟨bytes, hread, himport⟩ := h
  have hlift : (liftM (files.read path) :
      ExceptT ImportError (StateM σ) (Except FileError (List UInt8))).run.run t =
      (.ok (.ok bytes), t) := by
    show (Except.ok <$> files.read path).run t = _
    rw [StateT.run_map, hread]
    rfl
  rw [loadSheet, run_bind_of_run hlift]
  show (importSheet o (sheetNameOfFile path) bytes, t) = _
  rw [himport]

/-- The sheet of a file is added to a workbook, or refused. -/
theorem LoadsAs.add_run {path : String} {s : Sheet} (h : LoadsAs files o t path s) (w : Workbook) :
    (loadSheet files o none path >>= fun s =>
      match w.add s with
      | .error e => throw (.name e)
      | .ok w => pure w).run.run t = ((w.add s).mapError .name, t) := by
  rw [run_bind_of_run h.loadSheet_run]
  dsimp only
  cases w.add s <;> rfl

/-- Files that make sheets are loaded as these are added to a workbook. -/
theorem loadWorkbook_run {paths : List String} {sheets : List Sheet}
    (h : List.Forall₂ (LoadsAs files o t) paths sheets) :
    (loadWorkbook files o paths).run.run t =
      ((sheets.foldlM Workbook.add Workbook.empty).mapError .name, t) := by
  unfold loadWorkbook
  -- The induction is on the files, for any workbook that those before them have made.
  generalize Workbook.empty = w
  induction h generalizing w with
  | nil => rfl
  | @cons path s paths sheets hfirst _ ih =>
    rw [List.foldlM_cons, List.foldlM_cons]
    refine (run_bind_of_run (hfirst.add_run w)).trans ?_
    cases w.add s with
    | error e => rfl
    | ok w' => exact ih w'

/-! ### Names -/

theorem LoadsAs.name_eq {path : String} {s : Sheet} (h : LoadsAs files o t path s) :
    s.name = sanitizeName (fileStem path) := by
  obtain ⟨bytes, -, himport⟩ := h
  exact name_of_sheetOfRecords himport

theorem names_of_loadsAs {paths : List String} {sheets : List Sheet}
    (h : List.Forall₂ (LoadsAs files o t) paths sheets) :
    sheets.map (·.name) = paths.map fun path => sanitizeName (fileStem path) := by
  induction h with
  | nil => rfl
  | cons hfirst _ ih => rw [List.map_cons, List.map_cons, hfirst.name_eq, ih]

/-- A file with the name of one before it is in the way of different names. -/
theorem IsFirstCollision.not_nodup {paths : List String} {path : String}
    (h : IsFirstCollision paths path) : ¬ (paths.map lowerSheetName).Nodup := by
  obtain ⟨before, after, rfl, -, hmem⟩ := h
  rw [List.map_append, List.map_cons]
  intro hnodup
  have hdisjoint := (List.nodup_append.mp hnodup).2.2
  exact hdisjoint _ hmem _ (List.mem_cons_self ..) rfl

theorem lowerNames_eq {paths : List String} {sheets : List Sheet}
    (h : sheets.map (·.name) = paths.map fun path => sanitizeName (fileStem path)) :
    Workbook.lowerNames ⟨sheets⟩ = paths.map lowerSheetName := by
  rw [Workbook.lowerNames, Workbook.names, h, List.map_map]
  rfl

/-- The first sheet whose name is there is that of the first file with the name of one before it. -/
theorem exists_isFirstCollision {paths : List String} {before after : List Sheet} {s : Sheet}
    (h : (before ++ s :: after).map (·.name) = paths.map fun path => sanitizeName (fileStem path))
    (hbefore : (Workbook.lowerNames ⟨before⟩).Nodup)
    (hmem : Text.lowercase s.name ∈ Workbook.lowerNames ⟨before⟩) :
    ∃ path, IsFirstCollision paths path ∧ s.name = sanitizeName (fileStem path) := by
  rw [List.map_append, List.map_cons] at h
  obtain ⟨first, more, rfl, hfirst, hmore⟩ := List.map_eq_append_iff.mp h.symm
  obtain ⟨path, rest, rfl, hpath, -⟩ := List.map_eq_cons_iff.mp hmore
  rw [lowerNames_eq hfirst.symm] at hbefore hmem
  rw [← hpath] at hmem
  exact ⟨path, ⟨first, rest, rfl, hbefore, hmem⟩, hpath.symm⟩

/-- **Files that make sheets make a workbook unless their names collide.**  The files are loaded just
if the names that are made of theirs differ in more than letter case, and then their sheets are those
of the workbook, in order and under these names.  Otherwise the first file is at fault that has the
name of a file before it.  Whatever a file is called, its name is made into one that keeps the rules,
and stays as it is if it keeps them already. -/
theorem loadWorkbook_names {paths : List String} {sheets : List Sheet}
    (h : List.Forall₂ (LoadsAs files o t) paths sheets) :
    (∃ r, (loadWorkbook files o paths).run.run t = (r, t) ∧
      ((∃ w, r = .ok w) ↔ (paths.map lowerSheetName).Nodup) ∧
      (∀ w, r = .ok w → w.sheets = sheets ∧
        w.names = paths.map fun path => sanitizeName (fileStem path)) ∧
      ∀ e, r = .error e → ∃ path, IsFirstCollision paths path ∧
        e = .name (.duplicate (sanitizeName (fileStem path)))) ∧
    ∀ s, nameError? (sanitizeName s) = none ∧ (nameError? s = none → sanitizeName s = s) ∧
      sanitizeName (sanitizeName s) = sanitizeName s := by
  have hnames := names_of_loadsAs h
  have hsheets : ∀ s ∈ sheets, IsSheetName s.name := by
    rw [← List.forall_mem_map (f := Sheet.name) (P := IsSheetName), hnames, List.forall_mem_map]
    exact fun path _ => isSheetName_sanitizeName _
  refine ⟨⟨_, loadWorkbook_run h, ?_⟩, ?_⟩
  · rcases Workbook.foldlM_add Workbook.hasValidNames_empty hsheets with
      ⟨hvalid, hfold⟩ | ⟨before, s, after, rfl, hbefore, hmem, hfold⟩
    · rw [hfold]
      have hnodup : (Workbook.lowerNames ⟨sheets⟩).Nodup := hvalid.nodup
      rw [lowerNames_eq hnames] at hnodup
      refine ⟨iff_of_true ⟨_, rfl⟩ hnodup, ?_, ?_⟩
      · intro w hw
        obtain rfl := Except.ok.inj hw
        exact ⟨rfl, hnames⟩
      · intro e he
        cases he
    · rw [hfold]
      obtain ⟨path, hpath, hname⟩ := exists_isFirstCollision hnames hbefore.nodup hmem
      rw [hname]
      refine ⟨iff_of_false ?_ hpath.not_nodup, ?_, ?_⟩
      · rintro ⟨w, hw⟩
        cases hw
      · intro w hw
        cases hw
      · intro e he
        exact ⟨path, hpath, (Except.error.inj he).symm⟩
  · intro s
    have hmade := isSheetName_sanitizeName s
    refine ⟨nameError?_eq_none_iff.mpr hmade, ?_, hmade.sanitizeName_eq⟩
    intro hs
    exact (nameError?_eq_none_iff.mp hs).sanitizeName_eq

end

/-- Two files whose names are made into the same one, letter case aside, and another file. -/
def shelf : FileTree :=
  .ofList [("a/q:1.csv", [0x78, lineFeed]), ("b/Q_1.tsv", []), ("b/r.csv", [0x37])]

theorem loadWorkbook_names_shelf :
    (∃ w, (loadWorkbook FileTree.files .default ["a/q:1.csv", "b/r.csv"]).run.run shelf =
        (.ok w, shelf) ∧ w.names = ["q_1", "r"]) ∧
      (loadWorkbook FileTree.files .default ["a/q:1.csv", "b/Q_1.tsv"]).run.run shelf =
        (.error (.name (.duplicate "Q_1")), shelf) := by
  have hloads (path : String) (bytes : List UInt8) (table : List (List String))
      (hread : (FileTree.files.read path).run shelf = (.ok bytes, shelf))
      (hfields : (readRecords .standard bytes).map (·.fields) =
        table.map (List.map Text.Utf8.encode))
      (hrows : table.length ≤ rowLimit) (hcolumns : ∀ fields ∈ table, fields.length ≤ columnLimit) :
      ∃ s, LoadsAs FileTree.files .default shelf path s :=
    exists_loadsAs hread (decodes_of_fields_eq hfields) fun _ => isInside_of_stands hrows hcolumns
  obtain ⟨q, hq⟩ := hloads "a/q:1.csv" _ [["x"]] rfl (by decide +kernel) (by decide) (by decide)
  obtain ⟨q', hq'⟩ := hloads "b/Q_1.tsv" _ [] rfl (by decide +kernel) (by decide) (by decide)
  obtain ⟨r, hr⟩ := hloads "b/r.csv" _ [["7"]] rfl (by decide +kernel) (by decide) (by decide)
  constructor
  · obtain ⟨⟨result, hrun, hok, hsheets, -⟩, -⟩ := loadWorkbook_names (.cons hq (.cons hr .nil))
    obtain ⟨w, rfl⟩ := hok.mpr (by decide +kernel)
    refine ⟨w, hrun, (hsheets w rfl).2.trans ?_⟩
    decide +kernel
  · obtain ⟨⟨result, hrun, hok, -, herror⟩, -⟩ := loadWorkbook_names (.cons hq (.cons hq' .nil))
    rw [hrun]
    cases result with
    | ok w => exact absurd (hok.mp ⟨w, rfl⟩) (by decide +kernel)
    | error e =>
      obtain ⟨path, ⟨before, after, hsplit, -, hmem⟩, rfl⟩ := herror e rfl
      have hpath : path = "b/Q_1.tsv" := by
        match before, hsplit with
        | [], _ => cases hmem
        | [_], hsplit => exact (List.cons.inj (List.cons.inj hsplit).2).1.symm
        | _ :: _ :: _, hsplit => simp at hsplit
      have hname : sanitizeName (fileStem path) = "Q_1" := by
        rw [hpath]
        decide +kernel
      rw [hname]

end SheetRecords.Delimited
