import WorkerTemplate.Scripts.Project

/-!
# When the script succeeds

The script exits with an error when the package is missing or cannot be moved, when it cannot edit
one of the two files that it has to edit, and when it leaves a reference behind in a file that it
should have known of.  Otherwise it makes one file of each that it has copied.
-/

namespace WorkerTemplate.Templatize

open Passes

variable {f f' : File} {path : Path} {lines out : List Text} {passes : List Pass}

/-! ### The package is moved -/

theorem head?_of_inPackage (h : inPackage path) : path.head? = some reference ∧ 2 ≤ path.length :=
  Selection.head?_of_found h

theorem exists_of_inPackage (h : inPackage path) : ∃ c rest, path = reference :: c :: rest := by
  obtain ⟨hhead, hlength⟩ := head?_of_inPackage h
  match path with
  | [] => cases hhead
  | [d] => exact absurd hlength (by simp)
  | d :: c :: rest =>
      cases hhead
      exact ⟨c, rest, rfl⟩

/-- Where the package is moved to has the name of the slug. -/
theorem eq_of_destination {dirs : List Path} {files : List File} {d : Path}
    (h : destination dirs files = some d) :
  d = [templateVar] ∨ d = [templateVar, reference]
  := by
  unfold destination at h
  split at h
  case isTrue => cases h
  case isFalse =>
    split at h
    case isFalse => exact Or.inl (Option.some.inj h).symm
    case isTrue =>
      split at h
      case isTrue => cases h
      case isFalse => exact Or.inr (Option.some.inj h).symm

theorem renamed_of_inPackage {d : Path} (h : inPackage path) :
  renamed d path = d ++ path.tail
  := if_pos h

theorem renamed_of_not_inPackage {d : Path} (h : ¬ inPackage path) : renamed d path = path :=
  if_neg h

/-- What was a part of the package is found under its new name. -/
theorem selects_renamed {d : Path} (hd : d = [templateVar] ∨ d = [templateVar, reference])
    (h : inPackage path) :
  (Selection.below templateVar).selects (renamed d path)
  := by
  obtain ⟨c, rest, rfl⟩ := exists_of_inPackage h
  rw [renamed_of_inPackage h]
  rcases hd with rfl | rfl <;> simp [Selection.below, Selection.selects]

/-- Moving the package changes no name, and hides no file from the last step of the script. -/
theorem isChecked_renamed {d : Path} (hd : d = [templateVar] ∨ d = [templateVar, reference])
    (path : Path) :
  isChecked (renamed d path) = isChecked path
  := by
  by_cases h : inPackage path
  case neg => rw [renamed_of_not_inPackage h]
  case pos =>
    obtain ⟨c, rest, rfl⟩ := exists_of_inPackage h
    have hname : fileName (renamed d (reference :: c :: rest)) =
        fileName (reference :: c :: rest) := by
      rw [renamed_of_inPackage h, fileName, fileName, List.tail_cons,
        List.getLast?_append_of_ne_nil _ (List.cons_ne_nil c rest), List.getLast?_cons_cons]
    have hdirs (q : Text → Bool) (hq : d.any q = q reference) :
        (renamed d (reference :: c :: rest)).dropLast.any q =
          (reference :: c :: rest).dropLast.any q := by
      rw [renamed_of_inPackage h, List.tail_cons,
        List.dropLast_append_of_ne_nil (List.cons_ne_nil c rest), List.any_append, hq,
        List.dropLast_cons_of_ne_nil (List.cons_ne_nil c rest), List.any_cons]
    rw [isChecked, isChecked, hname, hdirs]
    rcases hd with rfl | rfl <;> decide +kernel

/-! ### What is left behind -/

/-- A pass leaves no reference behind. -/
def Pass.Clears (pass : Pass) : Prop :=
  ∀ lines out, pass.edit lines = .ok out → hasReference out = false

theorem hasReference_replaceReferences (lines : List Text) :
  hasReference (lines.map replaceReferences) = false
  := by
  apply hasReference_eq_false
  rw [List.forall_mem_map]
  exact fun line _ => not_infix_replaceReferences line

theorem clears_updating (selection : Selection) : (updating selection).Clears := by
  rintro lines out ⟨⟩
  rw [updateReferences]
  split
  case isTrue => apply hasReference_replaceReferences
  case isFalse h => simpa using h

theorem elim_eq_ok_iff {r : Option (List Text)} {e : Failure} :
  r.elim (.error e) .ok = Except.ok out ↔ r = some out
  := by
  cases r with
  | none => simp
  | some lines => simp

theorem clears_pyproject : pyproject.Clears := by
  intro lines out h
  rw [eq_of_templatizePyproject (elim_eq_ok_iff.mp h)]
  apply hasReference_replaceReferences

theorem clears_devspace : devspace.Clears := by
  intro lines out h
  apply hasReference_eq_false (not_infix_templatizeDevspace (elim_eq_ok_iff.mp h))

theorem clears_workflow : workflow.Clears := by
  rintro lines out ⟨⟩
  apply hasReference_eq_false
  rw [List.forall_mem_map]
  exact fun line _ => not_infix_templatizeWorkflow line

/-- A pass replaces the references of some files, or it is one of three that do more. -/
theorem eq_of_mem_references {pass : Pass} (h : pass ∈ packageModules :: references) :
  pass = pyproject ∨ pass = devspace ∨ pass = workflow ∨ ∃ s, pass = updating s
  := by
  simp only [packageModules, references, List.mem_cons, List.not_mem_nil, or_false] at h
  grind

theorem clears_of_mem {pass : Pass} (h : pass ∈ packageModules :: references) : pass.Clears := by
  rcases eq_of_mem_references h with rfl | rfl | rfl | ⟨selection, rfl⟩
  · apply clears_pyproject
  · apply clears_devspace
  · apply clears_workflow
  · apply clears_updating

/-- The last step of the script finds no reference in a file whose references the script replaces,
whatever the file is. -/
theorem hasReference_templatized (lines : List Text) :
  hasReference (lines.map replaceReferences) = false ∧
    hasReference (lines.map templatizeWorkflow) = false ∧
    (∀ out, templatizeDevspace lines = some out → hasReference out = false) ∧
    ∀ pass ∈ packageModules :: references, ∀ out,
      pass.edit lines = .ok out → hasReference out = false
  := by
  refine ⟨hasReference_replaceReferences lines, ?_, ?_, ?_⟩
  · apply clears_workflow lines _ rfl
  · intro out hout
    apply clears_devspace lines out (elim_eq_ok_iff.mpr hout)
  · intro pass hpass out hout
    apply clears_of_mem hpass lines out hout

theorem hasReference_templatizeManifest (lines : List Text) :
  hasReference (templatizeManifest lines) = hasReference lines
  := by
  have htags : (decide (reference <:+: rawTag) || decide (reference <:+: endrawTag)) = false := by
    decide
  rw [templatizeManifest]
  split
  case isFalse => rfl
  case isTrue =>
    rw [Bool.or_eq_false_iff] at htags
    simp [hasReference, List.any_append, htags]

/-- A reference is left behind where the script replaces none. -/
theorem hasReference_of_edit (h : edit path lines = .ok out) :
  hasReference out = (hasReference lines && !updates path)
  := by
  rw [edit, configuration, ← List.cons_append, editWith, List.find?_append] at h
  cases hfind : (packageModules :: references).find? (fun pass => pass.selection.selects path) with
  | some pass =>
      rw [hfind] at h
      have hupdates : updates path = true := by
        rw [updates, List.any_eq_true]
        exact ⟨pass, List.mem_of_find?_eq_some hfind,
          List.find?_some (p := fun pass : Pass => pass.selection.selects path) hfind⟩
      rw [hupdates, Bool.not_true, Bool.and_false]
      apply clears_of_mem (List.mem_of_find?_eq_some hfind) lines out h
  | none =>
      rw [hfind, Option.none_or, List.find?_singleton] at h
      have hupdates : updates path = false := by
        rw [updates, List.any_eq_false]
        rw [List.find?_eq_none] at hfind
        exact hfind
      rw [hupdates, Bool.not_false, Bool.and_true]
      split at h
      case h_1 pass hpass =>
        rw [Option.ite_none_right_eq_some] at hpass
        cases hpass.2
        cases h
        apply hasReference_templatizeManifest
      case h_2 =>
        cases h
        rfl

/-! ### The script on every file -/

/-- A file of the template comes of a file of the project. -/
structure BecomesIn (d : Path) (f f' : File) : Prop where
  path : f'.path = renamed d f.path
  edit : edit f.path f.lines = .ok f'.lines

/-- The passes of the script on one file. -/
theorem becomesIn_iff {d : Path} (hd : d = [templateVar] ∨ d = [templateVar, reference]) :
  (∃ g, packageModules.onFile f = .ok g ∧
      configuration.foldlM (fun f pass => pass.onFile f) { g with path := renamed d g.path } =
        .ok f') ↔
    BecomesIn d f f'
  := by
  have honFile (g : File) : packageModules.onFile f = .ok g ↔
      g.path = f.path ∧ editWith [packageModules] f.path f.lines = .ok g.lines := by
    rw [← map_ok_lines, ← foldlM_onFile (List.pairwise_singleton ..), List.foldlM_cons]
    cases packageModules.onFile f <;> rfl
  have hconfiguration {path : Path} {dir : Text} (hdir : dir = reference ∨ dir = templateVar)
      (hpath : (Selection.below dir).selects path) :
      ∀ pass ∈ configuration, pass.selection.selects path = false :=
    fun pass hpass =>
      Selection.selects_eq_false_of_disjoint (disjoint_configuration hdir pass hpass) hpath
  simp only [honFile, foldlM_onFile pairwise_configuration, map_ok_lines]
  by_cases h : inPackage f.path
  case pos =>
    have hmodule : edit f.path f.lines = editWith [packageModules] f.path f.lines := by
      by_cases hselects : packageModules.selection.selects f.path
      case pos => rw [edit, editWith_cons_of_pos hselects, editWith_cons_of_pos hselects]
      case neg =>
        rw [edit, editWith_cons_of_neg hselects, editWith_cons_of_neg hselects]
        apply editWith_of_forall (hconfiguration (Or.inl rfl) h)
    constructor
    · rintro ⟨g, ⟨hpath, hedit⟩, hpath', hedit'⟩
      rw [hpath, editWith_of_forall (hconfiguration (Or.inr rfl) (selects_renamed hd h))] at hedit'
      constructor
      · rw [hpath', hpath]
      · rw [hmodule, hedit, hedit']
    · rintro ⟨hpath, hedit⟩
      use { f with lines := f'.lines }
      rw [editWith_of_forall (hconfiguration (Or.inr rfl) (selects_renamed hd h)), ← hmodule]
      exact ⟨⟨rfl, hedit⟩, hpath, rfl⟩
  case neg =>
    have hmodule : ¬ packageModules.selection.selects f.path := by
      intro hselects
      apply h
      have hfound := Selection.head?_of_found hselects
      simp [inPackage, Selection.below, Selection.selects, hfound]
    rw [editWith_cons_of_neg hmodule]
    constructor
    · rintro ⟨g, ⟨hpath, hedit⟩, hpath', hedit'⟩
      have hlines : f.lines = g.lines := Except.ok.inj hedit
      rw [hpath, renamed_of_not_inPackage h] at hedit' hpath'
      constructor
      · rw [hpath', renamed_of_not_inPackage h]
      · rw [edit, editWith_cons_of_neg hmodule, hlines, hedit']
    · rintro ⟨hpath, hedit⟩
      rw [edit, editWith_cons_of_neg hmodule] at hedit
      use f
      rw [renamed_of_not_inPackage h] at hpath ⊢
      exact ⟨⟨rfl, rfl⟩, hpath, hedit⟩

section Files

variable {dirs : List Path} {files out : List File}

theorem run_eq_ok_iff {pass : Pass} :
  pass.run files = .ok out ↔ List.Forall₂ (fun f f' => pass.onFile f = .ok f') files out
  := mapM_eq_ok_iff

/-- The passes over all files are the passes over each of them. -/
theorem foldlM_run_eq_ok_iff :
  passes.foldlM Pass.run files = .ok out ↔
    List.Forall₂ (fun f f' => passes.foldlM (fun f pass => pass.onFile f) f = .ok f') files out
  := by
  have hpasses : (passes.map Pass.onFile).foldlM (fun l pass => l.mapM pass) files = .ok out ↔ _ :=
    foldlM_mapM_eq_ok_iff (passes.map Pass.onFile)
  simp only [List.foldlM_map] at hpasses
  apply hpasses

/-- Where the package is moved to depends on the paths of the files. -/
theorem destination_congr {files' : List File} (h : files.map File.path = files'.map File.path) :
  destination dirs files = destination dirs files'
  := by
  have hany (q : Path → Bool) : files.any (fun f => q f.path) = files'.any (fun f => q f.path) := by
    have hmap (l : List File) : l.any (fun f => q f.path) = (l.map File.path).any q := by
      rw [List.any_map]
      rfl
    rw [hmap, hmap, h]
  unfold destination obstructs
  rw [hany (fun path => path == [templateVar]),
    hany (fun path => [templateVar, reference].isPrefixOf path)]

theorem renamePackage_eq_ok_iff :
  renamePackage dirs files = .ok out ↔
    ∃ d, destination dirs files = some d ∧
      out = files.map fun f => { f with path := renamed d f.path }
  := by
  rw [renamePackage]
  cases destination dirs files with
  | none => simp
  | some d => simp [eq_comm]

theorem path_of_onFile {pass : Pass} (h : pass.onFile f = .ok f') : f'.path = f.path := by
  rw [Pass.onFile] at h
  split at h
  case isTrue => apply ((map_ok_lines f.path _).mp h).1
  case isFalse =>
    cases h
    rfl

/-- The steps of the script between the copy and the last one. -/
theorem exists_steps_iff :
  (∃ gs, packageModules.run files = .ok gs ∧
      ∃ ds, renamePackage dirs gs = .ok ds ∧ configuration.foldlM Pass.run ds = .ok out) ↔
    ∃ d, destination dirs files = some d ∧ List.Forall₂ (BecomesIn d) files out
  := by
  have hpaths {gs : List File} (h : packageModules.run files = .ok gs) :
      destination dirs gs = destination dirs files := by
    apply destination_congr
    have hfiles := run_eq_ok_iff.mp h
    clear h
    induction hfiles with
    | nil => rfl
    | cons h _ ih => rw [List.map_cons, List.map_cons, path_of_onFile h, ih]
  have hsteps {d : Path} (hd : destination dirs files = some d) :
      List.Forall₂ (BecomesIn d) files out ↔
        ∃ gs, packageModules.run files = .ok gs ∧
          configuration.foldlM Pass.run (gs.map fun g => { g with path := renamed d g.path }) =
            .ok out := by
    simp only [run_eq_ok_iff, foldlM_run_eq_ok_iff, List.forall₂_map_left_iff, forall₂_comp_iff,
      becomesIn_iff (eq_of_destination hd)]
  constructor
  · rintro ⟨gs, hgs, ds, hds, hout⟩
    obtain ⟨d, hd, rfl⟩ := renamePackage_eq_ok_iff.mp hds
    rw [hpaths hgs] at hd
    use d, hd
    rw [hsteps hd]
    use gs, hgs
  · rintro ⟨d, hd, hbecomes⟩
    obtain ⟨gs, hgs, hout⟩ := (hsteps hd).mp hbecomes
    use gs, hgs
    exact ⟨_, renamePackage_eq_ok_iff.mpr ⟨d, (hpaths hgs).trans hd, rfl⟩, hout⟩

theorem checkPackage_eq_ok_iff :
  checkPackage dirs files = .ok out ↔ [reference] ∈ dirs ∧ out = files
  := by
  unfold checkPackage
  split
  case isTrue h => simp [List.contains_iff_mem.mp h, eq_comm]
  case isFalse h => simp [mt List.contains_iff_mem.mpr h]

theorem checkReferences_eq_ok_iff :
  checkReferences files = .ok out ↔
    (∀ f ∈ files, isChecked f.path → hasReference f.lines = false) ∧ out = files
  := by
  have hrefs : remainingRefs files = [] ↔
      ∀ f ∈ files, isChecked f.path → hasReference f.lines = false := by
    rw [remainingRefs, List.filter_eq_nil_iff]
    simp
  rw [← hrefs]
  unfold checkReferences
  split
  case h_1 h => simp [h, eq_comm]
  case h_2 h =>
    constructor
    · rintro ⟨⟩
    · rintro ⟨hnil, -⟩
      exact (h hnil).elim

/-- What the steps of the script do together. -/
theorem templatize_steps :
  templatize files = .ok out ↔
    [reference] ∈ directories files ∧
    (∃ d, destination (directories files) (copied files) = some d ∧
      List.Forall₂ (BecomesIn d) (copied files) out) ∧
    ∀ f' ∈ out, isChecked f'.path → hasReference f'.lines = false
  := by
  simp only [templatize, bind_eq_ok_iff, checkPackage_eq_ok_iff, checkReferences_eq_ok_iff]
  rw [← exists_steps_iff]
  constructor
  · rintro ⟨_, ⟨hpackage, rfl⟩, gs, hgs, ds, hds, _, hout, hrest, rfl⟩
    exact ⟨hpackage, ⟨gs, hgs, ds, hds, hout⟩, hrest⟩
  · rintro ⟨hpackage, ⟨gs, hgs, ds, hds, hout⟩, hrest⟩
    exact ⟨_, ⟨hpackage, rfl⟩, gs, hgs, ds, hds, out, hout, hrest, rfl⟩

end Files

/-- The script succeeds when there is a package that can be moved, when every file can be edited
that it edits, and when every file that it looks at has no reference or is one whose references
it replaces; and the template has then one file for each file that was copied. -/
theorem templatize_eq_ok_iff {files out : List File} :
  templatize files = .ok out ↔
    [reference] ∈ directories files ∧
    (∃ d, destination (directories files) (copied files) = some d ∧
      List.Forall₂ (BecomesIn d) (copied files) out) ∧
    ∀ f ∈ copied files, isChecked f.path → hasReference f.lines → updates f.path
  := by
  rw [templatize_steps]
  apply and_congr_right
  rintro -
  apply and_congr_right
  rintro ⟨d, hd, h⟩
  apply Iff.symm
  apply forall_mem_iff_of_forall₂ h
  rintro f f' ⟨hpath, hedit⟩
  rw [hpath, isChecked_renamed (eq_of_destination hd), hasReference_of_edit hedit]
  simp

end WorkerTemplate.Templatize
