import WorkerTemplate.Lists.Passes
import WorkerTemplate.Scripts.Pyproject

/-!
# The script as a whole

The script copies the files of the project, renames the package, and goes through the files of
one kind after the other.  No file is of two kinds, so that each is edited once, and what the
script makes of a file depends on its path and its lines only.
-/

namespace WorkerTemplate.Templatize

open Passes

/-- A path below the directory of the project, as its components. -/
abbrev Path : Type := List Text

/-- A file of the project. -/
structure File where
  path : Path
  lines : List Text

/-- Why the script exits with an error. -/
inductive Failure where
  | noPackage
  | notMoved
  | noCeiling
  | notGated
  | remaining (paths : List Path)

/-- The last component of a path. -/
def fileName (path : Path) : Text := path.getLast?.getD []

/-! ### What is copied -/

/-- A pattern of `rsync` for one component of a path. -/
inductive Glob where
  | is (name : Text)
  | starts (beginning : Text)
  | ends (ending : Text)

/-- A component matches a pattern. -/
def Glob.matches : Glob → Text → Bool
  | is name, c => c == name
  | starts beginning, c => beginning.isPrefixOf c
  | ends ending, c => ending.isSuffixOf c

/-- A path begins with components that match some patterns. -/
def beginsWith : List Glob → Path → Bool
  | [], _ => true
  | _ :: _, [] => false
  | g :: gs, c :: cs => g.matches c && beginsWith gs cs

/-- `EXCLUDE_PATTERNS`. -/
def excludePatterns : List (List Glob) :=
  [[.is ".git".toList], [.is ".venv".toList], [.is ".python".toList], [.is "__pycache__".toList],
    [.ends ".pyc".toList], [.ends ".pyo".toList], [.ends ".pyd".toList],
    [.is ".pytest_cache".toList], [.is ".mypy_cache".toList], [.is ".ruff_cache".toList],
    [.is ".coverage".toList], [.is "coverage.json".toList], [.is "htmlcov".toList],
    [.is ".env".toList], [.starts ".env.".toList], [.ends ".egg-info".toList],
    [.is "build".toList], [.is "dist".toList], [.is ".build".toList], [.is ".dist".toList],
    [.is ".DS_Store".toList], [.is ".devspace".toList], [.is "uploads".toList],
    [.is "docs".toList, .is "_build".toList], [.is ".templatized".toList], [.is "uv.lock".toList],
    [.is ".github".toList, .is "workflows".toList, .is "publish-template.yml".toList],
    [.is ".github".toList, .is "workflows".toList, .is "validate-template.yml".toList],
    [.is "scripts".toList, .is "templatize.sh".toList],
    [.is ".claude".toList, .starts "cw-context.json".toList],
    [.is ".claude".toList, .starts "review-verdict.".toList], [.is ".cw".toList]]

/-- A path is left out when a pattern matches it or a directory that it lies in. -/
def isExcluded (path : Path) : Bool :=
  excludePatterns.any fun pattern => path.tails.any (beginsWith pattern)

/-- The files that are copied. -/
def copied (files : List File) : List File := files.filter (fun f => !isExcluded f.path)

/-- The directories of the copy.  A directory is copied that is not left out itself, also when all
of its files are. -/
def directories (files : List File) : List Path :=
  (files.flatMap (fun f => f.path.dropLast.inits)).filter (fun d => d != [] && !isExcluded d)

/-! ### What is edited -/

/-- The files that an edit is for: one file; those in a directory, at any depth, whose names have
one of some endings, as `find` gives them; or those of a directory whose names have an ending and
do not begin with a dot, as the shell lists them. -/
inductive Selection where
  | file (path : Path)
  | found (dir : Text) (endings : List Text)
  | listed (dir : Path) (ending : Text)

namespace Selection

/-- A path is selected. -/
def selects : Selection → Path → Bool
  | file p, path => path == p
  | found dir endings, path =>
      path.head? == some dir && decide (2 ≤ path.length) &&
        endings.any (fun ending => ending.isSuffixOf (fileName path))
  | listed dir ending, path =>
      path.dropLast == dir && ending.isSuffixOf (fileName path) &&
        (fileName path).head? != some '.'

/-- Everything in a directory. -/
def below (dir : Text) : Selection := found dir [[]]

/-- It can be seen that two selections have no path in common. -/
def disjoint : Selection → Selection → Bool
  | file p, s => !s.selects p
  | s, file p => !s.selects p
  | found d _, found d' _ => d != d'
  | found d _, listed dir _ => dir.head? != some d
  | listed dir _, found d _ => dir.head? != some d
  | listed dir _, listed dir' _ => dir != dir'

end Selection

/-- An edit of the files of one kind. -/
structure Pass where
  selection : Selection
  edit : List Text → Except Failure (List Text)

/-- A pass on one file. -/
def Pass.onFile (pass : Pass) (f : File) : Except Failure File :=
  if pass.selection.selects f.path then (pass.edit f.lines).map (fun lines => { f with lines })
  else .ok f

/-- A pass on all files. -/
def Pass.run (files : List File) (pass : Pass) : Except Failure (List File) :=
  files.mapM pass.onFile

/-- `if grep -q "worker_template"; then sed -i "s/worker_template/{{ project_slug }}/g"; fi`. -/
def updateReferences (lines : List Text) : List Text :=
  if hasReference lines then lines.map replaceReferences else lines

/-- The references of some files are replaced. -/
def updating (selection : Selection) : Pass where
  selection := selection
  edit lines := .ok (updateReferences lines)

/-- The modules of the package. -/
def packageModules : Pass := updating (.found reference [".py".toList])

def pyproject : Pass where
  selection := .file ["pyproject.toml".toList]
  edit lines := (templatizePyproject lines).elim (.error .noCeiling) .ok

def devspace : Pass where
  selection := .file ["devspace.yaml".toList]
  edit lines := (templatizeDevspace lines).elim (.error .notGated) .ok

def workflow : Pass where
  selection := .file [".github".toList, "workflows".toList, "ci.yml".toList]
  edit lines := .ok (lines.map templatizeWorkflow)

def manifests : Pass where
  selection := .found "k8s".toList [".yaml".toList, ".yml".toList]
  edit lines := .ok (templatizeManifest lines)

/-- The edits outside of the package that replace references, in the order of the script. -/
def references : List Pass :=
  [pyproject, updating (.file ["alembic".toList, "env.py".toList]),
    updating (.found "tests".toList [".py".toList]), updating (.file ["_tasks.py".toList]),
    updating (.file ["Dockerfile".toList]), devspace,
    updating (.file [".pre-commit-config.yaml".toList]), workflow,
    updating (.listed ["scripts".toList] ".sh".toList), updating (.listed [] ".md".toList),
    updating (.found "docs".toList [".md".toList, ".rst".toList]),
    updating (.found ".claude".toList [".md".toList, ".yaml".toList, ".yml".toList]),
    updating (.file ["dotenv.example".toList])]

/-- The edits outside of the package. -/
def configuration : List Pass := references ++ [manifests]

/-! ### The package -/

/-- A path lies in the package. -/
def inPackage (path : Path) : Bool := (Selection.below reference).selects path

/-- Something in the copy is in the way of a directory that is moved to a path: a file that has the
path, or something in a directory that has it. -/
def obstructs (dirs : List Path) (files : List File) (path : Path) : Bool :=
  files.any (fun f => path.isPrefixOf f.path) ||
    dirs.any (fun d => path.isPrefixOf d && decide (path.length < d.length))

/-- Where `mv worker_template "{{ project_slug }}"` moves the package: into a directory that has
the name already, where nothing may be in its way. -/
def destination (dirs : List Path) (files : List File) : Option Path :=
  if files.any (fun f => f.path == [templateVar]) then none
  else if dirs.contains [templateVar] then
    if obstructs dirs files [templateVar, reference] then none
    else some [templateVar, reference]
  else some [templateVar]

/-- A path after the package was moved. -/
def renamed (destination path : Path) : Path :=
  if inPackage path then destination ++ path.tail else path

/-- `mv "${OUTPUT_DIR}/worker_template" "${OUTPUT_DIR}/${TEMPLATE_VAR}"`. -/
def renamePackage (dirs : List Path) (files : List File) : Except Failure (List File) :=
  match destination dirs files with
  | none => .error .notMoved
  | some d => .ok (files.map fun f => { f with path := renamed d f.path })

/-! ### The script -/

/-- The names of the files that the script looks for references in. -/
def checkedEndings : List Text :=
  [".py".toList, ".yaml".toList, ".yml".toList, ".md".toList, ".toml".toList, ".sh".toList,
    ".example".toList, ".json".toList, ".rst".toList, ".txt".toList]

/-- The script looks for references in a file. -/
def isChecked (path : Path) : Bool :=
  (checkedEndings.any (fun ending => ending.isSuffixOf (fileName path)) ||
      fileName path == "Dockerfile".toList) &&
    !path.dropLast.any (fun c => c == ".git".toList || c == "__pycache__".toList)

/-- `REMAINING_REFS`. -/
def remainingRefs (files : List File) : List File :=
  files.filter (fun f => isChecked f.path && hasReference f.lines)

/-- `[[ -d "${OUTPUT_DIR}/worker_template" ]]`. -/
def checkPackage (dirs : List Path) (files : List File) : Except Failure (List File) :=
  if dirs.contains [reference] then .ok files else .error .noPackage

/-- The last step of the script. -/
def checkReferences (files : List File) : Except Failure (List File) :=
  match remainingRefs files with
  | [] => .ok files
  | refs => .error (.remaining (refs.map File.path))

/-- The script, from the files of the project to the files of the template. -/
def templatize (files : List File) : Except Failure (List File) := do
  let dirs := directories files
  let files ← checkPackage dirs (copied files)
  let files ← packageModules.run files
  let files ← renamePackage dirs files
  let files ← configuration.foldlM Pass.run files
  checkReferences files

/-! ### What the script makes of a file -/

/-- The edit of the first pass that selects a path. -/
def editWith (passes : List Pass) (path : Path) (lines : List Text) :
    Except Failure (List Text) :=
  match passes.find? (fun pass => pass.selection.selects path) with
  | some pass => pass.edit lines
  | none => .ok lines

/-- What the script makes of the lines of a file. -/
def edit : Path → List Text → Except Failure (List Text) :=
  editWith (packageModules :: configuration)

/-- The script replaces the references of a file. -/
def updates (path : Path) : Bool :=
  (packageModules :: references).any (fun pass => pass.selection.selects path)

/-! ### No file is of two kinds -/

namespace Selection

variable {s s' : Selection} {path : Path}

theorem head?_of_found {dir : Text} {endings : List Text} (h : (found dir endings).selects path) :
  path.head? = some dir ∧ 2 ≤ path.length
  := by
  simp only [selects, Bool.and_eq_true, decide_eq_true_eq, beq_iff_eq] at h
  exact h.1

theorem dropLast_of_listed {dir : Path} {ending : Text} (h : (listed dir ending).selects path) :
  path.dropLast = dir
  := by
  simp only [selects, Bool.and_eq_true, beq_iff_eq] at h
  exact h.1.1

/-- What is found lies in a directory, so that the directory is the head of the path to it. -/
theorem head?_dropLast_of_found {dir : Text} {endings : List Text}
    (h : (found dir endings).selects path) :
  path.dropLast.head? = some dir
  := by
  obtain ⟨hhead, hlength⟩ := head?_of_found h
  have hlt : 1 < path.length := hlength
  rw [List.head?_dropLast, if_pos hlt, hhead]

theorem selects_file_of_not {p : Path} (h : s.selects p = false) (hs : s.selects path) :
  (file p).selects path = false
  := by
  rw [selects, beq_eq_false_iff_ne]
  rintro rfl
  rw [hs] at h
  cases h

theorem selects_eq_false_of_disjoint (h : s.disjoint s') (hs : s.selects path) :
  s'.selects path = false
  := by
  cases s with
  | file p =>
      rw [selects, beq_iff_eq] at hs
      rw [hs]
      simpa [disjoint] using h
  | found d endings =>
      cases s' with
      | file p =>
          apply selects_file_of_not _ hs
          simpa [disjoint] using h
      | found d' endings' =>
          rw [disjoint, bne_iff_ne] at h
          rw [Bool.eq_false_iff]
          intro hs'
          apply h
          rw [← Option.some.injEq, ← (head?_of_found hs).1, (head?_of_found hs').1]
      | listed dir ending =>
          rw [disjoint, bne_iff_ne] at h
          rw [Bool.eq_false_iff]
          intro hs'
          apply h
          rw [← dropLast_of_listed hs', head?_dropLast_of_found hs]
  | listed dir ending =>
      cases s' with
      | file p =>
          apply selects_file_of_not _ hs
          simpa [disjoint] using h
      | found d endings =>
          rw [disjoint, bne_iff_ne] at h
          rw [Bool.eq_false_iff]
          intro hs'
          apply h
          rw [← dropLast_of_listed hs, head?_dropLast_of_found hs']
      | listed dir' ending' =>
          rw [disjoint, bne_iff_ne] at h
          rw [Bool.eq_false_iff]
          intro hs'
          apply h
          rw [← dropLast_of_listed hs, ← dropLast_of_listed hs']

end Selection

theorem pairwise_configuration :
  configuration.Pairwise (fun pass pass' => pass.selection.disjoint pass'.selection)
  := by decide +kernel

/-- Nothing outside of the package is edited as a part of it, under its old name or its new one. -/
theorem disjoint_configuration {dir : Text} (hdir : dir = reference ∨ dir = templateVar) :
  ∀ pass ∈ configuration, (Selection.below dir).disjoint pass.selection
  := by
  rcases hdir with rfl | rfl
  · decide +kernel
  · decide +kernel

variable {f f' : File} {path : Path} {lines out : List Text} {passes : List Pass}

theorem map_ok_lines (path : Path) (r : Except Failure (List Text)) :
  r.map (fun lines => { path, lines }) = .ok f' ↔ f'.path = path ∧ r = .ok f'.lines
  := by
  cases r with
  | error e => simp [Except.map]
  | ok lines =>
      obtain ⟨path', lines'⟩ := f'
      simp [Except.map, eq_comm]

theorem editWith_cons_of_pos {pass : Pass} (h : pass.selection.selects path)
    (lines : List Text) :
  editWith (pass :: passes) path lines = pass.edit lines
  := by
  have hfind : (pass :: passes).find? (fun pass => pass.selection.selects path) = some pass :=
    List.find?_cons_of_pos h
  rw [editWith, hfind]

theorem editWith_cons_of_neg {pass : Pass} (h : ¬ pass.selection.selects path)
    (lines : List Text) :
  editWith (pass :: passes) path lines = editWith passes path lines
  := by
  have hfind : (pass :: passes).find? (fun pass => pass.selection.selects path) =
      passes.find? (fun pass => pass.selection.selects path) := List.find?_cons_of_neg h
  rw [editWith, hfind, editWith]

theorem editWith_of_forall (h : ∀ pass ∈ passes, pass.selection.selects path = false)
    (lines : List Text) :
  editWith passes path lines = .ok lines
  := by
  induction passes with
  | nil => rfl
  | cons pass passes ih =>
      have hpass : ¬ pass.selection.selects path := by
        rw [h pass List.mem_cons_self]
        exact Bool.false_ne_true
      rw [editWith_cons_of_neg hpass]
      apply ih (fun pass' hpass' => h pass' (List.mem_cons_of_mem pass hpass'))

/-- Passes that select different files edit a file as the one that selects it does. -/
theorem foldlM_onFile
    (h : passes.Pairwise (fun pass pass' => pass.selection.disjoint pass'.selection)) (f : File) :
  passes.foldlM (fun f pass => pass.onFile f) f =
    (editWith passes f.path f.lines).map (fun lines => { f with lines })
  := by
  induction passes generalizing f with
  | nil => rfl
  | cons pass passes ih =>
      obtain ⟨hpass, hpasses⟩ := List.pairwise_cons.mp h
      rw [List.foldlM_cons, Pass.onFile]
      by_cases hselects : pass.selection.selects f.path
      case pos =>
        rw [if_pos hselects, editWith_cons_of_pos hselects]
        cases pass.edit f.lines with
        | error e => rfl
        | ok lines =>
            have hothers : ∀ pass' ∈ passes, pass'.selection.selects f.path = false :=
              fun pass' hpass' =>
                Selection.selects_eq_false_of_disjoint (hpass pass' hpass') hselects
            apply (ih hpasses { f with lines }).trans
            rw [editWith_of_forall hothers]
      case neg =>
        rw [if_neg hselects, editWith_cons_of_neg hselects]
        apply ih hpasses

end WorkerTemplate.Templatize
