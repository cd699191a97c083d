import WorkerTemplate.Scripts.Success

/-!
# A project is generated

A project is generated from the template: every path and every text of the template is rendered
with the answers, and what `_exclude` names is left out.  What comes of the template is the
project that the script was given, under the slug in the place of the name of the package, and
without the scheduler if that is the answer.
-/

namespace WorkerTemplate.Templatize

open Template Substitution Passes

/-! ### Generation -/

/-- A file of a generated project. -/
structure Generated where
  path : Path
  text : Text
  deriving DecidableEq

/-- `_exclude`. -/
def exclude : List Text :=
  [".claude/project-config.yaml".toList, "scripts/templatize.sh".toList, ".git".toList,
    ".git/**".toList, ".templatized".toList, ".templatized/**".toList,
    "REMEDIATION-STATUS.md".toList,
    ifNotTag ++ (templateVar ++ ("/scheduler.py".toList ++ endifTag)),
    ifNotTag ++ (templateVar ++ ("/tests/unit/test_scheduler.py".toList ++ endifTag)),
    ifNotTag ++ ("scripts/start-scheduler.sh".toList ++ endifTag)]

/-- What renders a template: an engine, and what says whether a path is left out by patterns. -/
structure Copier (answers : Answers) where
  engine : (jinja answers).Engine
  matchExclude : (patterns : List Text) → Path → Bool

/-- What comes of a file of the template: nothing, when its path is left out or is rendered with an
empty component. -/
def generateFile {answers : Answers} (copier : Copier answers) (patterns : List Text) (f : File) :
    Option (Option Generated) :=
  (f.path.mapM copier.engine.render).bind fun path =>
    if path.any (· == []) || copier.matchExclude patterns path then some none
    else (copier.engine.render (fileText f.lines)).map fun text => some { path, text }

/-- The project that is generated from a template. -/
def generate {answers : Answers} (copier : Copier answers) (files : List File) :
    Option (List Generated) := do
  let patterns ← exclude.mapM copier.engine.render
  let generated ← files.mapM (generateFile copier patterns)
  some (generated.filterMap id)

/-! ### The project that should be generated -/

/-- The lines of a file of a project with some answers. -/
def answeredLines (answers : Answers) (f : File) : List Text :=
  if pyproject.selection.selects f.path then
    (f.lines.flatMap requiredLines).map (withSlug answers.projectSlug)
  else if devspace.selection.selects f.path then
    (generated answers.enableScheduler f.lines).map (answeredLine answers)
  else if updates f.path then f.lines.map (withSlug answers.projectSlug)
  else if manifests.selection.selects f.path && f.lines.any hasGoTemplate then
    [] :: (f.lines ++ [[]])
  else f.lines

/-- What a project is generated without: what only the template is made with, and the scheduler, if
that is the answer. -/
def omitted (answers : Answers) : List Text :=
  [".claude/project-config.yaml".toList, "scripts/templatize.sh".toList, ".git".toList,
    ".git/**".toList, ".templatized".toList, ".templatized/**".toList,
    "REMEDIATION-STATUS.md".toList] ++
    [answers.projectSlug ++ "/scheduler.py".toList,
      answers.projectSlug ++ "/tests/unit/test_scheduler.py".toList,
      "scripts/start-scheduler.sh".toList].map
        (fun pattern => if answers.enableScheduler then [] else pattern)

/-- The file of a project with some answers, when the script has moved the package to a place that
has the name of the slug. -/
def answeredFile {answers : Answers} (copier : Copier answers) (d : Path) (f : File) :
    Option Generated :=
  let path := renamed (answers.projectSlug :: d.tail) f.path
  if copier.matchExclude (omitted answers) path then none
  else some { path, text := fileText (answeredLines answers f) }

/-- Nothing in a text looks like a tag. -/
structure Unmarked (t : Text) : Prop where
  plain : '\r' ∉ t
  marks : ∀ s, s <:+ t → marksTag s = false

instance (t : Text) : Decidable (Unmarked t) :=
  decidable_of_iff ('\r' ∉ t ∧ ∀ s ∈ t.tails, marksTag s = false)
    ⟨fun h => ⟨h.1, fun s hs => h.2 s ((List.mem_tails s t).mpr hs)⟩,
      fun h => ⟨h.plain, fun s hs => h.marks s ((List.mem_tails s t).mp hs)⟩⟩

/-- Nothing in a file looks like a tag where the script does not see to it. -/
structure File.Fits (f : File) : Prop where
  path : ∀ c ∈ f.path, c ≠ [] ∧ Unmarked c
  updated : updates f.path → ¬ workflow.selection.selects f.path → ∀ line ∈ f.lines, Plain line
  ends : devspace.selection.selects f.path →
    ∀ line ∈ f.lines, ∀ c ∈ line.getLast?, Text.isSpace c = false
  workflow : workflow.selection.selects f.path → ∀ line ∈ f.lines, WorkflowLine line
  manifest : manifests.selection.selects f.path → f.lines.any hasGoTemplate →
    ∀ line ∈ f.lines, '\r' ∉ line ∧ ¬ ['{', '%'] <:+: line
  verbatim : ¬ updates f.path →
    ¬ (manifests.selection.selects f.path ∧ f.lines.any hasGoTemplate) →
    ∀ line ∈ f.lines, Unmarked line

variable {answers : Answers} {f f' : File} {path : Path} {t : Text} {lines out : List Text}
  {passes : List Pass}

/-! ### What is not marked is rendered as it is -/

theorem Unmarked.tail {c : Char} (h : Unmarked (c :: t)) : Unmarked t where
  plain hr := h.plain (List.mem_cons_of_mem c hr)
  marks s hs := h.marks s (hs.trans (List.suffix_cons c t))

theorem printsLine_unmarked (h : Unmarked t) : PrintsLine answers t t := by
  induction t with
  | nil => apply printsLine_replaceReferences (t := []) (by decide)
  | cons c t ih =>
      apply (ih h.tail).cons
      · rintro rfl
        exact h.plain List.mem_cons_self
      · intro rest
        cases t with
        | nil =>
            by_cases hc : c = '{'
            case pos =>
              subst hc
              rfl
            case neg => apply marksTag_of_ne hc
        | cons d t =>
            rw [List.cons_append, marksTag_cons_cons c d _ t]
            apply h.marks _ List.suffix_rfl

/-- A component of a path is rendered as it is. -/
theorem render_unmarked (engine : (jinja answers).Engine) (h : Unmarked t) :
  engine.render t = some t
  := by
  have hrenders : (jinja answers).Renders [] (t ++ []) (shown [] t ++ []) := by
    apply Dialect.Renders.append _ _ .nil
    · intro c hc
      exact bne_iff_ne.mpr (fun hr => h.plain (hr ▸ hc))
    · intro s hs _
      rw [List.append_nil]
      use h.marks s hs
      have hquiet : trimsBlanks (s.dropWhile Text.isSpace) = false := by
        rw [trimsBlanks, h.marks _ ((List.dropWhile_suffix _).trans hs), Bool.false_and]
      cases s with
      | nil => rfl
      | cons c s => exact Bool.and_eq_false_imp.mpr (fun _ => hquiet)
  apply engine.renders
  simpa using hrenders

theorem render_templateVar (engine : (jinja answers).Engine) :
  engine.render templateVar = some answers.projectSlug
  := by
  have hrenders : (jinja answers).Renders [] (templateVar ++ [])
      (shown [] answers.projectSlug ++ []) := renders_templateVar .nil
  apply engine.renders
  simpa using hrenders

/-- A text without a brace and without blanks is rendered as it is in front of anything. -/
theorem renders_append {σ : List Bool} {u v : Text}
    (h : ∀ c ∈ t, c ≠ '{' ∧ Text.isSpace c = false) (hu : (jinja answers).Renders σ u v) :
  (jinja answers).Renders σ (t ++ u) (shown σ t ++ v)
  := by
  apply Dialect.Renders.append _ _ hu
  · intro c hc
    rw [jinja, bne_iff_ne]
    rintro rfl
    exact absurd (h _ hc).2 (by decide)
  · intro s hs hne
    cases s with
    | nil => exact absurd rfl hne
    | cons c s =>
        obtain ⟨hc, hspace⟩ := h c (hs.subset List.mem_cons_self)
        use marksTag_of_ne hc _
        apply Bool.and_eq_false_imp.mpr
        intro hblank
        exact absurd (hspace.symm.trans hblank) Bool.false_ne_true

/-- A pattern on the condition that the scheduler is not wanted. -/
theorem render_ifNot (engine : (jinja answers).Engine) {u v : Text}
    (h : (jinja answers).Renders [!answers.enableScheduler] (u ++ endifTag)
      (shown [!answers.enableScheduler] v ++ [])) :
  engine.render (ifNotTag ++ (u ++ endifTag)) = some (if answers.enableScheduler then [] else v)
  := by
  have hrenders := engine.renders (renders_ifNotTag h)
  rw [hrenders, List.append_nil]
  cases answers.enableScheduler with
  | true => rfl
  | false => rfl

/-- The patterns of `_exclude` are rendered with the answers. -/
theorem mapM_render_exclude (engine : (jinja answers).Engine) :
  exclude.mapM engine.render = some (omitted answers)
  := by
  have hscheduler {t : Text} (ht : ∀ c ∈ t, c ≠ '{' ∧ Text.isSpace c = false) :
      engine.render (ifNotTag ++ (templateVar ++ (t ++ endifTag)))
        = some (if answers.enableScheduler then [] else answers.projectSlug ++ t) := by
    rw [← List.append_assoc templateVar]
    apply render_ifNot
    rw [List.append_assoc, shown_append, List.append_assoc]
    apply renders_templateVar
    apply renders_append ht
    apply renders_endifTag .nil
  rw [mapM_eq_some_iff]
  refine .cons (render_unmarked engine (by decide +kernel)) <|
    .cons (render_unmarked engine (by decide +kernel)) <|
    .cons (render_unmarked engine (by decide +kernel)) <|
    .cons (render_unmarked engine (by decide +kernel)) <|
    .cons (render_unmarked engine (by decide +kernel)) <|
    .cons (render_unmarked engine (by decide +kernel)) <|
    .cons (render_unmarked engine (by decide +kernel)) <|
    .cons (hscheduler (by decide +kernel)) <| .cons (hscheduler (by decide +kernel)) <|
    .cons ?_ .nil
  apply render_ifNot
  apply renders_append (by decide +kernel)
  apply renders_endifTag .nil

/-! ### What a file is generated as -/

theorem pairwise_passes : (packageModules :: configuration).Pairwise
    (fun pass pass' => pass.selection.disjoint pass'.selection)
  := by decide +kernel

/-- A file that a pass selects is edited by that pass. -/
theorem editWith_of_mem
    (h : passes.Pairwise (fun pass pass' => pass.selection.disjoint pass'.selection)) {pass : Pass}
    (hpass : pass ∈ passes) (hselects : pass.selection.selects path) (lines : List Text) :
  editWith passes path lines = pass.edit lines
  := by
  induction passes with
  | nil => cases hpass
  | cons pass' passes ih =>
      obtain ⟨hpass', hpasses⟩ := List.pairwise_cons.mp h
      rcases List.mem_cons.mp hpass with rfl | hmem
      · apply editWith_cons_of_pos hselects
      · rw [editWith_cons_of_neg]
        · apply ih hpasses hmem
        · intro hselects'
          have hnot := Selection.selects_eq_false_of_disjoint (hpass' pass hmem) hselects'
          rw [hselects] at hnot
          cases hnot

theorem edit_of_mem {pass : Pass} (hpass : pass ∈ packageModules :: configuration)
    (hselects : pass.selection.selects path) (lines : List Text) :
  edit path lines = pass.edit lines
  := editWith_of_mem pairwise_passes hpass hselects lines

theorem updateReferences_eq (lines : List Text) :
  updateReferences lines = lines.map replaceReferences
  := by
  rw [updateReferences]
  split
  case isTrue => rfl
  case isFalse h =>
    have hself : ∀ line ∈ lines, replaceReferences line = line := by
      intro line hline
      apply replace_of_not_infix
      intro hinfix
      apply h
      rw [hasReference, List.any_eq_true]
      exact ⟨line, hline, decide_eq_true hinfix⟩
    rw [List.map_congr_left hself, List.map_id']

theorem updates_of_mem {pass : Pass} (hpass : pass ∈ packageModules :: references)
    (hselects : pass.selection.selects path) :
  updates path
  := List.any_eq_true.mpr ⟨pass, hpass, hselects⟩

theorem edit_of_mem_references {pass : Pass} (hpass : pass ∈ packageModules :: references)
    (hselects : pass.selection.selects path) (lines : List Text) :
  edit path lines = pass.edit lines
  := by
  apply edit_of_mem _ hselects
  rw [configuration, ← List.cons_append]
  apply List.mem_append_left _ hpass

/-- Nothing looks like a tag in a file in which references are replaced, the workflow apart. -/
theorem File.Fits.plain (hfits : f.Fits) {pass : Pass} (hpass : pass ∈ packageModules :: references)
    (hselects : pass.selection.selects f.path)
    (hdisjoint : pass.selection.disjoint Templatize.workflow.selection) :
  ∀ line ∈ f.lines, Plain line
  := by
  apply hfits.updated (updates_of_mem hpass hselects)
  rw [Selection.selects_eq_false_of_disjoint hdisjoint hselects]
  exact Bool.false_ne_true

/-- A file whose references are replaced is rendered with the slug in their place. -/
theorem renders_updated (hfits : f.Fits) (hupdated : updates f.path)
    (hpyproject : ¬ pyproject.selection.selects f.path)
    (hdevspace : ¬ devspace.selection.selects f.path) (h : edit f.path f.lines = .ok out) :
  (jinja answers).Renders [] (fileText out)
    (fileText (f.lines.map (withSlug answers.projectSlug)))
  := by
  obtain ⟨pass, hpass, hselects⟩ := List.any_eq_true.mp hupdated
  rw [edit_of_mem_references hpass hselects] at h
  by_cases hworkflow : workflow.selection.selects f.path
  case pos =>
    have hmem : workflow ∈ packageModules :: references := by simp [references]
    rw [← edit_of_mem_references hpass hselects, edit_of_mem_references hmem hworkflow] at h
    cases h
    apply renders_fileText
    apply forall₂_printsLine
    exact fun line hline => printsLine_templatizeWorkflow (hfits.workflow hworkflow line hline)
  case neg =>
    rcases eq_of_mem_references hpass with rfl | rfl | rfl | ⟨s, rfl⟩
    · exact absurd hselects hpyproject
    · exact absurd hselects hdevspace
    · exact absurd hselects hworkflow
    · cases h
      rw [updateReferences_eq]
      apply renders_fileText
      apply forall₂_printsLine
      exact fun line hline =>
        printsLine_replaceReferences (hfits.updated hupdated hworkflow line hline)

/-- A file whose references are not replaced is rendered as it is, or as a manifest. -/
theorem renders_kept (hfits : f.Fits) (hupdated : ¬ updates f.path)
    (h : edit f.path f.lines = .ok out) :
  (jinja answers).Renders [] (fileText out)
    (fileText (if manifests.selection.selects f.path && f.lines.any hasGoTemplate then
      [] :: (f.lines ++ [[]]) else f.lines))
  := by
  have hverbatim (hgo : ¬ (manifests.selection.selects f.path ∧ f.lines.any hasGoTemplate)) :
      (jinja answers).Renders [] (fileText f.lines) (fileText f.lines) := by
    apply renders_fileText
    rw [List.forall₂_same]
    exact fun line hline => printsLine_unmarked (hfits.verbatim hupdated hgo line hline)
  by_cases hmanifests : manifests.selection.selects f.path
  case pos =>
    have hmem : manifests ∈ packageModules :: configuration := by simp [configuration]
    have hout : templatizeManifest f.lines = out := by
      rw [edit_of_mem hmem hmanifests] at h
      exact Except.ok.inj h
    by_cases hgo : f.lines.any hasGoTemplate
    case pos =>
      rw [if_pos (Bool.and_eq_true_iff.mpr ⟨hmanifests, hgo⟩), ← hout]
      apply renders_templatizeManifest hgo
      · exact fun line hline => (hfits.manifest hmanifests hgo line hline).1
      · exact fun line hline => (hfits.manifest hmanifests hgo line hline).2
    case neg =>
      rw [if_neg (fun hboth => hgo (Bool.and_eq_true_iff.mp hboth).2), ← hout,
        templatizeManifest, if_neg hgo]
      apply hverbatim (fun hboth => hgo hboth.2)
  case neg =>
    have hnone : ∀ pass ∈ packageModules :: configuration,
        pass.selection.selects f.path = false := by
      intro pass hpass
      rw [Bool.eq_false_iff]
      intro hselects
      rw [configuration, ← List.cons_append] at hpass
      rcases List.mem_append.mp hpass with hpass | hpass
      · exact hupdated (updates_of_mem hpass hselects)
      · rw [List.mem_singleton.mp hpass] at hselects
        exact hmanifests hselects
    rw [edit, editWith_of_forall hnone] at h
    rw [if_neg (fun hboth => hmanifests (Bool.and_eq_true_iff.mp hboth).1), ← Except.ok.inj h]
    apply hverbatim (fun hboth => hmanifests hboth.1)

/-- What the script makes of a file is rendered as the file of a project with the answers. -/
theorem renders_edit (hfits : f.Fits) (h : edit f.path f.lines = .ok out) :
  (jinja answers).Renders [] (fileText out) (fileText (answeredLines answers f))
  := by
  rw [answeredLines]
  by_cases hpyproject : pyproject.selection.selects f.path
  case pos =>
    have hmem : pyproject ∈ packageModules :: references := by simp [references]
    rw [edit_of_mem_references hmem hpyproject] at h
    rw [if_pos hpyproject]
    apply renders_templatizePyproject _ (elim_eq_ok_iff.mp h)
    apply hfits.plain hmem hpyproject (by decide)
  rw [if_neg hpyproject]
  by_cases hdevspace : devspace.selection.selects f.path
  case pos =>
    have hmem : devspace ∈ packageModules :: references := by simp [references]
    rw [edit_of_mem_references hmem hdevspace] at h
    rw [if_pos hdevspace]
    apply renders_templatizeDevspace _ (hfits.ends hdevspace) (elim_eq_ok_iff.mp h)
    apply hfits.plain hmem hdevspace (by decide)
  rw [if_neg hdevspace]
  by_cases hupdated : updates f.path
  case pos =>
    rw [if_pos hupdated]
    apply renders_updated hfits hupdated hpyproject hdevspace h
  case neg =>
    rw [if_neg hupdated]
    apply renders_kept hfits hupdated h

/-- A path of the template is rendered to the path under the slug. -/
theorem mapM_render_renamed (engine : (jinja answers).Engine)
    {d : Path} (hd : d = [templateVar] ∨ d = [templateVar, reference])
    (hpath : ∀ c ∈ path, Unmarked c) :
  (renamed d path).mapM engine.render = some (renamed (answers.projectSlug :: d.tail) path)
  := by
  have hself {l : Path} (hl : ∀ c ∈ l, Unmarked c) :
      List.Forall₂ (fun c c' => engine.render c = some c') l l := by
    rw [List.forall₂_same]
    exact fun c hc => render_unmarked engine (hl c hc)
  rw [mapM_eq_some_iff]
  by_cases h : inPackage path
  case neg =>
    rw [renamed_of_not_inPackage h, renamed_of_not_inPackage h]
    apply hself hpath
  case pos =>
    have htail : ∀ c ∈ path.tail, Unmarked c := fun c hc => hpath c (List.mem_of_mem_tail hc)
    rw [renamed_of_inPackage h, renamed_of_inPackage h]
    rcases hd with rfl | rfl
    · exact .cons (render_templateVar engine) (hself htail)
    · exact .cons (render_templateVar engine)
        (.cons (render_unmarked engine (by decide)) (hself htail))

/-- A file of the template is generated as the file of a project with the answers. -/
theorem generateFile_of_becomesIn (copier : Copier answers)
    (hslug : answers.projectSlug ≠ []) {d : Path}
    (hd : d = [templateVar] ∨ d = [templateVar, reference]) (hfits : f.Fits)
    (h : BecomesIn d f f') :
  generateFile copier (omitted answers) f' = some (answeredFile copier d f)
  := by
  have hpath : f'.path.mapM copier.engine.render =
      some (renamed (answers.projectSlug :: d.tail) f.path) := by
    rw [h.path]
    apply mapM_render_renamed copier.engine hd (fun c hc => (hfits.path c hc).2)
  have hnonempty : (renamed (answers.projectSlug :: d.tail) f.path).any (· == []) = false := by
    rw [List.any_eq_false]
    intro c hc
    rw [beq_iff_eq]
    unfold renamed at hc
    split at hc
    case isFalse => apply (hfits.path c hc).1
    case isTrue =>
      rcases List.mem_append.mp hc with hc | hc
      · rcases List.mem_cons.mp hc with rfl | hc
        · apply hslug
        · rcases hd with rfl | rfl
          · cases hc
          · rw [List.mem_singleton.mp hc]
            apply reference_ne_nil
      · apply (hfits.path c (List.mem_of_mem_tail hc)).1
  have htext :
      copier.engine.render (fileText f'.lines) = some (fileText (answeredLines answers f)) :=
    copier.engine.renders (renders_edit hfits h.edit)
  rw [generateFile, hpath, Option.bind_some, hnonempty, Bool.false_or, htext, answeredFile]
  split <;> rfl

/-- The project that is generated from the template is the project that the script was given, with
the answers: a file in which nothing looks like a tag is generated as it was, under the slug and
with the slug in the place of the references, or as its kind demands, or it is left out. -/
theorem generate_templatize (copier : Copier answers) {files out : List File}
    (hslug : answers.projectSlug ≠ []) (h : templatize files = .ok out) :
  ∃ d, destination (directories files) (copied files) = some d ∧
    List.Forall₂ (fun f f' =>
        f.Fits → generateFile copier (omitted answers) f' = some (answeredFile copier d f))
      (copied files) out ∧
    ((∀ f ∈ copied files, f.Fits) →
      generate copier out = some ((copied files).filterMap (answeredFile copier d)))
  := by
  obtain ⟨-, ⟨d, hd, hbecomes⟩, -⟩ := templatize_steps.mp h
  have hfiles := hbecomes.imp fun f f' hf hfits =>
    generateFile_of_becomesIn copier hslug (eq_of_destination hd) hfits hf
  use d, hd, hfiles
  intro hfits
  have hall : out.mapM (generateFile copier (omitted answers)) =
      some ((copied files).map (answeredFile copier d)) := by
    rw [mapM_eq_some_iff, List.forall₂_map_right_iff]
    have hboth := (List.forall₂_and_left _ _).mpr ⟨hfits, hfiles⟩
    apply List.Forall₂.flip
    apply hboth.imp
    exact fun f f' hf => hf.2 hf.1
  rw [generate, mapM_render_exclude copier.engine]
  change (out.mapM (generateFile copier (omitted answers))).bind _ = _
  rw [hall, Option.bind_some, List.filterMap_map]
  rfl

/-! ### A small project -/

/-- A project with a package of two modules, a requirement, and a file that is not edited. -/
def project : List File :=
  [{ path := [reference, "db.py".toList], lines := importing },
    { path := [reference, "scheduler.py".toList], lines := importing },
    { path := ["pyproject.toml".toList],
      lines := [nameLine, "    \"mypy>=2.3.1\",".toList] },
    { path := ["alembic.ini".toList], lines := ["[alembic]".toList] },
    { path := [".env".toList], lines := ["DATABASE_URL=".toList] }]

theorem unmarked_of_plain (h : Plain t) : Unmarked t := ⟨h.plain, h.marks⟩

/-- A file of no special kind. -/
theorem fits_of_plain (hpath : ∀ c ∈ f.path, c ≠ [] ∧ Unmarked c)
    (hkind : ∀ pass ∈ [devspace, workflow, manifests], pass.selection.selects f.path = false)
    (hlines : ∀ line ∈ f.lines, Plain line) :
  f.Fits
  where
  path := hpath
  updated _ _ := hlines
  ends h := by
    rw [hkind devspace (by simp)] at h
    cases h
  workflow h := by
    rw [hkind Templatize.workflow (by simp)] at h
    cases h
  manifest h := by
    rw [hkind manifests (by simp)] at h
    cases h
  verbatim _ _ line hline := unmarked_of_plain (hlines line hline)

theorem fits_project : ∀ f ∈ project, f.Fits := by
  simp only [project, List.forall_mem_cons, List.not_mem_nil]
  refine ⟨?_, ?_, ?_, ?_, ?_, by simp⟩
  · apply fits_of_plain (by decide +kernel) (by decide +kernel) (by decide +kernel)
  · apply fits_of_plain (by decide +kernel) (by decide +kernel) (by decide +kernel)
  · apply fits_of_plain (by decide +kernel) (by decide +kernel) (by decide +kernel)
  · apply fits_of_plain (by decide +kernel) (by decide +kernel) (by decide +kernel)
  · apply fits_of_plain (by decide +kernel) (by decide +kernel) (by decide +kernel)

/-- A path is left out when a pattern is the path or a directory that it lies in, or, if the pattern
has no slash, the name of a file or directory in the path; a pattern that ends in two stars is for
everything in a directory.  Patterns have no other special characters. -/
def matchLiterally (patterns : List Text) (path : Path) : Bool :=
  patterns.any fun pattern =>
    pattern != [] && (((pattern.splitOn '/').filter (· != ['*', '*'])).isPrefixOf path ||
      (!pattern.contains '/' && path.contains pattern))

/-- A project without the scheduler has the package under its slug, without the module of the
scheduler, and nothing of the environment of the project that the template was made of. -/
theorem generate_templatize_project :
  ∃ out, templatize project = .ok out ∧
    generate ⟨(jinja ⟨"scribe".toList, false⟩).engine, matchLiterally⟩ out = some
      [{ path := ["scribe".toList, "db.py".toList],
          text := fileText ["from scribe.db import session".toList, []] },
        { path := ["pyproject.toml".toList],
          text := fileText ["name = \"scribe\"".toList, "    ".toList ++ whyLine mypyReason,
            "    \"mypy>=2.3.1,<2.4\",".toList] },
        { path := ["alembic.ini".toList], text := fileText ["[alembic]".toList] }]
  := by
  have hok : (templatize project).isOk := by decide +kernel
  cases hout : templatize project with
  | error e =>
      rw [hout] at hok
      cases hok
  | ok out =>
      use out, rfl
      obtain ⟨d, hd, -, hgenerate⟩ :=
        generate_templatize ⟨(jinja ⟨"scribe".toList, false⟩).engine, matchLiterally⟩ (by decide)
          hout
      have hdestination : destination (directories project) (copied project)
          = some [templateVar] := by decide +kernel
      rw [hdestination] at hd
      cases hd
      rw [hgenerate (fun f hf => fits_project f (List.mem_of_mem_filter hf))]
      decide +kernel

end WorkerTemplate.Templatize
