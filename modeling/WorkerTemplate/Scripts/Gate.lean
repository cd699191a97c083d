import WorkerTemplate.Scripts.Slug

/-!
# What the scheduler gate prints

A file that has gone through the filter is rendered with the scheduler or without it.  With the
scheduler it is printed line by line; without it, the lines of each scheduler block are missing,
and so are the empty lines before the block.
-/

namespace WorkerTemplate.Templatize

open Template

/-! ### The file that is printed -/

instance (lines : List Text) : Decidable (EndsInside lines) :=
  decidable_of_iff _ (inBlock_after_initial lines)

/-- The empty lines a file begins with, and the line after them. -/
def upToNext (lines : List Text) : List Text :=
  lines.takeWhile (· = []) ++ (lines.dropWhile (· = [])).take 1

/-- The lines after `before` without those of scheduler blocks and without the empty lines before
such a block. -/
def withoutScheduler (before : List Text) : List Text → List Text
  | [] => []
  | line :: lines =>
      if EndsInside (before ++ upToNext (line :: lines)) then
        withoutScheduler (before ++ [line]) lines
      else line :: withoutScheduler (before ++ [line]) lines

/-- A file as it is generated: without scheduler blocks if the project has no scheduler, and in any
case without the empty lines at the end of a block that the file ends with. -/
def generated (enableScheduler : Bool) (lines : List Text) : List Text :=
  if enableScheduler then
    if EndsInside lines then lines.rdropWhile (· == []) else lines
  else withoutScheduler [] lines

/-- The lines that are printed of the ones the filter reads. -/
def printed (enableScheduler : Bool) : State → List Text → List Text
  | s, [] => if s.inBlock then [] else List.replicate s.blanks []
  | s, line :: lines =>
      if line = [] then printed enableScheduler (rule s line).1 lines
      else (if (rule s line).1.inBlock && !enableScheduler then []
        else List.replicate s.blanks [] ++ [line]) ++ printed enableScheduler (rule s line).1 lines

/-- With the scheduler, every line is printed. -/
theorem printed_true (s : State) {lines : List Text} (h : ∀ l ∈ lines, isDirective l = false) :
  printed true s lines = withoutDirectives (run s lines)
  := by
  induction lines generalizing s with
  | nil =>
      have hendif : withoutDirectives [endifLine] = [] := by decide
      cases hb : s.inBlock <;> simp [run, atEnd, printed, State.flushBlanks, hb, hendif]
  | cons line lines ih =>
      have htail := ih (rule s line).1 (fun l hl => h l (List.mem_cons_of_mem line hl))
      rw [run, printed, withoutDirectives_append, htail]
      by_cases hline : line = []
      · rw [if_pos hline, hline]
        rfl
      · rw [if_neg hline, withoutDirectives_rule s hline (h line List.mem_cons_self)]
        simp

theorem after_append (s : State) (lines lines' : List Text) :
  after s (lines ++ lines') = after (after s lines) lines'
  := by
  induction lines generalizing s with
  | nil => rfl
  | cons line lines ih => apply ih

/-- Without the scheduler, the empty lines held back are printed along with the next line, and a
line is printed outside of the blocks. -/
theorem printed_false (before lines : List Text) :
  printed false (after .initial before) lines =
    (if EndsInside (before ++ upToNext lines) then []
      else List.replicate (after .initial before).blanks []) ++ withoutScheduler before lines
  := by
  induction lines generalizing before with
  | nil =>
      rw [printed, withoutScheduler, List.append_nil, upToNext]
      simp [← inBlock_after_initial]
  | cons line lines ih =>
      have hafter : (rule (after .initial before) line).1 = after .initial (before ++ [line]) := by
        rw [after_append]
        rfl
      have htail := ih (before ++ [line])
      rw [printed, hafter, htail]
      by_cases hline : line = []
      · have hnext : before ++ upToNext (line :: lines) = before ++ [line] ++ upToNext lines := by
          simp [upToNext, hline]
        have hblanks : (after .initial (before ++ [line])).blanks =
            (after .initial before).blanks + 1 := by
          rw [← hafter, hline]
          rfl
        rw [if_pos hline, withoutScheduler, hnext, hblanks]
        split
        · rfl
        · rw [List.replicate_succ', hline]
          simp
      · have hnext : upToNext (line :: lines) = [line] := by simp [upToNext, hline]
        have hblanks : (after .initial (before ++ [line])).blanks = 0 := by
          rw [← hafter, rule_of_ne_nil _ hline]
        rw [if_neg hline, withoutScheduler, hnext, hblanks]
        simp only [Bool.not_false, Bool.and_true, inBlock_after_initial]
        split <;> simp

/-- What is printed in all. -/
theorem printed_initial (enableScheduler : Bool) {lines : List Text}
    (h : ∀ l ∈ lines, isDirective l = false) :
  printed enableScheduler .initial lines = generated enableScheduler lines
  := by
  unfold generated
  cases enableScheduler with
  | true =>
      rw [printed_true _ h, withoutDirectives_run _ h, if_pos rfl]
      simp only [inBlock_after_initial]
      rfl
  | false =>
      rw [if_neg Bool.false_ne_true]
      have h := printed_false [] lines
      rw [after] at h
      rw [h]
      split <;> rfl

/-! ### The lines the filter reads -/

/-- A line of a template the filter takes for the line it is made of. -/
structure SameShape (line t : Text) : Prop where
  nil : t = [] ↔ line = []
  isTopLevel : isTopLevel t = isTopLevel line
  isSecondLevel : isSecondLevel t = isSecondLevel line
  deployments : t = deploymentsKey ↔ line = deploymentsKey
  scheduler : t = schedulerKey ↔ line = schedulerKey

/-- The variables of the filter are the same after lines of the same shape. -/
theorem SameShape.rule {line t : Text} (h : SameShape line t) (s : State) :
  (rule s t).1 = (rule s line).1
  := by
  by_cases hline : line = []
  · rw [hline, h.nil.mpr hline]
  · have ht : t ≠ [] := mt h.nil.mp hline
    have hdeployments : (t == deploymentsKey) = (line == deploymentsKey) := by
      rw [Bool.eq_iff_iff, beq_iff_eq, beq_iff_eq, h.deployments]
    have hscheduler : (t == schedulerKey) = (line == schedulerKey) := by
      rw [Bool.eq_iff_iff, beq_iff_eq, beq_iff_eq, h.scheduler]
    rw [rule_of_ne_nil s hline, rule_of_ne_nil s ht]
    simp only [opens, closes, h.isTopLevel, h.isSecondLevel, hdeployments, hscheduler]

variable {answers : Answers} {σ : List Bool} {t line rest u : Text}

/-- A line of a template prints a line, whatever follows it. -/
structure PrintsAlways (answers : Answers) (t line : Text) : Prop where
  quiet : t ≠ [] → ∀ rest, trimsBlanks ((t ++ '\n' :: rest).dropWhile Text.isSpace) = false
  renders : ∀ {σ rest u}, (jinja answers).Renders σ ('\n' :: rest) u →
    (jinja answers).Renders σ (t ++ '\n' :: rest) (shown σ line ++ u)

/-- The end of a line is taken away by a directive after it. -/
theorem renders_trimmed (h : trimsBlanks (rest.dropWhile Text.isSpace) = true)
    (hrest : (jinja answers).Renders σ rest u) :
  (jinja answers).Renders σ ('\n' :: rest) u
  := .trimmed (marksTag_of_ne (by decide) _) h hrest

theorem renders_opening
    (h : (jinja answers).Renders (answers.enableScheduler :: σ) ('\n' :: rest) u) :
  (jinja answers).Renders σ ('\n' :: (fileText [ifLine] ++ rest)) u
  := by
  apply renders_trimmed rfl
  rw [fileText_cons, fileText_nil, List.append_assoc]
  apply renders_ifLine h

theorem renders_closing {condition : Bool} (h : (jinja answers).Renders σ ('\n' :: rest) u) :
  (jinja answers).Renders (condition :: σ) ('\n' :: (fileText [endifLine] ++ rest)) u
  := by
  apply renders_trimmed rfl
  rw [fileText_cons, fileText_nil, List.append_assoc]
  apply renders_endifLine h

/-- No directive takes away the end of a line before some empty lines and a line. -/
theorem trimsBlanks_held (n : ℕ) (ht : t ≠ []) (hline : PrintsAlways answers t line) (rest : Text) :
  trimsBlanks ((fileText (List.replicate n [] ++ [t]) ++ rest).dropWhile Text.isSpace) = false
  := by
  induction n with
  | zero => simpa using hline.quiet ht rest
  | succ n ih =>
      rw [List.replicate_succ, List.cons_append, fileText_cons, List.nil_append, List.cons_append,
        List.dropWhile_cons_of_pos (by decide)]
      apply ih

/-- Some empty lines held back and the line after them. -/
theorem renders_held (n : ℕ) (ht : t ≠ []) (hline : PrintsAlways answers t line)
    (h : (jinja answers).Renders σ ('\n' :: rest) u) :
  (jinja answers).Renders σ (fileText (List.replicate n [] ++ [t]) ++ rest)
    (shown σ (fileText (List.replicate n []) ++ line) ++ u)
  := by
  induction n with
  | zero => simpa using hline.renders h
  | succ n ih =>
      have hnewline := renders_newline (trimsBlanks_held n ht hline rest) ih
      rw [← List.append_assoc, ← shown_append] at hnewline
      simpa [List.replicate_succ] using hnewline

/-! ### The lines the filter prints -/

section Run

variable {f g : Text → Text}

/-- The conditions that are open where the filter is. -/
def conditions (answers : Answers) (s : State) : List Bool :=
  if s.inBlock then [answers.enableScheduler] else []

/-- The directives printed at a line are rendered as the variables of the filter say. -/
theorem renders_directives {s : State} (hline : line ≠ []) {lines : List Text}
    (h : (jinja answers).Renders (conditions answers (rule s line).1) ('\n' :: fileText lines) u) :
  (jinja answers).Renders (conditions answers s) ('\n' :: fileText
    ((if s.inBlock && closes line then [endifLine] else []) ++
      (if opens s line then [ifLine] else []) ++ lines)) u
  := by
  have hinBlock : (rule s line).1.inBlock = (opens s line || s.inBlock && !closes line) := by
    rw [rule_of_ne_nil s hline]
  have hopening : (jinja answers).Renders
      (if s.inBlock && !closes line then [answers.enableScheduler] else [])
      ('\n' :: fileText ((if opens s line then [ifLine] else []) ++ lines)) u := by
    rw [conditions, hinBlock] at h
    cases hopens : opens s line with
    | true =>
        rw [hopens, Bool.true_or, if_pos rfl] at h
        rw [closes_of_opens hopens, if_pos rfl, fileText_append]
        simpa using renders_opening h
    | false =>
        rw [hopens, Bool.false_or] at h
        apply h
  rw [List.append_assoc, conditions]
  cases hblock : s.inBlock with
  | false =>
      rw [hblock] at hopening
      apply hopening
  | true =>
      rw [hblock] at hopening
      cases hcloses : closes line with
      | false =>
          rw [hcloses] at hopening
          apply hopening
      | true =>
          rw [hcloses] at hopening
          rw [Bool.and_self, if_pos rfl, if_pos rfl, fileText_append]
          apply renders_closing hopening

/-- What is printed under the conditions that are open where the filter is. -/
theorem shown_conditions (s : State) (t : Text) :
  shown (conditions answers s) t = if s.inBlock && !answers.enableScheduler then [] else t
  := by
  rw [conditions]
  cases s.inBlock <;> cases answers.enableScheduler <;> rfl

theorem trimsBlanks_blanks (n : ℕ) :
  trimsBlanks ((fileText (List.replicate n [])).dropWhile Text.isSpace) = false
  := by
  induction n with
  | zero => rfl
  | succ n ih =>
      rw [List.replicate_succ, fileText_cons, List.nil_append,
        List.dropWhile_cons_of_pos (by decide)]
      apply ih

/-- Empty lines at the end of a file are printed. -/
theorem renders_blanks (n : ℕ) :
  (jinja answers).Renders [] (fileText (List.replicate n [])) (fileText (List.replicate n []))
  := by
  induction n with
  | zero => apply Dialect.Renders.nil
  | succ n ih =>
      rw [List.replicate_succ, fileText_cons, List.nil_append]
      apply renders_newline (trimsBlanks_blanks n) ih

/-- What is printed of the lines the filter prints, after the end of the line before them. -/
theorem renders_run (hg : g [] = []) (s : State) {lines : List Text}
    (hshape : ∀ l ∈ lines, SameShape l (f l))
    (hprints : ∀ l ∈ lines, PrintsAlways answers (f l) (g l)) :
  (jinja answers).Renders (conditions answers s) ('\n' :: fileText (run s (lines.map f)))
    ('\n' :: fileText ((printed answers.enableScheduler s lines).map g))
  := by
  induction lines generalizing s with
  | nil =>
      rw [List.map_nil, run, printed, atEnd, conditions]
      cases hblock : s.inBlock with
      | true =>
          have hend : (jinja answers).Renders [] ['\n'] ['\n'] := renders_newline rfl .nil
          have hclosing : (jinja answers).Renders [answers.enableScheduler]
              ('\n' :: (fileText [endifLine] ++ [])) ['\n'] := renders_closing hend
          simpa using hclosing
      | false =>
          have hblanks := @renders_blanks answers (s.blanks + 1)
          simpa [State.flushBlanks, hg, List.replicate_succ] using hblanks
  | cons line lines ih =>
      have hline := hshape line List.mem_cons_self
      have htail := ih (rule s line).1 (fun l hl => hshape l (List.mem_cons_of_mem line hl))
        (fun l hl => hprints l (List.mem_cons_of_mem line hl))
      rw [List.map_cons, run, hline.rule, printed]
      by_cases hnil : line = []
      case pos =>
        subst hnil
        rw [if_pos rfl, hline.nil.mpr rfl]
        apply htail
      case neg =>
        have hne : f line ≠ [] := mt hline.nil.mp hnil
        have hline' := hprints line List.mem_cons_self
        have hheld := renders_newline (trimsBlanks_held s.blanks hne hline' _)
          (renders_held s.blanks hne hline' htail)
        rw [← List.append_assoc, ← shown_append, ← fileText_append, shown_conditions,
          ← hline.rule] at hheld
        have hdirectives := renders_directives hne hheld
        rw [hline.rule] at hdirectives
        rw [if_neg hnil, rule_of_ne_nil s hne]
        simp only [List.append_assoc] at hdirectives ⊢
        by_cases hgated : ((rule s line).1.inBlock && !answers.enableScheduler) = true
        · rw [if_pos hgated] at hdirectives ⊢
          apply hdirectives
        · rw [if_neg hgated] at hdirectives ⊢
          simpa [hg] using hdirectives

/-- Before the deployments no directive is printed. -/
theorem renders_run_initial (hg : g [] = []) {s : State} (hblock : s.inBlock = false)
    (hdeployments : s.inDeployments = false) {lines : List Text}
    (hshape : ∀ l ∈ lines, SameShape l (f l))
    (hprints : ∀ l ∈ lines, PrintsAlways answers (f l) (g l)) :
  (jinja answers).Renders [] (fileText (run s (lines.map f)))
    (fileText ((printed answers.enableScheduler s lines).map g))
  := by
  induction lines generalizing s with
  | nil =>
      rw [List.map_nil, run, printed, atEnd, hblock]
      simpa [State.flushBlanks, hg] using renders_blanks s.blanks
  | cons line lines ih =>
      have hline := hshape line List.mem_cons_self
      have hshape' : ∀ l ∈ lines, SameShape l (f l) :=
        fun l hl => hshape l (List.mem_cons_of_mem line hl)
      have hprints' : ∀ l ∈ lines, PrintsAlways answers (f l) (g l) :=
        fun l hl => hprints l (List.mem_cons_of_mem line hl)
      rw [List.map_cons, run, hline.rule, printed]
      by_cases hnil : line = []
      case pos =>
        subst hnil
        rw [if_pos rfl, hline.nil.mpr rfl]
        apply ih (s := (rule s []).1) hblock hdeployments hshape' hprints'
      case neg =>
        have hne : f line ≠ [] := mt hline.nil.mp hnil
        have hinBlock : (rule s line).1.inBlock = false := by
          simp [rule_of_ne_nil s hnil, opens, hblock, hdeployments]
        have htail := renders_run hg (rule s line).1 hshape' hprints'
        rw [conditions, hinBlock, if_neg Bool.false_ne_true] at htail
        have hheld := renders_held s.blanks hne (hprints line List.mem_cons_self) htail
        rw [if_neg hnil, rule_of_ne_nil s hne, hinBlock]
        simpa [hblock, opens, hdeployments, hg] using hheld

end Run

/-- A file that has gone through the filter is rendered as the file it is made of, with the
scheduler or without it. -/
theorem renders_gate {f g : Text → Text} (hg : g [] = []) {lines : List Text}
    (hlines : ∀ l ∈ lines, isDirective l = false) (hshape : ∀ l ∈ lines, SameShape l (f l))
    (hprints : ∀ l ∈ lines, PrintsAlways answers (f l) (g l)) :
  (jinja answers).Renders [] (fileText (gate (lines.map f)))
    (fileText ((generated answers.enableScheduler lines).map g))
  := by
  rw [← printed_initial _ hlines]
  apply renders_run_initial hg rfl rfl hshape hprints

end WorkerTemplate.Templatize
