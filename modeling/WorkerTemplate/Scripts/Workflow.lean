import WorkerTemplate.Scripts.Slug

/-!
# Raw blocks

Two kinds of file use double braces for something else than a tag: the workflow, in which they
hold the expressions of GitHub, and the manifests, which are templates of Go.  The script puts
raw blocks around each expression of the workflow, and around a manifest as a whole.
-/

namespace WorkerTemplate.Templatize

open Template Substitution

/-! ### The workflow -/

/-- The length of an expression at the head of a text: `\${{[^}]*}}`. -/
def expression : Text → ℕ
  | '$' :: '{' :: '{' :: t =>
      let body := t.takeWhile (· ≠ '}')
      if ['}', '}'] <+: t.drop body.length then body.length + 5 else 0
  | _ => 0

/-- `s/\${{[^}]*}}/{% raw %}\0{% endraw %}/g`. -/
def wrapExpressions (line : Text) : Text :=
  scan expression (fun m => rawTag ++ (m ++ endrawTag)) 0 line

/-- What the script makes of a line of the workflow. -/
def templatizeWorkflow (line : Text) : Text := wrapExpressions (replaceReferences line)

/-- An expression of the workflow. -/
def expressionOf (body : Text) : Text := '$' :: '{' :: '{' :: (body ++ ['}', '}'])

/-- A line of the workflow: outside of its expressions nothing looks like a tag, and the expressions
have neither braces nor references in them. -/
inductive WorkflowLine : Text → Prop
  | nil : WorkflowLine []
  | char {c : Char} {t : Text} (plain : c ≠ '\r') (kept : ¬ reference <+: c :: t)
      (marks : marksTag (c :: t) = false) (dollar : c = '$' → ¬ reference <+: t)
      (brace : c = '{' → ¬ reference <+: t ∧ t.head? ≠ some '$') (rest : WorkflowLine t) :
      WorkflowLine (c :: t)
  | reference {t : Text} (rest : WorkflowLine t) : WorkflowLine (reference ++ t)
  | expression {body t : Text} (plain : ∀ c ∈ body, c ≠ '{' ∧ c ≠ '}' ∧ c ≠ '\r')
      (statement : body.head? ≠ some '%') (kept : ¬ Templatize.reference <:+: body)
      (rest : WorkflowLine t) :
      WorkflowLine (expressionOf body ++ t)

/-- Characters that begin nothing else are a part of any line. -/
theorem WorkflowLine.append_chars {m t : Text} (h : WorkflowLine t)
    (hm : ∀ c ∈ m, c ≠ 'w' ∧ c ≠ '{' ∧ c ≠ '$' ∧ c ≠ '\r') :
  WorkflowLine (m ++ t)
  := by
  induction m with
  | nil => apply h
  | cons c m ih =>
      obtain ⟨hw, hbrace, hdollar, hplain⟩ := hm c List.mem_cons_self
      apply WorkflowLine.char hplain (not_begins_of_ne hw _) (marksTag_of_ne hbrace _)
        (fun h => absurd h hdollar) (fun h => absurd h hbrace)
      apply ih (fun d hd => hm d (List.mem_cons_of_mem c hd))

variable {answers : Answers} {σ : List Bool} {c : Char} {t body rest u : Text}

theorem expression_of_ne (h : c ≠ '$') (t : Text) : expression (c :: t) = 0 := by
  unfold expression
  split
  case h_1 heq => exact absurd (List.cons.inj heq).1 h
  case h_2 => rfl

/-- An expression is found as a whole. -/
theorem expression_append (hbody : ∀ c ∈ body, c ≠ '}') (t : Text) :
  expression (expressionOf body ++ t) = (expressionOf body).length
  := by
  have htake : (body ++ ['}', '}'] ++ t).takeWhile (· ≠ '}') = body := by
    rw [List.append_assoc, List.takeWhile_append_of_pos (by simpa using hbody)]
    simp
  unfold expressionOf
  simp only [List.cons_append, expression, htake]
  simp

/-- An expression begins with two braces after the dollar. -/
theorem expression_of_marksTag (h : marksTag t = false) : expression ('$' :: t) = 0 := by
  unfold expression
  split
  case h_1 heq =>
      rw [(List.cons.inj heq).2] at h
      cases h
  case h_2 => rfl

/-- Replacing the references of a line makes no mark at its head. -/
theorem marksTag_of_workflowLine (h : WorkflowLine t) (hkept : ¬ reference <+: t) :
  marksTag (replaceReferences t) = false
  := by
  cases h with
  | nil => rfl
  | @char c t plain kept marks dollar brace rest =>
      rw [replaceReferences, replace_cons kept]
      by_cases hc : c = '{'
      case neg => apply marksTag_of_ne hc
      case pos =>
        cases t with
        | nil => rw [hc]; rfl
        | cons d t =>
            rw [replace_cons (brace hc).1, marksTag_cons_cons c d _ t]
            apply marks
  | reference rest => exact absurd (List.prefix_append ..) hkept
  | @expression body t plain statement kept rest =>
      have hhead : replaceReferences (expressionOf body ++ t) =
          '$' :: replaceReferences ('{' :: '{' :: (body ++ ['}', '}'] ++ t)) :=
        replace_cons (not_begins_of_ne (by decide) _)
      rw [hhead]
      apply marksTag_of_ne (by decide)

/-! What the script makes of each part of a line. -/

theorem templatizeWorkflow_char (kept : ¬ reference <+: c :: t)
    (dollar : c = '$' → ¬ reference <+: t) (rest : WorkflowLine t) :
  templatizeWorkflow (c :: t) = c :: templatizeWorkflow t
  := by
  have hexpression : expression (c :: replaceReferences t) = 0 := by
    by_cases hc : c = '$'
    case neg => apply expression_of_ne hc
    case pos =>
      rw [hc]
      apply expression_of_marksTag (marksTag_of_workflowLine rest (dollar hc))
  rw [templatizeWorkflow, replaceReferences, replace_cons kept, wrapExpressions]
  apply scan_cons hexpression

theorem templatizeWorkflow_reference (t : Text) :
  templatizeWorkflow (reference ++ t) = templateVar ++ templatizeWorkflow t
  := by
  rw [templatizeWorkflow, replaceReferences, replace_append reference_ne_nil, wrapExpressions]
  apply scan_append_of_forall
  intro c hc t
  apply expression_of_ne
  rintro rfl
  exact absurd hc (by decide)

/-- No reference goes beyond an expression. -/
theorem not_infix_expressionOf (kept : ¬ reference <:+: body) :
  ¬ reference <:+: expressionOf body
  := by
  have hhead : ∀ c ∈ ['}', '}'].head?, c ∉ reference := by decide
  have hlast : ∀ c ∈ ['$', '{', '{'].getLast?, c ∉ reference := by decide
  intro h
  have hor : reference <:+: ['$', '{', '{'] ∨ reference <:+: body ++ ['}', '}'] :=
    infix_or_infix_of_getLast hlast h
  rcases hor with h | h
  · exact absurd h (by decide)
  · rcases infix_or_infix_of_head hhead h with h | h
    · exact kept h
    · exact absurd h (by decide)

theorem expressionOf_ne_nil (body : Text) : expressionOf body ≠ [] := by
  rintro ⟨⟩

theorem getLast?_expressionOf (body : Text) : (expressionOf body).getLast? = some '}' := by
  simp [expressionOf, List.getLast?_cons]

theorem templatizeWorkflow_expression (plain : ∀ c ∈ body, c ≠ '{' ∧ c ≠ '}' ∧ c ≠ '\r')
    (kept : ¬ reference <:+: body) (t : Text) :
  templatizeWorkflow (expressionOf body ++ t) =
    rawTag ++ (expressionOf body ++ (endrawTag ++ templatizeWorkflow t))
  := by
  have hlast : ∀ c ∈ (expressionOf body).getLast?, c ∉ reference := by
    rw [getLast?_expressionOf]
    decide
  have hlength := expression_append (fun c hc => (plain c hc).2.1) (replaceReferences t)
  have hreplace : replaceReferences (expressionOf body ++ t) =
      expressionOf body ++ replaceReferences t :=
    replace_append_of_not_infix hlast (not_infix_expressionOf kept) t
  rw [templatizeWorkflow, hreplace, wrapExpressions,
    scan_append (expressionOf_ne_nil body) hlength, List.append_assoc, List.append_assoc]
  rfl

/-! ### What the workflow prints -/

/-- The script makes no mark at a character of a line. -/
theorem marksTag_templatizeWorkflow (marks : marksTag (c :: t) = false)
    (brace : c = '{' → ¬ reference <+: t ∧ t.head? ≠ some '$') (h : WorkflowLine t) :
  marksTag (c :: (templatizeWorkflow t ++ '\n' :: rest)) = false
  := by
  by_cases hc : c = '{'
  case neg => apply marksTag_of_ne hc
  case pos =>
    cases h with
    | nil =>
        rw [hc]
        rfl
    | @char d t plain kept' marks' dollar' brace' rest' =>
        rw [templatizeWorkflow_char kept' dollar' rest', List.cons_append,
          marksTag_cons_cons c d _ t]
        apply marks
    | reference rest' => exact absurd (List.prefix_append ..) (brace hc).1
    | expression plain statement kept rest' => exact absurd rfl (brace hc).2

/-- The statement at the end of a raw block is the only one in it. -/
theorem marksStatement_expressionOf (plain : ∀ c ∈ body, c ≠ '{' ∧ c ≠ '}' ∧ c ≠ '\r')
    (statement : body.head? ≠ some '%') {s : Text} (hs : s <:+ expressionOf body) (hne : s ≠ []) :
  marksStatement (s ++ t) = false
  := by
  have hbrace : ∀ c ∈ body ++ ['}', '}'], c ≠ '{' := by
    intro c hc
    rcases List.mem_append.mp hc with hc | hc
    · exact (plain c hc).1
    · rintro rfl
      exact absurd hc (by decide)
  have hof {c : Char} (hc : c ≠ '{') (t : Text) : marksStatement (c :: t) = false := by
    cases t with
    | nil => rfl
    | cons d t => simp [marksStatement, hc]
  rw [expressionOf, List.suffix_cons_iff, List.suffix_cons_iff, List.suffix_cons_iff] at hs
  rcases hs with rfl | rfl | rfl | hs
  · rfl
  · rfl
  · cases body with
    | nil => rfl
    | cons c body =>
        have hc : c ≠ '%' := fun hc => statement (congrArg some hc)
        simp [marksStatement, hc]
  · obtain ⟨c, s, rfl⟩ := List.exists_cons_of_ne_nil hne
    apply hof (hbrace c (hs.subset List.mem_cons_self))

/-- A line of the workflow prints the line with the slug in the place of the name. -/
theorem printsLine_templatizeWorkflow (h : WorkflowLine t) :
  PrintsLine answers (templatizeWorkflow t) (withSlug answers.projectSlug t)
  := by
  induction h with
  | nil => apply printsLine_replaceReferences (t := []) (by decide)
  | @char c t plain kept marks dollar brace rest ih =>
      rw [templatizeWorkflow_char kept dollar rest, withSlug, replace_cons kept]
      apply ih.cons plain
      intro rest'
      apply marksTag_templatizeWorkflow marks brace rest
  | @reference t rest ih =>
      rw [templatizeWorkflow_reference, withSlug, replace_append reference_ne_nil]
      constructor
      · intro rest' _
        rw [List.append_assoc]
        rfl
      · intro σ rest' u hquiet h
        rw [List.append_assoc, shown_append, List.append_assoc]
        apply renders_templateVar (ih.renders hquiet h)
  | @expression body t plain statement kept rest ih =>
      have hlast : ∀ c ∈ (expressionOf body).getLast?, c ∉ Templatize.reference := by
        rw [getLast?_expressionOf]
        decide
      rw [templatizeWorkflow_expression plain kept, withSlug,
        replace_append_of_not_infix hlast (not_infix_expressionOf kept)]
      constructor
      · intro rest' _
        rw [List.append_assoc]
        rfl
      · intro σ rest' u hquiet h
        rw [List.append_assoc, List.append_assoc, List.append_assoc, shown_append,
          List.append_assoc]
        apply renders_rawTag _ _ (ih.renders hquiet h)
        · intro hr
          have hbody : '\r' ∈ body := by simpa [expressionOf] using hr
          exact (plain _ hbody).2.2 rfl
        · rintro s hs hne
          apply marksStatement_expressionOf plain statement hs hne

/-- A workflow is generated with the slug in the place of the name of the package, and with its
expressions as they are. -/
theorem render_templatizeWorkflow (engine : (jinja answers).Engine) {lines : List Text}
    (h : ∀ line ∈ lines, WorkflowLine line) :
  engine.render (fileText (lines.map templatizeWorkflow)) =
    some (fileText (lines.map (withSlug answers.projectSlug)))
  := engine.renders (renders_fileText
    (forall₂_printsLine fun line hline => printsLine_templatizeWorkflow (h line hline)))

/-- A line of a workflow with a reference and an expression. -/
def keyed : Text := "key: worker_template-$\x7b\x7b runner.os \x7d\x7d".toList

theorem workflowLine_keyed : WorkflowLine keyed := by
  have hexpression : WorkflowLine (expressionOf " runner.os ".toList ++ []) :=
    WorkflowLine.expression (by decide) (by decide) (by decide) .nil
  have hdash := hexpression.append_chars (m := ['-']) (by decide)
  apply (WorkflowLine.reference hdash).append_chars (m := "key: ".toList) (by decide)

/-- The key of a workflow. -/
theorem render_templatizeWorkflow_keyed :
  (jinja ⟨"scribe".toList, false⟩).engine.render (fileText ([keyed].map templatizeWorkflow)) =
    some (fileText ["key: scribe-$\x7b\x7b runner.os \x7d\x7d".toList])
  := by
  have hlines : [keyed].map (withSlug "scribe".toList) =
      ["key: scribe-$\x7b\x7b runner.os \x7d\x7d".toList] := by decide
  rw [← hlines]
  apply render_templatizeWorkflow (jinja ⟨"scribe".toList, false⟩).engine
  rintro line hline
  rw [List.mem_singleton.mp hline]
  apply workflowLine_keyed

/-! ### The manifests -/

/-- `grep -qE '\{\{.*\}\}'`, on one line. -/
def hasGoTemplate : Text → Bool
  | [] => false
  | c :: t => decide (['{', '{'] <+: c :: t ∧ ['}', '}'] <:+: t.tail) || hasGoTemplate t

/-- What the script makes of a manifest. -/
def templatizeManifest (lines : List Text) : List Text :=
  if lines.any hasGoTemplate then rawTag :: (lines ++ [endrawTag]) else lines

theorem getLast?_newline_fileText (lines : List Text) :
  ('\n' :: fileText lines).getLast? = some '\n'
  := by
  induction lines with
  | nil => rfl
  | cons line lines ih =>
      rw [fileText_cons, ← List.cons_append, List.getLast?_append, ih, Option.some_or]

/-- A manifest with templates of Go is generated as it is, between two empty lines. -/
theorem renders_templatizeManifest {lines : List Text} (hgo : lines.any hasGoTemplate)
    (hplain : ∀ line ∈ lines, '\r' ∉ line) (hquiet : ∀ line ∈ lines, ¬ ['{', '%'] <:+: line) :
  (jinja answers).Renders [] (fileText (templatizeManifest lines))
    (fileText ([] :: (lines ++ [[]])))
  := by
  have hbody : '\r' ∉ '\n' :: fileText lines := by
    intro hr
    have hr : ∃ line ∈ lines, '\r' ∈ line := by simpa [fileText] using hr
    obtain ⟨line, hline, hr⟩ := hr
    exact hplain line hline hr
  have hstatement : ∀ s, s <:+ '\n' :: fileText lines → s ≠ [] →
      marksStatement (s ++ (endrawTag ++ ['\n'])) = false := by
    intro s hs hne
    have hlast : s.getLast? = some '\n' := by
      obtain ⟨r, hr⟩ := hs
      rw [← getLast?_newline_fileText lines, ← hr, List.getLast?_append_of_ne_nil r hne]
    obtain ⟨c, s, rfl⟩ := List.exists_cons_of_ne_nil hne
    cases s with
    | nil =>
      cases hlast
      rfl
    | cons d s =>
      rw [List.cons_append, List.cons_append, marksStatement, Bool.and_eq_false_imp]
      intro hc
      apply beq_false_of_ne
      rintro rfl
      have hwithin : ['{', '%'] <:+: '\n' :: fileText lines := by
        rw [← beq_iff_eq.mp hc]
        exact (List.prefix_append [c, '%'] s).isInfix.trans hs.isInfix
      rcases List.infix_cons_iff.mp hwithin with hbegins | hwithin
      · exact absurd (List.cons_prefix_cons.mp hbegins).1 (by decide)
      · obtain ⟨line, hline, h⟩ := exists_infix_of_infix_fileText (by decide) (by decide) hwithin
        exact hquiet line hline h
  have hend : (jinja answers).Renders [] ['\n'] ['\n'] := renders_newline rfl .nil
  have h := renders_rawTag hbody hstatement hend
  rw [templatizeManifest, if_pos hgo]
  simpa [fileText_cons, fileText_append] using h

end WorkerTemplate.Templatize
