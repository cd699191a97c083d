import WorkerTemplate.Lists.Substitution
import WorkerTemplate.Scripts.Jinja

/-!
# References to the package

The script replaces the name of the package by a tag that prints the slug of the project.  A
file in which nothing looks like a tag is, when it is rendered again, the file with the slug in
the place of the name; with the name itself as the slug, it is the old file.
-/

namespace WorkerTemplate.Templatize

open Template Substitution

/-- The name of the package. -/
def reference : Text := "worker_template".toList

/-- `s/worker_template/{{ project_slug }}/g`. -/
def replaceReferences (line : Text) : Text := replace reference templateVar line

/-- A line of a project with some slug. -/
def withSlug (slug line : Text) : Text := replace reference slug line

/-- A file as `sed` reads it, from its lines. -/
def fileText (lines : List Text) : Text := lines.flatMap (· ++ ['\n'])

@[simp] theorem fileText_nil : fileText [] = [] := rfl

@[simp] theorem fileText_cons (line : Text) (lines : List Text) :
  fileText (line :: lines) = line ++ '\n' :: fileText lines
  := by simp [fileText]

@[simp] theorem fileText_append (lines lines' : List Text) :
  fileText (lines ++ lines') = fileText lines ++ fileText lines'
  := List.flatMap_append ..

/-- Nothing in a text looks like a tag, even with the references replaced. -/
structure Plain (t : Text) : Prop where
  plain : '\r' ∉ t
  marks : ∀ s, s <:+ t → marksTag s = false
  brace : ¬ ('{' :: reference) <:+: t

instance (t : Text) : Decidable (Plain t) :=
  decidable_of_iff
    ('\r' ∉ t ∧ (∀ s ∈ t.tails, marksTag s = false) ∧ ¬ ('{' :: reference) <:+: t)
    ⟨fun h => ⟨h.1, fun s hs => h.2.1 s ((List.mem_tails s t).mpr hs), h.2.2⟩,
      fun h => ⟨h.plain, fun s hs => h.marks s ((List.mem_tails s t).mp hs), h.brace⟩⟩

/-- What follows a text does not make a tag with its end, and does not take blanks away from
it. -/
structure Follows (t rest : Text) : Prop where
  marks : t.getLast? = some '{' → marksTag ('{' :: rest) = false
  blanks : ∀ c ∈ t.getLast?, Text.isSpace c → trimsBlanks (rest.dropWhile Text.isSpace) = false

variable {answers : Answers} {σ : List Bool} {c d : Char} {t t' rest u : Text}

theorem reference_ne_nil : reference ≠ [] := by decide

theorem not_begins_of_ne (h : c ≠ 'w') (t : Text) : ¬ reference <+: c :: t := by
  have hreference : reference = 'w' :: "orker_template".toList := by decide
  rw [hreference, List.cons_prefix_cons]
  rintro ⟨hw, -⟩
  exact h hw.symm

/-- The tag of a reference cannot be taken for a part of one. -/
theorem guarded_templateVar : Guarded reference templateVar where
  ne_nil := by decide
  head := by decide
  last := by decide
  not_infix := by decide

theorem Plain.suffix (h : Plain t) (hsuffix : t' <:+ t) : Plain t' where
  plain hr := h.plain (hsuffix.subset hr)
  marks s hs := h.marks s (hs.trans hsuffix)
  brace hbrace := h.brace (hbrace.trans hsuffix.isInfix)

theorem Plain.of_append (h : Plain (t ++ t')) : Plain t where
  plain hr := h.plain (List.mem_append_left t' hr)
  marks s hs := by
    obtain ⟨r, rfl⟩ := hs
    have hmarks := h.marks (s ++ t') ⟨r, (List.append_assoc ..).symm⟩
    match s with
    | [] => rfl
    | [c] => rfl
    | c :: d :: s => exact hmarks
  brace hbrace := h.brace (hbrace.trans (List.prefix_append t t').isInfix)

/-- What follows a text follows what the text ends with. -/
theorem Follows.suffix (h : Follows t rest) (hsuffix : t' <:+ t) : Follows t' rest := by
  obtain ⟨s, rfl⟩ := hsuffix
  have hlast {c : Char} (hc : t'.getLast? = some c) : (s ++ t').getLast? = some c := by
    rw [List.getLast?_append, hc, Option.some_or]
  constructor
  · rintro hbrace
    apply h.marks (hlast hbrace)
  · rintro c hc
    apply h.blanks c (hlast hc)

/-- Whether a text begins with a mark is seen from two characters. -/
theorem marksTag_cons_cons (c d : Char) (t t' : Text) :
  marksTag (c :: d :: t) = marksTag (c :: d :: t')
  := rfl

theorem marksTag_of_ne (h : c ≠ '{') (t : Text) : marksTag (c :: t) = false := by
  cases t with
  | nil => rfl
  | cons d t => simp [marksTag, h]

/-- Replacing references makes no mark. -/
theorem marksTag_replaceReferences (hplain : Plain (c :: t)) (hfollows : Follows (c :: t) rest) :
  marksTag (c :: (replaceReferences t ++ rest)) = false
  := by
  by_cases hc : c = '{'
  case neg => apply marksTag_of_ne hc
  case pos =>
    subst hc
    cases t with
    | nil => apply hfollows.marks rfl
    | cons d t =>
        have hbegins : ¬ reference <+: d :: t := by
          intro h
          apply hplain.brace
          exact (List.cons_prefix_cons.mpr ⟨rfl, h⟩).isInfix
        rw [replaceReferences, replace_cons hbegins, List.cons_append,
          marksTag_cons_cons '{' d _ t]
        apply hplain.marks _ List.suffix_rfl

/-- Replacing references takes no blanks away. -/
theorem trimsBlanks_replaceReferences (hplain : Plain t) (hfollows : Follows t rest)
    (hrest : t = [] → trimsBlanks (rest.dropWhile Text.isSpace) = false) :
  trimsBlanks ((replaceReferences t ++ rest).dropWhile Text.isSpace) = false
  := by
  induction t using induction reference_ne_nil with
  | nil => apply hrest rfl
  | kept c t h ih =>
      rw [replaceReferences, replace_cons h, List.cons_append, List.dropWhile_cons]
      have hsuffix : t <:+ c :: t := List.suffix_cons c t
      split
      case isTrue hblank =>
        apply ih (hplain.suffix hsuffix) (hfollows.suffix hsuffix)
        rintro rfl
        apply hfollows.blanks c rfl hblank
      case isFalse =>
        have hmarks := marksTag_replaceReferences hplain hfollows
        rw [trimsBlanks]
        exact Bool.and_eq_false_imp.mpr (fun h => absurd (hmarks.symm.trans h) Bool.false_ne_true)
  | replaced t ih =>
      rw [replaceReferences, replace_append reference_ne_nil]
      rfl

/-- A character that makes no mark and is not taken away prints itself. -/
theorem renders_char (hplain : c ≠ '\r') (hmarks : marksTag (c :: t) = false)
    (hquiet : Text.isSpace c → trimsBlanks (t.dropWhile Text.isSpace) = false)
    (h : (jinja answers).Renders σ t u) :
  (jinja answers).Renders σ (c :: t) (shown σ [c] ++ u)
  := by
  apply Dialect.Renders.verbatim (bne_iff_ne.mpr hplain) hmarks _ h
  rw [Dialect.trimmed, Bool.and_eq_false_imp]
  intro (hblank : Text.isSpace c = true)
  change trimsBlanks (List.dropWhile Text.isSpace _) = false
  rw [List.dropWhile_cons_of_pos hblank]
  apply hquiet hblank

/-- A text whose references are replaced prints the text with the slug in their place. -/
theorem renders_replaceReferences (hplain : Plain t) (hfollows : Follows t rest)
    (h : (jinja answers).Renders σ rest u) :
  (jinja answers).Renders σ (replaceReferences t ++ rest)
    (shown σ (withSlug answers.projectSlug t) ++ u)
  := by
  induction t using induction reference_ne_nil with
  | nil =>
      rw [withSlug, replace_nil, shown_empty]
      apply h
  | kept c t hbegins ih =>
      have hsuffix : t <:+ c :: t := List.suffix_cons c t
      have htail := ih (hplain.suffix hsuffix) (hfollows.suffix hsuffix)
      rw [replaceReferences, withSlug, replace_cons hbegins, replace_cons hbegins,
        shown_element, List.append_assoc, List.cons_append]
      apply renders_char (fun hr => hplain.plain (hr ▸ List.mem_cons_self))
        (marksTag_replaceReferences hplain hfollows) _ htail
      intro hblank
      apply trimsBlanks_replaceReferences (hplain.suffix hsuffix) (hfollows.suffix hsuffix)
      rintro rfl
      apply hfollows.blanks c rfl hblank
  | replaced t ih =>
      have hsuffix : t <:+ reference ++ t := List.suffix_append ..
      rw [replaceReferences, withSlug, replace_append reference_ne_nil,
        replace_append reference_ne_nil, shown_append, List.append_assoc, List.append_assoc]
      apply renders_templateVar (ih (hplain.suffix hsuffix) (hfollows.suffix hsuffix))

/-- A text without references that makes no mark prints itself. -/
theorem renders_literal (hplain : Plain t) (hkept : ¬ reference <:+: t) (hfollows : Follows t rest)
    (h : (jinja answers).Renders σ rest u) :
  (jinja answers).Renders σ (t ++ rest) (shown σ t ++ u)
  := by
  have hrenders := renders_replaceReferences hplain hfollows h
  rw [replaceReferences, withSlug, replace_of_not_infix hkept, replace_of_not_infix hkept]
    at hrenders
  apply hrenders

/-! ### Files -/

/-- What occurs in a file and goes over no end of a line occurs in a line. -/
theorem exists_infix_of_infix_fileText {lines : List Text} (hne : t ≠ []) (hnewline : '\n' ∉ t)
    (h : t <:+: fileText lines) :
  ∃ line ∈ lines, t <:+: line
  := by
  induction lines with
  | nil => exact absurd (List.infix_nil.mp h) hne
  | cons line lines ih =>
      rw [fileText_cons] at h
      have hhead : ∀ c ∈ ('\n' :: fileText lines).head?, c ∉ t := by
        rintro c ⟨⟩
        apply hnewline
      rcases infix_or_infix_of_head hhead h with h | h
      · exact ⟨line, List.mem_cons_self, h⟩
      · rcases List.infix_cons_iff.mp h with h | h
        · obtain ⟨c, t, rfl⟩ := List.exists_cons_of_ne_nil hne
          exact absurd (by simp [(List.cons_prefix_cons.mp h).1]) hnewline
        · obtain ⟨line', hline', h⟩ := ih h
          exact ⟨line', List.mem_cons_of_mem line hline', h⟩

/-- A line of a template prints a line, when no tag after it takes blanks away. -/
structure PrintsLine (answers : Answers) (t line : Text) : Prop where
  quiet : ∀ {rest}, trimsBlanks (rest.dropWhile Text.isSpace) = false →
    trimsBlanks ((t ++ '\n' :: rest).dropWhile Text.isSpace) = false
  renders : ∀ {σ rest u}, trimsBlanks (rest.dropWhile Text.isSpace) = false →
    (jinja answers).Renders σ ('\n' :: rest) u →
    (jinja answers).Renders σ (t ++ '\n' :: rest) (shown σ line ++ u)

theorem follows_newline (h : trimsBlanks (rest.dropWhile Text.isSpace) = false) (t : Text) :
  Follows t ('\n' :: rest)
  where
  marks := by
    rintro -
    rfl
  blanks := by
    rintro c - -
    apply h

/-- A character before which a line makes no mark. -/
theorem PrintsLine.cons {line : Text} (h : PrintsLine answers t line) (hplain : c ≠ '\r')
    (hmarks : ∀ rest, marksTag (c :: (t ++ '\n' :: rest)) = false) :
  PrintsLine answers (c :: t) (c :: line)
  where
  quiet {rest} hquiet := by
    rw [List.cons_append, List.dropWhile_cons]
    split
    case isTrue => apply h.quiet hquiet
    case isFalse => rw [trimsBlanks, hmarks, Bool.false_and]
  renders {σ rest u} hquiet hrest := by
    rw [List.cons_append, shown_element, List.append_assoc]
    apply renders_char hplain (hmarks rest) (fun _ => h.quiet hquiet) (h.renders hquiet hrest)

/-- A line with its references replaced prints the line with the slug in their place. -/
theorem printsLine_replaceReferences (hplain : Plain t) :
  PrintsLine answers (replaceReferences t) (withSlug answers.projectSlug t)
  where
  quiet h := trimsBlanks_replaceReferences hplain (follows_newline h t) (fun _ => h)
  renders h := renders_replaceReferences hplain (follows_newline h t)

theorem renders_newline (hquiet : trimsBlanks (rest.dropWhile Text.isSpace) = false)
    (h : (jinja answers).Renders σ rest u) :
  (jinja answers).Renders σ ('\n' :: rest) (shown σ ['\n'] ++ u)
  := renders_char (by decide) (marksTag_of_ne (by decide) _) (fun _ => hquiet) h

variable {ts lines : List Text}

/-- No tag in a file takes blanks away. -/
theorem trimsBlanks_fileText (h : List.Forall₂ (PrintsLine answers) ts lines) :
  trimsBlanks ((fileText ts).dropWhile Text.isSpace) = false
  := by
  induction h with
  | nil => rfl
  | cons hline h ih =>
      rw [fileText_cons]
      apply hline.quiet ih

/-- A file whose lines print the lines of another prints that file. -/
theorem renders_fileText (h : List.Forall₂ (PrintsLine answers) ts lines) :
  (jinja answers).Renders [] (fileText ts) (fileText lines)
  := by
  induction h with
  | nil => apply Dialect.Renders.nil
  | cons hline h ih =>
      have hquiet := trimsBlanks_fileText h
      rw [fileText_cons, fileText_cons]
      apply hline.renders hquiet (renders_newline hquiet ih)

/-- The lines of a file, each printed by a line of the template that is made of it. -/
theorem forall₂_printsLine {f g : Text → Text} (h : ∀ t ∈ lines, PrintsLine answers (f t) (g t)) :
  List.Forall₂ (PrintsLine answers) (lines.map f) (lines.map g)
  := by
  rw [List.forall₂_map_left_iff, List.forall₂_map_right_iff, List.forall₂_same]
  apply h

/-- A file in which nothing looks like a tag is generated with the slug in the place of the name
of the package, and with that name for a slug it is generated as it is. -/
theorem render_replaceReferences (engine : (jinja answers).Engine)
    (h : ∀ line ∈ lines, Plain line) :
  engine.render (fileText (lines.map replaceReferences)) =
      some (fileText (lines.map (withSlug answers.projectSlug))) ∧
    (answers.projectSlug = reference →
      engine.render (fileText (lines.map replaceReferences)) = some (fileText lines))
  := by
  have hrender := engine.renders (renders_fileText
    (forall₂_printsLine fun line hline => printsLine_replaceReferences (h line hline)))
  refine ⟨hrender, ?_⟩
  intro hslug
  have hself : withSlug answers.projectSlug = id := by
    funext line
    rw [withSlug, hslug, replace_self reference_ne_nil, id]
  rw [hrender, hself, List.map_id]

/-- A file that imports a module of the package. -/
def importing : List Text := ["from worker_template.db import session".toList, []]

/-- A project with a slug of its own imports the module from its own package. -/
theorem render_replaceReferences_importing :
  (jinja ⟨"scribe".toList, false⟩).engine.render (fileText (importing.map replaceReferences)) =
    some (fileText ["from scribe.db import session".toList, []])
  := by
  have hlines : importing.map (withSlug "scribe".toList) =
      ["from scribe.db import session".toList, []] := by decide
  rw [← hlines]
  apply (render_replaceReferences (jinja ⟨"scribe".toList, false⟩).engine (by decide)).1

end WorkerTemplate.Templatize
