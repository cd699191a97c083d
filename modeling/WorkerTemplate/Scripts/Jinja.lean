import WorkerTemplate.Lists.Template
import WorkerTemplate.Scripts.Templatize

/-!
# The templates of the repository

What the script writes is a Jinja template, which is rendered with the answers to the questions
of `copier.yaml`.  The script writes these tags only: a reference to the slug of the project, a
condition on the scheduler, and raw blocks; `copier.yaml` itself has the opposite condition.
Trailing newlines are kept, and a tag with a dash takes away the whitespace before it.
-/

namespace WorkerTemplate

/-- The answers a project is generated with, as far as the script's tags depend on them. -/
structure Answers where
  projectSlug : Text
  enableScheduler : Bool

namespace Templatize

open Template

/-- `TEMPLATE_VAR`. -/
def templateVar : Text := "\x7b\x7b project_slug \x7d\x7d".toList

def ifTag : Text := "\x7b% if enable_scheduler %\x7d".toList

def ifNotTag : Text := "\x7b% if not enable_scheduler %\x7d".toList

def endifTag : Text := "\x7b% endif %\x7d".toList

def rawTag : Text := "\x7b% raw %\x7d".toList

def endrawTag : Text := "\x7b% endraw %\x7d".toList

/-- The tags of the templates and what they do. -/
def tags (answers : Answers) : List (Text × Action Char) :=
  [(templateVar, .prints answers.projectSlug), (ifTag, .opens answers.enableScheduler),
    (ifLine, .opens answers.enableScheduler), (ifNotTag, .opens (!answers.enableScheduler)),
    (endifTag, .closes), (endifLine, .closes), (rawTag, .raw)]

/-- A text begins with one of the marks that Jinja takes for the beginning of a tag. -/
def marksTag : Text → Bool
  | c :: d :: _ => c == '{' && (d == '{' || d == '%' || d == '#')
  | _ => false

/-- A text begins with a tag that has a dash. -/
def trimsBlanks (t : Text) : Bool := marksTag t && t[2]? == some '-'

/-- A text begins with the mark of a statement. -/
def marksStatement : Text → Bool
  | c :: d :: _ => c == '{' && d == '%'
  | _ => false

/-- Every tag begins with a mark. -/
theorem marksTag_of_mem {answers : Answers} {tag : Text × Action Char}
    (h : tag ∈ tags answers) (t : Text) :
  marksTag (tag.1 ++ t) = true
  := by
  simp only [tags, List.mem_cons, List.not_mem_nil, or_false] at h
  rcases h with rfl | rfl | rfl | rfl | rfl | rfl | rfl <;> rfl

/-- The templates that are rendered with some answers. -/
def jinja (answers : Answers) : Dialect Char where
  marks := marksTag
  tag t := ((tags answers).find? (fun tag => tag.1.isPrefixOf t)).map fun tag =>
    (tag.1.length, tag.2)
  marks_of_tag t h := by
    rw [Option.isSome_map, List.find?_isSome] at h
    obtain ⟨tag, htag, hbegins⟩ := h
    obtain ⟨t', rfl⟩ := List.isPrefixOf_iff_prefix.mp hbegins
    apply marksTag_of_mem htag
  trims := trimsBlanks
  blank := Text.isSpace
  plain c := c != '\r'
  marksEnd := marksStatement
  endRaw := endrawTag
  endRaw_ne_nil := by decide
  marksEnd_endRaw t := rfl

/-! ### The tags -/

section Tags

variable {answers : Answers} {σ : List Bool} {t u : Text}

/-- A reference prints the slug. -/
theorem renders_templateVar (h : (jinja answers).Renders σ t u) :
  (jinja answers).Renders σ (templateVar ++ t) (shown σ answers.projectSlug ++ u)
  := .prints (by decide) rfl h

theorem renders_ifTag (h : (jinja answers).Renders (answers.enableScheduler :: σ) t u) :
  (jinja answers).Renders σ (ifTag ++ t) u
  := .opens (by decide) rfl h

theorem renders_ifLine (h : (jinja answers).Renders (answers.enableScheduler :: σ) t u) :
  (jinja answers).Renders σ (ifLine ++ t) u
  := .opens (by decide) rfl h

theorem renders_ifNotTag (h : (jinja answers).Renders ((!answers.enableScheduler) :: σ) t u) :
  (jinja answers).Renders σ (ifNotTag ++ t) u
  := .opens (by decide) rfl h

theorem renders_endifTag {condition : Bool} (h : (jinja answers).Renders σ t u) :
  (jinja answers).Renders (condition :: σ) (endifTag ++ t) u
  := .closes (by decide) rfl h

theorem renders_endifLine {condition : Bool} (h : (jinja answers).Renders σ t u) :
  (jinja answers).Renders (condition :: σ) (endifLine ++ t) u
  := .closes (by decide) rfl h

/-- A raw block prints what is in it, if that has no statement. -/
theorem renders_rawTag {body : Text} (hplain : '\r' ∉ body)
    (hquiet : ∀ s, s <:+ body → s ≠ [] → marksStatement (s ++ (endrawTag ++ t)) = false)
    (h : (jinja answers).Renders σ t u) :
  (jinja answers).Renders σ (rawTag ++ (body ++ (endrawTag ++ t))) (shown σ body ++ u)
  := by
  apply Dialect.Renders.raw (by decide) rfl _ hquiet h
  rintro c hc
  exact bne_iff_ne.mpr (fun hr => hplain (hr ▸ hc))

end Tags

end Templatize

end WorkerTemplate
