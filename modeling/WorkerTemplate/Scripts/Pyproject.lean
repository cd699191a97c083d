import WorkerTemplate.Scripts.Remaining

/-!
# The requirements of a project

In `pyproject.toml` the script replaces the references, gives the distribution the slug for a
name, and puts a ceiling on a requirement.  It exits with an error when there is no requirement
with the ceiling afterwards.
-/

namespace WorkerTemplate.Templatize

open Template Substitution

/-- `name = "worker-template"`. -/
def nameLine : Text := "name = \"worker-template\"".toList

/-- The line that gives a name to the distribution. -/
def nameWith (name : Text) : Text := "name = \"".toList ++ (name ++ ['"'])

/-- `s/^name = "worker-template"$/name = "{{ project_slug }}"/`. -/
def replaceName (line : Text) : Text := if line = nameLine then nameWith templateVar else line

/-- The beginning of a requirement after its indent: `"${pkg}>=`. -/
def opening (pkg : Text) : Text := '"' :: (pkg ++ ['>', '='])

/-- `[^",]`. -/
def isVersion (c : Char) : Bool := c != '"' && c != ','

/-- What stands behind the beginning of a requirement, cut at the end of the version. -/
def version? (pkg line : Text) : Option (Text × Text) :=
  let rest := line.dropWhile (· == ' ')
  if (opening pkg).isPrefixOf rest then
    some ((rest.drop (opening pkg).length).span isVersion)
  else none

/-- The indent and the version of a requirement: `^( *)"${pkg}(>=[^",]*)",$`. -/
def requirement? (pkg line : Text) : Option (Text × Text) :=
  match version? pkg line with
  | some (version, ['"', ',']) => some (line.takeWhile (· == ' '), version)
  | _ => none

/-- A text matches a pattern in which a dot stands for any character. -/
def matchesDots : Text → Text → Bool
  | [], [] => true
  | p :: ps, c :: cs => (p == '.' || p == c) && matchesDots ps cs
  | _, _ => false

/-- `grep -qE "^ *\"${pkg}>=[^\",]*,${ceiling}\",$"`, on one line. -/
def isCapped (pkg ceiling line : Text) : Bool :=
  match version? pkg line with
  | some (_, rest) => matchesDots (',' :: (ceiling ++ ['"', ','])) rest
  | none => false

/-- The comment before a requirement with a ceiling. -/
def whyLine (reason : Text) : Text :=
  "# Why: ".toList ++ (reason ++
    " See https://github.com/mattwwarren/worker-template/issues/22".toList)

/-- A requirement with a ceiling, without its indent. -/
def cappedLine (pkg ceiling version : Text) : Text :=
  opening pkg ++ (version ++ ',' :: (ceiling ++ ['"', ',']))

/-- The edit of `cap_dependency`, on one line. -/
def capLine (pkg ceiling reason line : Text) : List Text :=
  match requirement? pkg line with
  | some (indent, version) =>
      [indent ++ whyLine reason, indent ++ cappedLine pkg ceiling version]
  | none => [line]

/-- `cap_dependency`, or `none` when it exits with an error. -/
def capDependency (pkg ceiling reason : Text) (lines : List Text) : Option (List Text) :=
  let out := lines.flatMap (capLine pkg ceiling reason)
  if out.any (isCapped pkg ceiling) then some out else none

def mypy : Text := "mypy".toList

def mypyCeiling : Text := "<2.4".toList

def mypyReason : Text :=
  "gate tooling capped at the minor version the template is verified against.".toList

/-- What the script makes of the file, or `none` when it exits with an error. -/
def templatizePyproject (lines : List Text) : Option (List Text) :=
  capDependency mypy mypyCeiling mypyReason
    (lines.map (fun line => replaceName (replaceReferences line)))

/-- The lines that a line of the file becomes, when the distribution is given the name of the
package. -/
def requiredLines (line : Text) : List Text :=
  if line = nameLine then [nameWith reference] else capLine mypy mypyCeiling mypyReason line

/-! ### Requirements -/

variable {answers : Answers} {pkg line indent version : Text}

/-- What a requirement looks like. -/
structure Requires (pkg line indent version : Text) : Prop where
  spaces : ∀ c ∈ indent, c = ' '
  inside : ∀ c ∈ version, isVersion c
  eq : line = indent ++ (opening pkg ++ (version ++ ['"', ',']))

theorem requirement?_eq_some_iff :
  requirement? pkg line = some (indent, version) ↔ Requires pkg line indent version
  := by
  constructor
  · intro h
    rw [requirement?] at h
    split at h
    case h_2 => cases h
    case h_1 v hv =>
      rw [version?, Option.ite_none_right_eq_some, List.span_eq_takeWhile_dropWhile] at hv
      obtain ⟨hopening, hspan⟩ := hv
      obtain ⟨rest, hrest⟩ := List.isPrefixOf_iff_prefix.mp hopening
      rw [← hrest, List.drop_left] at hspan
      obtain ⟨rfl, hclosing⟩ := Prod.mk.inj (Option.some.inj hspan)
      obtain ⟨rfl, rfl⟩ := Prod.mk.inj (Option.some.inj h)
      constructor
      · intro c hc
        simpa using List.mem_takeWhile_imp hc
      · intro c hc
        apply List.mem_takeWhile_imp hc
      · rw [← hclosing, List.takeWhile_append_dropWhile, hrest, List.takeWhile_append_dropWhile]
  · rintro ⟨hindent, hversion, rfl⟩
    have hspaces : ∀ c ∈ indent, (c == ' ') = true := by simpa using hindent
    have hrest {t : Text} : (indent ++ (opening pkg ++ t)).dropWhile (· == ' ') = opening pkg ++ t
        := by
      rw [List.dropWhile_append_of_pos hspaces]
      rfl
    have htake {t : Text} : (indent ++ (opening pkg ++ t)).takeWhile (· == ' ') = indent := by
      rw [List.takeWhile_append_of_pos hspaces]
      exact List.append_nil indent
    have hspan : (version ++ ['"', ',']).span isVersion = (version, ['"', ',']) := by
      rw [List.span_eq_takeWhile_dropWhile, List.takeWhile_append_of_pos hversion,
        List.dropWhile_append_of_pos hversion]
      simp [isVersion]
    have hopening {t : Text} : (opening pkg).isPrefixOf (opening pkg ++ t) = true :=
      List.isPrefixOf_iff_prefix.mpr (List.prefix_append ..)
    have hversion? : version? pkg (indent ++ (opening pkg ++ (version ++ ['"', ',']))) =
        some (version, ['"', ',']) := by
      rw [version?, hrest, if_pos hopening, List.drop_left, hspan]
    simp only [requirement?, hversion?, htake]

/-! ### Requirements and references -/

/-- What stands around the version of a requirement is kept. -/
theorem replace_requirement {replacement : Text} (hindent : ∀ c ∈ indent, c = ' ')
    (version : Text) {closing : Text} (hhead : ∀ c ∈ closing.head?, c ∉ reference)
    (hkept : ¬ reference <:+: closing) :
  replace reference replacement (indent ++ (opening mypy ++ (version ++ closing))) =
    indent ++ (opening mypy ++ (replace reference replacement version ++ closing))
  := by
  have hopening : ¬ reference <:+: indent ++ opening mypy := not_infix_indent hindent (by decide)
  have hlast : ∀ c ∈ (indent ++ opening mypy).getLast?, c ∉ reference := by
    rw [List.getLast?_append_of_ne_nil _ (by decide)]
    decide
  rw [← List.append_assoc, replace_append_of_not_infix hlast hopening,
    replace_append_of_head reference_ne_nil hhead hkept, List.append_assoc]

/-- Replacing references keeps what is no version apart from what is one. -/
theorem isVersion_replaceReferences (version : Text) :
  (∀ c ∈ replaceReferences version, isVersion c) ↔ ∀ c ∈ version, isVersion c
  := by
  have hmem {d : Char} (hd : d = '"' ∨ d = ',') :
      d ∈ replaceReferences version ↔ d ∈ version := by
    apply mem_replace_iff reference_ne_nil
    · rcases hd with rfl | rfl <;> decide
    · rcases hd with rfl | rfl <;> decide
  have hversion (t : Text) : (∀ c ∈ t, isVersion c) ↔ '"' ∉ t ∧ ',' ∉ t := by
    constructor
    · intro h
      exact ⟨fun hd => absurd (h _ hd) (by decide), fun hd => absurd (h _ hd) (by decide)⟩
    · rintro ⟨hquote, hcomma⟩ c hc
      simp only [isVersion, Bool.and_eq_true, bne_iff_ne]
      exact ⟨fun h => hquote (h ▸ hc), fun h => hcomma (h ▸ hc)⟩
  rw [hversion, hversion, hmem (Or.inl rfl), hmem (Or.inr rfl)]

theorem Requires.replaceReferences (h : Requires mypy line indent version) :
  Requires mypy (replaceReferences line) indent (replaceReferences version)
  where
  spaces := h.spaces
  inside := (isVersion_replaceReferences version).mpr h.inside
  eq := by
    rw [h.eq]
    apply replace_requirement h.spaces version (by decide) (by decide)

/-- A requirement that comes of a line whose references are replaced was one before. -/
theorem Requires.of_replaceReferences
    (h : Requires mypy (Templatize.replaceReferences line) indent version) :
  ∃ v, Requires mypy line indent v ∧ version = Templatize.replaceReferences v
  := by
  have hforeign : ∀ c ∈ templateVar.head?, c ∉ indent ++ opening mypy := by
    rintro c ⟨⟩ hmem
    rcases List.mem_append.mp hmem with hmem | hmem
    · exact absurd (h.spaces _ hmem) (by decide)
    · exact absurd hmem (by decide)
  have hreplaced : indent ++ opening mypy <+: replace reference templateVar line := by
    use version ++ ['"', ',']
    rw [List.append_assoc]
    apply h.eq.symm
  have hbegins : indent ++ opening mypy <+: line :=
    prefix_of_prefix_replace reference_ne_nil (by decide) hforeign hreplaced
  obtain ⟨rest, rfl⟩ := hbegins
  have hopening : ¬ reference <:+: indent ++ opening mypy := not_infix_indent h.spaces (by decide)
  have hlast : ∀ c ∈ (indent ++ opening mypy).getLast?, c ∉ reference := by
    rw [List.getLast?_append_of_ne_nil _ (by decide)]
    decide
  have hrest : replace reference templateVar rest = version ++ '"' :: [','] := by
    have heq := h.eq
    rw [Templatize.replaceReferences, replace_append_of_not_infix hlast hopening,
      ← List.append_assoc, List.append_cancel_left_eq] at heq
    apply heq
  obtain ⟨v, closing, rfl, hv, hclosing⟩ := exists_of_replace_eq reference_ne_nil (by decide) hrest
  have hcomma : closing = [','] := (replaceReferences_eq_iff (by decide) (by decide) closing).mp
    hclosing
  subst hcomma
  use v
  constructor
  · constructor
    · apply h.spaces
    · apply (isVersion_replaceReferences v).mp
      rw [Templatize.replaceReferences, hv]
      apply h.inside
    · rw [List.append_assoc]
  · exact hv.symm

/-- The requirements of a file are found before and after its references are replaced. -/
theorem requirement?_replaceReferences (line : Text) :
  requirement? mypy (replaceReferences line) =
    (requirement? mypy line).map (fun r => (r.1, replaceReferences r.2))
  := by
  cases h : requirement? mypy line with
  | some r =>
      have hrequires : Requires mypy line r.1 r.2 := requirement?_eq_some_iff.mp h
      apply requirement?_eq_some_iff.mpr hrequires.replaceReferences
  | none =>
      rw [Option.map_none, Option.eq_none_iff_forall_ne_some]
      rintro ⟨indent, version⟩ hsome
      obtain ⟨v, hrequires, -⟩ := (requirement?_eq_some_iff.mp hsome).of_replaceReferences
      rw [requirement?_eq_some_iff.mpr hrequires] at h
      cases h

/-! ### What a line becomes -/

theorem replaceName_replaceReferences (hline : line ≠ nameLine) :
  replaceName (replaceReferences line) = replaceReferences line
  := by
  apply if_neg
  rwa [replaceReferences_eq_iff (by decide) (by decide)]

/-- Naming the distribution and putting a ceiling on a requirement may as well come before the
references are replaced. -/
theorem capLine_replaceName (line : Text) :
  capLine mypy mypyCeiling mypyReason (replaceName (replaceReferences line)) =
    (requiredLines line).map replaceReferences
  := by
  by_cases hline : line = nameLine
  case pos =>
    subst hline
    decide +kernel
  case neg =>
    rw [replaceName_replaceReferences hline, requiredLines, if_neg hline, capLine, capLine,
      requirement?_replaceReferences]
    cases h : requirement? mypy line with
    | none => rfl
    | some r =>
        obtain ⟨indent, version⟩ := r
        have hrequires := requirement?_eq_some_iff.mp h
        have hcapped : replaceReferences (indent ++ cappedLine mypy mypyCeiling version) =
            indent ++ cappedLine mypy mypyCeiling (replaceReferences version) :=
          replace_requirement hrequires.spaces version (by decide) (by decide)
        rw [List.map_cons, List.map_singleton, hcapped,
          replaceReferences_indent hrequires.spaces (by decide +kernel)]
        rfl

/-- What the script makes of the file, when it makes something of it. -/
theorem eq_of_templatizePyproject {lines out : List Text}
    (h : templatizePyproject lines = some out) :
  out = (lines.flatMap requiredLines).map replaceReferences
  := by
  rw [templatizePyproject, capDependency, Option.ite_none_right_eq_some] at h
  rw [← Option.some.inj h.2, List.flatMap_map, List.map_flatMap]
  simp only [capLine_replaceName]

/-! ### What the lines print -/

/-- Nothing looks like a tag where two texts meet that cannot make one together. -/
theorem Plain.append {t t' : Text} (h : Plain t) (h' : Plain t')
    (hhead : ∀ c ∈ t'.head?, c ∉ ['{', '%', '#'] ∧ c ∉ reference) :
  Plain (t ++ t')
  where
  plain hr := (List.mem_append.mp hr).elim h.plain h'.plain
  marks s hs := by
    obtain ⟨r, hr⟩ := hs
    rcases List.append_eq_append_iff.mp hr with ⟨s, rfl, rfl⟩ | ⟨r, rfl, rfl⟩
    · have hs := h.marks s (List.suffix_append r s)
      match s, t' with
      | [], _ => apply h'.marks _ List.suffix_rfl
      | [c], [] => rfl
      | [c], d :: t' =>
          have hd := (hhead d rfl).1
          simp only [List.mem_cons, not_or] at hd
          simp [marksTag, hd]
      | c :: d :: s, t' => exact hs
    · apply h'.marks s (List.suffix_append r s)
  brace hbrace := by
    have hforeign : ∀ c ∈ t'.head?, c ∉ '{' :: reference := by
      intro c hc hmem
      rcases List.mem_cons.mp hmem with rfl | hmem
      · exact (hhead _ hc).1 List.mem_cons_self
      · exact (hhead c hc).2 hmem
    rcases infix_or_infix_of_head hforeign hbrace with hbrace | hbrace
    · exact h.brace hbrace
    · exact h'.brace hbrace

theorem plain_indent_append {indent t : Text} (hindent : ∀ c ∈ indent, c = ' ') (h : Plain t) :
  Plain (indent ++ t)
  := by
  induction indent with
  | nil => apply h
  | cons c indent ih =>
      have hrest := ih (fun d hd => hindent d (List.mem_cons_of_mem c hd))
      rw [hindent c List.mem_cons_self]
      constructor
      · intro hr
        rcases List.mem_cons.mp hr with hr | hr
        · exact absurd hr (by decide)
        · exact hrest.plain hr
      · intro s hs
        rcases List.suffix_cons_iff.mp hs with rfl | hs
        · apply marksTag_of_ne (by decide)
        · apply hrest.marks s hs
      · intro hbrace
        rcases List.infix_cons_iff.mp hbrace with hbegins | hbrace
        · exact absurd (List.cons_prefix_cons.mp hbegins).1 (by decide)
        · exact hrest.brace hbrace

/-- Nothing looks like a tag in what a line becomes. -/
theorem plain_of_mem_requiredLines {line l : Text} (hline : Plain line)
    (hl : l ∈ requiredLines line) :
  Plain l
  := by
  rw [requiredLines] at hl
  split at hl
  case isTrue =>
    rw [List.mem_singleton.mp hl]
    decide
  case isFalse =>
    rw [capLine] at hl
    split at hl
    case h_2 =>
      rw [List.mem_singleton.mp hl]
      apply hline
    case h_1 indent version h =>
      have hrequires := requirement?_eq_some_iff.mp h
      rcases List.mem_cons.mp hl with rfl | hl
      · apply plain_indent_append hrequires.spaces (by decide +kernel)
      · have hbefore : Plain (indent ++ (opening mypy ++ version)) := by
          have hwhole : Plain (indent ++ (opening mypy ++ version) ++ ['"', ',']) := by
            rw [List.append_assoc, List.append_assoc, ← hrequires.eq]
            apply hline
          apply hwhole.of_append
        rw [List.mem_singleton.mp hl, cappedLine, ← List.append_assoc (opening mypy),
          ← List.append_assoc]
        apply hbefore.append
        · decide
        · decide

/-- The file is generated with the slug for a name and in the place of the references, and with a
ceiling on the requirement. -/
theorem renders_templatizePyproject {lines out : List Text} (hplain : ∀ line ∈ lines, Plain line)
    (h : templatizePyproject lines = some out) :
  (jinja answers).Renders [] (fileText out)
    (fileText ((lines.flatMap requiredLines).map (withSlug answers.projectSlug)))
  := by
  rw [eq_of_templatizePyproject h]
  apply renders_fileText
  apply forall₂_printsLine
  intro l hl
  obtain ⟨line, hline, hl⟩ := List.mem_flatMap.mp hl
  apply printsLine_replaceReferences (plain_of_mem_requiredLines (hplain line hline) hl)

end WorkerTemplate.Templatize
