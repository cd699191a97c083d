import WorkerTemplate.Scripts.Gate

/-!
# The deployment file

In `devspace.yaml` the script replaces the references, makes the places where the scheduler is
mentioned along with the worker depend on the answer, and puts the file through the filter that
gates the scheduler block.  Generated with the scheduler, the file is what it was; generated
without it, it says nothing of it.
-/

namespace WorkerTemplate.Templatize

open Template Substitution

/-! ### Mentions of the scheduler -/

/-- A mention of the scheduler after one of the worker. -/
structure Mention where
  before : Text
  word : Text
  after : Text

namespace Mention

/-- A mention as the file has it. -/
def whole (m : Mention) : Text := m.before ++ (m.word ++ m.after)

/-- A mention that depends on the answer. -/
def gated (m : Mention) : Text := m.before ++ (ifTag ++ (m.word ++ (endifTag ++ m.after)))

/-- What is left of a mention without the scheduler. -/
def without (m : Mention) : Text := m.before ++ m.after

/-- A mention as a project with some answer has it. -/
def answered (enableScheduler : Bool) (m : Mention) : Text :=
  if enableScheduler then m.whole else m.without

end Mention

/-- `"Deploying: worker + scheduler"`. -/
def deploying : Mention := ⟨"\"Deploying: worker".toList, " + scheduler".toList, ['"']⟩

/-- `(infra + worker + scheduler)`. -/
def infra : Mention := ⟨"(infra + worker".toList, " + scheduler".toList, [')']⟩

/-- `create_deployments worker scheduler`, at the end of a line. -/
def creating : Mention := ⟨"create_deployments worker".toList, " scheduler".toList, []⟩

/-- A line, with `replacement` in the place of the deployments that it creates:
`s/^\( *create_deployments worker\) scheduler$/…/`. -/
def replaceCreating (replacement line : Text) : Text :=
  if line.dropWhile (· == ' ') = creating.whole then line.takeWhile (· == ' ') ++ replacement
  else line

/-- The three edits of a line. -/
def gateMentions (line : Text) : Text :=
  replaceFirst infra.whole infra.gated
    (replaceFirst deploying.whole deploying.gated (replaceCreating creating.gated line))

/-- A line of a project with some answer. -/
def answerMentions (enableScheduler : Bool) (line : Text) : Text :=
  replaceFirst infra.whole (infra.answered enableScheduler)
    (replaceFirst deploying.whole (deploying.answered enableScheduler)
      (replaceCreating (creating.answered enableScheduler) line))

/-- The lines the filter reads. -/
def templatizeLine (line : Text) : Text := gateMentions (replaceReferences line)

/-- `grep -q 'create_deployments worker{% if enable_scheduler %} scheduler{% endif %}$'`. -/
def createsGated (line : Text) : Bool := creating.gated.isSuffixOf line

/-- What the script makes of the file, or `none` when it exits with an error. -/
def templatizeDevspace (lines : List Text) : Option (List Text) :=
  let out := gate (lines.map templatizeLine)
  if out.any (· == ifLine) && out.any createsGated then some out else none

/-! ### The shape of a line -/

theorem isSecondLevel_cons_cons (c d : Char) (t : Text) :
  isSecondLevel (c :: d :: t) = (c == ' ' && d == ' ' && isTopLevel t)
  := by
  unfold isSecondLevel
  split
  case h_1 heq =>
      obtain ⟨rfl, hrest⟩ := List.cons.inj heq
      obtain ⟨rfl, rfl⟩ := List.cons.inj hrest
      rfl
  case h_2 hne =>
      by_cases hc : c = ' '
      · by_cases hd : d = ' '
        · exact absurd (by rw [hc, hd]) (hne t)
        · simp [hd]
      · simp [hc]

theorem isTopLevel_take (t : Text) : isTopLevel (t.take 3) = isTopLevel t := by
  cases t <;> rfl

theorem isSecondLevel_take (t : Text) : isSecondLevel (t.take 3) = isSecondLevel t := by
  match t with
  | [] => rfl
  | [c] => rfl
  | [c, d] => rfl
  | c :: d :: e :: t =>
      change isSecondLevel (c :: d :: [e]) = _
      rw [isSecondLevel_cons_cons, isSecondLevel_cons_cons]
      rfl

/-- Lines of one shape, when the first three characters are the same and neither is a key. -/
theorem SameShape.of_take {line t : Text} (htake : t.take 3 = line.take 3)
    (hline : line ≠ deploymentsKey ∧ line ≠ schedulerKey)
    (ht : t ≠ deploymentsKey ∧ t ≠ schedulerKey) :
  SameShape line t
  where
  nil := by
    have hnil {t : Text} : t.take 3 = [] ↔ t = [] := by simp
    rw [← hnil, htake, hnil]
  isTopLevel := by rw [← isTopLevel_take, htake, isTopLevel_take]
  isSecondLevel := by rw [← isSecondLevel_take, htake, isSecondLevel_take]
  deployments := iff_of_false ht.1 hline.1
  scheduler := iff_of_false ht.2 hline.2

theorem SameShape.refl (line : Text) : SameShape line line := ⟨Iff.rfl, rfl, rfl, Iff.rfl, Iff.rfl⟩

theorem SameShape.trans {line t t' : Text} (h : SameShape line t) (h' : SameShape t t') :
  SameShape line t'
  where
  nil := h'.nil.trans h.nil
  isTopLevel := h'.isTopLevel.trans h.isTopLevel
  isSecondLevel := h'.isSecondLevel.trans h.isSecondLevel
  deployments := h'.deployments.trans h.deployments
  scheduler := h'.scheduler.trans h.scheduler

/-- A line that has the beginning of a tag in it is not a key. -/
theorem ne_key_of_mem {t : Text} (h : '{' ∈ t) : t ≠ deploymentsKey ∧ t ≠ schedulerKey := by
  constructor
  · rintro rfl
    exact absurd h (by decide)
  · rintro rfl
    exact absurd h (by decide)

/-- Replacing references changes a line to one with a tag in it, or not at all. -/
theorem replaceReferences_eq_or_mem (line : Text) :
  replaceReferences line = line ∨ '{' ∈ replaceReferences line
  := by
  induction line using induction reference_ne_nil with
  | nil => exact Or.inl rfl
  | kept c t h ih =>
      rw [replaceReferences, replace_cons h]
      rcases ih with ih | ih
      · exact Or.inl (congrArg (c :: ·) ih)
      · exact Or.inr (List.mem_cons_of_mem c ih)
  | replaced t ih =>
      rw [replaceReferences, replace_append reference_ne_nil]
      exact Or.inr (List.mem_append_left _ (by decide))

/-- A key has no reference in it. -/
theorem replaceReferences_eq_iff {key : Text} (hkey : ¬ reference <:+: key) (hmem : '{' ∉ key)
    (line : Text) :
  replaceReferences line = key ↔ line = key
  := by
  constructor
  · intro h
    rcases replaceReferences_eq_or_mem line with heq | hbrace
    · rw [← heq, h]
    · exact absurd (h ▸ hbrace) hmem
  · rintro rfl
    apply replace_of_not_infix hkey

theorem isTopLevel_replaceReferences (line : Text) :
  isTopLevel (replaceReferences line) = isTopLevel line
  := by
  induction line using induction reference_ne_nil with
  | nil => rfl
  | kept c t h ih =>
      rw [replaceReferences, replace_cons h]
      rfl
  | replaced t ih =>
      rw [replaceReferences, replace_append reference_ne_nil]
      rfl

theorem isSecondLevel_of_ne {c d : Char} (h : c ≠ ' ' ∨ d ≠ ' ') (t : Text) :
  isSecondLevel (c :: d :: t) = false
  := by
  rw [isSecondLevel_cons_cons]
  rcases h with h | h
  · rw [beq_false_of_ne h, Bool.false_and, Bool.false_and]
  · rw [beq_false_of_ne h, Bool.and_false, Bool.false_and]

theorem isSecondLevel_replaceReferences (line : Text) :
  isSecondLevel (replaceReferences line) = isSecondLevel line
  := by
  induction line using induction reference_ne_nil with
  | nil => rfl
  | kept c t h ih =>
      rw [replaceReferences, replace_cons h]
      clear ih
      induction t using induction reference_ne_nil with
      | nil => rfl
      | kept d t h' ih' =>
          rw [replace_cons h', isSecondLevel_cons_cons, isSecondLevel_cons_cons,
            ← isTopLevel_replaceReferences t]
          rfl
      | replaced t ih =>
          rw [replace_append reference_ne_nil]
          exact (isSecondLevel_of_ne (Or.inr (by decide)) _).trans
            (isSecondLevel_of_ne (Or.inr (by decide)) _).symm
  | replaced t ih =>
      rw [replaceReferences, replace_append reference_ne_nil]
      rfl

/-- Replacing references keeps the shape of a line. -/
theorem sameShape_replaceReferences (line : Text) : SameShape line (replaceReferences line) where
  nil := replaceReferences_eq_iff (by decide) (by decide) line
  isTopLevel := isTopLevel_replaceReferences line
  isSecondLevel := isSecondLevel_replaceReferences line
  deployments := replaceReferences_eq_iff (by decide) (by decide) line
  scheduler := replaceReferences_eq_iff (by decide) (by decide) line

/-- Making a mention depend on the answer keeps the shape of a line, if the mention has three
characters before the scheduler and is a part of no key. -/
theorem Mention.sameShape {m : Mention} (hbefore : 3 ≤ m.before.length)
    (hkeys : ¬ m.whole <:+: deploymentsKey ∧ ¬ m.whole <:+: schedulerKey) (a b : Text) :
  SameShape (a ++ (m.whole ++ b)) (a ++ (m.gated ++ b))
  := by
  have hwhole : m.whole <:+: a ++ (m.whole ++ b) := List.infix_append' ..
  apply SameShape.of_take
  · have hlength : 3 ≤ (a ++ m.before).length := by
      rw [List.length_append]
      omega
    simp only [whole, gated, List.append_assoc]
    rw [← List.append_assoc, List.take_append_of_le_length hlength, ← List.append_assoc,
      List.take_append_of_le_length hlength]
  · exact ⟨fun h => hkeys.1 (h ▸ hwhole), fun h => hkeys.2 (h ▸ hwhole)⟩
  · apply ne_key_of_mem
    have hif : '{' ∈ ifTag := by decide
    simp [gated, hif]

theorem sameShape_replaceFirst {m : Mention} (hbefore : 3 ≤ m.before.length)
    (hkeys : ¬ m.whole <:+: deploymentsKey ∧ ¬ m.whole <:+: schedulerKey) (line : Text) :
  SameShape line (replaceFirst m.whole m.gated line)
  := by
  have hne : m.whole ≠ [] := by
    intro h
    rw [Mention.whole, List.append_eq_nil_iff] at h
    simp [h.1] at hbefore
  rcases not_infix_or_exists hne line with hline | ⟨a, b, rfl, hreplace⟩
  · rw [replaceFirst_of_absent hline]
    apply SameShape.refl
  · rw [hreplace]
    apply Mention.sameShape hbefore hkeys

/-- A line that creates the deployments. -/
def Creates (line indent : Text) : Prop := (∀ c ∈ indent, c = ' ') ∧ line = indent ++ creating.whole

/-- A line creates the deployments, or it is left as it is. -/
theorem exists_creates_or (line : Text) :
  (∃ indent, Creates line indent ∧ ∀ r, replaceCreating r line = indent ++ r) ∨
    (∀ indent, ¬ Creates line indent) ∧ ∀ r, replaceCreating r line = line
  := by
  by_cases h : line.dropWhile (· == ' ') = creating.whole
  case pos =>
    left
    refine ⟨line.takeWhile (· == ' '), ⟨?_, ?_⟩, ?_⟩
    · intro c hc
      exact beq_iff_eq.mp (List.mem_takeWhile_imp (p := (· == ' ')) hc)
    · rw [← h, List.takeWhile_append_dropWhile]
    · intro r
      rw [replaceCreating, if_pos h]
  case neg =>
    right
    refine ⟨?_, ?_⟩
    · rintro indent ⟨hindent, rfl⟩
      apply h
      rw [List.dropWhile_append_of_pos (fun c hc => beq_iff_eq.mpr (hindent c hc))]
      decide
    · intro r
      rw [replaceCreating, if_neg h]

theorem sameShape_replaceCreating (line : Text) :
  SameShape line (replaceCreating creating.gated line)
  := by
  rcases exists_creates_or line with ⟨indent, ⟨-, rfl⟩, hreplace⟩ | ⟨-, hreplace⟩
  · rw [hreplace]
    simpa using Mention.sameShape (m := creating) (by decide) (by decide) indent []
  · rw [hreplace]
    apply SameShape.refl

/-- The line the filter reads has the shape of the line it is made of. -/
theorem sameShape_templatizeLine (line : Text) : SameShape line (templatizeLine line) := by
  apply (sameShape_replaceReferences line).trans
  apply (sameShape_replaceCreating _).trans
  apply (sameShape_replaceFirst (m := deploying) (by decide) (by decide) _).trans
  apply sameShape_replaceFirst (by decide) (by decide)

/-! ### References and mentions -/

/-- An indented text has no reference if the text has none. -/
theorem not_infix_indent {indent t : Text} (hindent : ∀ c ∈ indent, c = ' ')
    (ht : ¬ reference <:+: t) :
  ¬ reference <:+: indent ++ t
  := by
  intro h
  have hlast : ∀ c ∈ indent.getLast?, c ∉ reference := by
    intro c hc
    rw [hindent c (List.mem_of_getLast? hc)]
    decide
  rcases infix_or_infix_of_getLast hlast h with h | h
  · have hw : 'w' ∈ indent := h.subset (by decide)
    exact absurd (hindent 'w' hw) (by decide)
  · exact ht h

theorem replaceReferences_indent {indent t : Text} (hindent : ∀ c ∈ indent, c = ' ')
    (ht : ¬ reference <:+: t) :
  replaceReferences (indent ++ t) = indent ++ t
  := replace_of_not_infix (not_infix_indent hindent ht)

theorem replaceCreating_replaceReferences (line : Text) :
  replaceCreating creating.gated (replaceReferences line) =
    replaceReferences (replaceCreating creating.gated line)
  := by
  rcases exists_creates_or line with ⟨indent, ⟨hindent, hline⟩, hreplace⟩ | ⟨hnot, hreplace⟩
  · have hself : replaceReferences line = line := by
      rw [hline]
      apply replaceReferences_indent hindent (by decide)
    rw [hself, hreplace, replaceReferences_indent hindent (by decide +kernel)]
  · rw [hreplace]
    rcases exists_creates_or (replaceReferences line) with ⟨indent, hcreates, -⟩ | ⟨-, hreplace'⟩
    · exfalso
      rcases replaceReferences_eq_or_mem line with heq | hbrace
      · exact hnot indent (heq ▸ hcreates)
      · rw [hcreates.2, List.mem_append] at hbrace
        rcases hbrace with hbrace | hbrace
        · exact absurd (hcreates.1 _ hbrace) (by decide)
        · exact absurd hbrace (by decide)
    · apply hreplace'

theorem guarded_mention {m : Mention} (hm : m = deploying ∨ m = infra) :
  Guarded reference m.whole ∧ Guarded reference m.gated
  := by
  rcases hm with rfl | rfl
  · constructor
    · constructor <;> decide +kernel
    · constructor <;> decide +kernel
  · constructor
    · constructor <;> decide +kernel
    · constructor <;> decide +kernel

theorem replaceFirst_replaceReferences {m : Mention} (hm : m = deploying ∨ m = infra)
    (line : Text) :
  replaceFirst m.whole m.gated (replaceReferences line) =
    replaceReferences (replaceFirst m.whole m.gated line)
  := by
  apply replaceFirst_replace reference_ne_nil (by decide) (guarded_mention hm).1
    (guarded_mention hm).2
  · rcases hm with rfl | rfl <;> decide
  · rcases hm with rfl | rfl <;> decide

/-- It makes no difference whether the references are replaced before the edits or after them. -/
theorem templatizeLine_eq (line : Text) :
  templatizeLine line = replaceReferences (gateMentions line)
  := by
  rw [templatizeLine, gateMentions, replaceCreating_replaceReferences,
    replaceFirst_replaceReferences (Or.inl rfl), replaceFirst_replaceReferences (Or.inr rfl),
    gateMentions]

/-! ### What a line prints -/

/-- A text that a project with some answer has, and the text of the template it comes from, when
some mentions depend on the answer. -/
inductive Gated (enableScheduler : Bool) (ms : List Mention) : Text → Text → Prop
  | text {p : Text} (plain : Plain p) (last : ∀ c ∈ p.getLast?, Text.isSpace c = false) :
      Gated enableScheduler ms p p
  | mention {m : Mention} {p w x : Text} (mem : m ∈ ms) (plain : Plain p)
      (rest : Gated enableScheduler ms w x) :
      Gated enableScheduler ms (p ++ (m.answered enableScheduler ++ w)) (p ++ (m.gated ++ x))

variable {answers : Answers} {enableScheduler : Bool} {σ : List Bool} {ms : List Mention}
  {m : Mention} {t w x rest u : Text}

theorem Gated.mono {ms' : List Mention} (h : Gated enableScheduler ms w x) (hms : ms ⊆ ms') :
  Gated enableScheduler ms' w x
  := by
  induction h with
  | text plain last => apply Gated.text plain last
  | mention mem plain rest ih => apply Gated.mention (hms mem) plain ih

/-- The first occurrence of a mention can be made to depend on the answer too. -/
theorem Gated.replaceFirst (hm : m.whole ≠ [])
    (hms : ∀ m' ∈ ms, Guarded m.whole m'.gated ∧ Guarded m.whole (m'.answered enableScheduler))
    (h : Gated enableScheduler ms w x) :
  Gated enableScheduler (m :: ms)
    (Substitution.replaceFirst m.whole (m.answered enableScheduler) w)
    (Substitution.replaceFirst m.whole m.gated x)
  := by
  induction h with
  | @text p plain last =>
      rcases not_infix_or_exists hm p with hp | ⟨a, b, hp, hreplace⟩
      · rw [replaceFirst_of_absent hp, replaceFirst_of_absent hp]
        apply Gated.text plain last
      · rw [hreplace, hreplace]
        subst hp
        apply Gated.mention List.mem_cons_self plain.of_append
        apply Gated.text
        · apply plain.suffix
          rw [← List.append_assoc]
          apply List.suffix_append
        · intro c hc
          apply last c
          rw [List.getLast?_append, List.getLast?_append, Option.mem_def.mp hc]
          rfl
  | @mention m' p w x mem plain rest ih =>
      obtain ⟨hgated, hanswered⟩ := hms m' mem
      by_cases hp : m.whole <:+: p
      case pos =>
        rw [hgated.replaceFirst_before hp, hanswered.replaceFirst_before hp]
        obtain ⟨a, b, hp', hreplace⟩ := (not_infix_or_exists hm p).resolve_left (not_not.mpr hp)
        rw [hreplace, hreplace, List.append_assoc, List.append_assoc, List.append_assoc,
          List.append_assoc]
        subst hp'
        apply Gated.mention List.mem_cons_self plain.of_append
        apply Gated.mention (List.mem_cons_of_mem m mem)
        · apply plain.suffix
          rw [← List.append_assoc]
          apply List.suffix_append
        · apply rest.mono (List.subset_cons_self m ms)
      case neg =>
        rw [hgated.replaceFirst_after hp, hanswered.replaceFirst_after hp]
        apply Gated.mention (List.mem_cons_of_mem m mem) plain ih

theorem follows_of_last (h : ∀ c ∈ t.getLast?, c ≠ '{' ∧ Text.isSpace c = false) (rest : Text) :
  Follows t rest
  where
  marks hbrace := absurd rfl (h '{' hbrace).1
  blanks c hc hblank := by
    rw [(h c hc).2] at hblank
    cases hblank

/-- A part of a mention, as the template has it verbatim. -/
structure Verbatim (t : Text) : Prop where
  plain : Plain t
  kept : ¬ reference <:+: t
  last : ∀ c ∈ t.getLast?, c ≠ '{' ∧ Text.isSpace c = false

theorem renders_verbatim (ht : Verbatim t) (h : (jinja answers).Renders σ rest u) :
  (jinja answers).Renders σ (t ++ rest) (shown σ t ++ u)
  := renders_literal ht.plain ht.kept (follows_of_last ht.last rest) h

instance (t : Text) : Decidable (Verbatim t) :=
  decidable_of_iff
    (Plain t ∧ ¬ reference <:+: t ∧ ∀ c ∈ t.getLast?, c ≠ '{' ∧ Text.isSpace c = false)
    ⟨fun h => ⟨h.1, h.2.1, h.2.2⟩, fun h => ⟨h.plain, h.kept, h.last⟩⟩

/-- A mention that depends on the answer prints what a project with the answer has. -/
theorem renders_gated (hbefore : Verbatim m.before) (hword : Verbatim m.word)
    (hafter : Verbatim m.after) (h : (jinja answers).Renders σ rest u) :
  (jinja answers).Renders σ (m.gated ++ rest)
    (shown σ (m.answered answers.enableScheduler) ++ u)
  := by
  have hrenders := renders_verbatim hbefore (renders_ifTag (renders_verbatim hword
    (renders_endifTag (renders_verbatim hafter h))))
  rw [Mention.gated, Mention.answered]
  simp only [List.append_assoc]
  cases henable : answers.enableScheduler with
  | true =>
      rw [henable, shown_cons_true] at hrenders
      simpa [Mention.whole] using hrenders
  | false =>
      rw [henable, shown_cons_false] at hrenders
      simpa [Mention.without] using hrenders

theorem guarded_answered (hm : m = deploying ∨ m = infra) (enableScheduler : Bool) :
  Guarded reference (m.answered enableScheduler)
  := by
  rcases hm with rfl | rfl
  · cases enableScheduler <;> constructor <;> decide +kernel
  · cases enableScheduler <;> constructor <;> decide +kernel

/-- A text with mentions that depend on the answer prints what a project with the answer has, with
the slug in the place of the references. -/
theorem Gated.printsAlways (h : Gated answers.enableScheduler [infra, deploying] w x) :
  PrintsAlways answers (replaceReferences x) (withSlug answers.projectSlug w)
  := by
  induction h with
  | @text p plain last =>
      have hfollows (rest : Text) : Follows p ('\n' :: rest) := by
        constructor
        · rintro -
          rfl
        · intro c hc hblank
          rw [last c hc] at hblank
          cases hblank
      constructor
      · intro hne rest
        apply trimsBlanks_replaceReferences plain (hfollows rest)
        rintro rfl
        exact absurd rfl hne
      · intro σ rest u h
        apply renders_replaceReferences plain (hfollows rest) h
  | @mention m p w x mem plain rest ih =>
      have hm : m = deploying ∨ m = infra := by
        rcases List.mem_cons.mp mem with rfl | hm
        · exact Or.inr rfl
        · exact Or.inl (List.mem_singleton.mp hm)
      have hfollows (rest : Text) : Follows p (m.gated ++ rest) := by
        rcases hm with rfl | rfl
        · exact ⟨fun _ => rfl, fun _ _ _ => rfl⟩
        · exact ⟨fun _ => rfl, fun _ _ _ => rfl⟩
      rw [replaceReferences, withSlug, (guarded_mention hm).2.replace_around reference_ne_nil,
        (guarded_answered hm _).replace_around reference_ne_nil]
      constructor
      · intro _ rest
        rw [List.append_assoc, List.append_assoc]
        apply trimsBlanks_replaceReferences plain (hfollows _)
        rintro -
        rcases hm with rfl | rfl
        · rfl
        · rfl
      · intro σ rest u h
        simp only [List.append_assoc, shown_append]
        apply renders_replaceReferences plain (hfollows _)
        rcases hm with rfl | rfl
        · apply renders_gated (by decide) (by decide) (by decide) (ih.renders h)
        · apply renders_gated (by decide) (by decide) (by decide) (ih.renders h)

theorem plain_indent {indent : Text} (hindent : ∀ c ∈ indent, c = ' ') : Plain indent where
  plain hr := absurd (hindent _ hr) (by decide)
  marks s hs := by
    cases s with
    | nil => rfl
    | cons c s =>
        apply marksTag_of_ne
        rw [hindent c (hs.subset List.mem_cons_self)]
        decide
  brace hbrace := absurd (hindent _ (hbrace.subset List.mem_cons_self)) (by decide)

/-- A line that creates the deployments prints what a project with the answer has. -/
theorem printsAlways_indent {indent : Text} (hindent : ∀ c ∈ indent, c = ' ') :
  PrintsAlways answers (indent ++ creating.gated)
    (indent ++ creating.answered answers.enableScheduler)
  where
  quiet _ rest := by
    rw [List.append_assoc, List.dropWhile_append_of_pos]
    · rfl
    · intro c hc
      rw [hindent c hc]
      decide
  renders {σ rest u} h := by
    have hfollows : Follows indent (creating.gated ++ '\n' :: rest) :=
      ⟨fun _ => rfl, fun _ _ _ => rfl⟩
    have hkept : ¬ reference <:+: indent := by
      simpa using not_infix_indent hindent (t := []) (by decide)
    rw [List.append_assoc, shown_append, List.append_assoc]
    apply renders_literal (plain_indent hindent) hkept hfollows
    apply renders_gated (by decide) (by decide) (by decide) h

/-- In a line that creates the deployments nothing else is edited. -/
theorem replaceFirst_indent {indent r : Text} (hindent : ∀ c ∈ indent, c = ' ')
    (hm : m = deploying ∨ m = infra) (ht : '"' ∉ t ∧ '(' ∉ t) :
  Substitution.replaceFirst m.whole r (indent ++ t) = indent ++ t
  := by
  apply replaceFirst_of_absent
  intro h
  have hnot {c : Char} (hc : c ≠ ' ') (hct : c ∉ t) (hmem : c ∈ m.whole) : False := by
    rcases List.mem_append.mp (h.subset hmem) with hmem | hmem
    · exact hc (hindent c hmem)
    · exact hct hmem
  rcases hm with rfl | rfl
  · apply hnot (by decide) ht.1 (by decide)
  · apply hnot (by decide) ht.2 (by decide)

/-- A line the filter reads prints what a project with the answer has. -/
theorem printsAlways_templatizeLine {line : Text} (hplain : Plain line)
    (hends : ∀ c ∈ line.getLast?, Text.isSpace c = false) :
  PrintsAlways answers (templatizeLine line)
    (withSlug answers.projectSlug (answerMentions answers.enableScheduler line))
  := by
  rw [templatizeLine_eq, gateMentions, answerMentions]
  rcases exists_creates_or line with ⟨indent, hcreates, hreplace⟩ | ⟨-, hreplace⟩
  · have hanswered (enableScheduler : Bool) :
        '"' ∉ creating.answered enableScheduler ∧ '(' ∉ creating.answered enableScheduler ∧
          ¬ reference <:+: creating.answered enableScheduler := by
      cases enableScheduler <;> decide +kernel
    obtain ⟨hquote, hparen, hkept⟩ := hanswered answers.enableScheduler
    have hindent := hcreates.1
    rw [hreplace, hreplace, replaceFirst_indent hindent (Or.inl rfl) (by decide),
      replaceFirst_indent hindent (Or.inr rfl) (by decide),
      replaceFirst_indent hindent (Or.inl rfl) ⟨hquote, hparen⟩,
      replaceFirst_indent hindent (Or.inr rfl) ⟨hquote, hparen⟩,
      replaceReferences_indent hindent (by decide +kernel), withSlug,
      replace_of_not_infix (not_infix_indent hindent hkept)]
    apply printsAlways_indent hindent
  · rw [hreplace, hreplace]
    have htext : Gated answers.enableScheduler [] line line := .text hplain hends
    have hdeploying := htext.replaceFirst (m := deploying) (by decide) (by rintro m' ⟨⟩)
    have hinfra := hdeploying.replaceFirst (m := infra) (by decide) (by
      intro m' hm'
      rw [List.mem_singleton.mp hm']
      constructor
      · constructor <;> decide +kernel
      · cases answers.enableScheduler <;> constructor <;> decide +kernel)
    apply hinfra.printsAlways

/-! ### The file -/

/-- A project with the scheduler mentions it as the file does. -/
theorem answerMentions_true (line : Text) : answerMentions true line = line := by
  rw [answerMentions]
  rcases exists_creates_or line with ⟨indent, ⟨-, hline⟩, hreplace⟩ | ⟨-, hreplace⟩
  · have hcreating : indent ++ creating.answered true = line := by
      rw [hline]
      rfl
    rw [hreplace, hcreating]
    exact (replaceFirst_self (by decide) _).trans (replaceFirst_self (by decide) _)
  · rw [hreplace]
    exact (replaceFirst_self (by decide) _).trans (replaceFirst_self (by decide) _)

/-- A line in which nothing looks like a tag is not a directive. -/
theorem Plain.isDirective_eq_false {line : Text} (h : Plain line) : isDirective line = false := by
  rw [isDirective, Bool.or_eq_false_iff]
  constructor
  · apply beq_false_of_ne
    rintro rfl
    exact absurd (h.marks _ List.suffix_rfl) (by decide)
  · apply beq_false_of_ne
    rintro rfl
    exact absurd (h.marks _ List.suffix_rfl) (by decide)

/-- A line of a project with some answers. -/
def answeredLine (answers : Answers) (line : Text) : Text :=
  withSlug answers.projectSlug (answerMentions answers.enableScheduler line)

/-- The file that the script accepts is generated as a project with the answers has it. -/
theorem renders_templatizeDevspace {lines out : List Text} (hplain : ∀ line ∈ lines, Plain line)
    (hends : ∀ line ∈ lines, ∀ c ∈ line.getLast?, Text.isSpace c = false)
    (hout : templatizeDevspace lines = some out) :
  (jinja answers).Renders [] (fileText out)
    (fileText ((generated answers.enableScheduler lines).map (answeredLine answers)))
  := by
  rw [templatizeDevspace, Option.ite_none_right_eq_some] at hout
  rw [← Option.some.inj hout.2]
  apply renders_gate
  · rw [answeredLine]
    cases answers.enableScheduler <;> rfl
  · exact fun line hline => (hplain line hline).isDirective_eq_false
  · exact fun line _ => sameShape_templatizeLine line
  · exact fun line hline => printsAlways_templatizeLine (hplain line hline) (hends line hline)

/-- The file is generated with the scheduler as it was, up to empty lines at the end of its
block, and without it as if it did not mention the scheduler: without the scheduler blocks, and
without the word for it where it is mentioned along with the worker. -/
theorem render_templatizeDevspace (engine : (jinja answers).Engine) {lines out : List Text}
    (hplain : ∀ line ∈ lines, Plain line)
    (hends : ∀ line ∈ lines, ∀ c ∈ line.getLast?, Text.isSpace c = false)
    (hout : templatizeDevspace lines = some out) :
  (answers.enableScheduler = true → engine.render (fileText out) = some (fileText
      ((if EndsInside lines then lines.rdropWhile (· == []) else lines).map
        (withSlug answers.projectSlug)))) ∧
    (answers.enableScheduler = false → engine.render (fileText out) = some (fileText
      ((withoutScheduler [] lines).map fun line =>
        withSlug answers.projectSlug (answerMentions false line))))
  := by
  have hrender := engine.renders (renders_templatizeDevspace hplain hends hout)
  rw [hrender, generated]
  constructor
  · intro henable
    have hself : answeredLine answers = withSlug answers.projectSlug := by
      funext line
      rw [answeredLine, henable, answerMentions_true]
    rw [henable, if_pos rfl, hself]
  · intro henable
    have hanswered : answeredLine answers =
        fun line => withSlug answers.projectSlug (answerMentions false line) := by
      funext line
      rw [answeredLine, henable]
    rw [henable, if_neg Bool.false_ne_true, hanswered]

/-- A file with a scheduler. -/
def deployed : List Text :=
  ["    create_deployments worker scheduler".toList, "deployments:".toList, "  worker:".toList,
    "    image: worker_template".toList, [], "  scheduler:".toList, "    replicas: 1".toList]

/-- A project without the scheduler creates the deployment of the worker only. -/
theorem render_templatizeDevspace_deployed :
  ∃ out, templatizeDevspace deployed = some out ∧
    (jinja ⟨"scribe".toList, false⟩).engine.render (fileText out) = some (fileText
      ["    create_deployments worker".toList, "deployments:".toList, "  worker:".toList,
        "    image: scribe".toList])
  := by
  have hout : (templatizeDevspace deployed).isSome := by decide +kernel
  obtain ⟨out, hout⟩ := Option.isSome_iff_exists.mp hout
  refine ⟨out, hout, ?_⟩
  have hrender := (render_templatizeDevspace (jinja ⟨"scribe".toList, false⟩).engine (by decide)
    (by decide) hout).2 rfl
  rw [hrender]
  decide +kernel

end WorkerTemplate.Templatize
