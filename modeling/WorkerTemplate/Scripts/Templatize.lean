import WorkerTemplate.Text
import Mathlib.Data.List.DropRight

/-!
# The scheduler gate of the template script

The script that turns the repository into a template wraps the scheduler deployment of
`devspace.yaml` in a conditional. Its filter reads the file line by line and holds empty
lines back, so that they are printed on the other side of a directive. The gate is the
only change: the directives deleted, the file is the old one, and what stands between
them is what the file says of the scheduler.
-/

namespace WorkerTemplate.Templatize

/-- The line that opens a gated block. -/
def ifLine : Text := "\x7b%- if enable_scheduler %\x7d".toList

/-- The line that closes a gated block. -/
def endifLine : Text := "\x7b%- endif %\x7d".toList

/-- The top-level key the scheduler deployment stands under. -/
def deploymentsKey : Text := "deployments:".toList

/-- The key of the scheduler deployment. -/
def schedulerKey : Text := "  scheduler:".toList

/-- `/^[^ #]/`. -/
def isTopLevel : Text → Bool
  | [] => false
  | c :: _ => c != ' ' && c != '#'

/-- `/^  [^ #]/`. -/
def isSecondLevel : Text → Bool
  | ' ' :: ' ' :: t => isTopLevel t
  | _ => false

/-- Whether a line is one the filter inserts. -/
def isDirective (line : Text) : Bool := line == ifLine || line == endifLine

/-- The variables of the filter: the empty lines held back, and whether the filter is in
a gated block and under the deployments key. -/
structure State where
  blanks : ℕ
  inBlock : Bool
  inDeployments : Bool

/-- The filter before the first line: `awk` takes a variable not yet set as zero. -/
def State.initial : State := ⟨0, false, false⟩

/-- The lines `flush_blanks` prints, and the variables after it. -/
def State.flushBlanks (s : State) : State × List Text :=
  ({ s with blanks := 0 }, List.replicate s.blanks [])

/-- The filter on one line: the variables after it, and the lines it prints. -/
def rule (s : State) (line : Text) : State × List Text :=
  if line = [] then ({ s with blanks := s.blanks + 1 }, [])
  else
    let (s, closing) :=
      if s.inBlock && (isTopLevel line || isSecondLevel line) then
        ({ s with inBlock := false }, [endifLine])
      else (s, [])
    let s :=
      if isTopLevel line then { s with inDeployments := line == deploymentsKey } else s
    let (s, opening) :=
      if s.inDeployments && line == schedulerKey then
        ({ s with inBlock := true }, [ifLine])
      else (s, [])
    let (s, blank) := s.flushBlanks
    (s, closing ++ opening ++ blank ++ [line])

/-- What the filter prints after the last line. -/
def atEnd (s : State) : List Text :=
  if s.inBlock then [endifLine] else s.flushBlanks.2

/-- The lines the filter prints from a state of its variables. -/
def run : State → List Text → List Text
  | s, [] => atEnd s
  | s, line :: lines => (rule s line).2 ++ run (rule s line).1 lines

/-- The variables of the filter after some lines. -/
def after : State → List Text → State
  | s, [] => s
  | s, line :: lines => after (rule s line).1 lines

/-- The filter of the script. -/
def gate (lines : List Text) : List Text := run .initial lines

/-! ## What the gate is for -/

/-- Some lines without directives. -/
def withoutDirectives (lines : List Text) : List Text := lines.filter (fun l => !isDirective l)

/-- The directives among some lines. -/
def directives (lines : List Text) : List Text := lines.filter isDirective

/-- Whether a line ends a gated block. -/
def closes (line : Text) : Bool := isTopLevel line || isSecondLevel line

/-- Whether the last top-level key is the one of the deployments. -/
def underDeployments (lines : List Text) : Bool :=
  (lines.filter isTopLevel).getLast? == some deploymentsKey

/-- The nonempty ones among some lines. -/
def nonempty (lines : List Text) : List Text := lines.filter (· ≠ [])

/-- What the lines after `before` say of the scheduler: each scheduler key that lies under
the deployments key, with the lines up to the next one that ends a block. -/
def schedulerBlocks (before : List Text) : List Text → List (List Text)
  | [] => []
  | line :: lines =>
      if line = schedulerKey ∧ underDeployments before then
        nonempty (line :: lines.takeWhile (fun l => !closes l)) ::
          schedulerBlocks (before ++ [line]) lines
      else schedulerBlocks (before ++ [line]) lines

/-- The nonempty lines between each opening directive and the closing one after it. -/
def gatedBlocks : List Text → List (List Text)
  | [] => []
  | line :: lines =>
      if line = ifLine then nonempty (lines.takeWhile (· ≠ endifLine)) :: gatedBlocks lines
      else gatedBlocks lines

/-- The file ends inside the block of a scheduler key. -/
def EndsInside (lines : List Text) : Prop :=
  ∃ before rest, lines = before ++ schedulerKey :: rest ∧ underDeployments before ∧
    ∀ l ∈ rest, closes l = false

/-! ## One line -/

/-- The last top-level key after one more line. -/
theorem underDeployments_concat (before : List Text) (line : Text) :
  underDeployments (before ++ [line]) =
    if isTopLevel line then line == deploymentsKey else underDeployments before
  := by
  unfold underDeployments
  by_cases h : isTopLevel line
  · simp [h, List.filter_append]
  · simp [h, List.filter_append]

/-- A scheduler key ends the block before it. -/
theorem closes_schedulerKey : closes schedulerKey = true := by decide

theorem schedulerKey_ne_nil : schedulerKey ≠ [] := by decide

/-- Whether the filter opens a block at a line. -/
def opens (s : State) (line : Text) : Bool := s.inDeployments && line == schedulerKey

/-- The filter holds an empty line back. -/
@[simp] theorem rule_nil (s : State) : rule s [] = ({ s with blanks := s.blanks + 1 }, []) := rfl

/-- What the filter does at a line that is not empty: the block before it is closed, a
block is opened, the empty lines held back are printed, and then the line. -/
theorem rule_of_ne_nil (s : State) {line : Text} (h : line ≠ []) :
  rule s line =
    (⟨0, opens s line || s.inBlock && !closes line,
        if isTopLevel line then line == deploymentsKey else s.inDeployments⟩,
      (if s.inBlock && closes line then [endifLine] else []) ++
        (if opens s line then [ifLine] else []) ++ List.replicate s.blanks [] ++ [line])
  := by
  obtain ⟨blanks, inBlock, inDeployments⟩ := s
  by_cases hkey : line = schedulerKey
  · subst hkey
    cases inBlock <;> cases inDeployments <;> rfl
  · have hne : (line == schedulerKey) = false := by simpa using hkey
    unfold rule State.flushBlanks opens closes
    cases inBlock <;> cases htop : isTopLevel line <;> cases hsecond : isSecondLevel line <;>
      simp [h, hne]

/-- The filter is under the deployments key when the lines before are. -/
theorem inDeployments_rule {s : State} {before : List Text}
    (h : s.inDeployments = underDeployments before) (line : Text) :
  (rule s line).1.inDeployments = underDeployments (before ++ [line])
  := by
  rw [underDeployments_concat]
  by_cases hline : line = []
  · subst hline
    simpa [isTopLevel] using h
  · simp [rule_of_ne_nil s hline, h]

/-! ## Directives and other lines -/

/-- A line that is no directive is not the one that opens a block. -/
theorem ne_ifLine {line : Text} (h : isDirective line = false) : line ≠ ifLine := by
  rintro rfl
  exact absurd h (by decide)

/-- A line that is no directive is not the one that closes a block. -/
theorem ne_endifLine {line : Text} (h : isDirective line = false) : line ≠ endifLine := by
  rintro rfl
  exact absurd h (by decide)

/-- The empty lines held back and the line read are no directives. -/
theorem isDirective_of_mem_held {n : ℕ} {line l : Text} (hline : isDirective line = false)
    (h : l ∈ List.replicate n [] ++ [line]) :
  isDirective l = false
  := by
  rw [List.mem_append, List.mem_replicate, List.mem_singleton] at h
  obtain ⟨-, rfl⟩ | rfl := h
  · decide
  · apply hline

theorem withoutDirectives_append (ls ls' : List Text) :
  withoutDirectives (ls ++ ls') = withoutDirectives ls ++ withoutDirectives ls'
  := List.filter_append ..

theorem directives_append (ls ls' : List Text) :
  directives (ls ++ ls') = directives ls ++ directives ls'
  := List.filter_append ..

/-- Empty lines are not directives. -/
@[simp] theorem withoutDirectives_replicate (n : ℕ) :
  withoutDirectives (List.replicate n []) = List.replicate n []
  := List.filter_replicate_of_pos (by decide)

@[simp] theorem directives_replicate (n : ℕ) : directives (List.replicate n []) = [] :=
  List.filter_replicate_of_neg (by decide)

/-! ## The directives deleted -/

/-- What is printed at a line that is not empty, without the directives. -/
theorem withoutDirectives_rule (s : State) {line : Text} (h : line ≠ [])
    (hline : isDirective line = false) :
  withoutDirectives (rule s line).2 = List.replicate s.blanks [] ++ [line]
  := by
  rw [rule_of_ne_nil s h]
  simp only [withoutDirectives_append, withoutDirectives_replicate]
  have hif : withoutDirectives [ifLine] = [] := by decide
  have hendif : withoutDirectives [endifLine] = [] := by decide
  have hself : withoutDirectives [line] = [line] := by simp [withoutDirectives, hline]
  rw [hself, apply_ite withoutDirectives, apply_ite withoutDirectives, hif, hendif]
  simp [withoutDirectives]

/-- Empty lines at the end are dropped up to a line that is not empty. -/
theorem rdropWhile_append_cons {line : Text} (h : line ≠ []) (before lines : List Text) :
  (before ++ line :: lines).rdropWhile (· == []) =
    before ++ line :: lines.rdropWhile (· == [])
  := by
  simp only [List.rdropWhile, List.reverse_append, List.reverse_cons, List.append_assoc]
  rw [List.dropWhile_append]
  split
  case isTrue hall =>
    have hnil : lines.reverse.dropWhile (· == []) = [] := List.isEmpty_iff.mp hall
    rw [hnil, List.singleton_append, List.dropWhile_cons_of_neg (by simp [h])]
    simp
  case isFalse => simp

/-- Deleting the directives gives back the empty lines held back and the lines read,
except for the empty lines at the end of a file that ends in a block. -/
theorem withoutDirectives_run (s : State) {lines : List Text}
    (h : ∀ l ∈ lines, isDirective l = false) :
  withoutDirectives (run s lines) =
    if (after s lines).inBlock then
      (List.replicate s.blanks [] ++ lines).rdropWhile (· == [])
    else List.replicate s.blanks [] ++ lines
  := by
  induction lines generalizing s with
  | nil =>
      have hendif : withoutDirectives [endifLine] = [] := by decide
      cases hb : s.inBlock <;> simp [run, atEnd, after, State.flushBlanks, hb, hendif]
  | cons line lines ih =>
      have hrest : ∀ l ∈ lines, isDirective l = false :=
        fun l hl => h l (List.mem_cons_of_mem _ hl)
      rw [run, after, withoutDirectives_append, ih _ hrest]
      by_cases hline : line = []
      · -- the empty line is held back
        subst hline
        have hshift : List.replicate (s.blanks + 1) ([] : Text) ++ lines =
            List.replicate s.blanks [] ++ [] :: lines := by
          rw [List.replicate_succ', List.append_assoc, List.singleton_append]
        simp only [rule_nil, hshift]
        rfl
      · -- the line is printed after the ones held back
        have hzero : (rule s line).1.blanks = 0 := by rw [rule_of_ne_nil s hline]
        rw [withoutDirectives_rule s hline (h line List.mem_cons_self), hzero,
          rdropWhile_append_cons hline]
        split <;> simp

/-! ## The directives -/

/-- The directives printed at a line that is not empty. -/
theorem directives_rule (s : State) {line : Text} (h : line ≠ [])
    (hline : isDirective line = false) :
  directives (rule s line).2 =
    (if s.inBlock && closes line then [endifLine] else []) ++
      if opens s line then [ifLine] else []
  := by
  have hif : directives [ifLine] = [ifLine] := by decide
  have hendif : directives [endifLine] = [endifLine] := by decide
  have hself : directives [line] = [] := by simp [directives, hline]
  rw [rule_of_ne_nil s h]
  simp only [directives_append, directives_replicate, hself, List.append_nil]
  rw [apply_ite directives, apply_ite directives, hif, hendif]
  rfl

/-- A line at which a block is opened ends the one before. -/
theorem closes_of_opens {s : State} {line : Text} (h : opens s line = true) :
  closes line = true
  := by
  have hkey : line = schedulerKey := by
    simp only [opens, Bool.and_eq_true, beq_iff_eq] at h
    exact h.2
  rw [hkey]
  apply closes_schedulerKey

/-- The directives printed close the block the filter is in, and then alternate. -/
theorem directives_run (s : State) {lines : List Text}
    (h : ∀ l ∈ lines, isDirective l = false) :
  ∃ k, directives (run s lines) =
    (if s.inBlock then [endifLine] else []) ++
      (List.replicate k [ifLine, endifLine]).flatten
  := by
  induction lines generalizing s with
  | nil =>
      refine ⟨0, ?_⟩
      have hendif : directives [endifLine] = [endifLine] := by decide
      cases hb : s.inBlock <;> simp [run, atEnd, State.flushBlanks, hb, hendif]
  | cons line lines ih =>
      obtain ⟨k, hk⟩ := ih (rule s line).1 (fun l hl => h l (List.mem_cons_of_mem _ hl))
      rw [run, directives_append, hk]
      by_cases hline : line = []
      · subst hline
        exact ⟨k, rfl⟩
      · have hin : (rule s line).1.inBlock = (opens s line || s.inBlock && !closes line) := by
          rw [rule_of_ne_nil s hline]
        rw [directives_rule s hline (h line List.mem_cons_self), hin]
        by_cases hopen : opens s line
        · -- the block before is closed, and one more is opened
          refine ⟨k + 1, ?_⟩
          simp [hopen, closes_of_opens hopen, List.replicate_succ]
        · refine ⟨k, ?_⟩
          cases s.inBlock <;> cases closes line <;> simp [hopen]

/-! ## The blocks -/

/-- The lines held back and the line read, when they are printed in a block. -/
theorem nonempty_takeWhile_held {n : ℕ} {line : Text} (h : isDirective line = false)
    (ls : List Text) :
  nonempty ((List.replicate n [] ++ [line] ++ ls).takeWhile (· ≠ endifLine)) =
    nonempty [line] ++ nonempty (ls.takeWhile (· ≠ endifLine))
  := by
  have hall : ∀ l ∈ List.replicate n [] ++ [line], decide (l ≠ endifLine) :=
    fun l hl => decide_eq_true (ne_endifLine (isDirective_of_mem_held h hl))
  rw [List.takeWhile_append_of_pos hall]
  simp only [nonempty, List.filter_append, List.filter_replicate_of_neg, List.nil_append,
    ne_eq, not_true_eq_false, decide_false, Bool.false_eq_true, not_false_eq_true]

/-- What is printed in a block are the nonempty lines up to the next one that ends it. -/
theorem nonempty_takeWhile_run {s : State} (hs : s.inBlock = true) {lines : List Text}
    (h : ∀ l ∈ lines, isDirective l = false) :
  nonempty ((run s lines).takeWhile (· ≠ endifLine)) =
    nonempty (lines.takeWhile (fun l => !closes l))
  := by
  induction lines generalizing s with
  | nil => simp [run, atEnd, hs]
  | cons line lines ih =>
      have hrest : ∀ l ∈ lines, isDirective l = false :=
        fun l hl => h l (List.mem_cons_of_mem _ hl)
      by_cases hline : line = []
      · subst hline
        have hcloses : closes [] = false := by decide
        simp only [run, rule_nil, List.nil_append, List.takeWhile_cons, hcloses]
        apply ih (s := { s with blanks := s.blanks + 1 }) hs hrest
      · have hself := h line List.mem_cons_self
        by_cases hcloses : closes line
        · simp [run, rule_of_ne_nil s hline, hs, hcloses]
        · have hopen : opens s line = false := by
            simpa using mt closes_of_opens hcloses
          have hin : (rule s line).1.inBlock = true := by
            simp [rule_of_ne_nil s hline, hs, hcloses]
          have hprint : (rule s line).2 = List.replicate s.blanks [] ++ [line] := by
            simp [rule_of_ne_nil s hline, hs, hcloses, hopen]
          rw [run, hprint, nonempty_takeWhile_held hself, ih hin hrest,
            List.takeWhile_cons_of_pos (by simpa using hcloses)]
          simp [nonempty, hline]

/-- The lines printed before the directives of a line open no block. -/
theorem gatedBlocks_append_of_ne {ls : List Text} (h : ∀ l ∈ ls, l ≠ ifLine)
    (ls' : List Text) :
  gatedBlocks (ls ++ ls') = gatedBlocks ls'
  := by
  induction ls with
  | nil => rfl
  | cons l ls ih =>
      have hl : l ≠ ifLine := h l List.mem_cons_self
      rw [List.cons_append, gatedBlocks, if_neg hl]
      apply ih (fun l hl => h l (List.mem_cons_of_mem _ hl))

/-- The blocks printed are the ones of the scheduler keys. -/
theorem gatedBlocks_run {s : State} {before lines : List Text}
    (hs : s.inDeployments = underDeployments before)
    (h : ∀ l ∈ lines, isDirective l = false) :
  gatedBlocks (run s lines) = schedulerBlocks before lines
  := by
  induction lines generalizing s before with
  | nil =>
      have hend : gatedBlocks (atEnd s) = [] := by
        rw [← List.append_nil (atEnd s), gatedBlocks_append_of_ne]
        · rfl
        · unfold atEnd State.flushBlanks
          split
          · simp only [List.mem_singleton, forall_eq]
            decide
          · simp only [List.mem_replicate]
            rintro l ⟨-, rfl⟩
            decide
      apply hend
  | cons line lines ih =>
      have hrest : ∀ l ∈ lines, isDirective l = false :=
        fun l hl => h l (List.mem_cons_of_mem _ hl)
      have ih' := ih (inDeployments_rule hs line) hrest
      rw [schedulerBlocks, run]
      by_cases hline : line = []
      · subst hline
        rw [if_neg (fun hc => schedulerKey_ne_nil hc.1.symm)]
        apply ih'
      · have hself := h line List.mem_cons_self
        have hheld : ∀ l ∈ List.replicate s.blanks [] ++ [line], l ≠ ifLine :=
          fun l hl => ne_ifLine (isDirective_of_mem_held hself hl)
        have hclosing : ∀ l ∈ (if s.inBlock && closes line then [endifLine] else []),
            l ≠ ifLine := by
          split
          · simp only [List.mem_singleton, forall_eq]
            decide
          · simp
        by_cases hopen : opens s line
        · -- the line is a scheduler key under the deployments key
          have hkey : line = schedulerKey ∧ underDeployments before := by
            simp only [opens, Bool.and_eq_true, beq_iff_eq, hs] at hopen
            exact ⟨hopen.2, hopen.1⟩
          have hin : (rule s line).1.inBlock = true := by
            simp [rule_of_ne_nil s hline, hopen]
          have hprint : (rule s line).2 =
              (if s.inBlock && closes line then [endifLine] else []) ++
                ifLine :: (List.replicate s.blanks [] ++ [line]) := by
            simp [rule_of_ne_nil s hline, hopen]
          rw [if_pos hkey, hprint, List.append_assoc, gatedBlocks_append_of_ne hclosing,
            List.cons_append, gatedBlocks, if_pos rfl, nonempty_takeWhile_held hself,
            nonempty_takeWhile_run hin hrest, gatedBlocks_append_of_ne hheld, ih']
          simp [nonempty, hline]
        · have hkey : ¬ (line = schedulerKey ∧ underDeployments before) := by
            rintro ⟨hkey, hunder⟩
            apply hopen (by simp [opens, hs, hkey, hunder])
          have hprint : (rule s line).2 =
              (if s.inBlock && closes line then [endifLine] else []) ++
                (List.replicate s.blanks [] ++ [line]) := by
            simp [rule_of_ne_nil s hline, hopen]
          rw [if_neg hkey, hprint, List.append_assoc, gatedBlocks_append_of_ne hclosing,
            gatedBlocks_append_of_ne hheld, ih']

/-! ## The end of the file -/

/-- The filter is in a block after some lines when it was in one that none of them ends,
or when one of them is a scheduler key whose block none of the later ones ends. -/
theorem inBlock_after_iff {s : State} {before : List Text} (lines : List Text)
    (hs : s.inDeployments = underDeployments before) :
  (after s lines).inBlock = true ↔
    (s.inBlock = true ∧ ∀ l ∈ lines, closes l = false) ∨
      ∃ between rest, lines = between ++ schedulerKey :: rest ∧
        underDeployments (before ++ between) ∧ ∀ l ∈ rest, closes l = false
  := by
  induction lines generalizing s before with
  | nil => simp [after]
  | cons line lines ih =>
      rw [after, ih (inDeployments_rule hs line)]
      have hin : (rule s line).1.inBlock = true ↔
          (line = schedulerKey ∧ underDeployments before) ∨
            s.inBlock = true ∧ closes line = false := by
        by_cases hline : line = []
        · subst hline
          have hcloses : closes [] = false := by decide
          simp [hcloses, schedulerKey_ne_nil.symm]
        · simp [rule_of_ne_nil s hline, opens, ← hs, and_comm]
      constructor
      · rintro (⟨hblock, hrest⟩ | ⟨between, rest, rfl, hunder, hrest⟩)
        · obtain ⟨rfl, hunder⟩ | ⟨hblock, hline⟩ := hin.mp hblock
          · exact .inr ⟨[], lines, rfl, by simpa using hunder, hrest⟩
          · exact .inl ⟨hblock, List.forall_mem_cons.mpr ⟨hline, hrest⟩⟩
        · refine .inr ⟨line :: between, rest, rfl, ?_, hrest⟩
          simpa using hunder
      · rintro (⟨hblock, hrest⟩ | ⟨between, rest, heq, hunder, hrest⟩)
        · obtain ⟨hline, hrest⟩ := List.forall_mem_cons.mp hrest
          exact .inl ⟨hin.mpr (.inr ⟨hblock, hline⟩), hrest⟩
        · cases between with
          | nil =>
              obtain ⟨rfl, rfl⟩ := List.cons.inj heq
              exact .inl ⟨hin.mpr (.inl ⟨rfl, by simpa using hunder⟩), hrest⟩
          | cons head between =>
              obtain ⟨rfl, rfl⟩ := List.cons.inj heq
              exact .inr ⟨between, rest, rfl, by simpa using hunder, hrest⟩

/-- The filter ends in a block when the file does. -/
theorem inBlock_after_initial (lines : List Text) :
  (after .initial lines).inBlock = true ↔ EndsInside lines
  := by
  have hinit : State.initial.inDeployments = underDeployments [] := rfl
  rw [inBlock_after_iff lines hinit]
  simp [EndsInside, State.initial]

/-! ## The gate -/

/-- The gate changes nothing but the gate: without its directives the file is the old one,
up to empty lines at the end of one that ends inside a block; the directives alternate;
and the blocks between them are the ones of the scheduler keys under the deployments. -/
theorem gate_correct {lines : List Text} (h : ∀ l ∈ lines, l ≠ ifLine ∧ l ≠ endifLine) :
  (EndsInside lines →
    withoutDirectives (gate lines) = lines.rdropWhile (· == [])) ∧
  (¬ EndsInside lines → withoutDirectives (gate lines) = lines) ∧
  (∃ k, directives (gate lines) = (List.replicate k [ifLine, endifLine]).flatten) ∧
  gatedBlocks (gate lines) = schedulerBlocks [] lines
  := by
  have hlines : ∀ l ∈ lines, isDirective l = false := by
    intro l hl
    obtain ⟨hif, hendif⟩ := h l hl
    simp [isDirective, hif, hendif]
  have hdelete := withoutDirectives_run .initial hlines
  refine ⟨fun hend => ?_, fun hend => ?_, ?_, ?_⟩
  · rw [gate, hdelete, if_pos ((inBlock_after_initial lines).mpr hend)]
    rfl
  · rw [gate, hdelete, if_neg (mt (inBlock_after_initial lines).mp hend)]
    rfl
  · obtain ⟨k, hk⟩ := directives_run .initial hlines
    exact ⟨k, hk⟩
  · apply gatedBlocks_run rfl hlines

/-- A file that ends inside the block of its scheduler key: the empty line before the key
is printed after the directive, and the one at the end is dropped. -/
theorem gate_correct_ends_inside :
  withoutDirectives (gate [deploymentsKey, [], schedulerKey, []]) =
    [deploymentsKey, [], schedulerKey] ∧
  gatedBlocks (gate [deploymentsKey, [], schedulerKey, []]) = [[schedulerKey]]
  := by
  have hlines : ∀ l ∈ [deploymentsKey, [], schedulerKey, []], l ≠ ifLine ∧ l ≠ endifLine := by
    decide
  have hend : EndsInside [deploymentsKey, [], schedulerKey, []] :=
    ⟨[deploymentsKey, []], [[]], rfl, by decide, by decide⟩
  obtain ⟨hdelete, -, -, hblocks⟩ := gate_correct hlines
  exact ⟨(hdelete hend).trans (by decide), hblocks.trans (by decide)⟩

end WorkerTemplate.Templatize
