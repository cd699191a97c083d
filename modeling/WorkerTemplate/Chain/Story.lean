import WorkerTemplate.Chain.Announcements

/-!
# The events of a chain occur in order

The worker that leads has committed the latest change whenever it is about to announce one, so
its events occur in the order of the changes.  Only a worker that trails announces a change that
is not the latest one, and that change is a retry.
-/

namespace WorkerTemplate

open Statuses

/-- The texts of the statuses are different. -/
theorem TaskStatus.value_injective :
  Function.Injective TaskStatus.value
  := by
  intro status status' h
  revert h
  cases status <;> cases status' <;> decide

/-- No change is later than the one at a time. -/
def IsLatest (i : UUID) (first : TaskStatus) (n : ℕ) (h : List Entry) : Prop :=
  (∀ t text, ∀ m ∈ lastChange i first t text h, m ≤ n) ∧
    ∀ a ∈ announcements i first h, ∀ m ∈ a.change, m ≤ n

/-- What a worker has told, and has still to tell. -/
def Part.Tells (i : UUID) (first : TaskStatus) (t : ℕ) (h : List Entry) : Part → Prop
  | .leads lead =>
      (lead.telling ≠ .nothing → ∃ n,
          lastChange i first t lead.row.status.value h = some n ∧ IsLatest i first n h) ∧
        (lead.due = true → lead.telling ≠ .nothing ∧ lead.row.status = .retrying) ∧
        (lead.telling = .told → lead.row.status ≠ .retrying →
          ∃ a, (steadyAnnouncements i first h).head? = some a ∧
            a.event.status = lead.row.status.value)
  | .trails _ _ telling =>
      telling = .due → ∃ n, lastChange i first t TaskStatus.retrying.value h = some n

/-- The events announce changes that have been committed, and they occur in order, except that a
retry may be announced late.  A row is running because the leading worker has committed that, or
has been so from the beginning. -/
structure Chain.Story (chain : Chain) (first : TaskStatus) (parts : List Part) (w : Cluster) :
    Prop where
  announced : ∀ a ∈ announcements chain.execution first w.history, ∃ n, a.change = some n
  ordered : (announcements chain.execution first w.history).Pairwise
    (fun later earlier => ¬ later.IsRetrying → later.Follows earlier)
  tells : ∀ (t : ℕ) (part : Part), parts[t]? = some part →
    part.Tells chain.execution first t w.history
  running : ∀ row, w.db.execution? chain.execution = some row → row.status = .running →
    (∃ (t : ℕ) (lead : Lead), parts[t]? = some (.leads lead) ∧ lead.telling ≠ .nothing) ∨
      first = .running ∧ IsLatest chain.execution first 0 w.history

section History

variable {i : UUID} {first : TaskStatus} {t n : ℕ} {e : Entry} {h : List Entry}

/-- An operation that neither commits a status nor emits an event leaves the latest change. -/
theorem isLatest_cons (hwrote : wrote i e.effects = none)
    (hop : ∀ room event, e.op ≠ .emit room event) :
  IsLatest i first n (e :: h) ↔ IsLatest i first n h
  := by
  have hlast (t : ℕ) (text : String) :
      lastChange i first t text (e :: h) = lastChange i first t text h :=
    lastChange_cons (fun _ => hwrote)
  simp only [IsLatest, hlast, announcements_cons hop]

/-- An operation that neither commits a status nor emits an event leaves what is to be told. -/
theorem Part.tells_cons {part : Part} (hwrote : wrote i e.effects = none)
    (hop : ∀ room event, e.op ≠ .emit room event) :
  part.Tells i first t (e :: h) ↔ part.Tells i first t h
  := by
  have hlast (t : ℕ) (text : String) :
      lastChange i first t text (e :: h) = lastChange i first t text h :=
    lastChange_cons (fun _ => hwrote)
  have hsteady : steadyAnnouncements i first (e :: h) = steadyAnnouncements i first h := by
    rw [steadyAnnouncements, steadyAnnouncements, announcements_cons hop]
  cases part with
  | leads lead =>
      simp only [Tells, isLatest_cons hwrote hop, hlast, hsteady]
  | trails k mark telling =>
      simp only [Tells, hlast]

/-- Every thread finds the first status of the row, if no change. -/
theorem exists_lastChange_first (i : UUID) (first : TaskStatus) (t : ℕ) (h : List Entry) :
  ∃ n, lastChange i first t first.value h = some n
  := by
  induction h with
  | nil => exact ⟨0, if_pos rfl⟩
  | cons e h ih =>
      rw [lastChange]
      split
      · exact ⟨_, rfl⟩
      · apply ih

/-- A change is the latest one when it is made. -/
theorem isLatest_self (hop : ∀ room event, e.op ≠ .emit room event) :
  IsLatest i first (h.length + 1) (e :: h)
  := by
  constructor
  · intro t text m hm
    apply le_of_lastChange hm
  · intro a ha m hm
    rw [announcements_cons hop] at ha
    exact Nat.le_succ_of_le (le_of_mem_announcements ha hm)

/-- An event about a change leaves the latest change. -/
theorem isLatest_emit (hlatest : IsLatest i first n h) {room : Text} {event : TaskEvent}
    (r : Bool) :
  IsLatest i first n
    ({ thread := t, op := .emit room event, answer := r, effects := [] } :: h)
  := by
  constructor
  · intro t' text m hm
    rw [lastChange_cons (fun _ => rfl)] at hm
    apply hlatest.1 t' text m hm
  · rw [announcements_emit]
    intro a ha m hm
    rcases List.mem_cons.mp ha with rfl | ha
    · apply hlatest.1 t _ m hm
    · apply hlatest.2 a ha m hm

end History

namespace Chain.Story

variable {chain : Chain} {first : TaskStatus} {parts : List Part} {part part' : Part} {t : ℕ}
  {w w' : Cluster} {e : Entry}

/-- One operation is added to the history. -/
theorem cons (hstory : chain.Story first parts w) (hhistory : w'.history = e :: w.history)
    (hannounced : ∀ a ∈ announcements chain.execution first (e :: w.history),
      ∃ n, a.change = some n)
    (hordered : (announcements chain.execution first (e :: w.history)).Pairwise
      (fun later earlier => ¬ later.IsRetrying → later.Follows earlier))
    (hothers : ∀ (t' : ℕ) (part₁ : Part), t' ≠ t → parts[t']? = some part₁ →
      part₁.Tells chain.execution first t' w.history →
        part₁.Tells chain.execution first t' (e :: w.history))
    (htells : part'.Tells chain.execution first t (e :: w.history))
    (hrunning : ∀ row, w'.db.execution? chain.execution = some row → row.status = .running →
      (∃ (t' : ℕ) (lead : Lead), (parts.set t part')[t']? = some (.leads lead) ∧
        lead.telling ≠ .nothing) ∨
      first = .running ∧ IsLatest chain.execution first 0 (e :: w.history)) :
  chain.Story first (parts.set t part') w'
  := by
  constructor
  · rw [hhistory]
    apply hannounced
  · rw [hhistory]
    apply hordered
  · rw [hhistory]
    intro t' part₁ hpart₁
    rcases Machine.state_of_set hpart₁ with ⟨rfl, rfl⟩ | ⟨hne, hpart₁⟩
    · apply htells
    · apply hothers t' part₁ hne hpart₁ (hstory.tells t' part₁ hpart₁)
  · rw [hhistory]
    apply hrunning

/-- The worker that has committed that the row is running, if there is one, still leads. -/
theorem running_set (hstory : chain.Story first parts w) (hpart : parts[t]? = some part)
    (hkeeps : ∀ lead, part = .leads lead → lead.telling ≠ .nothing →
      ∃ lead', part' = .leads lead' ∧ lead'.telling ≠ .nothing)
    (hlatest : IsLatest chain.execution first 0 w.history →
      IsLatest chain.execution first 0 w'.history) {row : TaskExecution}
    (hrow : w.db.execution? chain.execution = some row) (hstatus : row.status = .running) :
  (∃ (t' : ℕ) (lead : Lead), (parts.set t part')[t']? = some (.leads lead) ∧
      lead.telling ≠ .nothing) ∨
    first = .running ∧ IsLatest chain.execution first 0 w'.history
  := by
  rcases hstory.running row hrow hstatus with ⟨t', lead, hlead, htelling⟩ | ⟨hfirst, hzero⟩
  · apply Or.inl
    by_cases hne : t' = t
    · obtain rfl := hne
      obtain ⟨lead', rfl, htelling'⟩ :=
        hkeeps lead (Option.some_injective _ (hpart.symm.trans hlead)) htelling
      have hlt := (List.getElem?_eq_some_iff.mp hlead).1
      exact ⟨t', lead', List.getElem?_set_self hlt, htelling'⟩
    · use t', lead
      rw [List.getElem?_set_ne (Ne.symm hne)]
      exact ⟨hlead, htelling⟩
  · exact Or.inr ⟨hfirst, hlatest hzero⟩

/-- An operation that neither commits a status nor emits an event, of a worker that goes on as it
was or is about to send a retry. -/
theorem quiet (hstory : chain.Story first parts w) (hpart : parts[t]? = some part)
    (hhistory : w'.history = e :: w.history)
    (hrow : w'.db.execution? chain.execution = w.db.execution? chain.execution)
    (hwrote : wrote chain.execution e.effects = none)
    (hop : ∀ room event, e.op ≠ .emit room event)
    (htells : part.Tells chain.execution first t w.history →
      part'.Tells chain.execution first t w.history)
    (hkeeps : (∀ lead, part = .leads lead → lead.telling ≠ .nothing →
        ∃ lead', part' = .leads lead' ∧ lead'.telling ≠ .nothing) ∨
      ∀ row, w.db.execution? chain.execution = some row → row.status ≠ .running) :
  chain.Story first (parts.set t part') w'
  := by
  apply hstory.cons hhistory
  · rw [announcements_cons hop]
    apply hstory.announced
  · rw [announcements_cons hop]
    apply hstory.ordered
  · intro t' part₁ _ _ htells₁
    apply (Part.tells_cons hwrote hop).mpr htells₁
  · apply (Part.tells_cons hwrote hop).mpr (htells (hstory.tells t part hpart))
  · rw [hrow, ← hhistory]
    intro row hrow hstatus
    rcases hkeeps with hkeeps | hne
    · apply hstory.running_set hpart hkeeps _ hrow hstatus
      rw [hhistory, isLatest_cons hwrote hop]
      exact id
    · exact absurd hstatus (hne row hrow)

/-- Such an operation of a leading worker, which still has what it had to tell. -/
theorem leads_on (hstory : chain.Story first parts w) {lead lead' : Lead}
    (hpart : parts[t]? = some (.leads lead)) (hhistory : w'.history = e :: w.history)
    (hrow : w'.db.execution? chain.execution = w.db.execution? chain.execution)
    (hwrote : wrote chain.execution e.effects = none)
    (hop : ∀ room event, e.op ≠ .emit room event) (hsame : lead'.row = lead.row)
    (hdue : lead'.due = lead.due) (htelling : lead'.telling = lead.telling) :
  chain.Story first (parts.set t (.leads lead')) w'
  := by
  apply hstory.quiet hpart hhistory hrow hwrote hop
  · rw [Part.Tells, Part.Tells, hsame, hdue, htelling]
    exact id
  · apply Or.inl
    rintro _ ⟨⟩ hsome
    exact ⟨lead', rfl, htelling ▸ hsome⟩

/-- Such an operation of a trailing worker, which still has what it had to tell. -/
theorem trails_on (hstory : chain.Story first parts w) {k : ℕ} {mark mark' : Mark}
    {telling : Telling} (hpart : parts[t]? = some (.trails k mark telling))
    (hhistory : w'.history = e :: w.history)
    (hrow : w'.db.execution? chain.execution = w.db.execution? chain.execution)
    (hwrote : wrote chain.execution e.effects = none)
    (hop : ∀ room event, e.op ≠ .emit room event) :
  chain.Story first (parts.set t (.trails k mark' telling)) w'
  := by
  apply hstory.quiet hpart hhistory hrow hwrote hop
  · exact id
  · apply Or.inl
    rintro lead ⟨⟩

/-- After a commit of the leading worker the status it leaves is the latest change. -/
theorem latest_of_commits (hstory : chain.Story first parts w) {lead : Lead}
    (hpart : parts[t]? = some (.leads lead)) (hthread : e.thread = t)
    (hop : ∀ room event, e.op ≠ .emit room event)
    (hrow : w.db.execution? chain.execution = some lead.row)
    (hstatus : lead.view.status = (wrote chain.execution e.effects).getD lead.row.status)
    (hlone : ∀ (t' : ℕ) (lead' : Lead), parts[t']? = some (.leads lead') → t' = t)
    (hcommits : lead.Commits) :
  ∃ n, lastChange chain.execution first t lead.view.status.value (e :: w.history) = some n ∧
    IsLatest chain.execution first n (e :: w.history)
  := by
  cases hwrote : wrote chain.execution e.effects with
  | some status =>
      rw [hwrote, Option.getD_some] at hstatus
      rw [hstatus]
      exact ⟨_, lastChange_self hthread hwrote, isLatest_self hop⟩
  | none =>
      rw [hwrote, Option.getD_none] at hstatus
      rw [lastChange_cons (fun _ => hwrote)]
      simp only [isLatest_cons hwrote hop]
      by_cases htelling : lead.telling = .nothing
      · have hrunning := hcommits.1 htelling
        rw [hrunning] at hstatus ⊢
        rcases hstory.running lead.row hrow hstatus.symm with
          ⟨t', lead', hlead', htelling'⟩ | ⟨rfl, hzero⟩
        · obtain rfl := hlone t' lead' hlead'
          cases hpart.symm.trans hlead'
          exact absurd htelling htelling'
        · obtain ⟨n, hn⟩ := exists_lastChange_first chain.execution .running t w.history
          obtain rfl := Nat.le_zero.mp (hzero.1 t _ n hn)
          exact ⟨0, hn, hzero⟩
      · rw [hstatus]
        apply (hstory.tells t _ hpart).1 htelling

/-- The leading worker commits. -/
theorem commits (hstory : chain.Story first parts w) {lead : Lead}
    (hpart : parts[t]? = some (.leads lead)) (hhistory : w'.history = e :: w.history)
    (hthread : e.thread = t) (hop : ∀ room event, e.op ≠ .emit room event)
    (hrow : w.db.execution? chain.execution = some lead.row)
    (hstatus : lead.view.status = (wrote chain.execution e.effects).getD lead.row.status)
    (hothers : ∀ (t' : ℕ) (part : Part), t' ≠ t → parts[t']? = some part →
      ∃ k mark telling, part = .trails k mark telling)
    (hcommits : lead.Commits) :
  chain.Story first (parts.set t (.leads lead.commit)) w'
  := by
  have hlone (t' : ℕ) (lead' : Lead) (hlead' : parts[t']? = some (.leads lead')) : t' = t := by
    by_contra hne
    obtain ⟨k, mark, telling, heq⟩ := hothers t' _ hne hlead'
    cases heq
  apply hstory.cons hhistory
  · rw [announcements_cons hop]
    apply hstory.announced
  · rw [announcements_cons hop]
    apply hstory.ordered
  · intro t' part₁ hne hpart₁ htells₁
    obtain ⟨k, mark, telling, rfl⟩ := hothers t' part₁ hne hpart₁
    rw [Part.Tells, lastChange_cons]
    · apply htells₁
    · intro hthread'
      exact absurd (hthread'.symm.trans hthread) hne
  · refine ⟨fun _ => hstory.latest_of_commits hpart hthread hop hrow hstatus hlone hcommits,
      ?_, ?_⟩
    · intro hdue
      have hnoted : lead.noted = true := hdue
      rcases hcommits.2 with ⟨hnone, -⟩ | ⟨-, -, -, hretrying, -⟩
      · rw [hnoted] at hnone
        cases hnone
      · exact ⟨by rintro ⟨⟩, hretrying⟩
    · rintro ⟨⟩
  · intro row _ _
    have hlt := (List.getElem?_eq_some_iff.mp hpart).1
    exact Or.inl ⟨t, lead.commit, List.getElem?_set_self hlt, by rintro ⟨⟩⟩

/-- A worker announces a change that it has committed. -/
theorem announced_emit (hstory : chain.Story first parts w) {room : Text} {event : TaskEvent}
    (r : Bool) {n : ℕ}
    (hlast : lastChange chain.execution first t event.status w.history = some n) :
  ∀ a ∈ announcements chain.execution first
      ({ thread := t, op := .emit room event, answer := r, effects := [] } :: w.history),
    ∃ n, a.change = some n
  := by
  rw [announcements_emit, hlast]
  rintro a ha
  rcases List.mem_cons.mp ha with rfl | ha
  · exact ⟨n, rfl⟩
  · apply hstory.announced a ha

/-- The leading worker announces the latest change. -/
theorem emit_leads (hstory : chain.Story first parts w) {lead : Lead}
    (hpart : parts[t]? = some (.leads lead)) {room : Text} {event : TaskEvent} (r : Bool)
    (hhistory : w'.history
      = { thread := t, op := .emit room event, answer := r, effects := [] } :: w.history)
    (hrow : w'.db.execution? chain.execution = w.db.execution? chain.execution)
    (hothers : ∀ (t' : ℕ) (part : Part), t' ≠ t → parts[t']? = some part →
      ∃ k mark telling, part = .trails k mark telling)
    (hdue : lead.telling = .due) (hstatus : event.status = lead.row.status.value) :
  chain.Story first (parts.set t (.leads { lead with telling := .told })) w'
  := by
  have hsome : lead.telling ≠ .nothing := by
    rw [hdue]
    rintro ⟨⟩
  obtain ⟨hlatest, hretries, -⟩ := hstory.tells t _ hpart
  obtain ⟨n, hlast, hlatest⟩ := hlatest hsome
  rw [← hstatus] at hlast
  apply hstory.cons hhistory
  · apply hstory.announced_emit r hlast
  · rw [announcements_emit, hlast, List.pairwise_cons]
    refine ⟨?_, hstory.ordered⟩
    rintro a ha - m hm _ ⟨⟩
    apply hlatest.2 a ha m hm
  · intro t' part₁ hne hpart₁ htells₁
    obtain ⟨k, mark, telling, rfl⟩ := hothers t' part₁ hne hpart₁
    rw [Part.Tells, lastChange_cons (fun _ => rfl)]
    apply htells₁
  · refine ⟨?_, fun hdue => ⟨by rintro ⟨⟩, (hretries hdue).2⟩, ?_⟩
    · intro _
      rw [lastChange_cons (fun _ => rfl), ← hstatus]
      exact ⟨n, hlast, isLatest_emit hlatest r⟩
    · intro _ hsteady
      refine ⟨{ event, change := lastChange chain.execution first t event.status w.history },
        ?_, hstatus⟩
      rw [steadyAnnouncements, announcements_emit, List.filter_cons_of_pos]
      · rfl
      · have hne : event.status ≠ TaskStatus.retrying.value := by
          rw [hstatus]
          exact fun heq => hsteady (TaskStatus.value_injective heq)
        apply decide_eq_true hne
  · rw [hrow]
    intro row hrow hstatus
    rw [← hhistory]
    apply hstory.running_set hpart _ _ hrow hstatus
    · rintro _ ⟨⟩ -
      exact ⟨_, rfl, by rintro ⟨⟩⟩
    · rw [hhistory]
      intro hzero
      apply isLatest_emit hzero r

/-- A worker that trails announces its retry. -/
theorem emit_trails (hstory : chain.Story first parts w) {k : ℕ} {mark : Mark}
    (hpart : parts[t]? = some (.trails k mark .due)) {room : Text} {event : TaskEvent} (r : Bool)
    (hhistory : w'.history
      = { thread := t, op := .emit room event, answer := r, effects := [] } :: w.history)
    (hrow : w'.db.execution? chain.execution = w.db.execution? chain.execution)
    (hstatus : event.status = TaskStatus.retrying.value) :
  chain.Story first (parts.set t (.trails k mark .told)) w'
  := by
  obtain ⟨n, hlast⟩ := hstory.tells t _ hpart rfl
  rw [← hstatus] at hlast
  have hsteady : steadyAnnouncements chain.execution first
      ({ thread := t, op := .emit room event, answer := r, effects := [] } :: w.history)
        = steadyAnnouncements chain.execution first w.history := by
    rw [steadyAnnouncements, announcements_emit, List.filter_cons_of_neg]
    · rfl
    · rw [decide_eq_true_eq, not_not]
      apply hstatus
  apply hstory.cons hhistory
  · apply hstory.announced_emit r hlast
  · rw [announcements_emit, List.pairwise_cons]
    refine ⟨?_, hstory.ordered⟩
    intro a _ hretrying
    exact absurd hstatus hretrying
  · intro t' part₁ hne hpart₁ htells₁
    cases part₁ with
    | trails k' mark' telling' =>
        rw [Part.Tells, lastChange_cons (fun _ => rfl)]
        apply htells₁
    | leads lead =>
        obtain ⟨hlatest, hrest⟩ := htells₁
        rw [Part.Tells, hsteady]
        refine ⟨?_, hrest⟩
        intro hsome
        obtain ⟨n', hlast', hlatest⟩ := hlatest hsome
        rw [lastChange_cons (fun _ => rfl)]
        exact ⟨n', hlast', isLatest_emit hlatest r⟩
  · rintro ⟨⟩
  · rw [hrow]
    intro row hrow hstatus
    rw [← hhistory]
    apply hstory.running_set hpart _ _ hrow hstatus
    · rintro lead ⟨⟩
    · rw [hhistory]
      intro hzero
      apply isLatest_emit hzero r

/-- A worker that has taken the message has nothing to tell. -/
theorem append (hstory : chain.Story first parts w) (hhistory : w'.history = w.history)
    (hdb : w'.db = w.db) (row : TaskExecution) :
  chain.Story first (parts ++ [.leads (.rest row none .nothing)]) w'
  := by
  constructor
  · rw [hhistory]
    apply hstory.announced
  · rw [hhistory]
    apply hstory.ordered
  · rw [hhistory]
    intro t part hpart
    rcases Machine.state_of_concat hpart with hpart | ⟨-, rfl⟩
    · apply hstory.tells t part hpart
    · refine ⟨fun hsome => absurd rfl hsome, ?_, ?_⟩
      · rintro ⟨⟩
      · rintro ⟨⟩
  · rw [hhistory, hdb]
    intro row' hrow hstatus
    apply (hstory.running row' hrow hstatus).imp_left
    rintro ⟨t, lead, hlead, htelling⟩
    use t, lead
    rw [List.getElem?_append_left (List.getElem?_eq_some_iff.mp hlead).1]
    exact ⟨hlead, htelling⟩

end Chain.Story

/-! ### Operations -/

namespace Chain.Invariant

variable {chain : Chain} {first : TaskStatus} {n t : ℕ} {row : TaskExecution} {parts : List Part}
  {w w' : Cluster} {part' : Part}

/-- The status that the leading worker has given the row is the one that its transaction commits. -/
theorem status_view (h : chain.Invariant n row parts w) {lead : Lead}
    (hpart : parts[t]? = some (.leads lead)) :
  lead.view.status = (wrote chain.execution (w.txn t)).getD lead.row.status
  := by
  have hagrees : lead.Agrees chain n row w.db (w.txn t) := h.agrees t _ hpart
  have hview := Statuses.status_view (i := chain.execution) w.db (w.txn t)
  rw [hagrees.view, h.records.execution, ← hagrees.row] at hview
  apply Option.some_injective _ hview

/-- An operation of the leading worker keeps the events in order. -/
theorem story_leads (h : chain.Invariant n row parts w) (hstory : chain.Story first parts w)
    {lead : Lead} (hpart : parts[t]? = some (.leads lead)) {o : Op} {r : o.Answer}
    (hallows : (Part.leads lead).Allows chain o) (hperforms : w.Performs Example.calm t o r w')
    (hmoves : (Part.leads lead).Moves chain o r part') :
  chain.Story first (parts.set t part') w'
  := by
  have hagrees : lead.Agrees chain n row w.db (w.txn t) := h.agrees t _ hpart
  have hrow : w.db.execution? chain.execution = some lead.row := by
    rw [hagrees.row]
    apply h.records.execution
  have hothers := fun (t' : ℕ) (part : Part) (hne : t' ≠ t) (hpart' : parts[t']? = some part) =>
    h.trails_of_leads hpart hne hpart'
  cases hperforms with
  | opens =>
      obtain rfl := hmoves
      refine hstory.leads_on hpart rfl rfl rfl ?_ rfl rfl rfl
      rintro room event ⟨⟩
  | closes =>
      obtain rfl := hmoves
      refine hstory.leads_on hpart rfl rfl rfl ?_ rfl rfl rfl
      rintro room event ⟨⟩
  | answers free answers =>
      obtain ⟨a, lead', -, rfl, hlead⟩ := hmoves
      obtain ⟨hsame, -, hdue, htelling⟩ := hlead.same
      refine hstory.leads_on hpart rfl rfl rfl ?_ hsame hdue htelling
      rintro room event ⟨⟩
  | fails failures => exact absurd failures id
  | commits =>
      obtain ⟨-, rfl⟩ := hmoves
      refine hstory.commits hpart (Cluster.history_record ..) rfl ?_ hrow (h.status_view hpart)
        hothers hallows.2
      rintro room event ⟨⟩
  | lost failures => exact absurd failures id
  | applied failures => exact absurd failures id
  | now time =>
      obtain rfl := hmoves
      refine hstory.leads_on hpart rfl rfl rfl ?_ rfl rfl rfl
      rintro room event ⟨⟩
  | accepts =>
      obtain ⟨-, rfl⟩ := hmoves
      obtain ⟨hlatest, hretries, -⟩ := hstory.tells t _ hpart
      obtain ⟨hsome, hretrying⟩ := hretries hallows.1
      refine hstory.quiet hpart rfl rfl rfl ?_ ?_ ?_
      · rintro room event ⟨⟩
      · rintro - -
        obtain ⟨n, hlast, -⟩ := hlatest hsome
        rw [hretrying] at hlast
        exact ⟨n, hlast⟩
      · apply Or.inr
        intro row' hrow' hrunning
        cases hrow.symm.trans hrow'
        rw [hretrying] at hrunning
        cases hrunning
  | rejects rejections => exact absurd rejections id
  | emits r =>
      obtain rfl := hmoves
      exact hstory.emit_leads hpart r rfl rfl hothers hallows.1 hallows.2
  | runs =>
      obtain ⟨-, rfl⟩ := hmoves
      refine hstory.leads_on hpart rfl rfl rfl ?_ rfl rfl rfl
      rintro room event ⟨⟩

/-- An operation of a trailing worker keeps the events in order. -/
theorem story_trails (h : chain.Invariant n row parts w) (hstory : chain.Story first parts w)
    {k : ℕ} {mark : Mark} {telling : Telling} (hpart : parts[t]? = some (.trails k mark telling))
    {o : Op} {r : o.Answer} (hallows : (Part.trails k mark telling).Allows chain o)
    (hperforms : w.Performs Example.calm t o r w')
    (hmoves : (Part.trails k mark telling).Moves chain o r part') :
  chain.Story first (parts.set t part') w'
  := by
  cases hperforms with
  | opens => exact absurd hallows id
  | closes =>
      obtain rfl := hmoves
      refine hstory.trails_on hpart rfl rfl rfl ?_
      rintro room event ⟨⟩
  | answers free answers =>
      obtain ⟨a, mark', -, rfl, -⟩ := hmoves
      refine hstory.trails_on hpart rfl rfl rfl ?_
      rintro room event ⟨⟩
  | fails failures => exact absurd failures id
  | commits =>
      obtain ⟨-, rfl⟩ := hmoves
      have hmark : mark.Agrees chain.execution k w.db (w.txn t) := (h.agrees t _ hpart).2.2
      have htxn : w.txn t = [] ∨ ∃ id, w.txn t = [.updateAttempt id .dispatched] := by
        rcases hallows with rfl | ⟨id, rfl⟩
        · exact Or.inl hmark.1
        · exact Or.inr ⟨id, hmark.1⟩
      refine hstory.trails_on hpart rfl ?_ ?_ ?_
      · change (w.db.view (w.txn t)).execution? _ = _
        rcases htxn with htxn | ⟨id, htxn⟩
        · rw [htxn]
          rfl
        · rw [htxn]
          rfl
      · change wrote chain.execution (w.txn t) = none
        rcases htxn with htxn | ⟨id, htxn⟩
        · rw [htxn]
          rfl
        · rw [htxn]
          rfl
      · rintro room event ⟨⟩
  | lost failures => exact absurd failures id
  | applied failures => exact absurd failures id
  | now time => exact absurd hallows id
  | accepts => exact absurd hallows id
  | rejects rejections => exact absurd rejections id
  | emits r =>
      obtain rfl := hmoves
      obtain ⟨rfl, hstatus⟩ := hallows
      exact hstory.emit_trails hpart r rfl rfl hstatus
  | runs => exact absurd hallows id

end Chain.Invariant

/-- The workers of a chain follow the protocol of their parts, and their events occur in order. -/
def Chain.narration (chain : Chain) (hchain : chain.Sound) (first : TaskStatus) :
    Machine.Refinement chain.machine (chained chain) where
  final := Part.Final chain
  inv parts w := (∃ n row, chain.Invariant n row parts w) ∧ chain.Story first parts w
  exec := by
    rintro parts w w' t part o r ⟨⟨n, row, h⟩, hstory⟩ hpart hallows hperforms
    cases part with
    | leads lead =>
        obtain ⟨part', hmoves, h'⟩ := h.leads_exec hpart hallows hperforms
        exact ⟨part', hmoves, h', h.story_leads hstory hpart hallows hperforms hmoves⟩
    | trails k mark telling =>
        obtain ⟨part', hmoves, h'⟩ := h.trails_exec hpart hallows hperforms
        exact ⟨part', hmoves, h', h.story_trails hstory hpart hallows hperforms hmoves⟩
  spawn := by
    rintro parts w w' p ⟨⟨n, row, h⟩, hstory⟩ htakes
    obtain ⟨hfollows, h', hhistory, hdb⟩ := h.take hchain htakes
    exact ⟨_, hfollows, ⟨n, row, h'⟩, hstory.append hhistory hdb row⟩
  crash := by
    rintro parts w w' t part - - ⟨hcrashes, -⟩
    exact absurd hcrashes id

/-- In a chain of retries every event comes after its worker has committed the status that it
announces, and the events occur in the order of these changes, except that a retry may be announced
late.  When the chain is finished, and the workers publish events, the last event other than those
about retries announces the final status. -/
theorem Chain.announces_in_order {chain : Chain} (hchain : chain.Sound) {w : Cluster}
    (hw : chain.Starts w) {row : TaskExecution}
    (hrow : w.db.execution? chain.execution = some row) {c : Machine.Config Op.Answer Cluster}
    (hc : chain.machine.Reachable w c) :
  (∀ a ∈ announcements chain.execution row.status c.world.history, ∃ n, a.change = some n) ∧
    (announcements chain.execution row.status c.world.history).Pairwise
      (fun later earlier => ¬ later.IsRetrying → later.Follows earlier) ∧
    (Finished c → (∀ settings, chain.employs settings → settings.Announces chain.message) →
      LastTells chain.execution
        (steadyAnnouncements chain.execution row.status c.world.history) c.world.db)
  := by
  obtain ⟨row₀, hinvariant⟩ := hw.invariant
  have hstory : chain.Story row.status [] w := by
    constructor
    · rw [hw.history]
      rintro a ⟨⟩
    · rw [hw.history]
      apply List.Pairwise.nil
    · intro t part hpart
      rw [List.getElem?_nil] at hpart
      cases hpart
    · intro row' hrow' hrunning
      cases hrow.symm.trans hrow'
      rw [hw.history]
      refine Or.inr ⟨hrunning, ?_, ?_⟩
      · intro t text m hm
        apply le_of_lastChange hm
      · rintro a ⟨⟩
  obtain ⟨parts, haccounts⟩ :=
    (chain.narration hchain row.status).reachable ⟨⟨0, row₀, hinvariant⟩, hstory⟩ hc
  obtain ⟨⟨n, row', h⟩, hstory⟩ := haccounts.inv
  refine ⟨hstory.announced, hstory.ordered, ?_⟩
  rintro ⟨hreturned, hqueue⟩ hannounces
  have hfinal : ∀ (t : ℕ) (part : Part), parts[t]? = some part → part.Final chain := by
    intro t part hpart
    apply haccounts.final_of_returned hreturned hpart
  obtain ⟨t, outcome, telling, htaken, _, _, _, hrest, hend, htold⟩ := h.exists_leads hfinal hqueue
  cases hrest
  have hsteady : row'.status ≠ .retrying := by
    rcases hend with ⟨hstatus, -⟩ | ⟨hstatus, -⟩
    · rw [hstatus]
      simp
    · rw [hstatus]
      simp
  obtain ⟨a, hhead, hstatus⟩ :=
    (hstory.tells t _ htaken.part).2.2 (htold hannounces) hsteady
  refine ⟨row'.status, ?_, ?_⟩
  · rw [hhead]
    exact congrArg some hstatus
  · rw [h.records.execution]
    rfl

namespace Example

/-- In a chain of two runs the last event other than those about retries announces that the
execution is completed, and the event about the retry is the last one. -/
theorem announces_in_order_late :
  ∃ c, (chain 1 flaky).machine.Reachable (waiting 1 flaky) c ∧ Chain.Finished c ∧
    (announcements taskExecutionId .pending c.world.history).map
        (fun a => (a.event.status, a.change))
      = [("retrying", some 18), ("completed", some 38), ("running", some 29),
            ("running", some 6)] ∧
    (∀ a ∈ announcements taskExecutionId .pending c.world.history, ∃ n, a.change = some n) ∧
    LastTells taskExecutionId (steadyAnnouncements taskExecutionId .pending c.world.history)
      c.world.db
  := by
  obtain ⟨c, hc, hprops⟩ := Move.exists_reachable (permitted_late 1 flaky)
    (w := waiting 1 flaky)
    (p := fun c => c.threads.all (·.hasReturned) && c.world.queue.isEmpty &&
      decide ((announcements taskExecutionId .pending c.world.history).map
        (fun a => (a.event.status, a.change))
          = [("retrying", some 18), ("completed", some 38), ("running", some 29),
            ("running", some 6)]))
    (by decide +kernel)
  simp only [Bool.and_eq_true, List.all_eq_true, List.isEmpty_iff, decide_eq_true_eq] at hprops
  obtain ⟨hfinished, hevents⟩ := hprops
  obtain ⟨hannounced, -, hlast⟩ :=
    Chain.announces_in_order (sound_flaky 1) (starts_waiting 1 flaky) rfl hc
  refine ⟨c, hc, hfinished, hevents, hannounced, hlast hfinished ?_⟩
  rintro _ rfl
  exact ⟨rfl, by decide⟩

/-- Events may occur in another order than the changes they announce, and the last event need not
announce the final status: a retry may be announced when the next run has completed. -/
theorem not_announced_in_order :
  (chain 1 flaky).Sound ∧ (chain 1 flaky).Starts (waiting 1 flaky) ∧
    ∃ c, (chain 1 flaky).machine.Reachable (waiting 1 flaky) c ∧ Chain.Finished c ∧
      ¬ (announcements taskExecutionId .pending c.world.history).Pairwise
        Announcement.Follows ∧
      ¬ LastTells taskExecutionId (announcements taskExecutionId .pending c.world.history)
        c.world.db
  := by
  refine ⟨sound_flaky 1, starts_waiting 1 flaky, ?_⟩
  obtain ⟨c, hc, hprops⟩ := Move.exists_reachable (permitted_late 1 flaky)
    (w := waiting 1 flaky)
    (p := fun c => c.threads.all (·.hasReturned) && c.world.queue.isEmpty &&
      !decide ((announcements taskExecutionId .pending c.world.history).Pairwise
        Announcement.Follows) &&
      decide ((announcements taskExecutionId .pending c.world.history).head?.map (·.event.status)
        = some TaskStatus.retrying.value) &&
      decide ((c.world.db.execution? taskExecutionId).map (·.status) = some .completed))
    (by decide +kernel)
  simp only [Bool.and_eq_true, List.all_eq_true, List.isEmpty_iff, Bool.not_eq_true',
    decide_eq_false_iff_not, decide_eq_true_eq] at hprops
  obtain ⟨⟨⟨⟨hreturned, hqueue⟩, hdisorder⟩, hlast⟩, hcompleted⟩ := hprops
  refine ⟨c, hc, ⟨hreturned, hqueue⟩, hdisorder, ?_⟩
  rintro ⟨status, hstatus, hrow⟩
  rw [hcompleted] at hrow
  cases hrow
  rw [hlast] at hstatus
  exact absurd hstatus (by decide)

end Example

end WorkerTemplate
