import Mathlib.Data.ENat.Lattice
import WorkerTemplate.Chain.Refinement
import WorkerTemplate.Chain.Schedule
import WorkerTemplate.Program.Termination

/-!
# The end of a chain

A chain of retries comes to an end: no worker waits for ever for the lock of another one, every
message has a delivery and the retries are bounded.  At the end the body has been run once for
every retry and once more, and the row and the audit table say so.
-/

namespace WorkerTemplate

/-- All hooks have finished, and no message is left. -/
def Chain.Finished (c : Machine.Config Op.Answer Cluster) : Prop :=
  (∀ p ∈ c.threads, p.hasReturned = true) ∧ c.world.queue = []

/-! ### Progress -/

/-- An operation that does not wait for a lock can be performed. -/
theorem Cluster.exists_performs {w : Cluster} {t : ℕ} {o : Op}
    (hfree : ∀ st, o = .statement st → ¬ w.Blocked t st) :
  ∃ r w', w.Performs Example.calm t o r w'
  := by
  cases o with
  | openSession => exact ⟨_, _, .opens⟩
  | closeSession => exact ⟨_, _, .closes⟩
  | statement st => exact ⟨_, _, .answers (hfree st rfl) ((w.view t).answers_answer st)⟩
  | commit => exact ⟨_, _, .commits⟩
  | now => exact ⟨_, _, .now 0⟩
  | kiq message => exact ⟨_, _, .accepts⟩
  | emit room event => exact ⟨_, _, .emits true⟩
  | body message => exact ⟨_, _, .runs⟩

/-- A worker that has finished has locked nothing. -/
theorem Part.Final.not_locks {chain : Chain} {part : Part} (h : part.Final chain) (i : UUID)
    (key : RowKey) :
  ¬ part.Locks i key
  := by
  intro hlocks
  cases part with
  | leads lead =>
      obtain ⟨row, outcome, telling, rfl, -⟩ := h
      cases hlocks.dirty
  | trails k mark telling =>
      obtain ⟨id, hmarking, -⟩ := Part.locks_trails.mp hlocks
      rw [show mark = .marked from h] at hmarking
      cases hmarking

namespace Chain.Invariant

variable {chain : Chain} {n t t' : ℕ} {row : TaskExecution} {parts : List Part} {w : Cluster}
  {part part' : Part}

/-- A worker that waits for a lock does not wait for a worker that waits. -/
theorem not_blocked_of_locked (h : chain.Invariant n row parts w) {st st' : Statement}
    {key : RowKey} (hpart : parts[t]? = some part) (hpart' : parts[t']? = some part')
    (hallows : part.Allows chain (.statement st)) (hallows' : part'.Allows chain (.statement st'))
    (hkey : st.locks = some key) (hlocked : w.locked key = some t') (hne : t' ≠ t) :
  ¬ w.Blocked t' st'
  := by
  have hlocks' := h.locks_self hpart' hlocked
  cases part' with
  | trails k mark telling =>
      obtain ⟨id, hmarking, -⟩ := Part.locks_trails.mp hlocks'
      exact absurd hmarking (hallows'.ne_marking id)
  | leads lead =>
      rintro ⟨key', t₁, hkey', hlocked₁, hne₁⟩
      -- The worker that waits trails, so it waits for the lock of an audit row.
      obtain ⟨k, mark, telling, rfl⟩ := h.trails_of_leads hpart' hne.symm hpart
      have hread : lead.settled = true ∨ lead.noted = true := by
        cases st with
        | updateAttempt id d =>
            cases hkey
            apply hlocks'.2
        | insertAttempt attempt => cases hkey
        | selectAttempt filter => cases hkey
        | selectExecution j tenantId => cases hkey
        | updateExecution j changes => exact absurd hallows not_false
      obtain ⟨part₁, hpart₁, hlocks₁⟩ := h.locks key' t₁ hlocked₁
      cases st' with
      | insertAttempt attempt => cases hkey'
      | selectAttempt filter => cases hkey'
      | selectExecution j tenantId => cases hkey'
      | updateExecution j changes =>
          -- Only the leading worker locks the execution.
          obtain rfl := Statement.eq_of_locks_updateExecution hkey'
          obtain ⟨k₁, mark₁, telling₁, rfl⟩ := h.trails_of_leads hpart' hne₁ hpart₁
          obtain ⟨id, -, heq⟩ := Part.locks_trails.mp hlocks₁
          cases heq
      | updateAttempt id d =>
          obtain ⟨-, -, attempt, hseen, -⟩ := hallows'
          have hagrees : lead.Agrees chain n row w.db (w.txn t') := h.agrees t' _ hpart'
          obtain ⟨hsettled, hnoted, -⟩ := hagrees.seen attempt hseen
          rw [hsettled, hnoted] at hread
          rcases hread with hread | hread
          · cases hread
          · cases hread

end Chain.Invariant

section Machine

variable {chain : Chain} {c : Machine.Config Op.Answer Cluster}

/-- A thread whose next operation does not wait performs it. -/
theorem Chain.exists_step {t : ℕ} {o : Op} {k : o.Answer → Program Op.Answer PUnit}
    (hthread : c.threads[t]? = some (.perform o k))
    (hfree : ∀ st, o = .statement st → ¬ c.world.Blocked t st) :
  ∃ c', chain.machine.Step c c'
  := by
  obtain ⟨r, w', hperforms⟩ := Cluster.exists_performs hfree
  exact ⟨_, .exec hthread hperforms⟩

/-- A chain goes on until it is finished. -/
theorem Chain.progress (hchain : chain.Sound) {parts : List Part}
    (h : (chain.refinement hchain).Accounts parts c) :
  Finished c ∨ ∃ c', chain.machine.Step c c'
  := by
  obtain ⟨n, row, hinvariant⟩ := h.inv
  by_cases hreturned : ∀ p ∈ c.threads, p.hasReturned = true
  · rcases hinvariant.baton with hqueued | ⟨t, lead, htaken⟩
    · obtain ⟨settings, hworker⟩ := hchain.employed
      apply Or.inr
      refine ⟨_, .spawn ⟨settings, chain.message, { result := Hook.succeeded }, [], [], hworker,
        hqueued.queue, rfl, rfl⟩⟩
    · exact Or.inl ⟨hreturned, htaken.queue⟩
  · apply Or.inr
    push Not at hreturned
    obtain ⟨p, hp, hne⟩ := hreturned
    obtain ⟨t, ht⟩ := List.mem_iff_getElem?.mp hp
    obtain ⟨part, hpart, hfollows⟩ := h.state ht
    cases p with
    | pure a => exact absurd rfl hne
    | perform o k =>
        by_cases hfree : ∀ st, o = .statement st → ¬ c.world.Blocked t st
        · apply Chain.exists_step ht hfree
        · push Not at hfree
          obtain ⟨st, rfl, key, t', hkey, hlocked, hne'⟩ := hfree
          obtain ⟨part', hpart', hlocks'⟩ := hinvariant.locks key t' hlocked
          have hlt : t' < c.threads.length := by
            rw [h.length]
            apply (List.getElem?_eq_some_iff.mp hpart').1
          have ht' : c.threads[t']? = some c.threads[t'] := List.getElem?_eq_getElem hlt
          have hfollows' := h.follows t' _ part' ht' hpart'
          cases hp' : c.threads[t'] with
          | pure a =>
              rw [hp'] at hfollows'
              exact absurd hlocks' (Part.Final.not_locks hfollows' _ _)
          | perform o' k' =>
              rw [hp'] at ht' hfollows'
              apply Chain.exists_step ht'
              rintro st' rfl
              apply hinvariant.not_blocked_of_locked hpart hpart' hfollows.1 hfollows'.1 hkey
                hlocked hne'

/-! ### The end -/

/-- The position of the first run of the body that succeeds, or no position. -/
noncomputable def Chain.firstSuccess (chain : Chain) : ℕ∞ :=
  sInf {k | ∃ n : ℕ, k = n + 1 ∧ chain.outcomes n = none}

/-- What a chain leaves: the number of runs of the body, the row, and the audit rows. -/
structure Chain.Completes (chain : Chain) (w : Cluster) : Prop where
  runs : (w.runs : ℕ∞) = min chain.firstSuccess (chain.maxRetries + 1)
  row : ∃ row, w.db.execution? chain.execution = some row ∧ row.retryCount = w.runs - 1 ∧
    (chain.firstSuccess ≤ chain.maxRetries + 1 → row.status = .completed) ∧
    (¬ chain.firstSuccess ≤ chain.maxRetries + 1 → row.status = .failed)
  numbers : (w.db.attempts.filter (fun row => row.taskExecutionId = chain.execution)).map
    (·.attemptNumber) = List.range' 1 (w.runs - 1)
  dispatched : ∀ row ∈ w.db.attempts, row.taskExecutionId = chain.execution →
    row.dispatchResult = .dispatched

/-- The first success comes after the runs that have raised. -/
theorem Chain.add_one_le_firstSuccess {n : ℕ} (hfailed : ∀ k < n, chain.outcomes k ≠ none) :
  (n + 1 : ℕ∞) ≤ chain.firstSuccess
  := by
  apply le_sInf
  rintro _ ⟨k, rfl, hk⟩
  have hnk : n ≤ k := by
    by_contra hlt
    apply hfailed k (by omega) hk
  gcongr

/-- The first run that does not raise is the first success. -/
theorem Chain.firstSuccess_eq {n : ℕ} (hfailed : ∀ k < n, chain.outcomes k ≠ none)
    (hn : chain.outcomes n = none) :
  chain.firstSuccess = n + 1
  := by
  apply le_antisymm
  · exact sInf_le ⟨n, rfl, hn⟩
  · apply Chain.add_one_le_firstSuccess hfailed

/-- At the end no audit row is pending. -/
theorem Chain.Invariant.dispatched {n : ℕ} {row : TaskExecution} {parts : List Part} {w : Cluster}
    (h : chain.Invariant n row parts w)
    (hfinal : ∀ (t : ℕ) (part : Part), parts[t]? = some part → part.Final chain)
    {attempt : TaskAttempt} (hattempt : attempt ∈ w.db.attempts)
    (hi : attempt.taskExecutionId = chain.execution) :
  attempt.dispatchResult = .dispatched
  := by
  rcases h.records.tallies.isOpen attempt hattempt hi with hpending | hdispatched
  · obtain ⟨t, part, hpart, hawaits⟩ := h.pending _ ⟨attempt, hattempt, hi, hpending, rfl⟩
    have hend := hfinal t part hpart
    cases part with
    | leads lead =>
        obtain ⟨row, outcome, telling, rfl, -⟩ := hend
        cases hawaits.1
    | trails k mark telling => exact absurd hend hawaits.2
  · apply hdispatched

/-- At the end the worker that leads has finished. -/
theorem Chain.Invariant.exists_leads {n : ℕ} {row : TaskExecution} {parts : List Part}
    {w : Cluster} (h : chain.Invariant n row parts w)
    (hfinal : ∀ (t : ℕ) (part : Part), parts[t]? = some part → part.Final chain)
    (hqueue : w.queue = []) :
  ∃ t outcome telling, Chain.Taken n t (.rest row (some outcome) telling) parts w ∧
    (Part.leads (.rest row (some outcome) telling)).Final chain
  := by
  obtain ⟨t, lead, htaken⟩ : ∃ t lead, Chain.Taken n t lead parts w := by
    rcases h.baton with hqueued | htaken
    · rw [hqueued.queue] at hqueue
      cases hqueue
    · apply htaken
  have hend := hfinal t _ htaken.part
  obtain ⟨row', outcome, telling, rfl, -⟩ := id hend
  have hagrees : Lead.Agrees chain n row w.db (w.txn t) (.rest row' (some outcome) telling) :=
    h.agrees t _ htaken.part
  obtain rfl : row' = row := hagrees.row
  exact ⟨t, outcome, telling, htaken, hend⟩

/-- A chain in which every worker has finished is complete. -/
theorem Chain.Invariant.completes {n : ℕ} {row : TaskExecution} {parts : List Part} {w : Cluster}
    (h : chain.Invariant n row parts w)
    (hfinal : ∀ (t : ℕ) (part : Part), parts[t]? = some part → part.Final chain)
    (hqueue : w.queue = []) :
  chain.Completes w
  := by
  obtain ⟨t, outcome, telling, htaken, row', _, _, hrest, hend, -⟩ := h.exists_leads hfinal hqueue
  cases hrest
  have hagrees : Lead.Agrees chain n row w.db (w.txn t) (.rest row (some outcome) telling) :=
    h.agrees t _ htaken.part
  have houtcome : outcome = chain.outcomes n := hagrees.outcome outcome rfl rfl
  have hruns : w.runs = n + 1 := htaken.runs.trans htaken.threads
  have hcount : row.retryCount = n := h.records.row.retryCount
  have hend' : chain.firstSuccess = n + 1 ∧ row.status = .completed ∨
      n = chain.maxRetries ∧ (n + 1 : ℕ∞) < chain.firstSuccess ∧ row.status = .failed := by
    rcases hend with ⟨hstatus, rfl⟩ | ⟨hstatus, hraised, hexhausted⟩
    · exact Or.inl ⟨Chain.firstSuccess_eq h.failed houtcome.symm, hstatus⟩
    · refine Or.inr ⟨hcount.symm.trans hexhausted, ?_, hstatus⟩
      have hfailed : ∀ k < n + 1, chain.outcomes k ≠ none := by
        intro k hk
        rcases Nat.lt_succ_iff_lt_or_eq.mp hk with hk | rfl
        · apply h.failed k hk
        · rw [← houtcome]
          apply Option.isSome_iff_ne_none.mp hraised
      have hle := Chain.add_one_le_firstSuccess hfailed
      push_cast at hle
      apply (ENat.add_one_le_iff (ENat.natCast_ne_top (n + 1))).mp hle
  have hle : (n + 1 : ℕ∞) ≤ chain.maxRetries + 1 := by
    have hle := h.le
    gcongr
  constructor
  case runs =>
    rw [hruns]
    push_cast
    rcases hend' with ⟨hfirst, -⟩ | ⟨hn, hfirst, -⟩
    · rw [hfirst, min_eq_left hle]
    · rw [← hn, min_eq_right hfirst.le]
  case row =>
    refine ⟨row, h.records.execution, ?_, ?_, ?_⟩
    · rw [hcount, hruns, Nat.add_sub_cancel]
    · intro hle'
      rcases hend' with ⟨-, hstatus⟩ | ⟨hn, hfirst, -⟩
      · apply hstatus
      · rw [← hn] at hle'
        exact absurd hle' (not_le_of_gt hfirst)
    · intro hnot
      rcases hend' with ⟨hfirst, -⟩ | ⟨-, -, hstatus⟩
      · rw [hfirst] at hnot
        exact absurd hle hnot
      · apply hstatus
  case numbers =>
    rw [hruns, Nat.add_sub_cancel]
    apply h.records.tallies.numbers
  case dispatched =>
    intro attempt hattempt hi
    apply h.dispatched hfinal hattempt hi

/-- A finished chain is complete. -/
theorem Chain.completes (hchain : chain.Sound) {parts : List Part}
    (h : (chain.refinement hchain).Accounts parts c) (hfinished : Finished c) :
  chain.Completes c.world
  := by
  obtain ⟨n, row, hinvariant⟩ := h.inv
  obtain ⟨hreturned, hqueue⟩ := hfinished
  apply hinvariant.completes _ hqueue
  intro t part hpart
  apply h.final_of_returned hreturned hpart

/-- A chain never has more workers than it may have runs of the body. -/
theorem Chain.length_le (hchain : chain.Sound) {parts : List Part}
    (h : (chain.refinement hchain).Accounts parts c) :
  c.threads.length ≤ chain.maxRetries + 1
  := by
  obtain ⟨n, row, hinvariant⟩ := h.inv
  have hle := hinvariant.le
  rw [h.length]
  rcases hinvariant.baton with hqueued | ⟨t, lead, htaken⟩
  · rw [hqueued.threads]
    omega
  · have hthreads := htaken.threads
    split at hthreads
    · omega
    · omega

end Machine

/-- From its beginning, a chain of retries goes on until all hooks have finished, it cannot go on
without end, and when it is finished it is complete. -/
theorem Chain.runs_to_completion {chain : Chain} (hchain : chain.Sound) {w : Cluster}
    (hw : chain.Starts w) {c : Machine.Config Op.Answer Cluster}
    (hc : chain.machine.Reachable w c) :
  (Finished c ∨ ∃ c', chain.machine.Step c c') ∧
    (∀ f : ℕ → Machine.Config Op.Answer Cluster, f 0 = c →
      ¬ ∀ k, chain.machine.Step (f k) (f (k + 1))) ∧
    (Finished c → chain.Completes c.world)
  := by
  have haccounts {c : Machine.Config Op.Answer Cluster} (hc : chain.machine.Reachable w c) :
      ∃ parts, (chain.refinement hchain).Accounts parts c := by
    obtain ⟨row, hinvariant⟩ := hw.invariant
    apply (chain.refinement hchain).reachable ⟨0, row, hinvariant⟩ hc
  obtain ⟨parts, h⟩ := haccounts hc
  refine ⟨Chain.progress hchain h, ?_, Chain.completes hchain h⟩
  rintro f rfl hstep
  have hreach : ∀ k, chain.machine.Reachable w (f k) := by
    intro k
    induction k with
    | zero => apply hc
    | succ k ih => apply ih.tail (hstep k)
  apply Machine.not_forall_step (M := chain.machine) (n := chain.maxRetries + 1) _ _ hstep
  · rintro i w w' ⟨hcrashes, -⟩
    apply hcrashes
  · intro k
    obtain ⟨parts, h⟩ := haccounts (hreach k)
    apply Chain.length_le hchain h

/-- A chain of two runs, the second of which succeeds, is complete when its hooks have
finished. -/
theorem Example.runs_to_completion_late :
  ∃ c, (chain 1 flaky).machine.Reachable (waiting 1 flaky) c ∧ Chain.Finished c ∧
    (chain 1 flaky).Completes c.world
  := by
  obtain ⟨c, hc, hprops⟩ := Move.exists_reachable (permitted_late 1 flaky)
    (w := waiting 1 flaky) (p := fun c => c.threads.all (·.hasReturned) && c.world.queue.isEmpty)
    (by decide +kernel)
  simp only [Bool.and_eq_true, List.all_eq_true, List.isEmpty_iff] at hprops
  refine ⟨c, hc, hprops, ?_⟩
  apply (Chain.runs_to_completion (sound_flaky 1) (starts_waiting 1 flaky) hc).2.2 hprops

end WorkerTemplate
