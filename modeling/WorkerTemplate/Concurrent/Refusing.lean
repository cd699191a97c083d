import WorkerTemplate.Concurrent.Conduct
import WorkerTemplate.Concurrent.Schedule

/-!
# A closed gate

Workers whose retry gate is closed for the row of an execution send none of its messages,
however their hooks overlap and whatever fails.  The audit rows they write say whether the
retry was shadowed or blocked, as the mode of their worker has it.
-/

namespace WorkerTemplate

/-- A hook is called with a message of the execution, by a worker whose gate is closed for its
row. -/
inductive SpawnsRefused (i : UUID) (settings : Settings) (w : Cluster) :
    Program Op.Answer PUnit → Cluster → Prop where
  | hook (call : HookCall) (message : TaskiqMessage) (result : TaskiqResult)
      (hi : message.extractTaskExecutionId = some i)
      (hrefused : ∀ row, w.db.execution? i = some row →
        settings.retryGateAllows message.taskName row.tenantId = false) :
      SpawnsRefused i settings w ((call.hook settings message).thread { result }) w

/-- Workers whose gate is closed for the row, with the settings of every thread. -/
def refusing (i : UUID) : Machine Op.Answer (Cluster × List Settings) :=
  (workers .any (fun w p w' => ∃ settings, SpawnsRefused i settings w p w')).remembers
    (SpawnsRefused i)

/-- An audit row says that the retry was shadowed, or that it was blocked. -/
def TaskAttempt.IsRefusal (row : TaskAttempt) : Prop :=
  row.dispatchResult = .shadowed ∧ row.statusAfter = .retrying ∨
    row.dispatchResult = .blocked ∧ row.statusAfter = .failed

/-- The effects of a transaction by which a worker refuses a retry. -/
structure Refuses (settings : Settings) (i : UUID) (es : List Effect) : Prop where
  /-- No audit row is marked. -/
  marks : ∀ id d, Effect.updateAttempt id d ∉ es
  /-- An audit row of the execution is written for a refused retry, with the status the
  transaction assigns. -/
  inserts : ∀ row, Effect.insertAttempt row ∈ es → row.taskExecutionId = i ∧
    row.IsRefusal ∧ Assigns es i row.statusAfter
  shadowed : ∀ row, Effect.insertAttempt row ∈ es → row.dispatchResult = .shadowed →
    settings.taskRetryShadowMode = true
  blocked : ∀ row, Effect.insertAttempt row ∈ es → row.dispatchResult = .blocked →
    settings.taskRetryShadowMode = false

variable {settings : Settings} {i : UUID} {own : List Effect}

theorem refuses_nil :
  Refuses settings i []
  := by
  constructor
  · simp
  · simp
  · simp
  · simp

theorem Assigns.append {status : TaskStatus} (h : Assigns own i status) (es : List Effect) :
  Assigns (own ++ es) i status
  := by
  obtain ⟨task, fields, now, hmem⟩ := h
  exact ⟨task, fields, now, List.mem_append_left es hmem⟩

/-- A transaction that refuses goes on refusing. -/
theorem Refuses.append (h : Refuses settings i own) {e : Effect}
    (hmarks : ∀ id d, e ≠ .updateAttempt id d)
    (hinserts : ∀ row, e = .insertAttempt row → row.taskExecutionId = i ∧ row.IsRefusal ∧
      Assigns own i row.statusAfter ∧
      (row.dispatchResult = .shadowed → settings.taskRetryShadowMode = true) ∧
      (row.dispatchResult = .blocked → settings.taskRetryShadowMode = false)) :
  Refuses settings i (own ++ [e])
  where
  marks id d hmem := by
    rcases List.mem_append.mp hmem with hmem | hmem
    · apply h.marks id d hmem
    · apply hmarks id d (List.mem_singleton.mp hmem).symm
  inserts row hmem := by
    rcases List.mem_append.mp hmem with hmem | hmem
    · obtain ⟨hi, hrefusal, hassigns⟩ := h.inserts row hmem
      exact ⟨hi, hrefusal, hassigns.append _⟩
    · obtain ⟨hi, hrefusal, hassigns, -⟩ := hinserts row (List.mem_singleton.mp hmem).symm
      exact ⟨hi, hrefusal, hassigns.append _⟩
  shadowed row hmem := by
    rcases List.mem_append.mp hmem with hmem | hmem
    · apply h.shadowed row hmem
    · exact (hinserts row (List.mem_singleton.mp hmem).symm).2.2.2.1
  blocked row hmem := by
    rcases List.mem_append.mp hmem with hmem | hmem
    · apply h.blocked row hmem
    · exact (hinserts row (List.mem_singleton.mp hmem).symm).2.2.2.2

/-- Without an open gate only a refused retry warrants an audit row. -/
theorem Scope.Warrants.isRefusal {scope : Scope} {row : TaskAttempt}
    (h : scope.Warrants own row) (hclosed : ¬ scope.GateOpen) :
  row.IsRefusal ∧ Assigns own row.taskExecutionId row.statusAfter ∧
    (row.dispatchResult = .shadowed → scope.settings.taskRetryShadowMode = true) ∧
    (row.dispatchResult = .blocked → scope.settings.taskRetryShadowMode = false)
  := by
  rw [Warrants] at h
  cases hd : row.dispatchResult with
  | shadowed =>
      rw [hd] at h
      obtain ⟨hmode, hstatus, hassigns⟩ := h
      refine ⟨Or.inl ⟨hd, hstatus⟩, ?_, fun _ => hmode, by rintro ⟨⟩⟩
      rwa [hstatus]
  | blocked =>
      rw [hd] at h
      obtain ⟨hmode, hstatus, hassigns⟩ := h
      refine ⟨Or.inr ⟨hd, hstatus⟩, ?_, by rintro ⟨⟩, fun _ => hmode⟩
      rwa [hstatus]
  | pending =>
      rw [hd] at h
      exact absurd h hclosed
  | dispatched =>
      rw [hd] at h
      exact absurd h hclosed
  | dispatchFailed =>
      rw [hd] at h
      exact absurd h hclosed

/-- A statement of a hook whose gate is closed refuses. -/
theorem Refuses.statement {scope : Scope} {st : Statement} (h : Refuses scope.settings i own)
    (hi : scope.message.extractTaskExecutionId = some i) (hclosed : ¬ scope.GateOpen)
    (hallows : (conduct scope).allows own (.statement st)) :
  Refuses scope.settings i (own ++ st.effects)
  := by
  cases st with
  | selectExecution j tenantId =>
      rw [Statement.effects, List.append_nil]
      apply h
  | selectAttempt filter =>
      rw [Statement.effects, List.append_nil]
      apply h
  | updateExecution j changes =>
      apply h.append
      · rintro id d ⟨⟩
      · rintro row ⟨⟩
  | updateAttempt id d => exact absurd hallows hclosed
  | insertAttempt row =>
      obtain ⟨hid, hwarrants⟩ := hallows
      rw [hi] at hid
      obtain rfl := Option.some_injective _ hid
      apply h.append
      · rintro id d ⟨⟩
      · rintro row' ⟨⟩
        exact ⟨rfl, hwarrants.isRefusal hclosed⟩

/-! ### Rows -/

/-- The rows of an execution are rows there were, or say that a retry was refused. -/
def Database.OnlyRefuses (db : Database) (i : UUID) (rows : List TaskAttempt) : Prop :=
  ∀ row ∈ db.attempts, row ∈ rows ∨ row.taskExecutionId = i ∧ row.IsRefusal

/-- Transactions that refuse add rows that say so. -/
theorem Database.OnlyRefuses.view {db : Database} {rows : List TaskAttempt}
    (h : db.OnlyRefuses i rows) {es : List Effect} (hmarks : ∀ id d, Effect.updateAttempt id d ∉ es)
    (hinserts : ∀ row, Effect.insertAttempt row ∈ es → row.taskExecutionId = i ∧ row.IsRefusal) :
  (db.view es).OnlyRefuses i rows
  := by
  induction es generalizing db with
  | nil => apply h
  | cons e es ih =>
      apply ih
      · cases e with
        | updateExecution j changes => apply h
        | updateAttempt id d => exact absurd (List.mem_cons_self ..) (hmarks id d)
        | insertAttempt row =>
            intro row' hrow'
            rw [attempts_insertAttempt, List.mem_append] at hrow'
            rcases hrow' with hrow' | hrow'
            · apply h row' hrow'
            · obtain rfl := List.mem_singleton.mp hrow'
              exact Or.inr (hinserts row (List.mem_cons_self ..))
      · intro id d hmem
        apply hmarks id d (List.mem_cons_of_mem _ hmem)
      · intro row hmem
        apply hinserts row (List.mem_cons_of_mem _ hmem)

/-! ### The cluster -/

namespace Refusing

variable {rows : List TaskAttempt} {ss : List (Scope × List Effect)}
  {w w' : Cluster × List Settings}

/-- A thread is called with a message of the execution, and its gate is closed for the row. -/
structure Closed (i : UUID) (scope : Scope) (w : Cluster) : Prop where
  execution : scope.message.extractTaskExecutionId = some i
  tenant : scope.tenant = (w.db.execution? i).map (·.tenantId)
  closed : ¬ scope.GateOpen

/-- Every thread has a closed gate and an open transaction that refuses, and nothing else has
been committed. -/
structure Inv (i : UUID) (rows : List TaskAttempt) (ss : List (Scope × List Effect))
    (w : Cluster × List Settings) : Prop where
  settings : w.2 = ss.map (·.1.settings)
  threads : ∀ (t : ℕ) (x : Scope × List Effect), ss[t]? = some x →
    Closed i x.1 w.1 ∧ w.1.txn t = x.2 ∧ Refuses x.1.settings i x.2
  spare : ∀ t, ss.length ≤ t → w.1.txn t = []
  sent : ∀ e ∈ w.1.history, ∀ message, e.op ≠ .kiq message
  effects : ∀ e ∈ w.1.history, ∃ settings, w.2[e.thread]? = some settings ∧
    Refuses settings i e.effects
  attempts : w.1.db.OnlyRefuses i rows

/-- The open transaction of a thread after an operation, and how it has got there. -/
theorem moves_of_performs {scope : Scope} {w w' : Cluster} {t : ℕ} {o : Op} {r : o.Answer}
    (hclosed : Closed i scope w) (hallows : (conduct scope).allows (w.txn t) o)
    (hstep : w.Performs .any t o r w') (hrefuses : Refuses scope.settings i (w.txn t)) :
  (conduct scope).moves (w.txn t) o r (w'.txn t) ∧ Refuses scope.settings i (w'.txn t) ∧
    ∀ message, o ≠ .kiq message
  := by
  cases hstep with
  | opens => exact ⟨by simp [conduct], by simpa using refuses_nil, by simp⟩
  | closes => exact ⟨by simp [conduct], by simpa using refuses_nil, by simp⟩
  | commits => exact ⟨by simp [conduct], by simpa using refuses_nil, by simp⟩
  | lost => exact ⟨by simp [conduct], by simpa using refuses_nil, by simp⟩
  | applied => exact ⟨by simp [conduct], by simpa using refuses_nil, by simp⟩
  | now => exact ⟨rfl, hrefuses, by simp⟩
  | emits => exact ⟨rfl, hrefuses, by simp⟩
  | runs => exact ⟨rfl, hrefuses, by simp⟩
  | accepts => exact absurd hallows.2 hclosed.closed
  | rejects => exact absurd hallows.2 hclosed.closed
  | @fails w st =>
      refine ⟨?_, by simpa using refuses_nil, by simp⟩
      cases st with
      | selectExecution j tenantId =>
          cases tenantId with
          | none => trivial
          | some tenantId => trivial
      | selectAttempt filter => trivial
      | updateExecution j changes => trivial
      | insertAttempt row => trivial
      | updateAttempt id d => trivial
  | @answers w st r free answers =>
      have htxn : ((w.push t st).record t (.statement st) (.ok r) []).txn t
          = w.txn t ++ st.effects := by simp
      rw [htxn]
      refine ⟨?_, hrefuses.statement hclosed.execution hclosed.closed hallows, by simp⟩
      cases st with
      | selectAttempt filter => rfl
      | updateExecution j changes => rfl
      | insertAttempt row => rfl
      | updateAttempt id d => rfl
      | selectExecution j tenantId =>
          cases tenantId with
          | some tenantId => rfl
          | none =>
              have hrow : r = (w.view t).execution? j := answers
              refine ⟨List.append_nil _, ?_, ?_⟩
              · rintro task rfl
                apply Database.id_of_execution? hrow.symm
              · intro hj
                have hi := hclosed.execution
                rw [hj] at hi
                obtain rfl := Option.some_injective _ hi
                rw [hrow, hclosed.tenant, Cluster.view, Database.tenantId_view]

/-- An operation does not change the tenant of an execution. -/
theorem Closed.performs {scope : Scope} {w w' : Cluster} (h : Closed i scope w)
    {t : ℕ} {o : Op} {r : o.Answer} (hstep : w.Performs .any t o r w') :
  Closed i scope w'
  where
  execution := h.execution
  closed := h.closed
  tenant := by
    rcases hstep.db with hdb | hdb
    · rw [hdb]
      apply h.tenant
    · rw [hdb, Cluster.view, Database.tenantId_view]
      apply h.tenant

/-- What one thread does keeps the invariant, when its transaction goes on refusing. -/
theorem Inv.set (h : Inv i rows ss w) {t : ℕ} {x : Scope × List Effect} (hx : ss[t]? = some x)
    (hsettings : w'.2 = w.2) (hclosed : ∀ scope, Closed i scope w.1 → Closed i scope w'.1)
    (htxn : ∀ t', t' ≠ t → w'.1.txn t' = w.1.txn t')
    (hrefuses : Refuses x.1.settings i (w'.1.txn t))
    (hhistory : ∀ e ∈ w'.1.history, e ∈ w.1.history ∨ e.thread = t ∧
      (∀ message, e.op ≠ .kiq message) ∧ Refuses x.1.settings i e.effects)
    (hattempts : w'.1.db.OnlyRefuses i rows) :
  Inv i rows (ss.set t (x.1, w'.1.txn t)) w'
  := by
  have hmode : w'.2[t]? = some x.1.settings := by
    rw [hsettings, h.settings, List.getElem?_map, hx]
    rfl
  have hlt : t < ss.length := (List.getElem?_eq_some_iff.mp hx).1
  constructor
  · rw [hsettings, h.settings]
    apply List.ext_getElem?
    intro t'
    rw [List.getElem?_map, List.getElem?_map, List.getElem?_set]
    split
    case isTrue heq =>
      subst heq
      rw [hx]
      rfl
    case isFalse => rfl
  · intro t' x' hx'
    rcases Machine.state_of_set hx' with ⟨rfl, rfl⟩ | ⟨hne, hx'⟩
    · exact ⟨hclosed x.1 (h.threads t' x hx).1, rfl, hrefuses⟩
    · obtain ⟨hclosed', htxn', hrefuses'⟩ := h.threads t' x' hx'
      refine ⟨hclosed x'.1 hclosed', ?_, hrefuses'⟩
      rw [htxn t' hne, htxn']
  · intro t' ht'
    rw [List.length_set] at ht'
    rw [htxn t' (by omega), h.spare t' ht']
  · intro e he
    rcases hhistory e he with he | ⟨-, hsent, -⟩
    · apply h.sent e he
    · apply hsent
  · intro e he
    rcases hhistory e he with he | ⟨rfl, -, hrefuses⟩
    · rw [hsettings]
      apply h.effects e he
    · exact ⟨x.1.settings, hmode, hrefuses⟩
  · apply hattempts

/-- A step of a thread keeps the invariant. -/
theorem Inv.performs (h : Inv i rows ss w) {t : ℕ} {x : Scope × List Effect}
    (hx : ss[t]? = some x) {o : Op} {r : o.Answer} (hallows : (conduct x.1).allows x.2 o)
    (hstep : w.1.Performs .any t o r w'.1) (hsettings : w'.2 = w.2) :
  (conduct x.1).moves x.2 o r (w'.1.txn t) ∧ Inv i rows (ss.set t (x.1, w'.1.txn t)) w'
  := by
  obtain ⟨hclosed, htxn, hrefuses⟩ := h.threads t x hx
  rw [← htxn] at hallows hrefuses ⊢
  obtain ⟨hmoves, hrefuses', hsent⟩ := moves_of_performs hclosed hallows hstep hrefuses
  use hmoves
  apply h.set hx hsettings (fun scope hscope => hscope.performs hstep)
    (fun t' ht' => hstep.txn_of_ne ht') hrefuses'
  · obtain ⟨es, hhistory, hes⟩ := hstep.remembered
    intro e he
    rw [hhistory, List.mem_cons] at he
    rcases he with rfl | he
    · refine Or.inr ⟨rfl, hsent, ?_⟩
      rcases hes with ⟨rfl, -⟩ | ⟨-, rfl, -⟩
      · apply refuses_nil
      · apply hrefuses
    · exact Or.inl he
  · rcases hstep.db with hdb | hdb
    · rw [hdb]
      apply h.attempts
    · rw [hdb]
      apply h.attempts.view hrefuses.marks
      intro row hrow
      obtain ⟨hi, hrefusal, -⟩ := hrefuses.inserts row hrow
      exact ⟨hi, hrefusal⟩

/-- A hook that is called with a closed gate keeps the invariant. -/
theorem Inv.spawn (h : Inv i rows ss w) {scope : Scope} (hclosed : Closed i scope w.1)
    (hcluster : w'.1 = w.1) (hsettings : w'.2 = w.2 ++ [scope.settings]) :
  Inv i rows (ss ++ [(scope, [])]) w'
  := by
  constructor
  · rw [hsettings, h.settings, List.map_append]
    rfl
  · intro t x hx
    rw [hcluster]
    rcases Machine.state_of_concat hx with hx | ⟨rfl, rfl⟩
    · apply h.threads t x hx
    · exact ⟨hclosed, h.spare ss.length (Nat.le_refl _), refuses_nil⟩
  · intro t ht
    rw [List.length_append] at ht
    rw [hcluster, h.spare t (by omega)]
  · rw [hcluster]
    apply h.sent
  · rw [hcluster]
    intro e he
    obtain ⟨settings, hmode, hrefuses⟩ := h.effects e he
    refine ⟨settings, ?_, hrefuses⟩
    rw [hsettings, List.getElem?_append_left (List.getElem?_eq_some_iff.mp hmode).1, hmode]
  · rw [hcluster]
    apply h.attempts

/-- A crash keeps the invariant. -/
theorem Inv.crash (h : Inv i rows ss w) {t : ℕ} {x : Scope × List Effect}
    (hx : ss[t]? = some x) (hcluster : w'.1 = w.1.release t) (hsettings : w'.2 = w.2) :
  Inv i rows (ss.set t (x.1, w'.1.txn t)) w'
  := by
  apply h.set hx hsettings
  · intro scope hscope
    rw [hcluster]
    exact ⟨hscope.execution, hscope.tenant, hscope.closed⟩
  · intro t' ht'
    rw [hcluster, Cluster.txn_release, Function.update_of_ne ht']
  · rw [hcluster, Cluster.txn_release, Function.update_self]
    apply refuses_nil
  · intro e he
    rw [hcluster] at he
    exact Or.inl he
  · rw [hcluster]
    apply h.attempts

/-- Workers whose gate is closed follow the conduct of their hooks. -/
def refinement (i : UUID) (rows : List TaskAttempt) :
    (refusing i).Refinement (Program.family conduct) where
  final _ := True
  inv ss w := Inv i rows ss w
  exec := by
    rintro ss w w' t x o r h hx hallows ⟨hstep, hsettings⟩
    obtain ⟨hmoves, hinv⟩ := h.performs hx hallows hstep hsettings
    exact ⟨(x.1, w'.1.txn t), ⟨rfl, hmoves⟩, hinv⟩
  spawn := by
    rintro ss ⟨w, settings⟩ ⟨w', settings'⟩ p h ⟨mode, hspawn, hsettings⟩
    cases hspawn with
    | hook call message result hi hrefused =>
        let scope : Scope := ⟨mode, message, (w.db.execution? i).map (·.tenantId)⟩
        have hclosed : Closed i scope w := by
          refine ⟨hi, rfl, ?_⟩
          rintro ⟨t, ht, hopen⟩
          obtain ⟨row, hrow, rfl⟩ := Option.map_eq_some_iff.mp ht
          cases (hrefused row hrow).symm.trans hopen
        refine ⟨(scope, []), ?_, h.spawn hclosed rfl hsettings⟩
        have hthread : ((call.hook mode message).thread { result }).Follows (conduct scope)
            (fun _ _ => True) [] := by
          apply Hook.follows_thread
          apply (call.conducts scope _ [] _).mono
          · intro _ _ _ _
            trivial
          · rintro j task ⟨⟩
        apply hthread.family.mono
        intro _ _ _
        trivial
  crash := by
    rintro ss w w' t x h hx ⟨⟨-, hcluster⟩, hsettings⟩
    exact ⟨(x.1, w'.1.txn t), trivial, h.crash hx hcluster hsettings⟩

end Refusing

namespace Example

end Example

end WorkerTemplate
