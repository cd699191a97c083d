import WorkerTemplate.AuditTable

/-!
# The trail of an audit

The audit table is a trail: no row of it is ever taken away or rewritten, but for a pending row
that is marked as dispatched.  Each row fits the execution it is about.
-/

namespace WorkerTemplate

/-! ### Rows -/

/-- The status an execution is given along with a dispatch result. -/
def TaskDispatchResult.statusAfter : TaskDispatchResult → TaskStatus
  | .blocked => .failed
  | .dispatched => .retrying
  | .dispatchFailed => .failed
  | .pending => .retrying
  | .shadowed => .retrying

/-- What no statement changes of an execution, as far as its audit goes: its tenant and its retry
budget. -/
def TaskExecution.terms (task : TaskExecution) : UUID × ℕ := (task.tenantId, task.maxRetries)

/-- An audit row fits an execution of a tenant with a retry budget. -/
structure TaskAttempt.Fits (row : TaskAttempt) (terms : UUID × ℕ) : Prop where
  tenant : row.tenantId = terms.1
  positive : 1 ≤ row.attemptNumber
  budget : row.attemptNumber ≤ terms.2
  error : row.errorDetail.isSome
  outcome : row.statusAfter = row.dispatchResult.statusAfter
  retried : row.dispatchResult = .dispatchFailed → row.statusBefore = .retrying

namespace TaskAttempt

variable {row row' row'' : TaskAttempt} {terms : UUID × ℕ}

/-- A row that is pending and is marked as dispatched still fits its execution. -/
theorem Fits.resolve (h : row.Fits terms) (hopen : row.IsOpen) :
  (row.resolve .dispatched).Fits terms
  where
  tenant := h.tenant
  positive := h.positive
  budget := h.budget
  error := h.error
  outcome := by
    apply h.outcome.trans
    rcases hopen with hpending | hdispatched
    · rw [hpending]
      rfl
    · rw [hdispatched]
      rfl
  retried := by rintro ⟨⟩

/-- What becomes of a row: it stays as it is, or it was pending and is marked as dispatched. -/
def Settles (row row' : TaskAttempt) : Prop :=
  row' = row ∨ row.dispatchResult = .pending ∧ row' = row.resolve .dispatched

theorem Settles.refl (row : TaskAttempt) : row.Settles row := Or.inl rfl

theorem Settles.trans (h : row.Settles row') (h' : row'.Settles row'') :
  row.Settles row''
  := by
  rcases h with rfl | ⟨hpending, rfl⟩
  · apply h'
  · rcases h' with rfl | ⟨hpending', -⟩
    · exact Or.inr ⟨hpending, rfl⟩
    · cases hpending'

/-- Marking an open row settles it. -/
theorem IsOpen.settles_resolve (h : row.IsOpen) :
  row.Settles (row.resolve .dispatched)
  := by
  rcases h with hpending | hdispatched
  · exact Or.inr ⟨hpending, rfl⟩
  · left
    rw [resolve, ← hdispatched]

theorem Settles.id (h : row.Settles row') : row'.id = row.id := by
  rcases h with rfl | ⟨-, rfl⟩
  · rfl
  · rfl

theorem Settles.taskExecutionId (h : row.Settles row') :
  row'.taskExecutionId = row.taskExecutionId
  := by
  rcases h with rfl | ⟨-, rfl⟩
  · rfl
  · rfl

/-- A row that is open stays open. -/
theorem Settles.isOpen (h : row.Settles row') (hopen : row.IsOpen) :
  row'.IsOpen
  := by
  rcases h with rfl | ⟨-, rfl⟩
  · apply hopen
  · exact Or.inr rfl

end TaskAttempt

/-! ### Tables -/

namespace Database

/-- The tenant and the retry budget of an execution. -/
def terms (db : Database) (i : UUID) : Option (UUID × ℕ) :=
  (db.execution? i).map TaskExecution.terms

/-- An open row of the audit has a primary key. -/
def Opens (db : Database) (id : Option ℕ) : Prop :=
  ∃ row ∈ db.attempts, row.id = id ∧ row.IsOpen

/-- The audit of an execution has an open row. -/
def OpensFor (db : Database) (i : UUID) : Prop :=
  ∃ row ∈ db.attempts, row.taskExecutionId = i ∧ row.IsOpen

/-- The rows of the audit have different primary keys, and each fits an execution that there
is. -/
structure Audited (db : Database) : Prop where
  keys : (db.attempts.map (·.id)).Nodup
  rows : ∀ row ∈ db.attempts, ∃ terms, db.terms row.taskExecutionId = some terms ∧ row.Fits terms

/-- The audit of a database goes on in another one: every row is still where it was, unless it was
pending and has been dispatched, and new rows come after the old ones. -/
def AuditLE (db db' : Database) : Prop :=
  ∀ (n : ℕ) (row : TaskAttempt), db.attempts[n]? = some row →
    ∃ row', db'.attempts[n]? = some row' ∧ row.Settles row'

/-- An effect inserts a row that fits its execution, or marks an open row. -/
def AuditEffect (db : Database) : Effect → Prop
  | .updateExecution _ _ => True
  | .insertAttempt row => ∃ terms, db.terms row.taskExecutionId = some terms ∧ row.Fits terms
  | .updateAttempt id d => d = .dispatched ∧ db.Opens id

variable {db db' db'' : Database} {e : Effect} {es : List Effect}

theorem AuditLE.refl (db : Database) : db.AuditLE db := fun _ row h => ⟨row, h, .refl row⟩

theorem AuditLE.trans (h : db.AuditLE db') (h' : db'.AuditLE db'') :
  db.AuditLE db''
  := by
  intro n row hrow
  obtain ⟨row', hrow', hsettles⟩ := h n row hrow
  obtain ⟨row'', hrow'', hsettles'⟩ := h' n row' hrow'
  exact ⟨row'', hrow'', hsettles.trans hsettles'⟩

/-- A row is found again in an audit that goes on. -/
theorem AuditLE.exists_mem (h : db.AuditLE db') {row : TaskAttempt} (hrow : row ∈ db.attempts) :
  ∃ row' ∈ db'.attempts, row.Settles row'
  := by
  obtain ⟨n, hn⟩ := List.mem_iff_getElem?.mp hrow
  obtain ⟨row', hrow', hsettles⟩ := h n row hn
  exact ⟨row', List.mem_of_getElem? hrow', hsettles⟩

theorem Opens.mono {id : Option ℕ} (h : db.Opens id) (hle : db.AuditLE db') :
  db'.Opens id
  := by
  obtain ⟨row, hrow, hid, hopen⟩ := h
  obtain ⟨row', hrow', hsettles⟩ := hle.exists_mem hrow
  exact ⟨row', hrow', hsettles.id.trans hid, hsettles.isOpen hopen⟩

theorem OpensFor.mono {i : UUID} (h : db.OpensFor i) (hle : db.AuditLE db') :
  db'.OpensFor i
  := by
  obtain ⟨row, hrow, hi, hopen⟩ := h
  obtain ⟨row', hrow', hsettles⟩ := hle.exists_mem hrow
  exact ⟨row', hrow', hsettles.taskExecutionId.trans hi, hsettles.isOpen hopen⟩

/-- No effect changes the terms of an execution. -/
@[simp]
theorem terms_apply (db : Database) (e : Effect) (i : UUID) :
  (db.apply e).terms i = db.terms i
  := by
  cases e with
  | insertAttempt row => rfl
  | updateAttempt id d => rfl
  | updateExecution j changes =>
      rw [terms, terms, execution?_updateExecution]
      split
      · rw [Option.map_map]
        rfl
      · rfl

@[simp]
theorem terms_view (db : Database) (es : List Effect) (i : UUID) :
  (db.view es).terms i = db.terms i
  := eq_view (f := fun db => db.terms i) (fun e _ db => terms_apply db e i) db

theorem AuditEffect.mono (h : db.AuditEffect e) (hle : db.AuditLE db')
    (hterms : ∀ i, db'.terms i = db.terms i) :
  db'.AuditEffect e
  := by
  cases e with
  | updateExecution i changes => trivial
  | insertAttempt row =>
      obtain ⟨terms, hrow, hfits⟩ := h
      exact ⟨terms, (hterms _).trans hrow, hfits⟩
  | updateAttempt id d =>
      obtain ⟨hd, hopens⟩ := h
      exact ⟨hd, hopens.mono hle⟩

/-- A row whose primary key an open row has is open, as primary keys differ. -/
theorem Audited.isOpen_of_opens (h : db.Audited) {row : TaskAttempt} (hrow : row ∈ db.attempts)
    (hopens : db.Opens row.id) :
  row.IsOpen
  := by
  obtain ⟨row', hrow', hid, hopen⟩ := hopens
  obtain rfl : row' = row := List.inj_on_of_nodup_map h.keys hrow' hrow hid
  apply hopen

/-- A table without rows. -/
theorem audited_of_nil (h : db.attempts = []) :
  db.Audited
  := by
  constructor
  · simp [h]
  · simp [h]

/-! ### Effects -/

/-- The audit goes on over an effect. -/
theorem Audited.auditLE_apply (h : db.Audited) (he : db.AuditEffect e) :
  db.AuditLE (db.apply e)
  := by
  intro n row hrow
  cases e with
  | updateExecution i changes => exact ⟨row, hrow, .refl row⟩
  | insertAttempt row' =>
      have hn : n < db.attempts.length := (List.getElem?_eq_some_iff.mp hrow).1
      use row
      rw [attempts_insertAttempt, List.getElem?_append_left hn]
      exact ⟨hrow, .refl row⟩
  | updateAttempt id d =>
      obtain ⟨rfl, hopens⟩ := he
      rw [attempts_updateAttempt, List.getElem?_map, hrow]
      refine ⟨_, rfl, ?_⟩
      beta_reduce
      split
      case isFalse => apply TaskAttempt.Settles.refl
      case isTrue hid =>
        subst hid
        apply TaskAttempt.IsOpen.settles_resolve
        apply h.isOpen_of_opens (List.mem_of_getElem? hrow) hopens

/-- An effect keeps the rows of the audit fitting. -/
theorem Audited.apply (h : db.Audited) (he : db.AuditEffect e) :
  (db.apply e).Audited
  := by
  cases e with
  | updateExecution i changes =>
      constructor
      · apply h.keys
      · intro row hrow
        rw [terms_apply]
        apply h.rows row hrow
  | insertAttempt row =>
      constructor
      · rw [attempts_insertAttempt, List.map_append, List.nodup_append]
        refine ⟨h.keys, List.nodup_singleton _, ?_⟩
        intro id hid id' hid'
        obtain ⟨row', hrow', rfl⟩ := List.mem_map.mp hid
        rw [List.map_singleton, List.mem_singleton] at hid'
        rw [hid']
        apply ne_freshAttemptId db hrow'
      · intro row' hrow'
        rw [terms_apply]
        rw [attempts_insertAttempt, List.mem_append, List.mem_singleton] at hrow'
        rcases hrow' with hrow' | rfl
        · apply h.rows row' hrow'
        · obtain ⟨terms, hrow, hfits⟩ := he
          exact ⟨terms, hrow, ⟨hfits.1, hfits.2, hfits.3, hfits.4, hfits.5, hfits.6⟩⟩
  | updateAttempt id d =>
      obtain ⟨rfl, hopens⟩ := he
      constructor
      · rw [attempts_updateAttempt, List.map_map]
        convert h.keys using 2
        funext row
        simp only [Function.comp]
        split
        · rfl
        · rfl
      · intro row hrow
        rw [terms_apply]
        rw [attempts_updateAttempt] at hrow
        obtain ⟨row', hrow', rfl⟩ := List.mem_map.mp hrow
        obtain ⟨terms, hterms, hfits⟩ := h.rows row' hrow'
        use terms
        split
        case isFalse => exact ⟨hterms, hfits⟩
        case isTrue hid =>
          subst hid
          exact ⟨hterms, hfits.resolve (h.isOpen_of_opens hrow' hopens)⟩

/-- The audit goes on over a transaction, and its rows still fit. -/
theorem Audited.view (h : db.Audited) (hes : ∀ e ∈ es, db.AuditEffect e) :
  db.AuditLE (db.view es) ∧ (db.view es).Audited
  := by
  induction es generalizing db with
  | nil => exact ⟨.refl db, h⟩
  | cons e es ih =>
      have he := hes e (List.mem_cons_self ..)
      have hle := h.auditLE_apply he
      have hes' : ∀ e' ∈ es, (db.apply e).AuditEffect e' := by
        intro e' he'
        apply (hes e' (List.mem_cons_of_mem _ he')).mono hle (fun i => terms_apply db e i)
      obtain ⟨hle', haudited⟩ := ih (h.apply he) hes'
      exact ⟨hle.trans hle', haudited⟩

/-- An open row that a transaction inserts is in the audit once the transaction is committed. -/
theorem Audited.opensFor_view (h : db.Audited) (hes : ∀ e ∈ es, db.AuditEffect e)
    {row : TaskAttempt} (hrow : .insertAttempt row ∈ es) (hopen : row.IsOpen) :
  (db.view es).OpensFor row.taskExecutionId
  := by
  induction es generalizing db with
  | nil => cases hrow
  | cons e es ih =>
      have he := hes e (List.mem_cons_self ..)
      have hes' : ∀ e' ∈ es, (db.apply e).AuditEffect e' := by
        intro e' he'
        apply (hes e' (List.mem_cons_of_mem _ he')).mono (h.auditLE_apply he)
          (fun i => terms_apply db e i)
      rcases List.mem_cons.mp hrow with rfl | hrow
      · apply OpensFor.mono _ ((h.apply he).view hes').1
        use { row with id := some db.freshAttemptId }
        rw [attempts_insertAttempt]
        exact ⟨List.mem_append_right _ (List.mem_singleton_self _), rfl, hopen⟩
      · apply ih (h.apply he) hes' hrow

/-- An open row that a transaction reads is committed, and open, when the transaction has inserted
none. -/
theorem Audited.exists_mem_of_view (h : db.Audited) (hes : ∀ e ∈ es, db.AuditEffect e)
    (hinserts : ∀ row, .insertAttempt row ∉ es) {row : TaskAttempt}
    (hrow : row ∈ (db.view es).attempts) (hopen : row.IsOpen) :
  ∃ row' ∈ db.attempts, row'.id = row.id ∧ row'.taskExecutionId = row.taskExecutionId ∧
    row'.IsOpen
  := by
  induction es generalizing db with
  | nil => exact ⟨row, hrow, rfl, rfl, hopen⟩
  | cons e es ih =>
      have he := hes e (List.mem_cons_self ..)
      have hes' : ∀ e' ∈ es, (db.apply e).AuditEffect e' := by
        intro e' he'
        apply (hes e' (List.mem_cons_of_mem _ he')).mono (h.auditLE_apply he)
          (fun i => terms_apply db e i)
      obtain ⟨row', hrow', hid, hi, hopen'⟩ := ih (h.apply he) hes'
        (fun row hrow => hinserts row (List.mem_cons_of_mem _ hrow)) hrow
      cases e with
      | updateExecution j changes => exact ⟨row', hrow', hid, hi, hopen'⟩
      | insertAttempt row₀ => exact absurd (List.mem_cons_self ..) (hinserts row₀)
      | updateAttempt id d =>
          rw [attempts_updateAttempt] at hrow'
          obtain ⟨row₁, hrow₁, rfl⟩ := List.mem_map.mp hrow'
          use row₁, hrow₁
          split at hid
          case isFalse hne =>
            rw [if_neg hne] at hi hopen'
            exact ⟨hid, hi, hopen'⟩
          case isTrue heq =>
            rw [if_pos heq] at hi
            obtain ⟨-, hopens⟩ := he
            exact ⟨hid, hi, h.isOpen_of_opens hrow₁ (heq ▸ hopens)⟩

end Database

end WorkerTemplate
