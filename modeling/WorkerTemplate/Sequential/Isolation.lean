import WorkerTemplate.Concurrent.Conduct
import WorkerTemplate.Sequential.Hooks
import WorkerTemplate.Sequential.Outcome

/-!
# Tenants

A hook changes the row of the execution of its message and tells the tenant of its message.
Whether this row belongs to this tenant is not looked at.
-/

namespace WorkerTemplate

variable {scope : Scope} {db : Database} {own : List Effect}

/-- What a hook has done within its scope: the other executions are as they were, the row of its
own has the tenant it had, and every event is about this row and in the room of the tenant of
the message. -/
structure Scope.Keeps (scope : Scope) (db : Database) (own : List Effect)
    (w : World × List Emission) : Prop where
  txn : w.1.own = own
  updates : ∀ j changes, Effect.updateExecution j changes ∈ own →
    scope.message.extractTaskExecutionId = some j
  others : ∀ j, scope.message.extractTaskExecutionId ≠ some j →
    w.1.db.execution? j = db.execution? j
  tenant : ∀ i, scope.message.extractTaskExecutionId = some i →
    (w.1.db.execution? i).map (·.tenantId) = scope.tenant
  emissions : ∀ e ∈ w.2, scope.message.extractTaskExecutionId = some e.event.taskId ∧
    (∃ t, scope.message.extractTenantId = some t ∧ e.room = tenantRoom t) ∧
    (e.db.execution? e.event.taskId).map (·.tenantId) = scope.tenant

namespace Scope.Keeps

variable {w : World × List Emission}

/-- What is committed of a transaction within the scope. -/
theorem view (h : scope.Keeps db own w) {w' : World} (hdb : w'.db = w.1.view)
    (hown : w'.own = []) :
  scope.Keeps db [] (w', w.2)
  where
  txn := hown
  updates := by simp
  others j hj := by
    rw [hdb, World.view, Database.execution?_view_of_ne, h.others j hj]
    rintro i changes hmem rfl
    rw [h.txn] at hmem
    apply hj (h.updates _ _ hmem)
  tenant i hi := by
    rw [hdb, World.view, Database.tenantId_view, h.tenant i hi]
  emissions := h.emissions

/-- A transaction that is rolled back. -/
theorem rollback (h : scope.Keeps db own w) {w' : World} (hdb : w'.db = w.1.db)
    (hown : w'.own = []) :
  scope.Keeps db [] (w', w.2)
  where
  txn := hown
  updates := by simp
  others := by
    rw [hdb]
    apply h.others
  tenant := by
    rw [hdb]
    apply h.tenant
  emissions := h.emissions

/-- An operation outside of the database. -/
theorem of_eq (h : scope.Keeps db own w) {w' : World} (hdb : w'.db = w.1.db)
    (hown : w'.own = w.1.own) :
  scope.Keeps db own (w', w.2)
  where
  txn := hown.trans h.txn
  updates := h.updates
  others := by
    rw [hdb]
    apply h.others
  tenant := by
    rw [hdb]
    apply h.tenant
  emissions := h.emissions

/-- A transaction that goes on with the effects of a statement. -/
theorem push (h : scope.Keeps db own w) (st : Statement)
    (hupdates : ∀ j changes, Effect.updateExecution j changes ∈ st.effects →
      scope.message.extractTaskExecutionId = some j) (f : Fate) :
  scope.Keeps db (own ++ st.effects) ({ w.1.push st.effects with fate := f }, w.2)
  where
  txn := congrArg (· ++ st.effects) h.txn
  updates := by
    intro j changes hmem
    rcases List.mem_append.mp hmem with hmem | hmem
    · apply h.updates j changes hmem
    · apply hupdates j changes hmem
  others := h.others
  tenant := h.tenant
  emissions := h.emissions

end Scope.Keeps

/-- The world of a hook that conducts itself keeps within its scope. -/
theorem refines_conduct (scope : Scope) (db : Database) :
  Program.Refines World.watch (conduct scope) (scope.Keeps db)
  := by
  rintro own ⟨w, emissions⟩ o h hallows
  cases o with
  | openSession => exact ⟨[], rfl, h.rollback rfl rfl⟩
  | closeSession => exact ⟨[], rfl, h.rollback rfl rfl⟩
  | now => exact ⟨own, rfl, h.of_eq rfl rfl⟩
  | body message => exact ⟨own, rfl, h.of_eq rfl rfl⟩
  | kiq message =>
      use own, rfl
      simp only [World.watch, World.handle]
      split
      · exact h.of_eq rfl rfl
      · apply h.of_eq rfl rfl
  | commit =>
      use [], rfl
      simp only [World.watch, World.handle]
      split
      · apply h.view rfl rfl
      · exact h.rollback rfl rfl
      · apply h.view rfl rfl
  | emit room event =>
      obtain ⟨hid, t, ht, hroom⟩ := hallows
      use own, rfl
      have hemissions : ∀ e ∈ emissions ++ [({ room, event, db := w.db } : Emission)],
          scope.message.extractTaskExecutionId = some e.event.taskId ∧
          (∃ t, scope.message.extractTenantId = some t ∧ e.room = tenantRoom t) ∧
          (e.db.execution? e.event.taskId).map (·.tenantId) = scope.tenant := by
        intro e he
        rcases List.mem_append.mp he with he | he
        · apply h.emissions e he
        · obtain rfl := List.mem_singleton.mp he
          exact ⟨hid, ⟨t, ht, hroom⟩, h.tenant _ hid⟩
      simp only [World.watch, World.handle]
      split
      · exact ⟨h.txn, h.updates, h.others, h.tenant, hemissions⟩
      · exact ⟨h.txn, h.updates, h.others, h.tenant, hemissions⟩
  | statement st =>
      simp only [World.watch, World.handle]
      split
      · refine ⟨own, ?_, h⟩
        cases st with
        | selectExecution j tenantId =>
            cases tenantId with
            | none => trivial
            | some tenantId => trivial
        | selectAttempt filter => trivial
        | updateExecution j changes => trivial
        | insertAttempt row => trivial
        | updateAttempt id d => trivial
      · cases st with
        | selectExecution j tenantId =>
            refine ⟨own ++ [], ?_,
              h.push (.selectExecution j tenantId) (by simp [Statement.effects]) _⟩
            cases tenantId with
            | some tenantId => rfl
            | none =>
                refine ⟨List.append_nil _, ?_, ?_⟩
                · intro task htask
                  apply Database.id_of_execution? htask
                · intro hi
                  change (w.view.execution? j).map _ = _
                  rw [World.view, Database.tenantId_view]
                  apply h.tenant j hi
        | selectAttempt filter =>
            exact ⟨own ++ [], rfl, h.push (.selectAttempt filter) (by simp [Statement.effects]) _⟩
        | insertAttempt row =>
            exact ⟨_, rfl, h.push (.insertAttempt row) (by simp [Statement.effects]) _⟩
        | updateAttempt id d =>
            exact ⟨_, rfl, h.push (.updateAttempt id d) (by simp [Statement.effects]) _⟩
        | updateExecution j changes =>
            refine ⟨_, rfl, h.push (.updateExecution j changes) ?_ _⟩
            intro j' changes' hmem
            cases List.mem_singleton.mp hmem
            apply hallows

/-- A hook keeps within its scope wherever it is stopped. -/
theorem HookCall.keeps (call : HookCall) (scope : Scope) (result : TaskiqResult) {w : World}
    (hown : w.own = [])
    (htenant : ∀ i, scope.message.extractTaskExecutionId = some i →
      (w.db.execution? i).map (·.tenantId) = scope.tenant) (n : ℕ) :
  ∃ own, scope.Keeps w.db own
    (((call.hook scope.settings scope.message).program { result }).runFor World.watch n (w, [])).2
  := by
  have hkeeps : scope.Keeps w.db [] (w, []) :=
    ⟨hown, by simp, fun _ _ => rfl, htenant, by simp⟩
  obtain ⟨own, h, -⟩ := Program.Follows.runFor
    (call.conducts scope { result } [] (scope.instances_nil { result }))
    (refines_conduct scope w.db) hkeeps n
  exact ⟨own, h⟩

/-- The hooks of a message of a tenant leave the rows of the other tenants alone, wherever they
are stopped, and tell about a row in the room of its tenant. -/
def TenantIsolated (settings : Settings) (message : TaskiqMessage) (tenantId : UUID)
    (db : Database) : Prop :=
  ∀ (call : HookCall) (result : TaskiqResult) (w : World), w.db = db → w.own = [] → ∀ n : ℕ,
    let run := ((call.hook settings message).program { result }).runFor World.watch n (w, [])
    (∀ j row, db.execution? j = some row → row.tenantId ≠ tenantId →
      run.2.1.db.execution? j = some row) ∧
    ∀ e ∈ run.2.2, ∀ row, e.db.execution? e.event.taskId = some row →
      e.room = tenantRoom row.tenantId

section

variable {settings : Settings} {message : TaskiqMessage} {tenantId : UUID}

/-- A row of another tenant is changed by the hook after a body that has raised. -/
theorem not_tenantIsolated {i : UUID} {row : TaskExecution}
    (hi : message.extractTaskExecutionId = some i) (hrow : db.execution? i = some row)
    (hne : row.tenantId ≠ tenantId) :
  ¬ TenantIsolated settings message tenantId db
  := by
  intro hisolated
  -- The row would have to have the text of every exception already.
  have hdetail (text : String) : row.errorDetail = some text := by
    let result := Hook.raised (.other "RuntimeError" text)
    let w : World := { db := db, plan := fun _ => ⟨fun _ => .commits, true⟩ }
    obtain ⟨s', w', hrun, -, -, hwritten⟩ := Hook.exec_postExecute_failed settings
      (s := { result }) (w := w) hi (fun _ _ => rfl) rfl (by simp)
    obtain ⟨row', hrow', hdetail⟩ := hwritten row hrow
    obtain ⟨n, hn⟩ := Program.exists_runFor World.handle
      ((Hook.postExecute settings message).program { result }) w
    obtain ⟨hsame, -⟩ := hisolated .postExecute result w rfl rfl n
    have hsame := hsame i row hrow hne
    rw [World.runFor_watch, HookCall.hook, hn] at hsame
    change (Hook.exec _ _ w).2.db.execution? i = some row at hsame
    rw [hrun, hrow'] at hsame
    obtain rfl := Option.some_injective _ hsame
    apply hdetail
  have htext := (hdetail "a").symm.trans (hdetail "b")
  simp at htext

/-- The hooks of a message keep to the tenant of the message exactly when the row of its execution
belongs to this tenant. -/
theorem tenantIsolated_iff (settings : Settings) (htenant : message.extractTenantId = some tenantId)
    (db : Database) :
  TenantIsolated settings message tenantId db
    ↔ ∀ i row, message.extractTaskExecutionId = some i → db.execution? i = some row →
        row.tenantId = tenantId
  := by
  constructor
  · intro hisolated i row hi hrow
    by_contra hne
    apply not_tenantIsolated hi hrow hne hisolated
  · rintro howned call result w rfl hown n
    let scope : Scope := ⟨settings, message,
      (message.extractTaskExecutionId.bind w.db.execution?).map (·.tenantId)⟩
    have hscope (i : UUID) (hi : message.extractTaskExecutionId = some i) :
        (w.db.execution? i).map (·.tenantId) = scope.tenant := by
      simp only [scope, hi, Option.bind_some]
    obtain ⟨own, h⟩ := call.keeps scope result hown hscope n
    constructor
    · intro j row hrow hne
      rw [h.others j, hrow]
      intro hj
      apply hne (howned j row hj hrow)
    · intro e he row hrow
      obtain ⟨hid, ⟨t, ht, hroom⟩, hsame⟩ := h.emissions e he
      rw [← hscope _ hid, hrow] at hsame
      obtain ⟨row', hrow', htenant'⟩ := Option.map_eq_some_iff.mp hsame.symm
      have htenant' : row'.tenantId = row.tenantId := htenant'
      have ht' : t = tenantId := Option.some_injective _ (ht.symm.trans htenant)
      rw [hroom, ht', ← htenant', howned _ row' hid hrow']

end

/-- The example message keeps to its tenant. -/
theorem tenantIsolated_of_owned :
  TenantIsolated Example.settings Example.message Example.tenantId
    { executions := [Example.row 0 3], attempts := [] }
  := by
  apply (tenantIsolated_iff Example.settings rfl _).mpr
  rintro i row ⟨⟩ ⟨⟩
  rfl

namespace Example

/-- A message of another tenant that names the execution. -/
def foreignMessage : TaskiqMessage :=
  { message with kwargs := [("tenant_id", .uuid 8)] }

end Example

/-- A message changes the row of another tenant, and tells its own tenant about it. -/
theorem not_tenantIsolated_of_foreign :
  Example.foreignMessage.extractTenantId = some 8 ∧
    Example.foreignMessage.extractTaskExecutionId = some Example.taskExecutionId ∧
    (Example.row 0 3).tenantId = 7 ∧
    (let w := Example.world 0 3 (fun _ => Example.session .commits .commits true)
      let hook := HookCall.preExecute.hook Example.defaults Example.foreignMessage
      let run := (hook.program Example.failed).run World.watch (w, [])
      (run.2.1.db.execution? Example.taskExecutionId).map (·.statusMessage)
          = some (some "Task started") ∧
        run.2.2.map (·.room) = [tenantRoom 8]) ∧
    ¬ TenantIsolated Example.defaults Example.foreignMessage 8
      (Example.world 0 3 (fun _ => Example.session .commits .commits true)).db
  := ⟨rfl, rfl, rfl, ⟨rfl, rfl⟩, not_tenantIsolated rfl rfl (by decide)⟩

end WorkerTemplate
