import WorkerTemplate.Middleware.Contexts
import WorkerTemplate.Sequential.Isolation

/-!
# Rooms

Two middlewares read the tenant of a message.  The body of the task runs under the tenant of the
keyword arguments, and the events about the task go to the room of this tenant, or, when the
keyword arguments name none, to the room of the tenant in the label.
-/

namespace WorkerTemplate

namespace TaskiqMessage

variable (message : TaskiqMessage)

/-- The keyword arguments name a tenant, whether or not what they name is a UUID. -/
def NamesTenant : Prop :=
  (message.kwargs.get? tenantKey).isSome ∨ (message.rawInput? tenantKey).isSome

instance : Decidable message.NamesTenant :=
  inferInstanceAs (Decidable (_ ∨ _))

/-- The tenant in the label, when it is a UUID. -/
def labelledTenant? : Option UUID := (message.label? tenantKey).bind parseUuid

/-- The tenant middleware reads the argument, or else the entry of the raw input. -/
theorem extractTenantId_kwargs :
  TenantMiddleware.extractTenantId message.kwargs
    = ((message.kwargs.get? tenantKey).or (message.rawInput? tenantKey)).bind parseUuid
  := by
  rw [TenantMiddleware.extractTenantId, rawInput?]
  cases message.kwargs.get? tenantKey with
  | some value => rfl
  | none =>
      rw [Option.none_or]
      cases message.kwargs.get? rawInputKey with
      | none => rfl
      | some rawInput =>
          cases rawInput with
          | dict entries =>
              simp only []
              cases Dict.get? entries tenantKey with
              | some value => rfl
              | none => rfl
          | none => rfl
          | int n => rfl
          | str t => rfl
          | uuid u => rfl
          | object t => rfl

/-- The state tracking middleware reads the label after the keyword arguments. -/
theorem extractTenantId_eq :
  message.extractTenantId
    = (((message.kwargs.get? tenantKey).or (message.rawInput? tenantKey)).or
        (message.label? tenantKey)).bind parseUuid
  := by
  rw [extractTenantId]
  cases message.kwargs.get? tenantKey with
  | some value => rfl
  | none =>
      cases message.rawInput? tenantKey with
      | some value => rfl
      | none =>
          cases message.label? tenantKey with
          | some value => rfl
          | none => rfl

variable {message}

/-- When the keyword arguments name a tenant, both middlewares read it. -/
theorem extractTenantId_of_names (h : message.NamesTenant) :
  message.extractTenantId = TenantMiddleware.extractTenantId message.kwargs
  := by
  have hsome :
      ((message.kwargs.get? tenantKey).or (message.rawInput? tenantKey)).isSome = true := by
    rw [Option.isSome_or, Bool.or_eq_true]
    apply h
  obtain ⟨value, hvalue⟩ := Option.isSome_iff_exists.mp hsome
  rw [extractTenantId_eq, extractTenantId_kwargs, hvalue, Option.some_or]

/-- When the keyword arguments name no tenant, one middleware reads the label and the other
nothing. -/
theorem extractTenantId_of_not_names (h : ¬ message.NamesTenant) :
  message.extractTenantId = message.labelledTenant? ∧
    TenantMiddleware.extractTenantId message.kwargs = none
  := by
  have hnone : (message.kwargs.get? tenantKey).or (message.rawInput? tenantKey) = none := by
    rw [← Option.not_isSome_iff_eq_none, Option.isSome_or, Bool.or_eq_true]
    apply h
  rw [extractTenantId_eq, extractTenantId_kwargs, hnone, Option.none_or]
  exact ⟨rfl, rfl⟩

/-- The events of the hooks of a message go to the room of a tenant, if there is one, and
otherwise to no room, wherever the hooks are stopped. -/
def EmitsTo (message : TaskiqMessage) (tenant : Option UUID) : Prop :=
  ∀ (settings : Settings) (call : HookCall) (result : TaskiqResult) (w : World), w.own = [] →
    ∀ n : ℕ, ∀ e ∈ (((call.hook settings message).program { result }).runFor World.watch n
      (w, [])).2.2, ∃ t, tenant = some t ∧ e.room = tenantRoom t

theorem emitsTo_extractTenantId (message : TaskiqMessage) :
  message.EmitsTo message.extractTenantId
  := by
  intro settings call result w hown n e he
  let scope : Scope := ⟨settings, message,
    (message.extractTaskExecutionId.bind w.db.execution?).map (·.tenantId)⟩
  have hscope (i : UUID) (hi : message.extractTaskExecutionId = some i) :
      (w.db.execution? i).map (·.tenantId) = scope.tenant := by
    simp only [scope, hi, Option.bind_some]
  obtain ⟨own, hkeeps⟩ := call.keeps scope result hown hscope n
  obtain ⟨-, htenant, -⟩ := hkeeps.emissions e he
  apply htenant

end TaskiqMessage

/-- The middlewares agree on the tenant of a message exactly when the keyword arguments name one
or the label holds none.  Then the events go to the room of the tenant under which the body
runs, and otherwise the body runs without a tenant, and the events go to the room of the one in
the label. -/
theorem extractTenantId_agrees (message : TaskiqMessage) :
  (message.extractTenantId = TenantMiddleware.extractTenantId message.kwargs
    ↔ message.NamesTenant ∨ message.labelledTenant? = none) ∧
  (message.NamesTenant ∨ message.labelledTenant? = none →
    message.EmitsTo (TenantMiddleware.extractTenantId message.kwargs)) ∧
  (¬ message.NamesTenant →
    TenantMiddleware.extractTenantId message.kwargs = none ∧
      message.extractTenantId = message.labelledTenant? ∧
      message.EmitsTo message.labelledTenant?)
  := by
  have hagrees : message.extractTenantId = TenantMiddleware.extractTenantId message.kwargs
      ↔ message.NamesTenant ∨ message.labelledTenant? = none := by
    by_cases hnames : message.NamesTenant
    · simp only [hnames, true_or, iff_true]
      apply TaskiqMessage.extractTenantId_of_names hnames
    · obtain ⟨hlabel, hnone⟩ := TaskiqMessage.extractTenantId_of_not_names hnames
      simp only [hnames, false_or]
      rw [hlabel, hnone]
  refine ⟨hagrees, ?_, ?_⟩
  · intro h
    rw [← hagrees.mpr h]
    apply message.emitsTo_extractTenantId
  · intro hnames
    obtain ⟨hlabel, hnone⟩ := TaskiqMessage.extractTenantId_of_not_names hnames
    refine ⟨hnone, hlabel, ?_⟩
    rw [← hlabel]
    apply message.emitsTo_extractTenantId

/-- The middlewares agree on the example message. -/
theorem extractTenantId_agrees_example :
  Example.message.extractTenantId
      = TenantMiddleware.extractTenantId Example.message.kwargs ∧
    Example.message.EmitsTo (some Example.tenantId)
  := by
  obtain ⟨hagrees, hemits, -⟩ := extractTenantId_agrees Example.message
  have hnames : Example.message.NamesTenant ∨ Example.message.labelledTenant? = none :=
    Or.inl (by decide)
  exact ⟨hagrees.mpr hnames, hemits hnames⟩

namespace Example

/-- A message with its tenant in a label. -/
def labelledMessage : TaskiqMessage :=
  { message with
    labels := [("task_execution_id", .uuid taskExecutionId), ("tenant_id", .uuid tenantId)]
    kwargs := [] }

end Example

/-- A message with its tenant in a label runs without a tenant, and its events go to the room of
the tenant. -/
theorem not_extractTenantId_agrees :
  Example.labelledMessage.extractTenantId = some Example.tenantId ∧
    TenantMiddleware.extractTenantId Example.labelledMessage.kwargs = none ∧
    ¬ Example.labelledMessage.EmitsTo
      (TenantMiddleware.extractTenantId Example.labelledMessage.kwargs)
  := by
  refine ⟨rfl, rfl, ?_⟩
  intro hemits
  have hrun := hemits Example.defaults .preExecute Example.failed.result
    (Example.world 0 3 (fun _ => Example.session .commits .commits true)) rfl 20
  have hrooms : (((HookCall.preExecute.hook Example.defaults Example.labelledMessage).program
      { result := Example.failed.result }).runFor World.watch 20
        (Example.world 0 3 (fun _ => Example.session .commits .commits true), [])).2.2.map (·.room)
      = [tenantRoom Example.tenantId] := rfl
  obtain ⟨e, he, -⟩ := List.mem_map.mp (hrooms ▸ List.mem_singleton_self _)
  obtain ⟨t, ht, -⟩ := hrun e he
  cases ht

end WorkerTemplate
