import WorkerTemplate.Lifecycle.Conservation
import WorkerTemplate.Middleware.Contexts

/-!
# The isolation of messages

A process works on one message after the other, and on a message that has failed once more before
the hooks after its body have returned.  The tenant is cleared on every way out of a message, so
that no body reads the tenant of another message.  The logging context is cleared only after a
body that has raised.
-/

namespace WorkerTemplate

variable {F : Seconds} {p q : Process}

/-! ### The hooks -/

namespace Middleware

/-- The hooks before the body set the tenant, when the message has one, and the logging context. -/
theorem preExecuteAll_registered (start : F.Number) (resend : Process → Process)
    (message : TaskiqMessage) (p : Process) :
  ∃ p', preExecuteAll (registerMiddleware start resend) message p
      = (message.preExecuted F start, p') ∧
    p'.tenantId = (TenantMiddleware.extractTenantId message.kwargs).or p.tenantId ∧
    p'.readings = p.readings ∧ p'.logging.taskId = some message.taskId
  := by
  simp only [preExecuteAll, registerMiddleware, List.foldl_cons, List.foldl_nil, tenantMiddleware]
  cases hextract : TenantMiddleware.extractTenantId message.kwargs with
  | none =>
      have hextract : TenantMiddleware.extractTenantId
          (loggingMiddleware.preExecute message p).1.kwargs = none := hextract
      rw [hextract]
      exact ⟨_, rfl, rfl, rfl, rfl⟩
  | some tenantId =>
      have hextract : TenantMiddleware.extractTenantId
          (loggingMiddleware.preExecute message p).1.kwargs = some tenantId := hextract
      rw [hextract]
      exact ⟨_, rfl, rfl, rfl, rfl⟩

theorem onErrorAll_registered (start : F.Number) (resend : Process → Process)
    (message : TaskiqMessage) (p : Process) :
  onErrorAll (registerMiddleware start resend) message p
    = loggingMiddleware.onError message (resend p).clearTenantId
  := rfl

theorem postExecuteAll_registered (start : F.Number) (resend : Process → Process)
    (message : TaskiqMessage) (result : TaskiqResult) (p : Process) :
  postExecuteAll (registerMiddleware start resend) message result p
    = loggingMiddleware.postExecute message result p.clearTenantId
  := rfl

/-- The hook of the logging middleware leaves the tenant and what has been read. -/
theorem loggingMiddleware_postExecute (message : TaskiqMessage) (result : TaskiqResult)
    (p : Process) :
  (loggingMiddleware.postExecute message result p).tenantId = p.tenantId ∧
    (loggingMiddleware.postExecute message result p).readings = p.readings ∧
    (loggingMiddleware.postExecute message result p).logging = p.logging
  := by
  simp only [loggingMiddleware]
  split
  · exact ⟨rfl, rfl, rfl⟩
  · exact ⟨rfl, rfl, rfl⟩

end Middleware

open Middleware

/-! ### Tenants -/

/-- A body reads the tenant of its own message. -/
def Process.ReadsOwn (r : TaskiqMessage × Option UUID) : Prop :=
  r.2 = TenantMiddleware.extractTenantId r.1.kwargs

/-- A process has read only own tenants. -/
def Process.Isolated (p : Process) : Prop := ∀ r ∈ p.readings, Process.ReadsOwn r

/-- Transport keeps the tenant of the keyword arguments. -/
theorem parseUuid_transport (value : Value) :
  parseUuid value.transport = parseUuid value
  := by
  cases value with
  | uuid u => apply parseUuid_text u
  | none => rfl
  | int n => rfl
  | str t => rfl
  | dict entries => rfl
  | object t => rfl

theorem extractTenantId_transport (kwargs : Dict) :
  TenantMiddleware.extractTenantId (Dict.transport kwargs)
    = TenantMiddleware.extractTenantId kwargs
  := by
  rw [TenantMiddleware.extractTenantId, TenantMiddleware.extractTenantId, Dict.get?_transport,
    Dict.get?_transport]
  cases kwargs.get? TaskiqMessage.tenantKey with
  | some value => apply parseUuid_transport value
  | none =>
      cases kwargs.get? TaskiqMessage.rawInputKey with
      | none => rfl
      | some rawInput =>
          cases rawInput with
          | dict entries =>
              simp only [Option.map_none, Option.map_some, Value.transport]
              rw [Dict.get?_transport]
              cases Dict.get? entries TaskiqMessage.tenantKey with
              | some value => apply parseUuid_transport value
              | none => rfl
          | none => rfl
          | int n => rfl
          | str t => rfl
          | uuid u => rfl
          | object t => rfl

namespace Delivery

section

variable {start : F.Number} {logs : List String} {again : List (Delivery F)}
  {message message' : TaskiqMessage}

/-- The way of a message whose body returns. -/
theorem process_returned
    (h : preExecuteAll (registerMiddleware start (processAll again)) message p = (message', q)) :
  (Delivery.mk message start logs none again).process p
    = loggingMiddleware.postExecute message' Hook.succeeded (q.body message' logs).clearTenantId
  := by
  simp only [process, h, postExecuteAll_registered]

/-- The way of a message whose body raises. -/
theorem process_raised {exception : PyException}
    (h : preExecuteAll (registerMiddleware start (processAll again)) message p = (message', q)) :
  (Delivery.mk message start logs (some exception) again).process p
    = loggingMiddleware.postExecute message' (Hook.raised exception)
        (loggingMiddleware.onError message'
          (processAll again (q.body message' logs)).clearTenantId).clearTenantId
  := by
  simp only [process, h, postExecuteAll_registered, onErrorAll_registered]

end

/-- The tenant that the variable may have when a message arrives: none, or that of the message,
when it is delivered in place. -/
def Clean (message : TaskiqMessage) (p : Process) : Prop :=
  p.tenantId = none ∨ p.tenantId = TenantMiddleware.extractTenantId message.kwargs

mutual

/-- A delivery clears the tenant, and its bodies read their own. -/
theorem isolated_process (d : Delivery F) (hd : d.Resends) {p : Process} (hp : p.Isolated)
    (hclean : Clean d.message p) :
  (d.process p).Isolated ∧ (d.process p).tenantId = none
  := by
  obtain ⟨message, start, logs, outcome, again⟩ := d
  obtain ⟨p', hstarted, htenant, hreadings, -⟩ :=
    preExecuteAll_registered start (processAll again) message p
  have hown : p'.tenantId = TenantMiddleware.extractTenantId message.kwargs := by
    rw [htenant]
    rcases hclean with hnone | hsame
    · rw [hnone, Option.or_none]
    · have hsame : p.tenantId = TenantMiddleware.extractTenantId message.kwargs := hsame
      rw [hsame, Option.or_self]
  have hbody : (p'.body (message.preExecuted F start) logs).Isolated := by
    intro r hr
    rcases List.mem_append.mp hr with hr | hr
    · rw [hreadings] at hr
      apply hp r hr
    · obtain rfl := List.mem_singleton.mp hr
      apply hown
  cases outcome with
  | none =>
      obtain ⟨htenant, hreadings, -⟩ := loggingMiddleware_postExecute
        (message.preExecuted F start) Hook.succeeded
        (p'.body (message.preExecuted F start) logs).clearTenantId
      rw [process_returned hstarted, Process.Isolated, hreadings, htenant]
      exact ⟨hbody, rfl⟩
  | some exception =>
      have hsame : TenantMiddleware.extractTenantId
          (message.preExecuted F start).transport.kwargs
            = TenantMiddleware.extractTenantId message.kwargs :=
        extractTenantId_transport message.kwargs
      have hagain := isolated_processAll again _ hd hbody (Or.inr (hown.trans hsame.symm))
      obtain ⟨htenant, hreadings, -⟩ := loggingMiddleware_postExecute
        (message.preExecuted F start) (Hook.raised exception)
        (loggingMiddleware.onError (message.preExecuted F start)
          (processAll again
            (p'.body (message.preExecuted F start) logs)).clearTenantId).clearTenantId
      rw [process_raised hstarted, Process.Isolated, hreadings, htenant]
      exact ⟨hagain, rfl⟩

/-- Deliveries in place read the tenant of their message. -/
theorem isolated_processAll (ds : List (Delivery F)) (message : TaskiqMessage)
    (hds : ResendsAll message ds) {p : Process} (hp : p.Isolated) (hclean : Clean message p) :
  (processAll ds p).Isolated
  := by
  cases ds with
  | nil => apply hp
  | cons d ds =>
      obtain ⟨rfl, hd, hrest⟩ := hds
      obtain ⟨hisolated, hnone⟩ := isolated_process d hd hp hclean
      apply isolated_processAll ds d.message hrest hisolated (Or.inl hnone)

end

end Delivery

/-- Whatever messages a process works on, and however often each is delivered once more in place,
every body reads the tenant of the keyword arguments of its own message. -/
theorem reads_own_tenant {ds : List (Delivery F)} (hds : ∀ d ∈ ds, d.Resends) {p : Process}
    (htenant : p.tenantId = none) (hreadings : p.readings = []) :
  ∀ r ∈ (Delivery.processAll ds p).readings,
    r.2 = TenantMiddleware.extractTenantId r.1.kwargs
  := by
  have hp : p.Isolated := by
    rw [Process.Isolated, hreadings]
    simp
  clear hreadings
  induction ds generalizing p with
  | nil => apply hp
  | cons d ds ih =>
      obtain ⟨hd, hrest⟩ := List.forall_mem_cons.mp hds
      obtain ⟨hisolated, hnone⟩ := d.isolated_process hd hp (Or.inl htenant)
      apply ih hrest hnone hisolated

namespace Example

/-- A message without a tenant. -/
def tenantlessMessage : TaskiqMessage :=
  { message with taskId := "2".toList, kwargs := [] }

/-- The message fails, is executed again in place, and fails and is executed again once more. -/
def failedDelivery : Delivery seconds :=
  .mk message (reading 1) [] (some exception)
    [.mk (message.preExecuted seconds (reading 1)).transport (reading 2) [] (some exception)
      [.mk ((message.preExecuted seconds (reading 1)).transport.preExecuted seconds
        (reading 2)).transport (reading 3) [] none []]]

/-- A message without a tenant is executed. -/
def tenantlessDelivery : Delivery seconds :=
  .mk tenantlessMessage (reading 4) [] none []

end Example

/-- A message without a tenant reads none after a message with a tenant has been executed three
times. -/
theorem reads_own_tenant_example :
  (Delivery.processAll [Example.failedDelivery, Example.tenantlessDelivery] {}).readings.map (·.2)
      = [some 7, some 7, some 7, none] ∧
    ∀ r ∈ (Delivery.processAll [Example.failedDelivery, Example.tenantlessDelivery] {}).readings,
      r.2 = TenantMiddleware.extractTenantId r.1.kwargs
  := by
  refine ⟨by decide, reads_own_tenant ?_ rfl rfl⟩
  intro d hd
  rcases List.mem_pair.mp hd with rfl | rfl
  · exact ⟨rfl, ⟨rfl, trivial, trivial⟩, trivial⟩
  · exact trivial

/-! ### Logging contexts -/

/-- Two processes have gone on to log the same records, and to have the same context. -/
def Process.LogAlike (p q p' q' : Process) : Prop :=
  p'.logging = q'.logging ∧ ∃ rs, p'.records = p.records ++ rs ∧ q'.records = q.records ++ rs

namespace Process.LogAlike

variable {p' q' p'' q'' : Process}

theorem refl (h : p.logging = q.logging) :
  LogAlike p q p q
  := ⟨h, [], (List.append_nil _).symm, (List.append_nil _).symm⟩

theorem trans (h : LogAlike p q p' q') (h' : LogAlike p' q' p'' q'') :
  LogAlike p q p'' q''
  := by
  obtain ⟨-, rs, hp, hq⟩ := h
  obtain ⟨hlogging, rs', hp', hq'⟩ := h'
  refine ⟨hlogging, rs ++ rs', ?_, ?_⟩
  · rw [hp', hp, List.append_assoc]
  · rw [hq', hq, List.append_assoc]

/-- The same record is logged. -/
theorem log (h : LogAlike p q p' q') (text : String) {extra extra' : LoggingContext}
    (hextra : extra = extra') :
  LogAlike p q (p'.log text extra) (q'.log text extra')
  := by
  subst hextra
  obtain ⟨hlogging, rs, hp, hq⟩ := h
  refine ⟨hlogging, rs ++ [{ message := text, extra }], ?_, ?_⟩
  · rw [Process.log, hp, List.append_assoc]
  · rw [Process.log, hq, List.append_assoc]

/-- The context is set to the same values. -/
theorem setLogging (h : LogAlike p q p' q') {c c' : LoggingContext} (hc : c = c') :
  LogAlike p q { p' with logging := c } { q' with logging := c' }
  := ⟨hc, h.2⟩

theorem body (h : LogAlike p q p' q') (message : TaskiqMessage) (logs : List String) :
  LogAlike p q (p'.body message logs) (q'.body message logs)
  := by
  obtain ⟨hlogging, rs, hp, hq⟩ := h
  refine ⟨hlogging, rs ++ logs.map (fun log => { message := log, extra := q'.logging }), ?_, ?_⟩
  · rw [Process.body, hp, hlogging, List.append_assoc]
  · rw [Process.body, hq, List.append_assoc]

theorem clearTenantId (h : LogAlike p q p' q') :
  LogAlike p q p'.clearTenantId q'.clearTenantId
  := h

/-- The hook of the logging middleware before the body. -/
theorem loggingMiddleware_preExecute (h : LogAlike p q p' q') (message : TaskiqMessage) :
  LogAlike p q (loggingMiddleware.preExecute message p').2
    (loggingMiddleware.preExecute message q').2
  := by
  have hlogging : p'.logging.setTaskContext (some message.taskId) none (some message.taskName)
      = q'.logging.setTaskContext (some message.taskId) none (some message.taskName) := by
    rw [h.1]
  apply (h.setLogging hlogging).log _ (congrArg (·.forMessage message) hlogging)

/-- The hook of the tenant middleware before the body. -/
theorem tenantMiddleware_preExecute (h : LogAlike p q p' q') (message : TaskiqMessage) :
  LogAlike p q (tenantMiddleware.preExecute message p').2
    (tenantMiddleware.preExecute message q').2
  := by
  simp only [tenantMiddleware]
  split
  · apply h
  · apply LogAlike.log _ _ rfl
    apply @LogAlike.setLogging p q (p'.setTenantId _) (q'.setTenantId _) h
    rw [Process.setTenantId, Process.setTenantId, h.1]

theorem loggingMiddleware_postExecute (h : LogAlike p q p' q') (message : TaskiqMessage)
    (result : TaskiqResult) :
  LogAlike p q (loggingMiddleware.postExecute message result p')
    (loggingMiddleware.postExecute message result q')
  := by
  have hextra : p'.logging.forMessage message = q'.logging.forMessage message := by rw [h.1]
  simp only [loggingMiddleware]
  split
  · apply h.log _ hextra
  · apply h.log _ hextra

theorem loggingMiddleware_onError (h : LogAlike p q p' q') (message : TaskiqMessage) :
  LogAlike p q (loggingMiddleware.onError message p') (loggingMiddleware.onError message q')
  := by
  have hextra : p'.logging.forMessage message = q'.logging.forMessage message := by rw [h.1]
  apply (h.log _ hextra).setLogging rfl

end Process.LogAlike

namespace Delivery

open Process

/-- The hooks before the body. -/
theorem logAlike_preExecuteAll (h : p.logging = q.logging) (start : F.Number)
    (resend : Process → Process) (message : TaskiqMessage) :
  ∃ p' q', preExecuteAll (registerMiddleware start resend) message p
      = (message.preExecuted F start, p') ∧
    preExecuteAll (registerMiddleware start resend) message q
      = (message.preExecuted F start, q') ∧ LogAlike p q p' q'
  := by
  obtain ⟨p', hp, -⟩ := preExecuteAll_registered start resend message p
  obtain ⟨q', hq, -⟩ := preExecuteAll_registered start resend message q
  refine ⟨p', q', hp, hq, ?_⟩
  have hp' : p' = (tenantMiddleware.preExecute
      (loggingMiddleware.preExecute message p).1 (loggingMiddleware.preExecute message p).2).2 :=
    (congrArg Prod.snd hp).symm
  have hq' : q' = (tenantMiddleware.preExecute
      (loggingMiddleware.preExecute message q).1 (loggingMiddleware.preExecute message q).2).2 :=
    (congrArg Prod.snd hq).symm
  rw [hp', hq']
  exact ((LogAlike.refl h).loggingMiddleware_preExecute message).tenantMiddleware_preExecute message

mutual

/-- What a delivery logs, and the context it leaves, depend on the context it finds alone. -/
theorem logAlike_process (d : Delivery F) {p q : Process} (h : p.logging = q.logging) :
  LogAlike p q (d.process p) (d.process q)
  := by
  obtain ⟨message, start, logs, outcome, again⟩ := d
  obtain ⟨p', q', hp, hq, hstarted⟩ :=
    logAlike_preExecuteAll h start (processAll again) message
  have hbody := hstarted.body (message.preExecuted F start) logs
  cases outcome with
  | none =>
      rw [process_returned hp, process_returned hq]
      apply hbody.clearTenantId.loggingMiddleware_postExecute _ _
  | some exception =>
      rw [process_raised hp, process_raised hq]
      have hagain := hbody.trans (logAlike_processAll again hbody.1)
      have herror := hagain.clearTenantId.loggingMiddleware_onError (message.preExecuted F start)
      apply herror.clearTenantId.loggingMiddleware_postExecute _ _

theorem logAlike_processAll (ds : List (Delivery F)) {p q : Process}
    (h : p.logging = q.logging) :
  LogAlike p q (processAll ds p) (processAll ds q)
  := by
  cases ds with
  | nil => apply LogAlike.refl h
  | cons d ds =>
      have hd := logAlike_process d h
      apply hd.trans (logAlike_processAll ds hd.1)

end

/-- A delivery leaves the context empty exactly when its body has raised. -/
theorem logging_process_eq_iff (d : Delivery F) (p : Process) :
  (d.process p).logging = {} ↔ d.outcome.isSome = true
  := by
  obtain ⟨message, start, logs, outcome, again⟩ := d
  obtain ⟨p', hstarted, -, -, htaskId⟩ :=
    preExecuteAll_registered start (processAll again) message p
  cases outcome with
  | none =>
      have hleft : ((Delivery.mk message start logs none again).process p).logging
          = p'.logging := by
        rw [process_returned hstarted]
        exact (loggingMiddleware_postExecute _ _ _).2.2
      rw [hleft]
      constructor
      · intro hempty
        rw [hempty] at htaskId
        cases htaskId
      · rintro ⟨⟩
  | some exception =>
      have hleft : ((Delivery.mk message start logs (some exception) again).process p).logging
          = {} := by
        rw [process_raised hstarted]
        exact (loggingMiddleware_postExecute _ _ _).2.2
      simp only [hleft, outcome, Option.isSome_some]

end Delivery

namespace Delivery

/-- Working on deliveries one after the other, a process comes to work on a delivery: on one of
them, or, in place, on one of a message that has been sent again. -/
inductive Handles : List (Delivery F) → Process → Delivery F → Process → Prop where
  | here {d : Delivery F} {ds : List (Delivery F)} {p : Process} : Handles (d :: ds) p d p
  | later {d d' : Delivery F} {ds : List (Delivery F)} {p p' : Process}
      (h : Handles ds (d.process p) d' p') : Handles (d :: ds) p d' p'
  | again {message message' : TaskiqMessage} {start : F.Number} {logs : List String}
      {exception : PyException} {again ds : List (Delivery F)} {d' : Delivery F} {p p' q : Process}
      (started : preExecuteAll (registerMiddleware start (processAll again)) message p
        = (message', q))
      (h : Handles again (q.body message' logs) d' p') :
      Handles (.mk message start logs (some exception) again :: ds) p d' p'

mutual

/-- The body of a message raises whenever the message is delivered. -/
def Raises : Delivery F → Prop
  | .mk _ _ _ outcome again => outcome.isSome = true ∧ RaisesAll again

/-- The bodies of messages raise, those of the messages sent again included. -/
def RaisesAll : List (Delivery F) → Prop
  | [] => True
  | d :: ds => d.Raises ∧ RaisesAll ds

end

theorem isSome_of_raises {d : Delivery F} (h : d.Raises) :
  d.outcome.isSome = true
  := by
  obtain ⟨message, start, logs, outcome, again⟩ := d
  apply h.1

/-- A delivery on which a process comes to work raises when all do. -/
theorem isSome_of_handles {ds : List (Delivery F)} {d : Delivery F}
    (h : Handles ds p d q) (hraises : RaisesAll ds) :
  d.outcome.isSome = true
  := by
  induction h with
  | here => apply isSome_of_raises hraises.1
  | later _ ih => apply ih hraises.2
  | again _ _ ih => apply ih hraises.1.2

end Delivery

/-- A process that works on messages one after the other has an empty logging context after each
of them, and after each that it works on in place, and logs about each what it would log about it
alone. -/
structure LogsIsolated (ds : List (Delivery F)) : Prop where
  cleared : ∀ d p, Delivery.Handles ds {} d p → (d.process p).logging = {}
  alone : ∀ n d, ds[n]? = some d →
    (d.process (Delivery.processAll (ds.take n) {})).records
      = (Delivery.processAll (ds.take n) {}).records ++ (d.process {}).records

namespace Delivery

theorem processAll_append (ds ds' : List (Delivery F)) (p : Process) :
  processAll (ds ++ ds') p = processAll ds' (processAll ds p)
  := by
  induction ds generalizing p with
  | nil => rfl
  | cons d ds ih => apply ih (d.process p)

/-- One more message leaves the context that it leaves alone. -/
theorem processAll_take_succ {ds : List (Delivery F)} {n : ℕ} {d : Delivery F}
    (h : ds[n]? = some d) (p : Process) :
  processAll (ds.take (n + 1)) p = d.process (processAll (ds.take n) p)
  := by
  rw [List.take_add_one, h, processAll_append]
  rfl

/-- The deliveries of messages whose bodies raise raise. -/
theorem isSome_of_mem {ds : List (Delivery F)} (h : RaisesAll ds) {d : Delivery F} (hd : d ∈ ds) :
  d.outcome.isSome = true
  := by
  induction ds with
  | nil => cases hd
  | cons e ds ih =>
      rcases List.mem_cons.mp hd with rfl | hd
      · apply isSome_of_raises h.1
      · apply ih h.2 hd

/-- The context is empty between messages whose bodies raise. -/
theorem logging_processAll_take {ds : List (Delivery F)} (h : RaisesAll ds) (n : ℕ) :
  (processAll (ds.take n) {}).logging = {}
  := by
  cases n with
  | zero => rfl
  | succ n =>
      cases hn : ds[n]? with
      | none =>
          rw [List.take_add_one, hn, Option.toList_none, List.append_nil]
          apply logging_processAll_take h n
      | some d =>
          rw [processAll_take_succ hn]
          exact (logging_process_eq_iff d _).mpr (isSome_of_mem h (List.mem_of_getElem? hn))

mutual

/-- A delivery that leaves the context empty, and does so whenever its message is delivered in
place, raises. -/
theorem raises_of_cleared (d : Delivery F) (p : Process)
    (h : ∀ d' p', Handles [d] p d' p' → (d'.process p').logging = {}) :
  d.Raises
  := by
  have hraised := (logging_process_eq_iff d p).mp (h d p .here)
  obtain ⟨message, start, logs, outcome, again⟩ := d
  obtain ⟨exception, rfl⟩ := Option.isSome_iff_exists.mp hraised
  obtain ⟨p', hstarted, -⟩ := preExecuteAll_registered start (processAll again) message p
  constructor
  · rfl
  · apply raisesAll_of_cleared again
      (p'.body (message.preExecuted F start) logs)
    intro d' q hd'
    apply h d' q (.again hstarted hd')

theorem raisesAll_of_cleared (ds : List (Delivery F)) (p : Process)
    (h : ∀ d' p', Handles ds p d' p' → (d'.process p').logging = {}) :
  RaisesAll ds
  := by
  cases ds with
  | nil => trivial
  | cons d ds =>
      constructor
      · apply raises_of_cleared d p
        intro d' p' hd'
        cases hd' with
        | here => apply h d p .here
        | later hd' => cases hd'
        | again hstarted hd' => apply h d' p' (.again hstarted hd')
      · apply raisesAll_of_cleared ds (d.process p)
        intro d' p' hd'
        apply h d' p' (.later hd')

end

end Delivery

/-- The logging contexts of messages are isolated exactly when the body of each of them raises,
and the bodies of those sent again in place do too. -/
theorem logsIsolated_iff (ds : List (Delivery F)) :
  LogsIsolated ds ↔ Delivery.RaisesAll ds
  := by
  constructor
  · intro hisolated
    apply Delivery.raisesAll_of_cleared ds {} hisolated.cleared
  · intro hraised
    constructor
    · intro d p hd
      exact (Delivery.logging_process_eq_iff d p).mpr (Delivery.isSome_of_handles hd hraised)
    · intro n d hd
      obtain ⟨-, rs, hrecords, halone⟩ := Delivery.logAlike_process d (q := {})
        (Delivery.logging_processAll_take hraised n)
      rw [hrecords, halone]
      rfl

namespace Example

/-- The message is executed and succeeds. -/
def succeededDelivery : Delivery seconds := .mk message (reading 1) [] none []

end Example

/-- After a message that has succeeded its context is left, and the next message, which has no
tenant, is logged with its tenant. -/
theorem not_logsIsolated :
  (Delivery.processAll [Example.succeededDelivery] {}).logging
      = { taskId := some "1".toList, tenantId := some Example.tenantId.text,
          taskName := some "job".toList } ∧
    (Example.tenantlessDelivery.process {}).records.map (·.extra.tenantId) = [none, none] ∧
    (Delivery.processAll [Example.succeededDelivery, Example.tenantlessDelivery] {}).records.map
        (fun record => (record.extra.taskId, record.extra.tenantId))
      = [(some "1".toList, none), (some "1".toList, some Example.tenantId.text),
          (some "1".toList, some Example.tenantId.text),
          (some "2".toList, some Example.tenantId.text),
          (some "2".toList, some Example.tenantId.text)] ∧
    ¬ LogsIsolated [Example.succeededDelivery, Example.tenantlessDelivery]
  := by
  refine ⟨by decide, by decide, by decide, ?_⟩
  intro hisolated
  have hcleared := hisolated.cleared Example.succeededDelivery {} .here
  exact absurd (congrArg LoggingContext.taskId hcleared) (by decide)

end WorkerTemplate
