import WorkerTemplate.Chain.Completion
import WorkerTemplate.Concurrent.Locks.Protocol
import WorkerTemplate.Program.Locking

/-!
# The locks of the workers

The workers lock rows in one order, so they never wait for one another in a circle.  When nothing
fails and no more messages are delivered, all the hooks come to their end and leave no row locked.
-/

namespace WorkerTemplate

namespace Locks

variable {w w' : Cluster} {t : ℕ} {held held' : List RowKey} {helds : List (List RowKey)}

/-- The threads hold the locks of the rows that their transactions have locked. -/
structure Inv (helds : List (List RowKey)) (w : Cluster) : Prop where
  locked : ∀ row t, w.locked row = some t → ∃ held, helds[t]? = some held ∧ row ∈ held
  held : ∀ t held, helds[t]? = some held → ∀ row ∈ held, w.locked row = some t

/-- A transaction that is over holds no locks. -/
theorem Inv.release (h : Inv helds w) (hheld : helds[t]? = some held)
    (hlocked : w'.locked = (w.release t).locked) :
  Inv (helds.set t []) w'
  := by
  have ht : t < helds.length := (List.getElem?_eq_some_iff.mp hheld).1
  constructor
  case locked =>
    intro row t' hrow
    rw [hlocked] at hrow
    obtain ⟨hne, hrow⟩ := Cluster.of_locked_release hrow
    obtain ⟨held', hheld', hmem⟩ := h.locked row t' hrow
    use held'
    rw [List.getElem?_set_ne hne.symm]
    exact ⟨hheld', hmem⟩
  case held =>
    intro t' held' hheld' row hrow
    rcases Machine.state_of_set hheld' with ⟨-, rfl⟩ | ⟨hne, hheld'⟩
    · cases hrow
    · have hself := h.held t' held' hheld' row hrow
      rw [hlocked]
      simp only [Cluster.release, hself, Option.some.injEq]
      rw [if_neg hne]

/-- A statement that does not wait adds its lock. -/
theorem Inv.push (h : Inv helds w) (hheld : helds[t]? = some held) {s : Statement}
    (hfree : ¬ w.Blocked t s) (hlocked : w'.locked = (w.push t s).locked) :
  Inv (helds.set t (held ++ s.locks.toList)) w'
  := by
  have ht : t < helds.length := (List.getElem?_eq_some_iff.mp hheld).1
  constructor
  case locked =>
    intro row t' hrow
    rw [hlocked] at hrow
    rcases Cluster.of_locked_push hrow with ⟨rfl, hlocks⟩ | hrow
    · use held ++ s.locks.toList
      rw [List.getElem?_set_self ht]
      simp [hlocks]
    · obtain ⟨held', hheld', hmem⟩ := h.locked row t' hrow
      by_cases hself : t' = t
      · subst hself
        cases hheld.symm.trans hheld'
        use held ++ s.locks.toList
        rw [List.getElem?_set_self ht]
        exact ⟨rfl, List.mem_append_left _ hmem⟩
      · use held'
        rw [List.getElem?_set_ne (Ne.symm hself)]
        exact ⟨hheld', hmem⟩
  case held =>
    intro t' held' hheld' row hrow
    rw [hlocked]
    simp only [Cluster.push]
    rcases Machine.state_of_set hheld' with ⟨rfl, rfl⟩ | ⟨hne, hheld'⟩
    · split
      case isTrue => rfl
      case isFalse hlocks =>
        rcases List.mem_append.mp hrow with hrow | hrow
        · apply h.held t' held hheld row hrow
        · exact absurd (by simpa using hrow) hlocks
    · have hself := h.held t' held' hheld' row hrow
      split
      case isTrue hlocks => exact absurd ⟨row, t', hlocks, hself, hne⟩ hfree
      case isFalse => apply hself

/-- An operation moves the locked rows of its thread as the protocol says. -/
theorem Inv.performs (h : Inv helds w) (hheld : helds[t]? = some held) {faults : Cluster.Faults}
    {o : Op} {r : o.Answer} (hstep : w.Performs faults t o r w') :
  ∃ held', protocol.moves held o r held' ∧ Inv (helds.set t held') w'
  := by
  have hkeep {w' : Cluster} (hlocked : w'.locked = w.locked) : Inv (helds.set t held) w' := by
    obtain ⟨ht, rfl⟩ := List.getElem?_eq_some_iff.mp hheld
    rw [List.set_getElem_self]
    exact ⟨fun row => hlocked ▸ h.locked row, fun t held => hlocked ▸ h.held t held⟩
  cases hstep with
  | opens => exact ⟨[], rfl, h.release hheld rfl⟩
  | closes => exact ⟨[], rfl, h.release hheld rfl⟩
  | answers free answers => exact ⟨_, rfl, h.push hheld free rfl⟩
  | fails => exact ⟨[], rfl, h.release hheld rfl⟩
  | commits => exact ⟨[], rfl, h.release hheld rfl⟩
  | lost => exact ⟨[], rfl, h.release hheld rfl⟩
  | applied => exact ⟨[], rfl, h.release hheld rfl⟩
  | now time => exact ⟨held, rfl, hkeep rfl⟩
  | accepts => exact ⟨held, rfl, hkeep rfl⟩
  | rejects => exact ⟨held, rfl, hkeep rfl⟩
  | emits r => exact ⟨held, rfl, hkeep rfl⟩
  | runs => exact ⟨held, rfl, hkeep rfl⟩

/-- A thread that is new has locked nothing. -/
theorem Inv.spawn (h : Inv helds w) :
  Inv (helds ++ [[]]) w
  := by
  constructor
  case locked =>
    intro row t hrow
    obtain ⟨held, hheld, hmem⟩ := h.locked row t hrow
    have ht : t < helds.length := (List.getElem?_eq_some_iff.mp hheld).1
    use held
    rw [List.getElem?_append_left ht]
    exact ⟨hheld, hmem⟩
  case held =>
    intro t held hheld row hrow
    rcases Machine.state_of_concat hheld with hheld | ⟨-, rfl⟩
    · apply h.held t held hheld row hrow
    · cases hrow

/-- What is spawned locks rows in the order, and is not in a transaction when it begins and when
it ends. -/
def Orderly (spawns : Cluster → Program Op.Answer PUnit → Cluster → Prop) : Prop :=
  ∀ w p w', spawns w p w' → w' = w ∧ p.Follows protocol (fun _ held => held = []) []

/-- Workers whose threads lock rows in the order hold the locks that the protocol says. -/
def refinement (faults : Cluster.Faults)
    (spawns : Cluster → Program Op.Answer PUnit → Cluster → Prop) (hspawns : Orderly spawns) :
    (workers faults spawns).Refinement protocol where
  final held := held = []
  inv := Inv
  exec := by
    intro helds w w' t held o r h hheld _ hstep
    apply h.performs hheld hstep
  spawn := by
    intro helds w w' p h hspawn
    obtain ⟨rfl, hfollows⟩ := hspawns w p w' hspawn
    exact ⟨[], hfollows, h.spawn⟩
  crash := by
    rintro helds w w' t held h hheld ⟨-, rfl⟩
    exact ⟨[], rfl, h.release hheld rfl⟩

/-- The rows that the threads have locked, and the ones they ask for next. -/
def locking (c : Machine.Config Op.Answer Cluster) : Locking ℕ RowKey where
  holder := c.world.locked
  wants t :=
    match c.threads[t]? with
    | some (.perform (.statement s) _) => s.locks
    | _ => none

section Waiting

variable {faults : Cluster.Faults} {spawns : Cluster → Program Op.Answer PUnit → Cluster → Prop}
  {hspawns : Orderly spawns} {c : Machine.Config Op.Answer Cluster}

/-- A thread asks for a row with its next statement. -/
theorem of_wants {t : ℕ} {row : RowKey} (h : (locking c).wants t = some row) :
  ∃ s k, c.threads[t]? = some (.perform (.statement s) k) ∧ s.locks = some row
  := by
  simp only [locking] at h
  split at h
  case h_1 s k hp => exact ⟨s, k, hp, h⟩
  case h_2 => cases h

/-- The threads lock rows in the order. -/
theorem ascends (h : (refinement faults spawns hspawns).Accounts helds c) :
  (locking c).Ascends RowKey.rank
  := by
  intro t row row' hrow hrow'
  obtain ⟨s, k, hp, hlocks⟩ := of_wants hrow'
  obtain ⟨held, hheld, hallows, -⟩ := h.state hp
  obtain ⟨held', hheld', hmem⟩ := h.inv.locked row t hrow
  cases hheld.symm.trans hheld'
  rcases hallows row' hlocks with hmem' | hlt
  · exact Or.inl (h.inv.held t held hheld row' hmem')
  · exact Or.inr (hlt row hmem)

/-- A thread that others wait for has not returned. -/
theorem live_of_waitsFor (h : (refinement faults spawns hspawns).Accounts helds c) {t t' : ℕ}
    (hwaits : (locking c).WaitsFor t t') :
  ∃ o k, c.threads[t']? = some (.perform o k)
  := by
  obtain ⟨row, -, hholder, -⟩ := hwaits
  obtain ⟨held, hheld, hmem⟩ := h.inv.locked row t' hholder
  have ht' : t' < c.threads.length := by
    rw [h.length]
    apply (List.getElem?_eq_some_iff.mp hheld).1
  have hfollows := h.follows t' _ held (List.getElem?_eq_getElem ht') hheld
  rw [List.getElem?_eq_getElem ht']
  cases hp : c.threads[t'] with
  | perform o k => exact ⟨o, k, rfl⟩
  | pure a =>
      rw [hp] at hfollows
      rw [show held = [] from hfollows] at hmem
      cases hmem

/-- A thread that does not wait can go on. -/
theorem exists_performs_of_not_waits {t : ℕ} {o : Op} {k : o.Answer → Program Op.Answer PUnit}
    (hp : c.threads[t]? = some (.perform o k)) (hfree : ¬ (locking c).Waits t) :
  ∃ r w', c.world.Performs Example.calm t o r w'
  := by
  apply Cluster.exists_performs
  rintro s rfl ⟨row, t', hlocks, hlocked, hne⟩
  apply hfree
  use t', row
  simp only [locking, hp]
  exact ⟨hlocks, hlocked, hne⟩

/-- A thread that has not returned waits in the end for one that can go on. -/
theorem exists_waitsFor_performs (h : (refinement faults spawns hspawns).Accounts helds c) {t : ℕ}
    {o : Op} {k : o.Answer → Program Op.Answer PUnit}
    (hp : c.threads[t]? = some (.perform o k)) :
  ∃ t' o' k' r w', Relation.ReflTransGen (locking c).WaitsFor t t' ∧
    c.threads[t']? = some (.perform o' k') ∧ c.world.Performs Example.calm t' o' r w'
  := by
  obtain ⟨t', hreach, hfree⟩ := (ascends h).exists_not_waits t
  have hlive : ∃ o' k', c.threads[t']? = some (.perform o' k') := by
    rcases Relation.ReflTransGen.cases_tail hreach with rfl | ⟨t₁, -, hwaits⟩
    · exact ⟨o, k, hp⟩
    · apply live_of_waitsFor h hwaits
  obtain ⟨o', k', hp'⟩ := hlive
  obtain ⟨r, w', hperforms⟩ := exists_performs_of_not_waits hp' hfree
  exact ⟨t', o', k', r, w', hreach, hp', hperforms⟩

end Waiting

/-- The work of the workers locks rows in the order. -/
theorem orderly_spawnsWork (sets : TaskStatus → Prop) :
  Orderly (SpawnsWork sets)
  := fun _ _ _ h => (Hook.works_locks sets).follows h rfl

/-- Every reachable configuration of the workers is accounted for. -/
theorem exists_accounts {db : Database} {outcomes : ℕ → Option PyException}
    {faults : Cluster.Faults} {sets : TaskStatus → Prop} {c : Machine.Config Op.Answer Cluster}
    (hc : (workers faults (SpawnsWork sets)).Reachable { db, outcomes } c) :
  ∃ helds, (refinement faults (SpawnsWork sets) (orderly_spawnsWork sets)).Accounts helds c
  := by
  apply Machine.Refinement.reachable _ _ hc
  constructor
  · rintro row t ⟨⟩
  · rintro t held ⟨⟩

end Locks

/-- The workers do not lock one another out: whatever has happened, a thread that has not
returned can perform its next operation, or it waits, by way of other threads, for a thread that
can. -/
theorem exists_performs_of_live {db : Database} {outcomes : ℕ → Option PyException}
    {faults : Cluster.Faults} {sets : TaskStatus → Prop} {c : Machine.Config Op.Answer Cluster}
    (hc : (workers faults (SpawnsWork sets)).Reachable { db, outcomes } c) {t : ℕ} {o : Op}
    {k : o.Answer → Program Op.Answer PUnit} (hp : c.threads[t]? = some (.perform o k)) :
  ∃ t' o' k' r w', Relation.ReflTransGen (Locks.locking c).WaitsFor t t' ∧
    c.threads[t']? = some (.perform o' k') ∧ c.world.Performs Example.calm t' o' r w'
  := by
  obtain ⟨helds, h⟩ := Locks.exists_accounts hc
  apply Locks.exists_waitsFor_performs h hp

namespace Example

/-- Two calls of `on_error`, of which the first has updated the execution and the second is about
to update it. -/
def contending : List Turn :=
  [.spawn errorThread, .run 0 6 {}, .spawn errorThread, .run 1 5 {}]

/-- The second call of `on_error` waits for the first one. -/
def isContended (c : Machine.Config Op.Answer Cluster) : Bool :=
  match c.threads[(1 : ℕ)]? with
  | some (.perform (.statement s) _) => decide (c.world.Blocked 1 s)
  | _ => false

theorem exists_contended :
  ∃ c, (workers .any (SpawnsWork fun _ => True)).Reachable (cluster 0 1) c ∧ isContended c = true
  := by
  have hpermitted : ∀ turn ∈ contending, turn.Permitted .any (SpawnsWork fun _ => True) := by
    have hspawn : (Turn.spawn errorThread).Permitted .any (SpawnsWork fun _ => True) :=
      fun _ => .hook settings message _ (.onError exception)
    have hrun (t n : ℕ) : (Turn.run t n {}).Permitted .any (SpawnsWork fun _ => True) :=
      ⟨fun _ => trivial, fun _ => trivial⟩
    simp only [contending, List.forall_mem_cons, List.not_mem_nil]
    exact ⟨hspawn, hrun _ _, hspawn, hrun _ _, by simp⟩
  apply Turn.exists_reachable hpermitted
  decide +kernel

end Example

/-- A call of `on_error` that waits for the row another call has updated waits in the end for a
thread that can go on. -/
theorem exists_performs_of_contended :
  ∃ c s k, (workers .any (SpawnsWork fun _ => True)).Reachable (Example.cluster 0 1) c ∧
    c.threads[(1 : ℕ)]? = some (.perform (.statement s) k) ∧ c.world.Blocked 1 s ∧
    ∃ t' o' k' r w', Relation.ReflTransGen (Locks.locking c).WaitsFor 1 t' ∧
      c.threads[t']? = some (.perform o' k') ∧ c.world.Performs Example.calm t' o' r w'
  := by
  obtain ⟨c, hc, hcontended⟩ := Example.exists_contended
  unfold Example.isContended at hcontended
  split at hcontended
  case h_1 s k hp => exact ⟨c, s, k, hc, hp, of_decide_eq_true hcontended,
      exists_performs_of_live hc hp⟩
  case h_2 => cases hcontended

/-- The workers when nothing fails and nothing more is spawned. -/
def settling : Machine Op.Answer Cluster := workers Example.calm (fun _ _ _ => False)

/-- When nothing fails and nothing more is spawned, the workers come to rest, in whatever order
their threads go on: there is no run without end, and where a run cannot go on every thread has
returned and no row is locked. -/
theorem comes_to_rest {db : Database} {outcomes : ℕ → Option PyException}
    {faults : Cluster.Faults} {sets : TaskStatus → Prop} {c : Machine.Config Op.Answer Cluster}
    (hc : (workers faults (SpawnsWork sets)).Reachable { db, outcomes } c) :
  (∀ f : ℕ → Machine.Config Op.Answer Cluster, f 0 = c →
      ¬ ∀ k, settling.Step (f k) (f (k + 1))) ∧
    ∀ c', Relation.ReflTransGen settling.Step c c' → (∀ c'', ¬ settling.Step c' c'') →
      (∀ p ∈ c'.threads, p.hasReturned = true) ∧ ∀ row, c'.world.locked row = none
  := by
  obtain ⟨helds, h⟩ := Locks.exists_accounts hc
  have hlength {c c' : Machine.Config Op.Answer Cluster} (hstep : settling.Step c c') :
      c'.threads.length = c.threads.length := by
    cases hstep with
    | exec thread exec => simp
    | spawn spawn => cases spawn
    | crash thread crash => simp
  let R := Locks.refinement Example.calm (fun _ _ _ => False) (by rintro _ _ _ ⟨⟩)
  have hrest {c' : Machine.Config Op.Answer Cluster}
      (hc' : Relation.ReflTransGen settling.Step c c') : ∃ helds, R.Accounts helds c' := by
    induction hc' with
    | refl => exact ⟨helds, h.length, h.follows, h.inv⟩
    | tail _ hstep ih =>
        obtain ⟨helds', h'⟩ := ih
        apply h'.step hstep
  constructor
  · rintro f rfl hstep
    apply Machine.not_forall_step (M := settling) (n := (f 0).threads.length) _ _ hstep
    · rintro t w w' ⟨hcrashes, -⟩
      apply hcrashes
    · intro k
      induction k with
      | zero => rfl
      | succ k ih =>
          rw [hlength (hstep k)]
          apply ih
  · intro c' hc' hstuck
    obtain ⟨helds', h'⟩ := hrest hc'
    have hreturned : ∀ p ∈ c'.threads, p.hasReturned = true := by
      intro p hp
      obtain ⟨t, ht⟩ := List.mem_iff_getElem?.mp hp
      cases p with
      | pure a => rfl
      | perform o k =>
          obtain ⟨t', o', k', r, w', -, hp', hperforms⟩ := Locks.exists_waitsFor_performs h' ht
          exact absurd (Machine.Step.exec hp' hperforms) (hstuck _)
    use hreturned
    intro row
    by_contra hlocked
    obtain ⟨t, hlocked⟩ := Option.ne_none_iff_exists'.mp hlocked
    obtain ⟨held, hheld, hmem⟩ := h'.inv.locked row t hlocked
    rw [show held = [] from h'.final_of_returned hreturned hheld] at hmem
    cases hmem

/-- Two calls of `on_error` that update the same execution come to rest. -/
theorem comes_to_rest_of_contended :
  ∃ c, (workers .any (SpawnsWork fun _ => True)).Reachable (Example.cluster 0 1) c ∧
    Example.isContended c = true ∧
    (∀ f : ℕ → Machine.Config Op.Answer Cluster, f 0 = c →
      ¬ ∀ k, settling.Step (f k) (f (k + 1))) ∧
    ∀ c', Relation.ReflTransGen settling.Step c c' → (∀ c'', ¬ settling.Step c' c'') →
      (∀ p ∈ c'.threads, p.hasReturned = true) ∧ ∀ row, c'.world.locked row = none
  := by
  obtain ⟨c, hc, hcontended⟩ := Example.exists_contended
  exact ⟨c, hc, hcontended, comes_to_rest hc⟩

end WorkerTemplate
