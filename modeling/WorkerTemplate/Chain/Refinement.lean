import WorkerTemplate.Chain.Leading
import WorkerTemplate.Chain.Trailing

/-!
# The workers refine the parts of a chain

Every worker that takes the message follows the protocol of its part, and the operations of the
workers move the parts as the protocol says.
-/

namespace WorkerTemplate

namespace Chain.Invariant

variable {chain : Chain} {n t : ℕ} {row : TaskExecution} {parts : List Part} {w w' : Cluster}

/-- An operation of the leading worker moves its part. -/
theorem leads_exec (h : chain.Invariant n row parts w) {lead : Lead}
    (hpart : parts[t]? = some (.leads lead)) {o : Op} {r : o.Answer}
    (hallows : (Part.leads lead).Allows chain o) (hperforms : w.Performs Example.calm t o r w') :
  ∃ part', (Part.leads lead).Moves chain o r part' ∧
    ∃ n' row', chain.Invariant n' row' (parts.set t part') w'
  := by
  cases hperforms with
  | opens =>
      refine ⟨_, rfl, n, row, h.leads_reset (o := .openSession) hpart hallows ?_ ()⟩
      rintro message ⟨⟩
  | closes =>
      refine ⟨_, rfl, n, row, h.leads_reset (o := .closeSession) hpart hallows ?_ ()⟩
      rintro message ⟨⟩
  | answers free answers =>
      obtain ⟨lead', hmoves, hinvariant⟩ := h.leads_statement hpart hallows.1 hallows.2 answers
      exact ⟨_, ⟨_, lead', rfl, rfl, hmoves⟩, n, row, hinvariant⟩
  | fails failures => exact absurd failures id
  | commits =>
      obtain ⟨n', hinvariant⟩ := h.leads_commit hpart hallows.1 hallows.2
      exact ⟨_, ⟨rfl, rfl⟩, n', _, hinvariant⟩
  | lost failures => exact absurd failures id
  | applied failures => exact absurd failures id
  | now time =>
      refine ⟨_, rfl, n, row, h.leads_record (o := .now) hpart ?_ time lead.telling⟩
      rintro message ⟨⟩
  | accepts =>
      obtain ⟨hdue, rfl⟩ := hallows
      exact ⟨_, ⟨rfl, rfl⟩, n, row, h.leads_kiq hpart hdue⟩
  | rejects rejections => exact absurd rejections id
  | @emits _ room event r =>
      refine ⟨_, rfl, n, row, h.leads_record (o := .emit room event) hpart ?_ r .told⟩
      rintro message ⟨⟩
  | runs =>
      obtain ⟨houtcome, hinvariant⟩ := h.leads_body hpart hallows.1 hallows.2 _
      exact ⟨_, ⟨houtcome, rfl⟩, n, row, hinvariant⟩

/-- An operation of a trailing worker moves its part. -/
theorem trails_exec (h : chain.Invariant n row parts w) {k : ℕ} {mark : Mark} {telling : Telling}
    (hpart : parts[t]? = some (.trails k mark telling)) {o : Op} {r : o.Answer}
    (hallows : (Part.trails k mark telling).Allows chain o)
    (hperforms : w.Performs Example.calm t o r w') :
  ∃ part', (Part.trails k mark telling).Moves chain o r part' ∧
    ∃ n' row', chain.Invariant n' row' (parts.set t part') w'
  := by
  cases hperforms with
  | opens => exact absurd hallows id
  | closes =>
      refine ⟨_, rfl, n, row, h.trails_release (o := .closeSession) hpart hallows ?_ () []⟩
      rintro message ⟨⟩
  | answers free answers =>
      obtain ⟨mark', hmoves, hinvariant⟩ := h.trails_statement hpart hallows answers
      exact ⟨_, ⟨_, mark', rfl, rfl, hmoves⟩, n, row, hinvariant⟩
  | fails failures => exact absurd failures id
  | commits =>
      rcases hallows with rfl | ⟨id, rfl⟩
      · have htxn : w.txn t = [] := (h.agrees t _ hpart).2.2.1
        have hcommit : w.commit t = w.release t := by
          rw [Cluster.commit, Cluster.view, htxn, Database.view_nil]
          rfl
        rw [hcommit, htxn]
        refine ⟨_, ⟨rfl, rfl⟩, n, row, h.trails_release (o := .commit) hpart rfl ?_ (.ok ()) []⟩
        rintro message ⟨⟩
      · exact ⟨_, ⟨rfl, rfl⟩, n, row, h.trails_mark hpart rfl⟩
  | lost failures => exact absurd failures id
  | applied failures => exact absurd failures id
  | now time => exact absurd hallows id
  | accepts => exact absurd hallows id
  | rejects rejections => exact absurd rejections id
  | @emits _ room event r =>
      refine ⟨_, rfl, n, row, h.trails_record (o := .emit room event) hpart ?_ r .told⟩
      rintro message ⟨⟩
  | runs => exact absurd hallows id

/-- The message that is taken is that of the chain, and nobody leads. -/
theorem queued_of_takes (h : chain.Invariant n row parts w) {before after : List TaskiqMessage}
    {message : TaskiqMessage} (hqueue : w.queue = before ++ message :: after) :
  message = chain.message ∧ before ++ after = [] ∧ chain.Queued n parts w
  := by
  rcases h.baton with hqueued | ⟨t, lead, htaken⟩
  · rw [hqueued.queue] at hqueue
    cases before with
    | nil =>
        cases hqueue
        exact ⟨rfl, rfl, hqueued⟩
    | cons message' before => simp at hqueue
  · rw [htaken.queue] at hqueue
    simp at hqueue

/-- The state of a chain after a worker has taken the message. -/
theorem append (h : chain.Invariant n row parts w) (hqueued : chain.Queued n parts w) :
  chain.Invariant n row (parts ++ [.leads (.rest row none .nothing)]) { w with queue := [] }
  := by
  have hleft {t : ℕ} {part : Part} (hpart : parts[t]? = some part) :
      (parts ++ [.leads (.rest row none .nothing)])[t]? = some part := by
    rw [List.getElem?_append_left (List.getElem?_eq_some_iff.mp hpart).1, hpart]
  constructor
  case records => exact h.records
  case le => exact h.le
  case failed => exact h.failed
  case outcomes => exact h.outcomes
  case agrees =>
    intro t part hpart
    rcases Machine.state_of_concat hpart with hpart | ⟨rfl, rfl⟩
    · apply h.agrees t part hpart
    · have htxn : w.txn parts.length = [] := h.idle parts.length (Nat.le_refl _)
      change Lead.Agrees chain n row w.db (w.txn parts.length) (.rest row none .nothing)
      rw [htxn]
      apply Lead.Agrees.start h.records .nothing
  case idle =>
    intro t ht
    rw [List.length_append] at ht
    apply h.idle t (by omega)
  case locks =>
    intro key t hlocked
    obtain ⟨part, hpart, hlocks⟩ := h.locks key t hlocked
    exact ⟨part, hleft hpart, hlocks⟩
  case pending =>
    intro k hk
    obtain ⟨t, part, hpart, hawaits⟩ := h.pending k hk
    exact ⟨t, part, hleft hpart, hawaits⟩
  case baton => exact Or.inr ⟨_, _, hqueued.append _⟩

/-- A worker that takes the message leads. -/
theorem take (hchain : chain.Sound) (h : chain.Invariant n row parts w)
    {p : Program Op.Answer PUnit} (htakes : chain.Takes w p w') :
  p.Follows (chained chain) (fun _ => Part.Final chain) (.leads (.rest row none .nothing)) ∧
    chain.Invariant n row (parts ++ [.leads (.rest row none .nothing)]) w' ∧
    w'.history = w.history ∧ w'.db = w.db
  := by
  obtain ⟨settings, message, s, before, after, hworker, hqueue, rfl, rfl⟩ := htakes
  obtain ⟨rfl, hrest, hqueued⟩ := h.queued_of_takes hqueue
  rw [hrest]
  refine ⟨?_, h.append hqueued, rfl, rfl⟩
  apply Hook.follows_thread
  apply Hook.Obeys.mono (Hook.yields_deliver hchain hworker h.records.row h.le)
  rintro r s' part' ⟨-, -, hfinal⟩
  apply hfinal

end Chain.Invariant

/-- The workers of a chain follow the protocol of their parts. -/
def Chain.refinement (chain : Chain) (hchain : chain.Sound) :
    Machine.Refinement chain.machine (chained chain) where
  final := Part.Final chain
  inv parts w := ∃ n row, chain.Invariant n row parts w
  exec := by
    rintro parts w w' t part o r ⟨n, row, h⟩ hpart hallows hperforms
    cases part with
    | leads lead => apply h.leads_exec hpart hallows hperforms
    | trails k mark telling => apply h.trails_exec hpart hallows hperforms
  spawn := by
    rintro parts w w' p ⟨n, row, h⟩ htakes
    obtain ⟨hfollows, h', -⟩ := h.take hchain htakes
    exact ⟨_, hfollows, n, row, h'⟩
  crash := by
    rintro parts w w' t part - - ⟨hcrashes, -⟩
    exact absurd hcrashes id

end WorkerTemplate
