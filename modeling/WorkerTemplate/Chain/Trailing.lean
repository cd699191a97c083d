import WorkerTemplate.Chain.World

/-!
# The trailing workers in the world

The operations of a worker that trails keep the invariant of the chain, wherever the worker that
leads is: the mark of an audit row commutes with what the leading worker has written.
-/

namespace WorkerTemplate

namespace Chain.Invariant

variable {chain : Chain} {n t : ℕ} {row : TaskExecution} {parts : List Part} {w : Cluster}

variable {k : ℕ} {mark : Mark} {telling : Telling} (h : chain.Invariant n row parts w)
  (hpart : parts[t]? = some (.trails k mark telling))

include h hpart

/-- The baton stays where it is while a worker trails. -/
theorem trails_baton (mark' : Mark) (telling' : Telling) {w' : Cluster}
    (hqueue : w'.queue = w.queue) (hruns : w'.runs = w.runs) :
  chain.Queued n (parts.set t (.trails k mark' telling')) w' ∨
    ∃ t₁ lead, Chain.Taken n t₁ lead (parts.set t (.trails k mark' telling')) w'
  := by
  have htrails : ∀ lead, Part.trails k mark' telling' ≠ .leads lead := by rintro lead ⟨⟩
  rcases h.baton with hqueued | ⟨t₁, lead, htaken⟩
  · exact Or.inl (hqueued.trails _ htrails hqueue hruns)
  · have hne : t₁ ≠ t := by
      rintro rfl
      have hlead := htaken.part
      rw [hpart] at hlead
      cases hlead
    exact Or.inr ⟨t₁, lead, htaken.trails hne _ htrails hqueue hruns⟩

/-- A trailing worker sends a statement. -/
theorem trails_statement {st : Statement} (hallows : mark.Allows chain.execution k st)
    {r : st.Answer} (hr : (w.view t).Answers st r) :
  ∃ mark', Mark.Moves st r mark' ∧ chain.Invariant n row (parts.set t (.trails k mark' telling))
    ((w.push t st).record t (.statement st) (.ok r) [])
  := by
  obtain ⟨hone, hk, hmark⟩ := h.agrees t _ hpart
  obtain ⟨mark', hmoves, hmark'⟩ := hmark.statement h.records.tallies hone hk hallows hr
  use mark', hmoves
  apply h.keep hpart
  case hdb => rfl
  case houtcomes => rfl
  case hagrees =>
    rw [Cluster.txn_record, Cluster.txn_push, Function.update_self]
    exact ⟨hone, hk, hmark'⟩
  case htxn =>
    intro t' hne
    rw [Cluster.txn_record, Cluster.txn_push, Function.update_of_ne hne]
  case hlocks =>
    intro key t' hlocked
    by_cases hne : t' = t
    · obtain rfl := hne
      apply Or.inl
      rcases Cluster.of_locked_push hlocked with ⟨-, hkey⟩ | hlocked
      · cases st with
        | updateAttempt id d =>
            cases hkey
            obtain rfl := hmoves
            exact ⟨rfl, rfl⟩
        | selectAttempt filter => cases hkey
        | _ => exact absurd hallows not_false
      · obtain ⟨id, hmarking, -⟩ := Part.locks_trails.mp (h.locks_self hpart hlocked)
        exact absurd hmarking (hallows.ne_marking id)
    · apply Or.inr
      rcases Cluster.of_locked_push hlocked with ⟨heq, -⟩ | hlocked
      · exact absurd heq hne
      · exact ⟨hne, hlocked⟩
  case hawaits =>
    rintro k' ⟨attempt, hattempt, hi, hpending, rfl⟩ ⟨hnumber, -⟩
    refine ⟨hnumber, ?_⟩
    rintro rfl
    apply hmark'.2 attempt hattempt hi hnumber.symm hpending
  case hbaton =>
    apply h.trails_baton hpart
    · rfl
    · rw [Cluster.runs_record]
      · rfl
      · rintro message ⟨⟩

/-- A trailing worker ends a transaction that has written nothing. -/
theorem trails_release (hmark : mark = .marked) {o : Op} (ho : ∀ message, o ≠ .body message)
    (r : o.Answer) (es : List Effect) :
  chain.Invariant n row (parts.set t (.trails k mark telling)) ((w.release t).record t o r es)
  := by
  obtain ⟨hone, hk, hagrees⟩ := h.agrees t _ hpart
  obtain rfl := hmark
  apply h.keep hpart
  case hdb => rfl
  case houtcomes => rfl
  case hagrees =>
    rw [Cluster.txn_record, Cluster.txn_release, Function.update_self]
    exact ⟨hone, hk, rfl, hagrees.2⟩
  case htxn =>
    intro t' hne
    rw [Cluster.txn_record, Cluster.txn_release, Function.update_of_ne hne]
  case hlocks =>
    intro key t' hlocked
    exact Or.inr (Cluster.of_locked_release hlocked)
  case hawaits =>
    intro k _ hawaits
    apply hawaits
  case hbaton =>
    apply h.trails_baton hpart
    · rfl
    · rw [Cluster.runs_record ho]
      rfl

/-- A trailing worker commits the mark of its audit row. -/
theorem trails_mark {id : Option ℕ} (hmark : mark = .marking id) :
  chain.Invariant n row (parts.set t (.trails k .marked telling))
    ((w.commit t).record t .commit (.ok ()) (w.txn t))
  := by
  obtain ⟨hone, hk, hagrees⟩ := h.agrees t _ hpart
  obtain rfl := hmark
  obtain ⟨htxn, hhas⟩ := hagrees
  have hid : ∃ attempt ∈ w.db.attempts, attempt.id = id := by
    obtain ⟨attempt, hattempt, -, -, hid⟩ := hhas
    exact ⟨attempt, hattempt, hid⟩
  have hdb : w.view t = w.db.apply (.updateAttempt id .dispatched) := by
    rw [Cluster.view, htxn, Database.view_singleton]
  have hdispatched : (w.view t).Dispatched chain.execution k := by
    rw [hdb]
    apply h.records.tallies.dispatched_mark hhas
  apply h.set hpart
  case hrecords =>
    rw [Cluster.db_record, Cluster.db_commit, hdb]
    apply h.records.mark id
  case hle => exact h.le
  case hfailed => exact h.failed
  case houtcomes => rfl
  case hothers =>
    intro t' part _ _ hagrees
    rw [Cluster.db_record, Cluster.db_commit, hdb]
    cases part with
    | leads lead => apply hagrees.mark hid
    | trails k' mark' telling' => exact ⟨hagrees.1, hagrees.2.1, hagrees.2.2.mark id⟩
  case hagrees =>
    rw [Cluster.txn_record, Cluster.txn_commit, Function.update_self]
    exact ⟨hone, hk, rfl, hdispatched⟩
  case htxn =>
    intro t' hne
    rw [Cluster.txn_record, Cluster.txn_commit, Function.update_of_ne hne]
  case hlocks =>
    intro key t' hlocked
    exact Or.inr (Cluster.of_locked_release hlocked)
  case hpending =>
    rintro k' ⟨attempt, hattempt, hi, hpending, rfl⟩
    apply Or.inr
    constructor
    · rintro ⟨hnumber, -⟩
      apply hdispatched attempt hattempt hi hnumber.symm hpending
    · rw [Cluster.db_record, Cluster.db_commit, hdb] at hattempt
      obtain ⟨attempt', hattempt', -, hi', hnumber', hd | ⟨-, rfl⟩⟩ := Database.mem_mark hattempt
      · rw [hpending] at hd
        cases hd
      · exact ⟨attempt', hattempt', hi, hpending, rfl⟩
  case hbaton =>
    apply h.trails_baton hpart
    · rfl
    · rw [Cluster.runs_record]
      · rfl
      · rintro message ⟨⟩

/-- A trailing worker announces its retry. -/
theorem trails_record {o : Op} (ho : ∀ message, o ≠ .body message) (r : o.Answer)
    (telling' : Telling) :
  chain.Invariant n row (parts.set t (.trails k mark telling')) (w.record t o r [])
  := by
  have hagrees : (Part.trails k mark telling).Agrees chain n row w.db (w.txn t) :=
    h.agrees t _ hpart
  apply h.keep hpart
  case hdb => rfl
  case houtcomes => rfl
  case hagrees => exact hagrees
  case htxn =>
    intro t' _
    rfl
  case hlocks =>
    intro key t' hlocked
    by_cases hne : t' = t
    · obtain rfl := hne
      have hlocks := Part.locks_trails.mp (h.locks_self hpart hlocked)
      exact Or.inl ⟨rfl, Part.locks_trails.mpr hlocks⟩
    · exact Or.inr ⟨hne, hlocked⟩
  case hawaits =>
    intro k _ hawaits
    apply hawaits
  case hbaton =>
    apply h.trails_baton hpart
    · rfl
    · rw [Cluster.runs_record ho]

end Chain.Invariant

end WorkerTemplate
