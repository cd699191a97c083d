import WorkerTemplate.Hook
import WorkerTemplate.Program.Protocol

/-!
# Hooks within a protocol

A hook obeys a protocol from its objects and a state of the protocol to a postcondition on
what it returns or raises, the objects it leaves, and the state of the protocol.  The rules
follow the syntax of hooks.
-/

namespace WorkerTemplate

namespace Hook

variable {α β σ : Type} {P : Protocol Op.Answer σ}

/-- What a hook may leave: its result, its objects and the state of the protocol. -/
abbrev Post (α σ : Type) : Type := Except OperationalError α → Invocation → σ → Prop

/-- A hook obeys a protocol. -/
def Obeys (P : Protocol Op.Answer σ) (h : Hook α) (post : Post α σ) (s : Invocation) (c : σ) :
    Prop :=
  (h.program s).Follows P (fun p c' => post p.1 p.2 c') c

/-- The postcondition that the rest of a hook imposes on its beginning. -/
def Post.next (P : Protocol Op.Answer σ) (f : α → Hook β) (post : Post β σ) : Post α σ
  | .ok a, s, c => Obeys P (f a) post s c
  | .error e, s, c => post (.error e) s c

/-- The postcondition that a handler imposes on what it handles. -/
def Post.handled (P : Protocol Op.Answer σ) (f : OperationalError → Hook α) (post : Post α σ) :
    Post α σ
  | .ok a, s, c => post (.ok a) s c
  | .error e, s, c => Obeys P (f e) post s c

variable {post post' : Post α σ} {s : Invocation} {c : σ}

@[simp]
theorem next_ok (f : α → Hook β) (post : Post β σ) (a : α) :
  Post.next P f post (.ok a) s c = Obeys P (f a) post s c
  := rfl

@[simp]
theorem next_error (f : α → Hook β) (post : Post β σ) (e : OperationalError) :
  Post.next P f post (.error e) s c = post (.error e) s c
  := rfl

@[simp]
theorem handled_ok (f : OperationalError → Hook α) (a : α) :
  Post.handled P f post (.ok a) s c = post (.ok a) s c
  := rfl

@[simp]
theorem handled_error (f : OperationalError → Hook α) (e : OperationalError) :
  Post.handled P f post (.error e) s c = Obeys P (f e) post s c
  := rfl

/-- A hook that obeys a protocol obeys it to a weaker postcondition. -/
theorem Obeys.mono {h : Hook α} (hobeys : Obeys P h post s c)
    (hpost : ∀ r s' c', post r s' c' → post' r s' c') :
  Obeys P h post' s c
  := Program.Follows.mono hobeys (fun p c' => hpost p.1 p.2 c')

@[simp]
theorem obeys_pure (a : α) :
  Obeys P (pure a) post s c ↔ post (.ok a) s c
  := Iff.rfl

@[simp]
theorem obeys_throw (e : OperationalError) :
  Obeys P (throw e : Hook α) post s c ↔ post (.error e) s c
  := Iff.rfl

@[simp]
theorem obeys_ofExcept (r : Except OperationalError α) :
  Obeys P (ofExcept r) post s c ↔ post r s c
  := Iff.rfl

@[simp]
theorem obeys_get (post : Post Invocation σ) :
  Obeys P (get : Hook Invocation) post s c ↔ post (.ok s) s c
  := Iff.rfl

@[simp]
theorem obeys_modify (f : Invocation → Invocation) (post : Post PUnit σ) :
  Obeys P (modify f : Hook PUnit) post s c ↔ post (.ok ⟨⟩) (f s) c
  := Iff.rfl

/-- One operation obeys a protocol that allows it. -/
theorem obeys_perform (o : Op) (post : Post o.Answer σ) :
  Obeys P (perform o) post s c
    ↔ P.allows c o ∧ ∀ (r : o.Answer) (c' : σ), P.moves c o r c' → post (.ok r) s c'
  := Iff.rfl

@[simp]
theorem obeys_bind (h : Hook α) (f : α → Hook β) (post : Post β σ) :
  Obeys P (h >>= f) post s c ↔ Obeys P h (Post.next P f post) s c
  := by
  unfold Obeys
  rw [program_bind, Program.follows_bind]
  apply Program.follows_congr
  rintro ⟨r, s'⟩ c'
  cases r with
  | ok a => rfl
  | error e => rfl

@[simp]
theorem obeys_tryCatch (h : Hook α) (f : OperationalError → Hook α) :
  Obeys P (tryCatch h f) post s c ↔ Obeys P h (Post.handled P f post) s c
  := by
  unfold Obeys
  rw [program_tryCatch, Program.follows_bind]
  apply Program.follows_congr
  rintro ⟨r, s'⟩ c'
  cases r with
  | ok a => rfl
  | error e => rfl

/-! ### Sessions -/

/-- A session obeys a protocol when its body does between opening and closing it. -/
theorem obeys_withSession {body : Hook α} (hopen : P.allows c .openSession)
    (hbody : ∀ c', P.moves c .openSession () c' →
      Obeys P body
        (fun r s' c'' => P.allows c'' .closeSession ∧
          ∀ c₁, P.moves c'' .closeSession () c₁ → post r s' c₁)
        { s with identityMap := fun _ => none } c') :
  Obeys P (withSession body) post s c
  := by
  rw [withSession, obeys_bind, obeys_perform]
  use hopen
  rintro ⟨⟩ c' hmoves
  rw [next_ok, obeys_bind, obeys_modify, next_ok, obeys_tryCatch, obeys_bind]
  apply (hbody c' hmoves).mono
  rintro (e | a) s' c'' ⟨hclose, hpost⟩
  · rw [next_error, handled_error, obeys_bind, obeys_perform]
    exact ⟨hclose, fun _ c₁ h => hpost c₁ h⟩
  · rw [next_ok, obeys_bind, obeys_perform]
    exact ⟨hclose, fun _ c₁ h => hpost c₁ h⟩

/-! ### Repeating -/

/-- A repeated call obeys a protocol when every call obeys it from what an error leaves. -/
theorem obeys_createDbRetry (pre : Invocation → σ → Prop) {call : Hook α} {post : Post α σ}
    (hcall : ∀ s c, pre s c → Obeys P call post s c)
    (herror : ∀ e s c, post (.error e) s c → pre s c) (n : ℕ) {s : Invocation} {c : σ}
    (hs : pre s c) :
  Obeys P (createDbRetry n call) post s c
  := by
  match n with
  | 0 => apply hcall s c hs
  | 1 => apply hcall s c hs
  | n + 2 =>
      rw [createDbRetry, obeys_tryCatch]
      apply (hcall s c hs).mono
      intro r s' c' hr
      cases r with
      | ok a => apply hr
      | error e => apply obeys_createDbRetry pre hcall herror (n + 1) (herror e s' c' hr)

/-! ### Invariants -/

/-- A hook maintains an invariant of its objects and the protocol however it ends. -/
def Maintains (P : Protocol Op.Answer σ) (I : Invocation → σ → Prop) (h : Hook α) : Prop :=
  ∀ s c, I s c → Obeys P h (fun _ s' c' => I s' c') s c

section Maintains

variable {I : Invocation → σ → Prop}

theorem maintains_pure (a : α) :
  Maintains P I (pure a)
  := fun _ _ h => h

theorem maintains_throw (e : OperationalError) :
  Maintains P I (throw e : Hook α)
  := fun _ _ h => h

theorem maintains_get :
  Maintains P I (get : Hook Invocation)
  := fun _ _ h => h

theorem maintains_modify {f : Invocation → Invocation} (hf : ∀ s c, I s c → I (f s) c) :
  Maintains P I (modify f : Hook PUnit)
  := hf

theorem maintains_perform {o : Op} (hallows : ∀ s c, I s c → P.allows c o)
    (hmoves : ∀ s c r c', I s c → P.moves c o r c' → I s c') :
  Maintains P I (perform o)
  := by
  intro s c h
  rw [obeys_perform]
  use hallows s c h
  intro r c' hr
  apply hmoves s c r c' h hr

/-- A hook maintains an invariant that its first part establishes. -/
theorem Obeys.bind_maintains {h : Hook α} {f : α → Hook β} {s : Invocation} {c : σ}
    (hh : Obeys P h (fun _ s' c' => I s' c') s c) (hf : ∀ a, Maintains P I (f a)) :
  Obeys P (h >>= f) (fun _ s' c' => I s' c') s c
  := by
  rw [obeys_bind]
  apply hh.mono
  intro r s' c' hr
  cases r with
  | ok a => apply hf a s' c' hr
  | error e => apply hr

theorem Maintains.bind {h : Hook α} {f : α → Hook β} (hh : Maintains P I h)
    (hf : ∀ a, Maintains P I (f a)) :
  Maintains P I (h >>= f)
  := fun s c hs => (hh s c hs).bind_maintains hf

theorem Maintains.tryCatch {h : Hook α} {f : OperationalError → Hook α} (hh : Maintains P I h)
    (hf : ∀ e, Maintains P I (f e)) :
  Maintains P I (tryCatch h f)
  := by
  intro s c hs
  rw [obeys_tryCatch]
  apply (hh s c hs).mono
  intro r s' c' hr
  cases r with
  | ok a => apply hr
  | error e => apply hf e s' c' hr

theorem Maintains.ite {p : Prop} [Decidable p] {h h' : Hook α} (hh : Maintains P I h)
    (hh' : Maintains P I h') :
  Maintains P I (if p then h else h')
  := by
  split
  · apply hh
  · apply hh'

theorem Maintains.createDbRetry {call : Hook α} (hcall : Maintains P I call) (n : ℕ) :
  Maintains P I (createDbRetry n call)
  := by
  intro s c hs
  apply obeys_createDbRetry I hcall _ n hs
  intro e s' c' h
  apply h

theorem maintains_execute {st : Statement} (hst : Maintains P I (perform (.statement st))) :
  Maintains P I (execute st)
  := by
  apply hst.bind
  intro r s c h
  apply h

theorem maintains_commit (hcommit : Maintains P I (perform .commit)) :
  Maintains P I commit
  := by
  apply hcommit.bind
  intro r s c h
  apply h

theorem Maintains.withSession {body : Hook α} (hbody : Maintains P I body)
    (hopen : Maintains P I (perform .openSession))
    (hclose : Maintains P I (perform .closeSession))
    (hmap : ∀ s c, I s c → I { s with identityMap := fun _ => none } c) :
  Maintains P I (withSession body)
  := by
  apply hopen.bind
  intro _
  apply (maintains_modify hmap).bind
  intro _
  apply Maintains.tryCatch
  · apply hbody.bind
    intro a
    apply hclose.bind
    intro _
    apply maintains_pure
  · intro e
    apply hclose.bind
    intro _
    apply maintains_throw

end Maintains

/-! ### Statements -/

@[simp]
theorem obeys_execute (st : Statement) (post : Post st.Answer σ) :
  Obeys P (execute st) post s c
    ↔ P.allows c (.statement st) ∧
      ∀ (r : Except OperationalError st.Answer) (c' : σ),
        P.moves c (.statement st) r c' → post r s c'
  := by
  rw [execute, obeys_bind]
  rfl

@[simp]
theorem obeys_commit (post : Post Unit σ) :
  Obeys P commit post s c
    ↔ P.allows c .commit ∧
      ∀ (r : Except OperationalError Unit) (c' : σ), P.moves c .commit r c' → post r s c'
  := by
  rw [commit, obeys_bind]
  rfl

end Hook

end WorkerTemplate
