import IrohHydeAuth.Resolution

/-!
# One handshake per remote

The handshakes in flight, the pending map and the allowed set stay synchronised: the handshakes in flight have
distinct remote ids, which are the keys of the pending map, and a remote whose handshake has succeeded is allowed and
never dialled again.  A failure leaves no trace, so the next request dials again.

Requests are merged by remote id only.  A request that joins a handshake in flight is judged on the address that
handshake dials, and that need not be its own.
-/

namespace IrohHydeAuth

open Process

namespace Authenticator

variable {ι : Type} {mode : Mode} {a a' : Authenticator ι}

/-- The number of handshakes with `x` that were joined with `Ok`. -/
def okCount (a : Authenticator ι) (x : EndpointId) : Nat :=
  a.completed.countP fun c => decide (c.2.1.id = x ∧ c.2.2 = .ok ())

/-- The three collections of the task agree. -/
structure Synchronised (mode : Mode) (a : Authenticator ι) : Prop where
  /-- The handshakes in flight have distinct remote ids. -/
  distinct : (a.task.tasks.map (·.2.id)).Nodup
  /-- They are the keys of the pending map. -/
  keys : ∀ x, x ∈ a.task.pending ↔ x ∈ a.task.tasks.map (·.2.id)
  /-- Every pending list has a waiter. -/
  nonempty : ∀ x ws, a.task.pending.lookup x = some ws → ws ≠ []
  /-- A remote whose handshake has succeeded is allowed, and no handshake with it is in flight. -/
  settled : ∀ x, 1 ≤ a.okCount x → x ∈ a.task.allowed ∧ x ∉ a.task.tasks.map (·.2.id)
  /-- At most one handshake with a remote succeeds. -/
  okOnce : ∀ x, a.okCount x ≤ 1
  /-- The one-directional task never keeps a remote both allowed and pending. -/
  disjoint : mode = .oneWay → ∀ x ∈ a.task.allowed, x ∉ a.task.pending

theorem synchronised_init (mode : Mode) : (init : Authenticator ι).Synchronised mode where
  distinct := by simp [init]
  keys := by simp [init]
  nonempty := by simp [init]
  settled := by simp [init, okCount]
  okOnce := by simp [init, okCount]
  disjoint := by simp [init]

/-- The invariant only looks at the task and at the handshakes joined. -/
private theorem Synchronised.congr (hs : a.Synchronised mode) (ht : a'.task = a.task)
    (hc : a'.completed = a.completed) : a'.Synchronised mode := by
  have hok : ∀ x, a'.okCount x = a.okCount x := fun x => by rw [okCount, okCount, hc]
  constructor
  · rw [ht]; exact hs.distinct
  · rw [ht]; exact hs.keys
  · rw [ht]; exact hs.nonempty
  · intro x; rw [ht, hok]; exact hs.settled x
  · intro x; rw [hok]; exact hs.okOnce x
  · rw [ht]; exact hs.disjoint

variable [DecidableEq ι]

private theorem Synchronised.recv {handle : ι} (hs : a.Synchronised mode)
    (h : a.step mode (.recv handle) = some a') : a'.Synchronised mode := by
  obtain ⟨-, -, addr, w, queue, -, h⟩ := step_recv h
  have hnonempty : ∀ {ws}, ws ≠ [] → ∀ x ws', (a.task.pending.insert addr.id ws).lookup x = some ws' → ws' ≠ [] := by
    intro ws hne x ws' hx
    by_cases he : x = addr.id
    · subst he
      rw [AList.lookup_insert] at hx
      rwa [← Option.some.inj hx]
    · rw [AList.lookup_insert_ne he] at hx
      exact hs.nonempty x ws' hx
  have hdisjoint : ∀ ws, addr.id ∉ a.task.allowed → mode = .oneWay →
      ∀ x ∈ a.task.allowed, x ∉ a.task.pending.insert addr.id ws := by
    intro ws hA hm x hx
    rw [AList.mem_insert]
    rintro (rfl | hp)
    · exact hA hx
    · exact hs.disjoint hm x hx hp
  rcases h with ⟨-, rfl⟩ | ⟨ws, hA, hws, rfl⟩ | ⟨hA, hws, rfl⟩
  · exact hs.congr rfl rfl
  · have hmem : addr.id ∈ a.task.pending := AList.lookup_isSome.1 (by simp [hws])
    refine ⟨hs.distinct, ?_, hnonempty (by simp), hs.settled, hs.okOnce, hdisjoint _ hA⟩
    intro x
    rw [← hs.keys x, AList.mem_insert]
    exact ⟨fun hx => hx.elim (fun he => he ▸ hmem) id, .inr⟩
  · have hnot : addr.id ∉ a.task.pending := AList.lookup_eq_none.1 hws
    have hnot' : addr.id ∉ a.task.tasks.map (·.2.id) := fun hx => hnot ((hs.keys _).2 hx)
    refine ⟨?_, ?_, hnonempty (by simp), ?_, hs.okOnce, hdisjoint _ hA⟩
    · rw [List.map_append, List.nodup_append]
      refine ⟨hs.distinct, by simp, ?_⟩
      intro x hx y hy
      rw [List.map_singleton, List.mem_singleton] at hy
      rintro rfl
      exact hnot' (hy ▸ hx)
    · intro x
      rw [AList.mem_insert, hs.keys x]
      simp only [List.map_append, List.map_cons, List.map_nil, List.mem_append, List.mem_singleton]
      exact or_comm
    · intro x hx
      obtain ⟨h₁, h₂⟩ := hs.settled x hx
      refine ⟨h₁, ?_⟩
      simp only [List.map_append, List.map_cons, List.map_nil, List.mem_append, List.mem_singleton, not_or]
      exact ⟨h₂, fun he => hA (he ▸ h₁)⟩

private theorem Synchronised.join {handle : ι} {res : AuthResult} (hs : a.Synchronised mode)
    (h : a.step mode (.join handle res) = some a') : a'.Synchronised mode := by
  obtain ⟨-, addr, l₁, l₂, ht, rfl⟩ := step_join h
  have hd := hs.distinct
  rw [ht] at hd
  simp only [List.map_append, List.map_cons] at hd
  have hnot : addr.id ∉ (l₁ ++ l₂).map (·.2.id) := by
    rw [List.map_append]
    exact (List.nodup_middle.1 hd).notMem
  have hmem : ∀ x, x ∈ a.task.tasks.map (·.2.id) ↔ x = addr.id ∨ x ∈ (l₁ ++ l₂).map (·.2.id) := by
    intro x
    rw [ht]
    simp only [List.map_append, List.map_cons, List.mem_append, List.mem_cons]
    tauto
  have hok : ∀ x, okCount { a with
      task := ⟨a.task.record addr.id res, a.task.pending.erase addr.id, l₁ ++ l₂⟩
      replies := a.replies ++ ((a.task.pending.lookup addr.id).getD []).map fun tx => (tx, res)
      completed := a.completed ++ [(handle, addr, res)] } x =
        a.okCount x + if addr.id = x ∧ res = .ok () then 1 else 0 := by
    intro x
    simp [okCount, List.countP_append, List.countP_cons]
  -- nothing had succeeded with a remote that is still being dialled
  have hzero : a.okCount addr.id = 0 := by
    by_contra hne
    exact (hs.settled addr.id (by omega)).2 ((hmem _).2 (.inl rfl))
  refine ⟨?_, ?_, ?_, ?_, ?_, ?_⟩
  · rw [List.map_append]
    exact (List.nodup_middle.1 hd).of_cons
  · intro x
    rw [AList.mem_erase, hs.keys x, hmem x]
    constructor
    · rintro ⟨hx, he | hx'⟩
      · exact absurd he hx
      · exact hx'
    · intro hx
      exact ⟨fun he => hnot (he ▸ hx), .inr hx⟩
  · intro x ws hx
    by_cases he : x = addr.id
    · subst he
      rw [AList.lookup_erase] at hx
      cases hx
    · rw [AList.lookup_erase_ne he] at hx
      exact hs.nonempty x ws hx
  · intro x hx
    rw [hok] at hx
    by_cases hc : addr.id = x ∧ res = .ok ()
    · obtain ⟨rfl, rfl⟩ := hc
      exact ⟨Finset.mem_insert_self _ _, hnot⟩
    · rw [if_neg hc, Nat.add_zero] at hx
      obtain ⟨h₁, h₂⟩ := hs.settled x hx
      exact ⟨subset_record _ _ _ h₁, fun hm => h₂ ((hmem x).2 (.inr hm))⟩
  · intro x
    rw [hok]
    split
    · rename_i hc
      rw [← hc.1, hzero]
    · exact hs.okOnce x
  · intro hm x hx
    rw [AList.mem_erase]
    rintro ⟨hne, hp⟩
    refine hs.disjoint hm x ?_ hp
    cases res with
    | ok _ => exact (Finset.mem_insert.1 hx).resolve_left hne
    | error _ => exact hx

theorem Synchronised.step {act : Action ι} (hs : a.Synchronised mode) (h : a.step mode act = some a') :
    a'.Synchronised mode := by
  rcases step_cases h with hq | ⟨handle, rfl⟩ | ⟨handle, res, rfl⟩ | ⟨x, rfl⟩ | ⟨why, rfl⟩
  · exact hs.congr hq.task hq.completed
  · exact hs.recv h
  · exact hs.join h
  · obtain ⟨rfl, rfl⟩ := step_insert h
    exact ⟨hs.distinct, hs.keys, hs.nonempty,
      fun y hy => ⟨Finset.mem_insert_of_mem (hs.settled y hy).1, (hs.settled y hy).2⟩, hs.okOnce, by simp⟩
  · obtain ⟨-, -, rfl⟩ := step_stop h
    exact ⟨by simp [stopped], by simp [stopped], by simp [stopped],
      fun x hx => ⟨(hs.settled x hx).1, by simp [stopped]⟩, hs.okOnce, by simp [stopped]⟩

theorem synchronised_of_run {acts : List (Action ι)} (h : init.run mode acts = some a) : a.Synchronised mode :=
  run_induction (fun _ _ _ hs h => hs.step h) (synchronised_init mode) h

/-! ### A failure is not cached -/

/-- From `a` on, the next request for `x`, if it is taken while `x` is not allowed, starts a handshake. -/
def Retries (mode : Mode) (a : Authenticator ι) (x : EndpointId) : Prop :=
  ∀ acts b, a.run mode acts = some b →
    (∀ v ∈ b.taken, v ∉ a.taken → ∀ addr, b.requests[v]? = some addr → addr.id ≠ x) →
    ∀ handle addr w queue, b.running = true → (∀ t ∈ b.task.tasks, t.1 ≠ handle) →
      b.queue = (addr, w) :: queue → addr.id = x → x ∉ b.task.allowed →
      ∃ b', b.step mode (.recv handle) = some b' ∧ b'.task.tasks = b.task.tasks ++ [(handle, addr)] ∧
        b'.task.pending.lookup x = some [w]

private theorem Ledger.run (hl : a.Ledger) {acts : List (Action ι)} (h : a.run mode acts = some a') :
    a'.Ledger ∧ a.taken <+: a'.taken ∧ a.requests <+: a'.requests := by
  refine run_induction (P := fun b => b.Ledger ∧ a.taken <+: b.taken ∧ a.requests <+: b.requests) ?_
    ⟨hl, List.prefix_rfl, List.prefix_rfl⟩ h
  intro b b' act ⟨hb, h₁, h₂⟩ hs
  have hadd := hb.adds hs
  exact ⟨hb.step hs, h₁.trans hadd.taken, h₂.trans hadd.requests⟩

/-- Only a request for `x` that is taken makes `x` pending. -/
private theorem Ledger.notMem_pending_step (hl : a.Ledger) {act : Action ι} {x : EndpointId}
    (hx : x ∉ a.task.pending) (h : a.step mode act = some a')
    (hother : ∀ v ∈ a'.taken, v ∉ a.taken → ∀ addr, a'.requests[v]? = some addr → addr.id ≠ x) :
    x ∉ a'.task.pending := by
  rcases step_cases h with hq | ⟨handle, rfl⟩ | ⟨handle, res, rfl⟩ | ⟨y, rfl⟩ | ⟨why, rfl⟩
  · rw [hq.task]
    exact hx
  · obtain ⟨-, -, addr, w, queue, hq, h⟩ := step_recv h
    have hw : a.requests[w]? = some addr := hl.queued (addr, w) (by simp [hq])
    have hnew : w ∉ a.taken := fun hm => (hl.taken w hm).2.2.1 (by simp [hq])
    rcases h with ⟨-, rfl⟩ | ⟨ws, -, -, rfl⟩ | ⟨-, -, rfl⟩
    · exact hx
    all_goals
      rw [AList.mem_insert, not_or]
      exact ⟨(hother w (by simp) hnew addr hw).symm, hx⟩
  · obtain ⟨-, addr, l₁, l₂, -, rfl⟩ := step_join h
    rw [AList.mem_erase]
    exact fun hm => hx hm.2
  · obtain ⟨rfl, rfl⟩ := step_insert h
    exact hx
  · obtain ⟨-, -, rfl⟩ := step_stop h
    exact AList.notMem_empty x

private theorem Ledger.notMem_pending_run (hl : a.Ledger) {acts : List (Action ι)} {x : EndpointId}
    (hx : x ∉ a.task.pending) (h : a.run mode acts = some a')
    (hother : ∀ v ∈ a'.taken, v ∉ a.taken → ∀ addr, a'.requests[v]? = some addr → addr.id ≠ x) :
    x ∉ a'.task.pending := by
  induction acts generalizing a with
  | nil => exact Option.some.inj h ▸ hx
  | cons act acts ih =>
    obtain ⟨a₁, h₁, h₂⟩ := Option.bind_eq_some_iff.1 h
    obtain ⟨-, ht, hr⟩ := (hl.step h₁).run h₂
    refine ih (hl.step h₁) (hl.notMem_pending_step hx h₁ ?_) h₂ ?_
    · intro v hv hv' addr haddr
      exact hother v (ht.subset hv) hv' addr (prefix_getElem? hr haddr)
    · intro v hv hv' addr haddr
      exact hother v hv (fun hm => hv' ((hl.adds h₁).taken.subset hm)) addr haddr

private theorem Ledger.retries (hl : a.Ledger) {x : EndpointId} (hx : x ∉ a.task.pending) : a.Retries mode x := by
  intro acts b h hother handle addr w queue hrun hfresh hq hid hA
  subst hid
  have hp : b.task.pending.lookup addr.id = none := AList.lookup_eq_none.2 (hl.notMem_pending_run hx h hother)
  have hany : b.task.tasks.any (·.1 == handle) = false := by simpa using hfresh
  refine ⟨_, by simp [Authenticator.step, hrun, hany, Authenticator.recv, hq]; rfl, ?_⟩
  simp [AuthTask.handleRequest, hA, hp]

/-- What holds of the collections of a task at any moment, and of what it does next. -/
structure Deduplicates (mode : Mode) (a : Authenticator ι) : Prop where
  synchronised : a.Synchronised mode
  /-- A handshake is started only by a request that finds its remote neither allowed nor pending. -/
  started : ∀ act a', a.step mode act = some a' → ∀ t ∈ a'.task.tasks, t ∈ a.task.tasks ∨
    ∃ w queue, act = .recv t.1 ∧ a.queue = (t.2, w) :: queue ∧ a.task.starts t.2 = true
  /-- A failed handshake leaves no entry behind, and the next request for its remote dials again. -/
  failed : ∀ handle e a', a.step mode (.join handle (.error e)) = some a' →
    ∃ dialled, (handle, dialled) ∈ a.task.tasks ∧ dialled.id ∉ a'.task.pending ∧
      a'.task.allowed = a.task.allowed ∧ a'.Retries mode dialled.id

theorem started_of_step {act : Action ι} (h : a.step mode act = some a') :
    ∀ t ∈ a'.task.tasks, t ∈ a.task.tasks ∨
      ∃ w queue, act = .recv t.1 ∧ a.queue = (t.2, w) :: queue ∧ a.task.starts t.2 = true := by
  intro t ht
  rcases step_cases h with hq | ⟨handle, rfl⟩ | ⟨handle, res, rfl⟩ | ⟨x, rfl⟩ | ⟨why, rfl⟩
  · exact .inl (hq.task ▸ ht)
  · obtain ⟨-, -, addr, w, queue, hq, h⟩ := step_recv h
    rcases h with ⟨-, rfl⟩ | ⟨ws, -, -, rfl⟩ | ⟨hA, hp, rfl⟩
    · exact .inl ht
    · exact .inl ht
    · rcases List.mem_append.1 ht with ht | ht
      · exact .inl ht
      · rw [List.mem_singleton.1 ht]
        exact .inr ⟨w, queue, rfl, hq, decide_eq_true ⟨hA, AList.lookup_eq_none.1 hp⟩⟩
  · obtain ⟨-, addr, l₁, l₂, hs, rfl⟩ := step_join h
    rw [hs]
    exact .inl (List.mem_append.2 ((List.mem_append.1 ht).imp_right (List.mem_cons_of_mem _)))
  · obtain ⟨rfl, rfl⟩ := step_insert h
    exact .inl ht
  · obtain ⟨-, -, rfl⟩ := step_stop h
    exact absurd ht List.not_mem_nil

/-- A handshake that is joined was in flight. -/
theorem completed_of_step {act : Action ι} (h : a.step mode act = some a') {t : ι × EndpointAddr × AuthResult}
    (ht : t ∈ a'.completed) : t ∈ a.completed ∨ act = .join t.1 t.2.2 ∧ (t.1, t.2.1) ∈ a.task.tasks := by
  rcases step_cases h with hq | ⟨handle, rfl⟩ | ⟨handle, res, rfl⟩ | ⟨x, rfl⟩ | ⟨why, rfl⟩
  · exact .inl (hq.completed ▸ ht)
  · obtain ⟨-, -, addr, v, queue, -, h⟩ := step_recv h
    rcases h with ⟨-, rfl⟩ | ⟨ws, -, -, rfl⟩ | ⟨-, -, rfl⟩
    all_goals exact .inl ht
  · obtain ⟨-, addr, l₁, l₂, hs, rfl⟩ := step_join h
    rcases List.mem_append.1 ht with ht | ht
    · exact .inl ht
    · rw [List.mem_singleton.1 ht]
      exact .inr ⟨rfl, by simp [hs]⟩
  · obtain ⟨rfl, rfl⟩ := step_insert h
    exact .inl ht
  · obtain ⟨-, -, rfl⟩ := step_stop h
    exact .inl ht

/-- Only the acceptor side inserts. -/
theorem inserted_of_step {act : Action ι} (h : a.step mode act = some a') {x : EndpointId} (hx : x ∈ a'.inserted) :
    x ∈ a.inserted ∨ act = .insert x := by
  rcases step_cases h with hq | ⟨handle, rfl⟩ | ⟨handle, res, rfl⟩ | ⟨y, rfl⟩ | ⟨why, rfl⟩
  · exact .inl (hq.inserted ▸ hx)
  · obtain ⟨-, -, addr, v, queue, -, h⟩ := step_recv h
    rcases h with ⟨-, rfl⟩ | ⟨ws, -, -, rfl⟩ | ⟨-, -, rfl⟩
    all_goals exact .inl hx
  · obtain ⟨-, addr, l₁, l₂, -, rfl⟩ := step_join h
    exact .inl hx
  · obtain ⟨rfl, rfl⟩ := step_insert h
    rcases List.mem_append.1 hx with hx | hx
    · exact .inl hx
    · exact .inr (by rw [List.mem_singleton.1 hx])
  · obtain ⟨-, -, rfl⟩ := step_stop h
    exact .inl hx

/-- At every moment of every run the collections of the task agree, one handshake per remote is in flight, and a
failure is not cached. -/
theorem deduplicates_of_run (mode : Mode) {acts : List (Action ι)} (h : init.run mode acts = some a) :
    a.Deduplicates mode := by
  refine ⟨synchronised_of_run h, fun act a' hs => started_of_step hs, ?_⟩
  intro handle e a' hs
  have hl' := (ledger_of_run h).step hs
  obtain ⟨-, dialled, l₁, l₂, ht, rfl⟩ := step_join hs
  have hp : dialled.id ∉ a.task.pending.erase dialled.id := by simp
  exact ⟨dialled, by simp [ht], hp, rfl, hl'.retries hp⟩

/-- The handshake with the first remote fails and is started again, while the acceptor side allows the second. -/
private def retried (x y : EndpointAddr) : List (Action Nat) :=
  [.call x, .call y, .send 0, .send 1, .recv 0, .recv 1, .insert y.id, .join 0 (.error .clockSkew), .call x, .send 2,
    .recv 2, .join 2 (.ok ())]

theorem retried_deduplicates :
    let x : EndpointAddr := ⟨⟨List.replicate 32 7, rfl⟩, ∅⟩
    let y : EndpointAddr := ⟨⟨List.replicate 32 8, rfl⟩, ∅⟩
    ∃ a, init.run .twoWay (retried x y) = some a ∧ a.Deduplicates .twoWay ∧ a.okCount x.id = 1 ∧
      a.task.tasks = [(1, y)] ∧ y.id ∈ a.task.allowed ∧ a.pendingAt y.id = [1] := by
  intro x y
  have h : (init.run .twoWay (retried x y)).isSome = true := by decide
  refine ⟨Option.get _ h, (Option.some_get h).symm, ?_, rfl, rfl, by decide +revert, rfl⟩
  exact deduplicates_of_run .twoWay (Option.some_get h).symm

/-! ### Requests are merged by id, not by address -/

/-- Every error sent is the outcome of a handshake that dialled the address the waiter asked for. -/
def JudgedOnOwnAddress (a : Authenticator ι) : Prop :=
  ∀ w addr e, a.requests[w]? = some addr → (w, .error e) ∈ a.replies →
    ∃ handle, (handle, addr, .error e) ∈ a.completed

/-- A request about to be taken that would join a handshake in flight asks for the address which that handshake
dials. -/
def Aligned (a : Authenticator ι) : Action ι → Prop
  | .recv _ => ∀ r ∈ a.queue.head?, r.1.id ∉ a.task.allowed → ∀ t ∈ a.task.tasks, t.2.id = r.1.id → t.2 = r.1
  | _ => True

/-- The run meets the condition at every step. -/
def AlignedRun (mode : Mode) : Authenticator ι → List (Action ι) → Prop
  | _, [] => True
  | a, act :: acts => a.Aligned act ∧ ∀ a' ∈ a.step mode act, AlignedRun mode a' acts

instance (a : Authenticator ι) : (act : Action ι) → Decidable (a.Aligned act)
  | .recv _ => inferInstanceAs (Decidable (∀ r ∈ a.queue.head?, _ → ∀ t ∈ a.task.tasks, _ → t.2 = r.1))
  | .call _ | .send _ | .cancel _ | .join _ _ | .insert _ | .dropHook | .stop _ => isTrue trivial

instance instDecidableAlignedRun (mode : Mode) :
    (a : Authenticator ι) → (acts : List (Action ι)) → Decidable (AlignedRun mode a acts)
  | _, [] => isTrue trivial
  | a, act :: acts =>
    have (a' : Authenticator ι) : Decidable (AlignedRun mode a' acts) := instDecidableAlignedRun mode a' acts
    inferInstanceAs (Decidable (a.Aligned act ∧ ∀ a' ∈ a.step mode act, AlignedRun mode a' acts))

/-- Every pending waiter asked for the address its handshake dials. -/
private def OwnAddress (a : Authenticator ι) : Prop :=
  ∀ t ∈ a.task.tasks, ∀ w ∈ a.pendingAt t.2.id, a.requests[w]? = some t.2

omit [DecidableEq ι] in
private theorem OwnAddress.congr (ho : a.OwnAddress) (ht : a'.task = a.task) (hr : a.requests <+: a'.requests) :
    a'.OwnAddress := by
  intro t hm w hw
  rw [ht] at hm
  rw [pendingAt, ht] at hw
  exact prefix_getElem? hr (ho t hm w hw)

private theorem OwnAddress.recv {handle : ι} (ho : a.OwnAddress) (hl : a.Ledger) (hs : a.Synchronised mode)
    (hal : a.Aligned (.recv handle)) (h : a.step mode (.recv handle) = some a') : a'.OwnAddress := by
  obtain ⟨-, -, addr, w, queue, hq, h⟩ := step_recv h
  have hw : a.requests[w]? = some addr := hl.queued (addr, w) (by simp [hq])
  have hal : addr.id ∉ a.task.allowed → ∀ t ∈ a.task.tasks, t.2.id = addr.id → t.2 = addr :=
    hal (addr, w) (by simp [hq])
  rcases h with ⟨-, rfl⟩ | ⟨ws, hA, hp, rfl⟩ | ⟨hA, hp, rfl⟩
  · exact ho.congr rfl List.prefix_rfl
  · intro t ht v hv
    simp only [pendingAt, pendingAt_insert] at hv
    split at hv
    · rename_i hid
      rcases List.mem_append.1 hv with hv | hv
      · exact ho t ht v (by rw [pendingAt, hid, hp]; exact hv)
      · rw [List.mem_singleton.1 hv, hal hA t ht hid]
        exact hw
    · exact ho t ht v hv
  · -- no handshake with this remote was in flight
    have hnot : ∀ t ∈ a.task.tasks, t.2.id ≠ addr.id := fun t ht hid =>
      AList.lookup_eq_none.1 hp ((hs.keys _).2 (hid ▸ List.mem_map_of_mem ht))
    intro t ht v hv
    simp only [pendingAt, pendingAt_insert] at hv
    rcases List.mem_append.1 ht with ht | ht
    · rw [if_neg (hnot t ht)] at hv
      exact ho t ht v hv
    · rw [List.mem_singleton.1 ht] at hv ⊢
      rw [if_pos rfl, List.mem_singleton] at hv
      rw [hv]
      exact hw

private theorem OwnAddress.step {act : Action ι} (ho : a.OwnAddress) (hl : a.Ledger) (hs : a.Synchronised mode)
    (hal : a.Aligned act) (h : a.step mode act = some a') : a'.OwnAddress := by
  rcases step_cases h with hq | ⟨handle, rfl⟩ | ⟨handle, res, rfl⟩ | ⟨x, rfl⟩ | ⟨why, rfl⟩
  · exact ho.congr hq.task hq.requests
  · exact ho.recv hl hs hal h
  · obtain ⟨-, addr, l₁, l₂, ht, rfl⟩ := step_join h
    intro t hm v hv
    simp only [pendingAt, pendingAt_erase] at hv
    split at hv
    · cases hv
    · refine ho t ?_ v hv
      rw [ht]
      exact List.mem_append.2 ((List.mem_append.1 hm).imp_right (List.mem_cons_of_mem _))
  · obtain ⟨rfl, rfl⟩ := step_insert h
    exact ho
  · obtain ⟨-, -, rfl⟩ := step_stop h
    intro t ht
    exact absurd ht List.not_mem_nil

/-- An error is sent only to the waiters of a remote whose handshake is joined with it. -/
private theorem error_of_step {act : Action ι} (h : a.step mode act = some a') {w : Nat} {e : Error}
    (hr : (w, .error e) ∈ a'.replies) : (w, .error e) ∈ a.replies ∨
      ∃ handle dialled, act = .join handle (.error e) ∧ (handle, dialled) ∈ a.task.tasks ∧
        w ∈ a.pendingAt dialled.id ∧ (handle, dialled, .error e) ∈ a'.completed := by
  rcases step_cases h with hq | ⟨handle, rfl⟩ | ⟨handle, res, rfl⟩ | ⟨x, rfl⟩ | ⟨why, rfl⟩
  · exact .inl (hq.replies ▸ hr)
  · obtain ⟨-, -, addr, v, queue, -, h⟩ := step_recv h
    rcases h with ⟨-, rfl⟩ | ⟨ws, -, -, rfl⟩ | ⟨-, -, rfl⟩
    · exact .inl (by simpa using hr)
    · exact .inl hr
    · exact .inl hr
  · obtain ⟨-, dialled, l₁, l₂, ht, rfl⟩ := step_join h
    rcases List.mem_append.1 hr with hr | hr
    · exact .inl hr
    · obtain ⟨v, hv, he⟩ := List.mem_map.1 hr
      obtain ⟨rfl, rfl⟩ := Prod.mk.inj he
      exact .inr ⟨handle, dialled, rfl, by simp [ht], hv, by simp⟩
  · obtain ⟨rfl, rfl⟩ := step_insert h
    exact .inl hr
  · obtain ⟨-, -, rfl⟩ := step_stop h
    exact .inl hr

private theorem OwnAddress.judged (ho : a.OwnAddress) (hl : a.Ledger) {act : Action ι}
    (h : a.step mode act = some a') (hj : a.JudgedOnOwnAddress) : a'.JudgedOnOwnAddress := by
  have hadd := hl.adds h
  have hback : ∀ {w : Nat} {addr addr'}, a.requests[w]? = some addr' → a'.requests[w]? = some addr → addr' = addr := by
    intro w addr addr' h₁ h₂
    rw [prefix_getElem? hadd.requests h₁] at h₂
    exact Option.some.inj h₂
  intro w addr e hw hr
  rcases error_of_step h hr with hr | ⟨handle, dialled, rfl, ht, hp, hc⟩
  · have hw' := List.getElem?_eq_getElem (hl.replied _ hr)
    obtain ⟨handle, hc⟩ := hj w addr e (hback hw' hw ▸ hw') hr
    exact ⟨handle, hadd.completed.subset hc⟩
  · exact ⟨handle, hback (ho _ ht w hp) hw ▸ hc⟩

private theorem judged_of_alignedRun {acts : List (Action ι)} (hl : a.Ledger) (hs : a.Synchronised mode)
    (ho : a.OwnAddress) (hj : a.JudgedOnOwnAddress) (hal : AlignedRun mode a acts)
    (h : a.run mode acts = some a') : a'.OwnAddress ∧ a'.JudgedOnOwnAddress := by
  induction acts generalizing a with
  | nil => exact Option.some.inj h ▸ ⟨ho, hj⟩
  | cons act acts ih =>
    obtain ⟨a₁, h₁, h₂⟩ := Option.bind_eq_some_iff.1 h
    exact ih (hl.step h₁) (hs.step h₁) (ho.step hl hs hal.1 h₁) (ho.judged hl h₁ hj) (hal.2 a₁ h₁) h₂

/-- In a run in which no request joins a handshake with another address, every error a waiter has been sent is the
outcome of a handshake that dialled its own address, and so is every error that the next action sends. -/
theorem judged_on_own_address (mode : Mode) {acts : List (Action ι)} (h : init.run mode acts = some a)
    (hal : AlignedRun mode init acts) :
    a.JudgedOnOwnAddress ∧ ∀ act a', a.step mode act = some a' →
      ∀ w addr e, a.requests[w]? = some addr → (w, .error e) ∈ a'.replies → (w, .error e) ∉ a.replies →
        ∃ handle, act = .join handle (.error e) ∧ (handle, addr) ∈ a.task.tasks := by
  have ⟨ho, hj⟩ := judged_of_alignedRun ledger_init (synchronised_init mode) (by simp [OwnAddress, init])
    (by simp [JudgedOnOwnAddress, init]) hal h
  refine ⟨hj, ?_⟩
  intro act a' hs w addr e hw hr hnew
  rcases error_of_step hs hr with hr | ⟨handle, dialled, rfl, ht, hp, -⟩
  · exact absurd hr hnew
  · rw [ho _ ht w hp] at hw
    exact ⟨handle, rfl, Option.some.inj hw ▸ ht⟩

/-- Two dials of one endpoint overlap; the handshake that the first one started fails. -/
private def overlap (x y : EndpointAddr) : List (Action Nat) :=
  [.call x, .call y, .send 0, .send 1, .recv 0, .recv 1, .join 0 (.error (.transport "timed out"))]

theorem overlap_judged :
    let x : EndpointAddr := ⟨⟨List.replicate 32 7, rfl⟩, {.ip [10, 0, 0, 1] 4433}⟩
    ∃ a, init.run .oneWay (overlap x x) = some a ∧ a.JudgedOnOwnAddress ∧ 1 ∈ a.replies.map (·.1) := by
  intro x
  have h : (init.run .oneWay (overlap x x)).isSome = true := by decide
  have hal : AlignedRun .oneWay init (overlap x x) := by decide
  refine ⟨Option.get _ h, (Option.some_get h).symm, ?_, by decide +revert⟩
  exact (judged_on_own_address .oneWay (Option.some_get h).symm hal).1

/-- With different direct addresses the second dial is denied although its own address was never tried. -/
theorem overlap_denies_other_address :
    let x : EndpointAddr := ⟨⟨List.replicate 32 7, rfl⟩, {.ip [10, 0, 0, 1] 4433}⟩
    let y : EndpointAddr := ⟨⟨List.replicate 32 7, rfl⟩, {.ip [10, 0, 0, 2] 4433}⟩
    (∃ a, init.run .oneWay (overlap x y) = some a ∧ ¬ a.JudgedOnOwnAddress ∧
      ∀ postcard, a.beforeConnect postcard .oneWay [] 1 = some .reject) ∧
    ∃ a, init.run .twoWay (overlap x y) = some a ∧ ¬ a.JudgedOnOwnAddress ∧
      ∀ postcard, a.beforeConnect postcard .twoWay [] 1 = some .reject := by
  intro x y
  have hne : x ≠ y := by decide
  refine ⟨⟨_, rfl, ?_, fun _ => rfl⟩, ⟨_, rfl, ?_, fun _ => rfl⟩⟩
  all_goals
    intro hj
    obtain ⟨handle, hc⟩ := hj 1 y (.transport "timed out") rfl (.tail _ (.head _))
    have hc : (handle, y, _) = (0, x, _) := List.mem_singleton.1 hc
    exact hne (congrArg (·.2.1) hc).symm

end Authenticator

end IrohHydeAuth
