import IrohHydeAuth.Authenticator

/-!
# Every request is resolved once

A waiter is in exactly one place: parked, queued, pending under its own remote id, or replied to.  `Ledger` counts the
places of every waiter; each action moves waiters between places and keeps the count.  What a reply says is tied to
the set of allowed remotes and to the handshakes that were joined (`Answers`).
-/

namespace IrohHydeAuth

open Process

namespace Authenticator

variable {ι : Type} {mode : Mode} {a a' : Authenticator ι}

/-- The waiters pending for `x`. -/
def pendingAt (a : Authenticator ι) (x : EndpointId) : List Nat := (a.task.pending.lookup x).getD []

/-- In how many places waiter `w`, which asked for `x`, is. -/
def places (a : Authenticator ι) (x : EndpointId) (w : Nat) : Nat :=
  (a.sending.map (·.2)).count w + (a.queue.map (·.2)).count w + (a.pendingAt x).count w +
    (a.replies.map (·.1)).count w

/-- The bookkeeping of waiters. -/
structure Ledger (a : Authenticator ι) : Prop where
  parked : ∀ r ∈ a.sending, a.requests[r.2]? = some r.1
  queued : ∀ r ∈ a.queue, a.requests[r.2]? = some r.1
  pending : ∀ x, ∀ w ∈ a.pendingAt x, ∃ addr, a.requests[w]? = some addr ∧ addr.id = x
  replied : ∀ r ∈ a.replies, r.1 < a.requests.length
  once : ∀ w addr, a.requests[w]? = some addr → a.places addr.id w ≤ 1
  kept : a.running = true → ∀ w addr, a.requests[w]? = some addr → w ∉ a.cancelled → 1 ≤ a.places addr.id w
  taken : ∀ w ∈ a.taken, w < a.requests.length ∧ w ∉ a.sending.map (·.2) ∧ w ∉ a.queue.map (·.2) ∧
    (a.running = true → w ∈ a.replies.map (·.1) ∨ ∃ x, w ∈ a.pendingAt x)
  dropped : a.running = false → a.sending = [] ∧ a.queue = [] ∧ a.task.pending = ∅ ∧ a.task.tasks = []

theorem ledger_init : (init : Authenticator ι).Ledger where
  parked := by simp [init]
  queued := by simp [init]
  pending := by simp [init, pendingAt]
  replied := by simp [init]
  once := by simp [init]
  kept := by simp [init]
  taken := by simp [init]
  dropped := by simp [init]

private theorem getElem?_snoc {l : List EndpointAddr} {addr addr' : EndpointAddr} {w : Nat} :
    (l ++ [addr'])[w]? = some addr ↔ l[w]? = some addr ∨ (w = l.length ∧ addr' = addr) := by
  grind

private theorem lt_of_getElem? {l : List EndpointAddr} {addr : EndpointAddr} {w : Nat} (h : l[w]? = some addr) :
    w < l.length := (List.getElem?_eq_some_iff.1 h).1

/-- A waiter that does not exist yet is nowhere. -/
private theorem Ledger.places_eq_zero (hl : a.Ledger) {w : Nat} (hw : a.requests.length ≤ w)
    (x : EndpointId) : a.places x w = 0 := by
  have h₁ : w ∉ a.sending.map (·.2) := by
    intro h
    obtain ⟨r, hr, rfl⟩ := List.mem_map.1 h
    have := lt_of_getElem? (hl.parked r hr)
    omega
  have h₂ : w ∉ a.queue.map (·.2) := by
    intro h
    obtain ⟨r, hr, rfl⟩ := List.mem_map.1 h
    have := lt_of_getElem? (hl.queued r hr)
    omega
  have h₃ : w ∉ a.pendingAt x := by
    intro h
    obtain ⟨addr, hr, -⟩ := hl.pending x w h
    have := lt_of_getElem? hr
    omega
  have h₄ : w ∉ a.replies.map (·.1) := by
    intro h
    obtain ⟨r, hr, rfl⟩ := List.mem_map.1 h
    have := hl.replied r hr
    omega
  simp only [places, List.count_eq_zero_of_not_mem h₁, List.count_eq_zero_of_not_mem h₂,
    List.count_eq_zero_of_not_mem h₃, List.count_eq_zero_of_not_mem h₄]

theorem pendingAt_insert {s : AList fun _ : EndpointId => List Nat} {x y : EndpointId} {ws : List Nat} :
    ((s.insert x ws).lookup y).getD [] = if y = x then ws else (s.lookup y).getD [] := by
  by_cases h : y = x
  · subst h; simp
  · simp [h, AList.lookup_insert_ne h]

theorem pendingAt_erase {s : AList fun _ : EndpointId => List Nat} {x y : EndpointId} :
    ((s.erase x).lookup y).getD [] = if y = x then [] else (s.lookup y).getD [] := by
  by_cases h : y = x
  · subst h; simp
  · simp [h, AList.lookup_erase_ne h]

/-- The waiter at the head of the queue is nowhere else. -/
private theorem Ledger.head_unique (hl : a.Ledger) {addr : EndpointAddr} {w : Nat}
    {queue : List (EndpointAddr × Nat)} (hq : a.queue = (addr, w) :: queue) :
    a.requests[w]? = some addr ∧ w ∉ a.sending.map (·.2) ∧ w ∉ queue.map (·.2) := by
  have hw : a.requests[w]? = some addr := hl.queued (addr, w) (by simp [hq])
  have honce := hl.once w addr hw
  simp only [places, hq, List.map_cons, List.count_cons_self] at honce
  have h₁ : (a.sending.map (·.2)).count w = 0 := by omega
  have h₂ : (queue.map (·.2)).count w = 0 := by omega
  exact ⟨hw, List.count_eq_zero.1 h₁, List.count_eq_zero.1 h₂⟩

/-- What is known of the queue and of the waiters taken stays true of the rest of the queue. -/
private theorem Ledger.tail (hl : a.Ledger) {addr : EndpointAddr} {w : Nat} {queue : List (EndpointAddr × Nat)}
    (hq : a.queue = (addr, w) :: queue) :
    (∀ r ∈ queue, a.requests[r.2]? = some r.1) ∧
      ∀ v ∈ a.taken, v < a.requests.length ∧ v ∉ a.sending.map (·.2) ∧ v ∉ queue.map (·.2) ∧
        (a.running = true → v ∈ a.replies.map (·.1) ∨ ∃ x, v ∈ a.pendingAt x) := by
  constructor
  · intro r hr
    exact hl.queued r (by rw [hq]; exact List.mem_cons_of_mem _ hr)
  · intro v hv
    obtain ⟨h₁, h₂, h₃, h₄⟩ := hl.taken v hv
    rw [hq] at h₃
    exact ⟨h₁, h₂, fun h => h₃ (List.mem_cons_of_mem _ h), h₄⟩

/-- An action that moves waiters between places keeps their counts. -/
private theorem Ledger.counts (hl : a.Ledger)
    (hp : ∀ v addr, a.requests[v]? = some addr → a'.places addr.id v = a.places addr.id v)
    (hrequests : a'.requests = a.requests) (hcancelled : a'.cancelled = a.cancelled)
    (hrunning : a'.running = a.running) :
    (∀ w addr, a'.requests[w]? = some addr → a'.places addr.id w ≤ 1) ∧
      (a'.running = true → ∀ w addr, a'.requests[w]? = some addr → w ∉ a'.cancelled → 1 ≤ a'.places addr.id w) := by
  rw [hrequests, hcancelled, hrunning]
  constructor
  · intro w addr hw
    rw [hp w addr hw]
    exact hl.once w addr hw
  · intro hr w addr hw hc
    rw [hp w addr hw]
    exact hl.kept hr w addr hw hc

/-- Taking a request whose waiter joins the list of its remote id. -/
private theorem Ledger.recv_pending (hl : a.Ledger) (hrun : a.running = true) {addr : EndpointAddr} {w : Nat}
    {queue : List (EndpointAddr × Nat)} (hq : a.queue = (addr, w) :: queue) (tasks : List (ι × EndpointAddr)) :
    Ledger { a with
      queue
      task := ⟨a.task.allowed, a.task.pending.insert addr.id (a.pendingAt addr.id ++ [w]), tasks⟩
      taken := a.taken ++ [w] } := by
  obtain ⟨hw, hwS, hwQ⟩ := hl.head_unique hq
  have hp : ∀ v addr', a.requests[v]? = some addr' → places { a with
      queue
      task := ⟨a.task.allowed, a.task.pending.insert addr.id (a.pendingAt addr.id ++ [w]), tasks⟩
      taken := a.taken ++ [w] } addr'.id v = a.places addr'.id v := by
    intro v addr' hv
    generalize hid : addr'.id = x
    simp only [places, pendingAt, pendingAt_insert, hq, List.map_cons, List.count_cons]
    by_cases hx : x = addr.id
    · subst hx
      simp only [if_true, List.count_append, List.count_cons, List.count_nil]
      omega
    · -- another remote's waiter is not the one taken
      have hvw : w ≠ v := by
        rintro rfl
        rw [hw] at hv
        exact hx (hid ▸ congrArg EndpointAddr.id (Option.some.inj hv).symm)
      simp [hx, hvw]
  obtain ⟨honce, hkept⟩ := hl.counts hp rfl rfl rfl
  obtain ⟨hqueued, htaken⟩ := hl.tail hq
  refine ⟨hl.parked, hqueued, ?_, hl.replied, honce, hkept, ?_, ?_⟩
  · intro x v hv
    simp only [pendingAt, pendingAt_insert] at hv
    split at hv
    · rename_i hx
      rcases List.mem_append.1 hv with hv | hv
      · subst hx
        exact hl.pending _ v hv
      · rw [List.mem_singleton.1 hv]
        exact ⟨addr, hw, hx.symm⟩
    · exact hl.pending x v hv
  · intro v hv
    rcases List.mem_append.1 hv with hv | hv
    · obtain ⟨h₁, h₂, h₃, h₄⟩ := htaken v hv
      refine ⟨h₁, h₂, h₃, fun hr => ?_⟩
      rcases h₄ hr with h₄ | ⟨x, hx⟩
      · exact .inl h₄
      · refine .inr ⟨x, ?_⟩
        simp only [pendingAt, pendingAt_insert]
        split
        · rename_i he
          exact List.mem_append_left _ (he ▸ hx)
        · exact hx
    · rw [List.mem_singleton.1 hv]
      exact ⟨lt_of_getElem? hw, hwS, hwQ, fun _ => .inr ⟨addr.id, by simp [pendingAt]⟩⟩
  · intro hr
    rw [hrun] at hr
    cases hr

/-! ### Every action keeps the ledger -/

section Actions

variable [DecidableEq ι]

private theorem Ledger.call {addr : EndpointAddr} (hl : a.Ledger) (h : a.step mode (.call addr) = some a') :
    a'.Ledger := by
  obtain ⟨-, rfl⟩ := step_call h
  have hp : ∀ x v, places { a with
      requests := a.requests ++ [addr]
      sending := if a.running then a.sending ++ [(addr, a.requests.length)] else a.sending } x v =
        a.places x v + if a.running ∧ v = a.requests.length then 1 else 0 := by
    intro x v
    by_cases hr : a.running = true
    · simp only [places, pendingAt, hr, if_true, List.map_append, List.map_cons, List.map_nil,
        List.count_append, List.count_cons, List.count_nil, beq_iff_eq, true_and]
      by_cases hv : v = a.requests.length
      · simp [hv]; omega
      · simp [hv, Ne.symm hv]
    · simp [places, pendingAt, hr]
  refine ⟨?_, ?_, ?_, ?_, ?_, ?_, ?_, ?_⟩
  · intro r hr
    rw [getElem?_snoc]
    dsimp only at hr
    split at hr
    · rcases List.mem_append.1 hr with hr | hr
      · exact .inl (hl.parked r hr)
      · rw [List.mem_singleton.1 hr]
        exact .inr ⟨rfl, rfl⟩
    · exact .inl (hl.parked r hr)
  · intro r hr
    rw [getElem?_snoc]
    exact .inl (hl.queued r hr)
  · intro x w hw
    obtain ⟨addr', hr, hx⟩ := hl.pending x w hw
    exact ⟨addr', getElem?_snoc.2 (.inl hr), hx⟩
  · intro r hr
    have := hl.replied r hr
    simp; omega
  · intro w addr' hw
    rw [hp]
    rcases getElem?_snoc.1 hw with hw | ⟨rfl, -⟩
    · have := hl.once w addr' hw
      have := lt_of_getElem? hw
      rw [if_neg (by omega)]
      omega
    · rw [hl.places_eq_zero le_rfl]
      split <;> omega
  · intro hr w addr' hw hc
    rw [hp]
    rcases getElem?_snoc.1 hw with hw | ⟨rfl, -⟩
    · have := hl.kept hr w addr' hw hc
      omega
    · rw [if_pos ⟨hr, rfl⟩]
      omega
  · intro w hw
    obtain ⟨h₁, h₂, h₃, h₄⟩ := hl.taken w hw
    refine ⟨by simp; omega, ?_, h₃, h₄⟩
    dsimp only
    split
    · simp only [List.map_append, List.map_cons, List.map_nil, List.mem_append, List.mem_singleton, not_or]
      exact ⟨h₂, by omega⟩
    · exact h₂
  · intro hr
    obtain ⟨h₁, h₂⟩ := hl.dropped hr
    have hr : a.running = false := hr
    simpa [hr] using ⟨h₁, h₂⟩

private theorem Ledger.send {w : Nat} (hl : a.Ledger) (h : a.step mode (.send w) = some a') :
    a'.Ledger := by
  obtain ⟨addr, l₁, l₂, hs, rfl⟩ := step_send h
  have hp : ∀ x v, places { a with sending := l₁ ++ l₂, queue := a.queue ++ [(addr, w)] } x v = a.places x v := by
    intro x v
    simp only [places, pendingAt, hs, List.map_append, List.map_cons, List.map_nil, List.count_append,
      List.count_cons, List.count_nil]
    omega
  obtain ⟨honce, hkept⟩ := hl.counts (fun v addr' _ => hp addr'.id v) rfl rfl rfl
  refine ⟨?_, ?_, hl.pending, hl.replied, honce, hkept, ?_, ?_⟩
  · intro r hr
    apply hl.parked r
    rw [hs]
    simp only [List.mem_append, List.mem_cons] at hr ⊢
    tauto
  · intro r hr
    rcases List.mem_append.1 hr with hr | hr
    · exact hl.queued r hr
    · rw [List.mem_singleton.1 hr]
      exact hl.parked (addr, w) (by simp [hs])
  · intro v hv
    have := hl.taken v hv
    simp only [hs, List.map_append, List.map_cons, List.mem_append, List.mem_cons] at this ⊢
    simp only [List.map_nil, List.not_mem_nil, or_false]
    tauto
  · intro hr
    have := (hl.dropped hr).1
    simp [hs] at this

private theorem Ledger.cancel {w : Nat} (hl : a.Ledger) (h : a.step mode (.cancel w) = some a') :
    a'.Ledger := by
  obtain ⟨hw, rfl⟩ := step_cancel h
  have hsub : (a.sending.eraseP (·.2 == w)).Sublist a.sending := List.eraseP_sublist
  have hcnt : ∀ v, v ≠ w → ((a.sending.eraseP (·.2 == w)).map (·.2)).count v = (a.sending.map (·.2)).count v := by
    intro v hv
    induction a.sending with
    | nil => rfl
    | cons r l ih =>
      by_cases hr : r.2 = w
      · simp [List.eraseP_cons_of_pos, hr, Ne.symm hv]
      · rw [List.eraseP_cons_of_neg (by simpa using hr)]
        simp only [List.map_cons, List.count_cons, ih]
  refine ⟨fun r hr => hl.parked r (hsub.subset hr), hl.queued, hl.pending, hl.replied, ?_, ?_, ?_, ?_⟩
  · intro v addr hv
    have := hl.once v addr hv
    have := (hsub.map (·.2)).count_le v
    simp only [places, pendingAt] at *
    omega
  · intro hr v addr hv hc
    simp only [List.mem_append, List.mem_singleton, not_or] at hc
    have := hl.kept hr v addr hv hc.1
    simp only [places, pendingAt, hcnt v hc.2] at *
    omega
  · intro v hv
    obtain ⟨h₁, h₂, h₃, h₄⟩ := hl.taken v hv
    exact ⟨h₁, fun h => h₂ ((hsub.map (·.2)).subset h), h₃, h₄⟩
  · intro hr
    obtain ⟨h₁, h₂⟩ := hl.dropped hr
    exact ⟨by simp [h₁], h₂⟩

private theorem Ledger.recv {handle : ι} (hl : a.Ledger) (h : a.step mode (.recv handle) = some a') :
    a'.Ledger := by
  obtain ⟨hrun, -, addr, w, queue, hq, h⟩ := step_recv h
  rcases h with ⟨-, rfl⟩ | ⟨ws, -, hws, rfl⟩ | ⟨-, hws, rfl⟩
  · obtain ⟨hw, hwS, hwQ⟩ := hl.head_unique hq
    have hp : ∀ x v, places { a with
        queue, replies := a.replies ++ [(w, .ok ())], taken := a.taken ++ [w] } x v = a.places x v := by
      intro x v
      simp only [places, pendingAt, hq, List.map_append, List.map_cons, List.map_nil, List.count_append,
        List.count_cons, List.count_nil]
      omega
    obtain ⟨honce, hkept⟩ := hl.counts (fun v addr' _ => hp addr'.id v) rfl rfl rfl
    obtain ⟨hqueued, htaken⟩ := hl.tail hq
    refine ⟨hl.parked, hqueued, hl.pending, ?_, honce, hkept, ?_, ?_⟩
    · intro r hr
      rcases List.mem_append.1 hr with hr | hr
      · exact hl.replied r hr
      · rw [List.mem_singleton.1 hr]
        exact lt_of_getElem? hw
    · intro v hv
      rcases List.mem_append.1 hv with hv | hv
      · obtain ⟨h₁, h₂, h₃, h₄⟩ := htaken v hv
        refine ⟨h₁, h₂, h₃, fun hr => ?_⟩
        rcases h₄ hr with h₄ | h₄
        · exact .inl (by rw [List.map_append]; exact List.mem_append_left _ h₄)
        · exact .inr h₄
      · rw [List.mem_singleton.1 hv]
        exact ⟨lt_of_getElem? hw, hwS, hwQ, fun _ => .inl (by simp)⟩
    · intro hr
      rw [hrun] at hr
      cases hr
  · have := hl.recv_pending hrun hq a.task.tasks
    simpa [pendingAt, hws] using this
  · have := hl.recv_pending hrun hq (a.task.tasks ++ [(handle, addr)])
    simpa [pendingAt, hws] using this

private theorem Ledger.join {handle : ι} {res : AuthResult} (hl : a.Ledger)
    (h : a.step mode (.join handle res) = some a') : a'.Ledger := by
  obtain ⟨hrun, addr, l₁, l₂, -, rfl⟩ := step_join h
  have hmap : (((a.task.pending.lookup addr.id).getD []).map fun tx => (tx, res)).map (·.1) =
      a.pendingAt addr.id := by
    simp [pendingAt, Function.comp_def]
  have hp : ∀ v addr', a.requests[v]? = some addr' → places { a with
      task := ⟨a.task.record addr.id res, a.task.pending.erase addr.id, l₁ ++ l₂⟩
      replies := a.replies ++ ((a.task.pending.lookup addr.id).getD []).map fun tx => (tx, res)
      completed := a.completed ++ [(handle, addr, res)] } addr'.id v = a.places addr'.id v := by
    intro v addr' hv
    simp only [places, List.map_append, hmap, List.count_append]
    generalize hid : addr'.id = x
    simp only [pendingAt, pendingAt_erase]
    by_cases hx : x = addr.id
    · subst hx
      simp only [if_true, List.count_nil]
      omega
    · -- a waiter of another remote is not in the list that is answered
      have : v ∉ a.pendingAt addr.id := by
        intro hmem
        obtain ⟨addr'', hv', hx'⟩ := hl.pending addr.id v hmem
        rw [hv] at hv'
        exact hx (hid ▸ Option.some.inj hv' ▸ hx')
      rw [pendingAt] at this
      simp [hx, List.count_eq_zero_of_not_mem this]
  obtain ⟨honce, hkept⟩ := hl.counts hp rfl rfl rfl
  refine ⟨hl.parked, hl.queued, ?_, ?_, honce, hkept, ?_, ?_⟩
  · intro x v hv
    simp only [pendingAt, pendingAt_erase] at hv
    split at hv
    · cases hv
    · exact hl.pending x v hv
  · intro r hr
    rcases List.mem_append.1 hr with hr | hr
    · exact hl.replied r hr
    · obtain ⟨v, hv, rfl⟩ := List.mem_map.1 hr
      obtain ⟨addr', hv, -⟩ := hl.pending addr.id v hv
      exact lt_of_getElem? hv
  · intro v hv
    obtain ⟨h₁, h₂, h₃, h₄⟩ := hl.taken v hv
    refine ⟨h₁, h₂, h₃, fun hr => ?_⟩
    simp only [List.map_append, hmap, List.mem_append, pendingAt, pendingAt_erase]
    rcases h₄ hr with h₄ | ⟨x, hx⟩
    · exact .inl (.inl h₄)
    · by_cases he : x = addr.id
      · exact .inl (.inr (he ▸ hx))
      · exact .inr ⟨x, by simpa [pendingAt, he] using hx⟩
  · intro hr
    rw [hrun] at hr
    cases hr

private theorem Ledger.stop {why : Stop ι} (hl : a.Ledger) (h : a.step mode (.stop why) = some a') :
    a'.Ledger := by
  obtain ⟨-, -, rfl⟩ := step_stop h
  refine ⟨by simp [stopped], by simp [stopped], by simp [stopped, pendingAt], hl.replied, ?_,
    by simp [stopped], ?_, by simp [stopped]⟩
  · intro v addr hv
    have := hl.once v addr hv
    simp only [places, stopped, pendingAt, List.map_nil, List.count_nil, AList.lookup_empty,
      Option.getD_none] at *
    omega
  · intro v hv
    exact ⟨(hl.taken v hv).1, by simp [stopped], by simp [stopped], by simp [stopped]⟩

theorem Ledger.step {act : Action ι} (hl : a.Ledger) (h : a.step mode act = some a') : a'.Ledger := by
  cases act with
  | call addr => exact hl.call h
  | send w => exact hl.send h
  | cancel w => exact hl.cancel h
  | recv handle => exact hl.recv h
  | join handle res => exact hl.join h
  | insert x =>
    obtain ⟨-, rfl⟩ := step_insert h
    exact ⟨hl.parked, hl.queued, hl.pending, hl.replied, hl.once, hl.kept, hl.taken, hl.dropped⟩
  | dropHook =>
    obtain ⟨-, rfl⟩ := step_dropHook h
    exact ⟨hl.parked, hl.queued, hl.pending, hl.replied, hl.once, hl.kept, hl.taken, hl.dropped⟩
  | stop why => exact hl.stop h

theorem ledger_of_run {acts : List (Action ι)} (h : init.run mode acts = some a) : a.Ledger :=
  run_induction (fun _ _ _ hl hs => hl.step hs) ledger_init h

end Actions

/-! ### What the replies say -/

/-- Why a waiter for `addr` is sent a reply by the action `act` from `a` to `a'`. -/
def Justifies (a : Authenticator ι) (act : Action ι) (a' : Authenticator ι) (addr : EndpointAddr) :
    AuthResult → Prop
  | .ok _ => addr.id ∈ a'.task.allowed
  | .error e => ∃ handle dialled, act = .join handle (.error e) ∧ dialled.id = addr.id ∧
      a'.completed = a.completed ++ [(handle, dialled, .error e)]

/-- One action only adds to what is recorded, allows a remote only on a handshake or an insertion, and justifies the
replies it sends. -/
structure Adds (mode : Mode) (a : Authenticator ι) (act : Action ι) (a' : Authenticator ι) : Prop where
  requests : a.requests <+: a'.requests
  taken : a.taken <+: a'.taken
  allowed : a.task.allowed ⊆ a'.task.allowed
  grown : ∀ x ∈ a'.task.allowed, x ∈ a.task.allowed ∨
    (∃ handle dialled, a'.completed = a.completed ++ [(handle, dialled, .ok ())] ∧ dialled.id = x) ∨
    (mode = .twoWay ∧ x ∈ a'.inserted)
  completed : a.completed <+: a'.completed
  inserted : a.inserted <+: a'.inserted
  replies : ∃ new, a'.replies = a.replies ++ new ∧
    ∀ r ∈ new, ∃ addr, a.requests[r.1]? = some addr ∧ Justifies a act a' addr r.2

theorem subset_record (task : AuthTask ι) (x : EndpointId) (res : AuthResult) :
    task.allowed ⊆ task.record x res := by
  cases res with
  | ok _ => exact Finset.subset_insert _ _
  | error _ => exact Finset.Subset.refl _

theorem Ledger.adds [DecidableEq ι] {act : Action ι} (hl : a.Ledger) (h : a.step mode act = some a') :
    Adds mode a act a' := by
  have hsame : a.requests <+: a'.requests → a.taken <+: a'.taken → a'.task.allowed = a.task.allowed →
      a'.completed = a.completed → a'.inserted = a.inserted → a'.replies = a.replies → Adds mode a act a' := by
    intro h₁ h₂ h₃ h₄ h₅ h₆
    exact ⟨h₁, h₂, h₃ ▸ Finset.Subset.refl _, fun x hx => .inl (h₃ ▸ hx), h₄ ▸ List.prefix_rfl,
      h₅ ▸ List.prefix_rfl, [], by simp [h₆], by simp⟩
  rcases step_cases h with hq | ⟨handle, rfl⟩ | ⟨handle, res, rfl⟩ | ⟨x, rfl⟩ | ⟨why, rfl⟩
  · exact hsame hq.requests (hq.taken ▸ List.prefix_rfl) (by rw [hq.task]) hq.completed hq.inserted hq.replies
  · obtain ⟨-, -, addr, w, queue, hq, h⟩ := step_recv h
    rcases h with ⟨hA, rfl⟩ | ⟨ws, -, -, rfl⟩ | ⟨-, -, rfl⟩
    · refine ⟨List.prefix_rfl, List.prefix_append _ _, Finset.Subset.refl _, fun _ => .inl, List.prefix_rfl,
        List.prefix_rfl, _, rfl, ?_⟩
      intro r hr
      rw [List.mem_singleton.1 hr]
      exact ⟨addr, (hl.head_unique hq).1, hA⟩
    · exact hsame List.prefix_rfl (List.prefix_append _ _) rfl rfl rfl rfl
    · exact hsame List.prefix_rfl (List.prefix_append _ _) rfl rfl rfl rfl
  · obtain ⟨-, addr, l₁, l₂, -, rfl⟩ := step_join h
    refine ⟨List.prefix_rfl, List.prefix_rfl, subset_record _ _ _, ?_, List.prefix_append _ _, List.prefix_rfl, _,
      rfl, ?_⟩
    · intro x hx
      cases res with
      | ok u =>
        rcases Finset.mem_insert.1 hx with rfl | hx
        · exact .inr (.inl ⟨handle, addr, rfl, rfl⟩)
        · exact .inl hx
      | error e => exact .inl hx
    · intro r hr
      obtain ⟨w, hw, rfl⟩ := List.mem_map.1 hr
      obtain ⟨addr', hr', hx⟩ := hl.pending addr.id w hw
      refine ⟨addr', hr', ?_⟩
      cases res with
      | ok u =>
        show addr'.id ∈ Insert.insert addr.id a.task.allowed
        rw [hx]
        exact Finset.mem_insert_self _ _
      | error e => exact ⟨handle, addr, rfl, hx.symm, rfl⟩
  · obtain ⟨rfl, rfl⟩ := step_insert h
    refine ⟨List.prefix_rfl, List.prefix_rfl, Finset.subset_insert _ _, ?_, List.prefix_rfl,
      List.prefix_append _ _, [], by simp [insert], by simp⟩
    intro y hy
    rcases Finset.mem_insert.1 hy with rfl | hy
    · exact .inr (.inr ⟨rfl, by simp [insert]⟩)
    · exact .inl hy
  · obtain ⟨-, -, rfl⟩ := step_stop h
    exact hsame List.prefix_rfl List.prefix_rfl rfl rfl rfl rfl

/-- What the replies sent so far say. -/
structure Answers (mode : Mode) (a : Authenticator ι) : Prop where
  ok : ∀ w, (w, .ok ()) ∈ a.replies → ∃ addr, a.requests[w]? = some addr ∧ addr.id ∈ a.task.allowed
  err : ∀ w e, (w, .error e) ∈ a.replies → ∃ addr handle dialled, a.requests[w]? = some addr ∧
    (handle, dialled, .error e) ∈ a.completed ∧ dialled.id = addr.id
  allowed : ∀ x ∈ a.task.allowed, (∃ handle dialled, (handle, dialled, .ok ()) ∈ a.completed ∧ dialled.id = x) ∨
    (mode = .twoWay ∧ x ∈ a.inserted)

theorem prefix_getElem? {α : Type} {l l' : List α} (h : l <+: l') {i : Nat} {x : α} (hi : l[i]? = some x) :
    l'[i]? = some x := by
  obtain ⟨t, rfl⟩ := h
  rw [List.getElem?_append_left (List.getElem?_eq_some_iff.1 hi).1, hi]

theorem answers_init : (init : Authenticator ι).Answers mode where
  ok := by simp [init]
  err := by simp [init]
  allowed := by simp [init]

theorem Answers.step [DecidableEq ι] {act : Action ι} (ha : a.Answers mode) (hl : a.Ledger)
    (h : a.step mode act = some a') : a'.Answers mode := by
  have hadd := hl.adds h
  obtain ⟨new, hnew, hjust⟩ := hadd.replies
  refine ⟨?_, ?_, ?_⟩
  · intro w hw
    rw [hnew] at hw
    rcases List.mem_append.1 hw with hw | hw
    · obtain ⟨addr, hr, hx⟩ := ha.ok w hw
      exact ⟨addr, prefix_getElem? hadd.requests hr, hadd.allowed hx⟩
    · obtain ⟨addr, hr, hx⟩ := hjust _ hw
      exact ⟨addr, prefix_getElem? hadd.requests hr, hx⟩
  · intro w e hw
    rw [hnew] at hw
    rcases List.mem_append.1 hw with hw | hw
    · obtain ⟨addr, handle, dialled, hr, hc, hx⟩ := ha.err w e hw
      exact ⟨addr, handle, dialled, prefix_getElem? hadd.requests hr, hadd.completed.subset hc, hx⟩
    · obtain ⟨addr, hr, handle, dialled, -, hx, hc⟩ := hjust _ hw
      exact ⟨addr, handle, dialled, prefix_getElem? hadd.requests hr, by simp [hc], hx⟩
  · intro x hx
    rcases hadd.grown x hx with hx | ⟨handle, dialled, hc, hx⟩ | hx
    · rcases ha.allowed x hx with ⟨handle, dialled, hc, hx⟩ | ⟨hm, hx⟩
      · exact .inl ⟨handle, dialled, hadd.completed.subset hc, hx⟩
      · exact .inr ⟨hm, hadd.inserted.subset hx⟩
    · exact .inl ⟨handle, dialled, by simp [hc], hx⟩
    · exact .inr hx

theorem answers_of_run [DecidableEq ι] {acts : List (Action ι)} (h : init.run mode acts = some a) :
    a.Answers mode :=
  (run_induction (P := fun a => a.Ledger ∧ a.Answers mode)
    (fun _ _ _ hP hs => ⟨hP.1.step hs, hP.2.step hP.1 hs⟩) ⟨ledger_init, answers_init⟩ h).2

/-! ### What `authenticate` and `before_connect` return -/

variable {postcard : PostcardError → String}

private theorem lookup_replies_eq_none {w : Nat} (h : w ∉ a.replies.map (·.1)) : a.replies.lookup w = none := by
  rw [List.lookup_eq_none_iff]
  intro p hp
  simp only [bne_iff_ne]
  rintro rfl
  exact h (List.mem_map_of_mem hp)

private theorem mem_of_lookup_replies {w : Nat} {r : AuthResult} (h : a.replies.lookup w = some r) :
    (w, r) ∈ a.replies := by
  obtain ⟨l₁, l₂, hl, -⟩ := List.lookup_eq_some_iff.1 h
  simp [hl]

private theorem held_iff {w : Nat} : a.held w = true ↔
    w ∈ a.sending.map (·.2) ∨ w ∈ a.queue.map (·.2) ∨ ∃ x, w ∈ a.pendingAt x := by
  have hp : (∃ x, w ∈ a.pendingAt x) ↔ a.task.pending.entries.any (·.2.contains w) = true := by
    simp only [List.any_eq_true, List.contains_iff_mem]
    constructor
    · rintro ⟨x, hx⟩
      cases hl : a.task.pending.lookup x with
      | none => simp [pendingAt, hl] at hx
      | some ws => exact ⟨⟨x, ws⟩, AList.mem_lookup_iff.1 hl, by simpa [pendingAt, hl] using hx⟩
    · rintro ⟨⟨x, ws⟩, hm, hw⟩
      have hl : a.task.pending.lookup x = some ws := AList.mem_lookup_iff.2 hm
      exact ⟨x, by simpa [pendingAt, hl] using hw⟩
  rw [hp]
  simp [held, or_assoc]

theorem mem_replies_of_authenticate {w : Nat} (h : a.authenticate postcard w = some (.ok ())) :
    (w, .ok ()) ∈ a.replies := by
  rw [authenticate] at h
  split at h
  · exact mem_of_lookup_replies ‹_›
  · cases h
  · split at h <;> cases h

theorem authenticate_of_beforeConnect {alpn : Bytes} {w : Nat} (halpn : alpn ≠ mode.alpn)
    (h : a.beforeConnect postcard mode alpn w = some .accept) : a.authenticate postcard w = some (.ok ()) := by
  rw [beforeConnect, IrohHydeAuth.beforeConnect, if_neg halpn] at h
  cases hr : a.authenticate postcard w with
  | none => simp [hr] at h
  | some r =>
    cases r with
    | ok u => rfl
    | error e => simp [hr] at h

/-- What an authenticator owes its callers, at any moment. -/
structure FailsClosed (postcard : PostcardError → String) (mode : Mode) (a : Authenticator ι) : Prop where
  /-- No waiter is sent two replies. -/
  once : (a.replies.map (·.1)).Nodup
  /-- A waiter taken by `handle_request` is answered, or listed exactly once, under its own remote id. -/
  accounted : a.running = true → ∀ w ∈ a.taken, ∃ addr, a.requests[w]? = some addr ∧
    ((w ∈ a.replies.map (·.1) ∧ ∀ x, w ∉ a.pendingAt x) ∨
      (w ∉ a.replies.map (·.1) ∧ (a.pendingAt addr.id).count w = 1 ∧ ∀ x, x ≠ addr.id → w ∉ a.pendingAt x))
  /-- A waiter is answered `Ok` only for an allowed remote. -/
  ok : ∀ w, (w, .ok ()) ∈ a.replies → ∃ addr, a.requests[w]? = some addr ∧ addr.id ∈ a.task.allowed
  /-- A waiter is answered `Err` only with the error of a failed handshake with the remote it asked for. -/
  err : ∀ w e, (w, .error e) ∈ a.replies → ∃ addr handle dialled, a.requests[w]? = some addr ∧
    (handle, dialled, .error e) ∈ a.completed ∧ dialled.id = addr.id
  /-- As long as the loop runs, a call that is not answered is still waiting. -/
  waiting : a.running = true → ∀ w < a.requests.length, w ∉ a.cancelled → w ∉ a.replies.map (·.1) →
    a.authenticate postcard w = none
  /-- When the loop has stopped, every call that was not answered, taken or still in the channel, returns
  `AuthenticatorStopped`. -/
  stopped : a.running = false → ∀ w < a.requests.length, w ∉ a.replies.map (·.1) →
    a.authenticate postcard w = some (.error .authenticatorStopped)
  /-- An application dial is let through only after a successful handshake with its remote, or, in the mutual mode,
  after the acceptor side has authenticated it. -/
  accept : ∀ alpn w, alpn ≠ mode.alpn → a.beforeConnect postcard mode alpn w = some .accept →
    ∃ addr, a.requests[w]? = some addr ∧
      ((∃ handle dialled, (handle, dialled, .ok ()) ∈ a.completed ∧ dialled.id = addr.id) ∨
        (mode = .twoWay ∧ addr.id ∈ a.inserted))

theorem Ledger.failsClosed (hl : a.Ledger) (ha : a.Answers mode) : a.FailsClosed postcard mode where
  once := by
    rw [List.nodup_iff_count_le_one]
    intro w
    by_cases hw : w ∈ a.replies.map (·.1)
    · obtain ⟨r, hr, rfl⟩ := List.mem_map.1 hw
      have hlt := hl.replied r hr
      have := hl.once r.1 _ (List.getElem?_eq_getElem hlt)
      rw [places] at this
      omega
    · rw [List.count_eq_zero_of_not_mem hw]
      omega
  accounted := by
    intro hrun w hw
    obtain ⟨hlt, -, -, hplace⟩ := hl.taken w hw
    refine ⟨_, List.getElem?_eq_getElem hlt, ?_⟩
    have hw' := List.getElem?_eq_getElem hlt
    have honce := hl.once w _ hw'
    rw [places] at honce
    -- the list of another remote holds only waiters of that remote
    have hother : ∀ x, w ∈ a.pendingAt x → x = a.requests[w].id := by
      intro x hx
      obtain ⟨addr, hr, rfl⟩ := hl.pending x w hx
      rw [hw'] at hr
      rw [Option.some.inj hr]
    rcases hplace hrun with hr | ⟨x, hx⟩
    · have h₁ := List.count_pos_iff.2 hr
      refine .inl ⟨hr, fun x hx => ?_⟩
      have h₂ := List.count_pos_iff.2 (hother x hx ▸ hx)
      omega
    · have h₁ := List.count_pos_iff.2 (hother x hx ▸ hx)
      refine .inr ⟨fun hr => ?_, by omega, fun y hy hm => hy (hother y hm)⟩
      have h₂ := List.count_pos_iff.2 hr
      omega
  ok := ha.ok
  err := ha.err
  waiting := by
    intro hrun w hlt hc hr
    have hkept := hl.kept hrun w _ (List.getElem?_eq_getElem hlt) hc
    rw [places, List.count_eq_zero_of_not_mem hr] at hkept
    have hheld : a.held w = true := by
      rw [held_iff]
      by_contra hn
      simp only [not_or, not_exists] at hn
      rw [List.count_eq_zero_of_not_mem hn.1, List.count_eq_zero_of_not_mem hn.2.1,
        List.count_eq_zero_of_not_mem (hn.2.2 _)] at hkept
      omega
    simp [authenticate, lookup_replies_eq_none hr, hheld]
  stopped := by
    intro hrun w _ hr
    obtain ⟨hs, hq, hp, -⟩ := hl.dropped hrun
    have hheld : ¬ a.held w = true := by
      rw [held_iff]
      simp [hs, hq, pendingAt, hp]
    simp [authenticate, lookup_replies_eq_none hr, hheld]
  accept := by
    intro alpn w halpn h
    obtain ⟨addr, hr, hx⟩ := ha.ok w (mem_replies_of_authenticate (authenticate_of_beforeConnect halpn h))
    exact ⟨addr, hr, ha.allowed _ hx⟩

/-- Every request is resolved at most once, never lost or misrouted, and the gate fails closed, at every moment of
every run; and each action sends only replies that are justified then and only ever adds to the allowed set. -/
theorem every_request_resolved_once [DecidableEq ι] (postcard : PostcardError → String) (mode : Mode)
    {acts : List (Action ι)} (h : init.run mode acts = some a) :
    a.FailsClosed postcard mode ∧ ∀ act a', a.step mode act = some a' → Adds mode a act a' :=
  ⟨(ledger_of_run h).failsClosed (answers_of_run h), fun _ _ hs => (ledger_of_run h).adds hs⟩

/-- Two calls for one remote share a handshake that fails; a third starts another one, and the guard is dropped
before it ends. -/
private def sharedFailure (x : EndpointAddr) : List (Action Nat) :=
  [.call x, .call x, .send 0, .send 1, .recv 0, .recv 1, .join 0 (.error .clockSkew), .call x, .send 2, .recv 1,
    .stop .guardDropped]

theorem sharedFailure_resolved :
    let x : EndpointAddr := ⟨⟨List.replicate 32 7, rfl⟩, ∅⟩
    let postcard : PostcardError → String := fun _ => "malformed message"
    ∃ a, init.run .oneWay (sharedFailure x) = some a ∧ a.FailsClosed postcard .oneWay ∧
      a.replies = [(0, .error .clockSkew), (1, .error .clockSkew)] ∧
      a.authenticate postcard 2 = some (.error .authenticatorStopped) := by
  intro x postcard
  have h : (init.run .oneWay (sharedFailure x)).isSome = true := by decide
  refine ⟨Option.get _ h, (Option.some_get h).symm, ?_, rfl, rfl⟩
  exact (every_request_resolved_once postcard .oneWay (Option.some_get h).symm).1

end Authenticator
end IrohHydeAuth
