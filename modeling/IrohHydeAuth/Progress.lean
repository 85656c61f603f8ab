import IrohHydeAuth.Deduplication
import Mathlib.Data.Fintype.EquivFin

/-!
# The authenticator gets its work done

Callers, the acceptor side and whoever drops the hook or the guard act as they please; what the channel and the loop
do by themselves is to give a parked request its slot, to take a request, and to join a handshake that has returned.
Every such action lowers the `workload` (`workload_lt`).  Where none of them is possible any more, a call has its answer
or waits for a handshake that has not returned (`Settled`).

In which order?  The channel keeps the order in which requests enter it, and the waiters of one remote are answered in
that order, unless the acceptor side has let the remote in meanwhile (`served_in_order`).  And with what?  If the
outcome of a handshake depends on the remote only, with exactly what a handshake of its own would have got a request,
although handshakes are shared and cached (`agrees_with_plain`).
-/

namespace IrohHydeAuth

open Process

/-- The actions that the channel and the loop take by themselves. -/
def Action.isOwn {ι : Type} : Action ι → Bool
  | .send _ | .recv _ | .join _ _ => true
  | .call _ | .cancel _ | .insert _ | .dropHook | .stop _ => false

def Action.isCall {ι : Type} : Action ι → Bool
  | .call _ => true
  | _ => false

namespace Authenticator

variable {ι : Type} {mode : Mode} {a a' : Authenticator ι} {returned : ι → AuthResult → Prop}
  {postcard : PostcardError → String}

/-! ### Coming to rest -/

/-- A bound for the number of own actions to come: a parked request has yet to be sent, taken and joined. -/
def workload (a : Authenticator ι) : Nat := 3 * a.sending.length + 2 * a.queue.length + a.task.tasks.length

/-- A waiter that was replied to has its answer. -/
theorem replied_authenticate {w : Nat} (h : w ∈ a.replies.map (·.1)) :
    ∃ res, (w, res) ∈ a.replies ∧
      a.authenticate postcard w = some (res.mapError fun e => .denied (e.toString postcard)) := by
  cases hl : a.replies.lookup w with
  | none =>
    obtain ⟨r, hr, rfl⟩ := List.mem_map.1 h
    have := List.lookup_eq_none_iff.1 hl r hr
    simp at this
  | some res =>
    obtain ⟨l₁, l₂, he, -⟩ := List.lookup_eq_some_iff.1 hl
    refine ⟨res, by simp [he], ?_⟩
    cases res with
    | ok u => simp [authenticate, hl, Except.mapError]
    | error e => simp [authenticate, hl, Except.mapError]

/-- What is left at rest.  The channel is empty and no handshake in flight has returned; and a call that was not given
up has returned, not for want of an authenticator, or waits for one of these handshakes. -/
structure Settled (postcard : PostcardError → String) (returned : ι → AuthResult → Prop) (a : Authenticator ι) :
    Prop where
  sending : a.sending = []
  queue : a.queue = []
  tasks : ∀ t ∈ a.task.tasks, ∀ res, ¬ returned t.1 res
  calls : ∀ w addr, a.requests[w]? = some addr → w ∉ a.cancelled →
    (∃ r, a.authenticate postcard w = some r ∧ r ≠ .error .authenticatorStopped) ∨
      a.authenticate postcard w = none ∧ ∃ t ∈ a.task.tasks, t.2.id = addr.id

/-- Where only the calls pending for handshakes in flight are left, a call has returned or waits for its handshake. -/
theorem Ledger.settled (hl : a.Ledger) (ha : a.Answers mode) (hs : a.Synchronised mode) (hr : a.running = true)
    (hsending : a.sending = []) (hqueue : a.queue = []) (htasks : ∀ t ∈ a.task.tasks, ∀ res, ¬ returned t.1 res) :
    a.Settled postcard returned := by
  refine ⟨hsending, hqueue, htasks, fun w addr hw hc => ?_⟩
  by_cases hreplied : w ∈ a.replies.map (·.1)
  · obtain ⟨res, -, hres⟩ := replied_authenticate hreplied
    refine .inl ⟨_, hres, ?_⟩
    cases res with
    | ok u => simp [Except.mapError]
    | error e => simp [Except.mapError]
  · have hlt : w < a.requests.length := (List.getElem?_eq_some_iff.1 hw).1
    refine .inr ⟨(hl.failsClosed ha).waiting hr w hlt hc hreplied, ?_⟩
    -- the only place left for the waiter is the list of its remote
    have hkept := hl.kept hr w addr hw hc
    simp only [places, hsending, hqueue, List.map_nil, List.count_nil, List.count_eq_zero_of_not_mem hreplied]
      at hkept
    have hpending : w ∈ a.pendingAt addr.id := List.count_pos_iff.1 (by omega)
    have hkey : addr.id ∈ a.task.pending := by
      by_contra hn
      simp [pendingAt, AList.lookup_eq_none.2 hn] at hpending
    obtain ⟨t, ht, hid⟩ := List.mem_map.1 ((hs.keys addr.id).1 hkey)
    exact ⟨t, ht, hid⟩

section Rest

variable [DecidableEq ι]

/-- None of its own actions is possible, if `returned` says which handshakes have returned, and with what. -/
def Rests (mode : Mode) (returned : ι → AuthResult → Prop) (a : Authenticator ι) : Prop :=
  ∀ act : Action ι, act.isOwn = true → (∀ handle res, act = .join handle res → returned handle res) →
    a.step mode act = none

/-- Every own action lowers the workload and leaves the loop alone. -/
theorem workload_lt {act : Action ι} (hown : act.isOwn = true) (h : a.step mode act = some a') :
    a'.workload < a.workload ∧ a'.running = a.running := by
  cases act with
  | send w =>
    obtain ⟨addr, l₁, l₂, hs, rfl⟩ := step_send h
    simp only [workload, hs, List.length_append, List.length_cons, List.length_nil, and_true]
    omega
  | recv handle =>
    obtain ⟨-, -, addr, w, queue, hq, h⟩ := step_recv h
    rcases h with ⟨-, rfl⟩ | ⟨ws, -, -, rfl⟩ | ⟨-, -, rfl⟩
    all_goals
      simp only [workload, hq, List.length_append, List.length_cons, List.length_nil, and_true]
      omega
  | join handle res =>
    obtain ⟨-, addr, l₁, l₂, ht, rfl⟩ := step_join h
    simp only [workload, ht, List.length_append, List.length_cons, and_true]
    omega
  | _ => cases hown

/-- Of the other actions only a call makes work. -/
theorem workload_le {act : Action ι} (hown : act.isOwn = false) (h : a.step mode act = some a') :
    a'.workload ≤ a.workload + if act.isCall then 3 else 0 := by
  cases act with
  | call addr =>
    obtain ⟨-, rfl⟩ := step_call h
    simp only [workload, Action.isCall, if_true]
    split
    · simp only [List.length_append, List.length_cons, List.length_nil]
      omega
    · omega
  | cancel w =>
    obtain ⟨-, rfl⟩ := step_cancel h
    have hle : (a.sending.eraseP (·.2 == w)).length ≤ a.sending.length := List.length_eraseP_le
    simp only [workload]
    omega
  | insert x =>
    obtain ⟨-, rfl⟩ := step_insert h
    exact Nat.le_add_right _ _
  | dropHook =>
    obtain ⟨-, rfl⟩ := step_dropHook h
    exact Nat.le_add_right _ _
  | stop why =>
    obtain ⟨-, -, rfl⟩ := step_stop h
    simp [workload, stopped]
  | _ => cases hown

/-- A handshake in flight can be joined with whatever it returned. -/
theorem can_join (mode : Mode) (hr : a.running = true) {t : ι × EndpointAddr} (ht : t ∈ a.task.tasks)
    (res : AuthResult) :
    ∃ a', a.step mode (.join t.1 res) = some a' := by
  have hf : (a.task.tasks.find? (·.1 == t.1)).isSome = true := List.find?_isSome.2 ⟨t, ht, by simp⟩
  obtain ⟨t', ht'⟩ := Option.isSome_iff_exists.1 hf
  simp only [step, hr, if_true, join, ht']
  exact ⟨_, rfl⟩

/-- A request in the channel can be taken, under any name that is not in use for the handshake it may start. -/
theorem can_recv (mode : Mode) (hr : a.running = true) (hq : a.queue ≠ []) {handle : ι}
    (hh : ∀ t ∈ a.task.tasks, t.1 ≠ handle) : ∃ a', a.step mode (.recv handle) = some a' := by
  cases hq' : a.queue with
  | nil => exact absurd hq' hq
  | cons r queue =>
    have hany : a.task.tasks.any (·.1 == handle) = false := by simpa using hh
    simp only [step, hr, hany, Bool.not_false, Bool.and_self, if_true, recv, hq']
    exact ⟨_, rfl⟩

/-- A parked request can be sent if there is room. -/
theorem can_send (mode : Mode) {r : EndpointAddr × Nat} (hs : r ∈ a.sending) (hq : a.queue.length < CHANNEL_CAPACITY) :
    ∃ a', a.step mode (.send r.2) = some a' := by
  have hf : (a.sending.find? (·.2 == r.2)).isSome = true := List.find?_isSome.2 ⟨r, hs, by simp⟩
  obtain ⟨r', hr'⟩ := Option.isSome_iff_exists.1 hf
  simp only [step, hr', hq, if_true]
  exact ⟨_, rfl⟩

private theorem exists_fresh [Infinite ι] (tasks : List (ι × EndpointAddr)) : ∃ handle, ∀ t ∈ tasks, t.1 ≠ handle := by
  classical
  obtain ⟨handle, hh⟩ := Infinite.exists_notMem_finset (tasks.map (·.1)).toFinset
  refine ⟨handle, ?_⟩
  rintro t ht rfl
  exact hh (by simpa using ⟨t.2, ht⟩)

/-- At rest only handshakes that have not returned are left. -/
private theorem Rests.settled [Infinite ι] (hrest : a.Rests mode returned) (hl : a.Ledger) (ha : a.Answers mode)
    (hs : a.Synchronised mode) (hr : a.running = true) : a.Settled postcard returned := by
  have hqueue : a.queue = [] := by
    by_contra hq
    obtain ⟨handle, hh⟩ := exists_fresh a.task.tasks
    obtain ⟨a', ha'⟩ := can_recv mode hr hq hh
    rw [hrest _ rfl (by simp)] at ha'
    cases ha'
  refine hl.settled ha hs hr (List.eq_nil_iff_forall_not_mem.2 fun r hsend => ?_) hqueue fun t ht res hret => ?_
  · obtain ⟨a', ha'⟩ := can_send mode hsend (by simp [hqueue, CHANNEL_CAPACITY])
    rw [hrest _ rfl (by simp)] at ha'
    cases ha'
  · obtain ⟨a', ha'⟩ := can_join mode hr ht res
    rw [hrest _ rfl (by rintro _ _ ⟨⟩; exact hret)] at ha'
    cases ha'

end Rest

/-! ### First come, first served -/

/-- Waiter `w` is one of the requests for `x`. -/
def asksFor (requests : List EndpointAddr) (x : EndpointId) (w : Nat) : Bool := requests[w]?.any (·.id = x)

/-- The waiters of `x` that were replied to, in this order. -/
def repliedTo (a : Authenticator ι) (x : EndpointId) : List Nat :=
  (a.replies.map (·.1)).filter (asksFor a.requests x)

/-- The requests that entered the channel, in this order. -/
def entered (a : Authenticator ι) : List Nat := a.taken ++ a.queue.map (·.2)

/-- The waiters of `x` are replied to in the order in which the loop took them. -/
def InOrder (a : Authenticator ι) (x : EndpointId) : Prop :=
  a.repliedTo x ++ a.pendingAt x = a.taken.filter (asksFor a.requests x)

section Order

variable {x : EndpointId}

private theorem asksFor_of_getElem? {requests : List EndpointAddr} {w : Nat} {addr : EndpointAddr}
    (h : requests[w]? = some addr) : asksFor requests x w = decide (addr.id = x) := by
  simp [asksFor, h]

private theorem Quiet.inOrder (hq : a.Quiet a') (hl : a.Ledger) (ho : a.InOrder x) : a'.InOrder x := by
  have hasks : ∀ w < a.requests.length, asksFor a'.requests x w = asksFor a.requests x w := by
    intro w hw
    have hr := List.getElem?_eq_getElem hw
    rw [asksFor_of_getElem? hr, asksFor_of_getElem? (prefix_getElem? hq.requests hr)]
  have hreplies : a'.repliedTo x = a.repliedTo x := by
    rw [repliedTo, hq.replies]
    refine List.filter_congr fun w hw => ?_
    obtain ⟨r, hr, rfl⟩ := List.mem_map.1 hw
    exact hasks r.1 (hl.replied r hr)
  have htaken : a.taken.filter (asksFor a'.requests x) = a.taken.filter (asksFor a.requests x) :=
    List.filter_congr fun w hw => hasks w (hl.taken w hw).1
  rw [InOrder, hreplies, pendingAt, hq.task, hq.taken, htaken]
  exact ho

/-- While a remote is allowed and the acceptor side had no part in it, nobody waits for it. -/
private theorem Answers.pendingAt_eq_nil (ha : a.Answers mode) (hs : a.Synchronised mode) (hx : x ∈ a.task.allowed)
    (hi : x ∉ a.inserted) : a.pendingAt x = [] := by
  rcases ha.allowed x hx with ⟨handle, dialled, hc, hid⟩ | ⟨-, hins⟩
  · have hcount : 1 ≤ a.okCount x := List.countP_pos_iff.2 ⟨_, hc, by simp [hid]⟩
    have hnot : x ∉ a.task.pending := fun hp => (hs.settled x hcount).2 ((hs.keys x).1 hp)
    simp [pendingAt, AList.lookup_eq_none.2 hnot]
  · exact absurd hins hi

variable [DecidableEq ι]

private theorem InOrder.recv {handle : ι} (ho : a.InOrder x) (hl : a.Ledger) (hs : a.Synchronised mode)
    (ha : a.Answers mode) (hi : x ∉ a.inserted) (h : a.step mode (.recv handle) = some a') : a'.InOrder x := by
  obtain ⟨-, -, addr, w, queue, hq, h⟩ := step_recv h
  have hw : a.requests[w]? = some addr := hl.queued (addr, w) (by simp [hq])
  have hfilter : [w].filter (asksFor a.requests x) = if x = addr.id then [w] else [] := by
    by_cases hx : x = addr.id
    · simp [asksFor_of_getElem? hw, hx]
    · simp [asksFor_of_getElem? hw, hx, Ne.symm hx]
  rw [InOrder] at ho
  -- the waiter taken joins the end of the list of its remote
  have hjoins : ∀ tasks : List (ι × EndpointAddr), InOrder { a with
      queue
      task := ⟨a.task.allowed, a.task.pending.insert addr.id (a.pendingAt addr.id ++ [w]), tasks⟩
      taken := a.taken ++ [w] } x := by
    intro tasks
    simp only [InOrder, repliedTo, pendingAt, pendingAt_insert, List.filter_append, hfilter] at ho ⊢
    by_cases hx : x = addr.id
    · subst hx
      simp [← ho]
    · simp [hx, ← ho]
  rcases h with ⟨hA, rfl⟩ | ⟨ws, -, hws, rfl⟩ | ⟨-, hws, rfl⟩
  · simp only [InOrder, repliedTo, pendingAt, List.map_append, List.map_cons, List.map_nil, List.filter_append,
      hfilter] at ho ⊢
    by_cases hx : x = addr.id
    · subst hx
      have hnone := ha.pendingAt_eq_nil hs hA hi
      rw [pendingAt] at hnone
      simp [hnone, ← ho]
    · simp [hx, ← ho]
  · simpa [pendingAt, hws] using hjoins a.task.tasks
  · simpa [pendingAt, hws] using hjoins (a.task.tasks ++ [(handle, addr)])

private theorem InOrder.join {handle : ι} {res : AuthResult} (ho : a.InOrder x) (hl : a.Ledger)
    (h : a.step mode (.join handle res) = some a') : a'.InOrder x := by
  obtain ⟨-, addr, l₁, l₂, -, rfl⟩ := step_join h
  have hfilter : (a.pendingAt addr.id).filter (asksFor a.requests x) =
      if x = addr.id then a.pendingAt addr.id else [] := by
    by_cases hx : x = addr.id
    · rw [if_pos hx, List.filter_eq_self]
      intro w hw
      obtain ⟨addr', hr, hid⟩ := hl.pending addr.id w hw
      simp [asksFor_of_getElem? hr, hid, hx]
    · rw [if_neg hx, List.filter_eq_nil_iff]
      intro w hw
      obtain ⟨addr', hr, hid⟩ := hl.pending addr.id w hw
      simp [asksFor_of_getElem? hr, hid, Ne.symm hx]
  have hmap : (((a.task.pending.lookup addr.id).getD []).map fun tx => (tx, res)).map (·.1) =
      a.pendingAt addr.id := by
    simp [pendingAt, Function.comp_def]
  simp only [InOrder, repliedTo, List.map_append, List.filter_append, hmap, hfilter] at ho ⊢
  simp only [pendingAt, pendingAt_erase] at ho ⊢
  by_cases hx : x = addr.id
  · subst hx
    simpa using ho
  · simpa [hx] using ho

private theorem InOrder.step {act : Action ι} (ho : a.InOrder x) (hl : a.Ledger) (hs : a.Synchronised mode)
    (ha : a.Answers mode) (hi : x ∉ a.inserted) (h : a.step mode act = some a') (hr : a'.running = true) :
    a'.InOrder x := by
  rcases step_cases h with hq | ⟨handle, rfl⟩ | ⟨handle, res, rfl⟩ | ⟨y, rfl⟩ | ⟨why, rfl⟩
  · exact hq.inOrder hl ho
  · exact ho.recv hl hs ha hi h
  · exact ho.join hl h
  · obtain ⟨-, rfl⟩ := step_insert h
    exact ho
  · obtain ⟨-, -, rfl⟩ := step_stop h
    cases hr

/-- Nothing leaves the order of the channel while the loop runs. -/
private theorem entered_of_step {act : Action ι} (h : a.step mode act = some a') (hr : a'.running = true) :
    a.entered <+: a'.entered := by
  cases act with
  | call addr =>
    obtain ⟨-, rfl⟩ := step_call h
    exact List.prefix_rfl
  | send w =>
    obtain ⟨addr, l₁, l₂, -, rfl⟩ := step_send h
    simp only [entered, List.map_append, ← List.append_assoc]
    exact List.prefix_append _ _
  | cancel w =>
    obtain ⟨-, rfl⟩ := step_cancel h
    exact List.prefix_rfl
  | recv handle =>
    obtain ⟨-, -, addr, w, queue, hq, h⟩ := step_recv h
    rcases h with ⟨-, rfl⟩ | ⟨ws, -, -, rfl⟩ | ⟨-, -, rfl⟩
    all_goals simp [entered, hq]
  | join handle res =>
    obtain ⟨-, addr, l₁, l₂, -, rfl⟩ := step_join h
    exact List.prefix_rfl
  | insert x =>
    obtain ⟨-, rfl⟩ := step_insert h
    exact List.prefix_rfl
  | dropHook =>
    obtain ⟨-, rfl⟩ := step_dropHook h
    exact List.prefix_rfl
  | stop why =>
    obtain ⟨-, -, rfl⟩ := step_stop h
    cases hr

private theorem entered_of_run {acts : List (Action ι)} (h : a.run mode acts = some a') (hr : a'.running = true) :
    a.running = true ∧ a.entered <+: a'.entered := by
  induction acts generalizing a with
  | nil =>
    cases h
    exact ⟨hr, List.prefix_rfl⟩
  | cons act acts ih =>
    obtain ⟨a₁, h₁, h₂⟩ := Option.bind_eq_some_iff.1 h
    obtain ⟨hr₁, hp₁⟩ := ih h₂
    exact ⟨running_of_step h₁ hr₁, (entered_of_step h₁ hr₁).trans hp₁⟩

private theorem inOrder_of_run {acts : List (Action ι)} (h : init.run mode acts = some a) (hr : a.running = true)
    (hi : x ∉ a.inserted) : a.InOrder x := by
  have hP := run_induction
    (P := fun a => (a.Ledger ∧ a.Synchronised mode ∧ a.Answers mode) ∧
      (a.running = true → x ∉ a.inserted → a.InOrder x))
    ?_ ⟨⟨ledger_init, synchronised_init mode, answers_init⟩, fun _ _ => rfl⟩ h
  · exact hP.2 hr hi
  · rintro a a' act ⟨⟨hl, hs, ha⟩, ho⟩ hstep
    refine ⟨⟨hl.step hstep, hs.step hstep, ha.step hl hstep⟩, fun hr' hi' => ?_⟩
    have hi₀ : x ∉ a.inserted := fun hm => hi' ((hl.adds hstep).inserted.subset hm)
    exact (ho (running_of_step hstep hr') hi₀).step hl hs ha hi₀ hstep hr'

/-- In the one-directional mode nothing is inserted. -/
private theorem inserted_oneWay {acts : List (Action ι)} (h : init.run .oneWay acts = some a) : a.inserted = [] := by
  refine run_induction (P := fun a => a.inserted = []) ?_ rfl h
  intro a a' act hnil hstep
  refine List.eq_nil_iff_forall_not_mem.2 fun x hx => ?_
  rcases inserted_of_step hstep hx with hm | hm
  · simp [hnil] at hm
  · subst hm
    cases hstep

/-- A pair of which the second is not in the second list lies in the first. -/
private theorem sublist_left {α : Type} {l₁ l₂ : List α} {u v : α} (h : [u, v].Sublist (l₁ ++ l₂)) (hv : v ∉ l₂) :
    [u, v].Sublist l₁ := by
  obtain ⟨s₁, s₂, he, h₁, h₂⟩ := List.sublist_append_iff.1 h
  cases hs : s₂.getLast? with
  | none =>
    rw [List.getLast?_eq_none_iff.1 hs, List.append_nil] at he
    rwa [he]
  | some t =>
    have hlast := congrArg List.getLast? he
    rw [List.getLast?_append, hs] at hlast
    have ht : v = t := by simpa using hlast
    exact absurd (h₂.subset (ht ▸ List.mem_of_getLast? hs)) hv

/-- The channel keeps the order in which requests enter it, and of two requests for one remote the one that entered
first is replied to first, unless the acceptor side has let the remote in. -/
theorem served_in_order (mode : Mode) {acts : List (Action ι)} (h : init.run mode acts = some a)
    (hr : a.running = true) :
    (∀ acts' a', a.run mode acts' = some a' → a'.running = true → a.entered <+: a'.entered) ∧
      ∀ x, mode = .oneWay ∨ x ∉ a.inserted → ∀ w w', [w, w'].Sublist a.entered →
        asksFor a.requests x w = true → asksFor a.requests x w' = true → w' ∈ a.replies.map (·.1) →
        [w, w'].Sublist (a.replies.map (·.1)) := by
  refine ⟨fun acts' a' h' hr' => (entered_of_run h' hr').2, ?_⟩
  intro x hx w w' hsub hw hw' hreplied
  have hl := ledger_of_run h
  have hi : x ∉ a.inserted := by
    rcases hx with rfl | hx
    · simp [inserted_oneWay h]
    · exact hx
  have ho : a.InOrder x := inOrder_of_run h hr hi
  -- a waiter that was replied to is neither pending nor in the channel
  obtain ⟨addr, haddr, hid⟩ : ∃ addr, a.requests[w']? = some addr ∧ addr.id = x := by
    simpa [asksFor, Option.any_eq_true] using hw'
  have honce := hl.once w' addr haddr
  have hpos := List.count_pos_iff.2 hreplied
  rw [places, hid] at honce
  have hpending : w' ∉ a.pendingAt x := List.count_eq_zero.1 (by omega)
  have hqueue : w' ∉ a.queue.map (·.2) := List.count_eq_zero.1 (by omega)
  have hboth : ([w, w'].filter (asksFor a.requests x)).Sublist (a.taken.filter (asksFor a.requests x)) :=
    (sublist_left hsub hqueue).filter _
  rw [← ho, show [w, w'].filter (asksFor a.requests x) = [w, w'] by simp [hw, hw']] at hboth
  exact (sublist_left hboth hpending).trans List.filter_sublist

/-- Three requests, two of them for one remote, taken in another order than they were made. -/
private def threeServed (x y : EndpointAddr) : List (Action Nat) :=
  [.call x, .call y, .call x, .send 2, .send 1, .send 0, .recv 0, .recv 1, .recv 2, .join 0 (.ok ())]

theorem threeServed_in_order :
    let x : EndpointAddr := ⟨⟨List.replicate 32 7, rfl⟩, ∅⟩
    let y : EndpointAddr := ⟨⟨List.replicate 32 8, rfl⟩, ∅⟩
    ∃ a, init.run .twoWay (threeServed x y) = some a ∧ a.entered = [2, 1, 0] ∧
      [2, 0].Sublist (a.replies.map (·.1)) := by
  intro x y
  have h : (init.run .twoWay (threeServed x y)).isSome = true := by decide
  refine ⟨Option.get _ h, (Option.some_get h).symm, rfl, ?_⟩
  have hin : x.id ∉ (Option.get _ h).inserted := by
    show x.id ∉ []
    simp
  refine (served_in_order .twoWay (Option.some_get h).symm rfl).2 x.id (.inr hin) 2 0 ?_ rfl rfl ?_
  · exact .cons_cons 2 (.cons 1 (.cons_cons 0 .slnil))
  · show 0 ∈ [2, 0]
    simp

end Order

/-! ### Sharing and caching handshakes changes no answer -/

/-- What `before_connect` would be told had each request a handshake of its own, the outcome of a handshake with `x`
being `out x`. -/
def plain (postcard : PostcardError → String) (out : EndpointId → AuthResult) (addr : EndpointAddr) :
    Except Error Unit :=
  (out addr.id).mapError fun e => .denied (e.toString postcard)

/-- The handshakes with `x` that were joined or are in flight. -/
def dials (a : Authenticator ι) (x : EndpointId) : Nat :=
  a.completed.countP (·.2.1.id = x) + a.task.tasks.countP (·.2.id = x)

section Plain

variable {x : EndpointId} {out : EndpointId → AuthResult}

/-- A reply for a remote that only handshakes decided is what its handshake said. -/
private theorem Answers.reply_eq (ha : a.Answers mode) (hout : ∀ c ∈ a.completed, c.2.2 = out c.2.1.id) {w : Nat}
    {addr : EndpointAddr} (hw : a.requests[w]? = some addr) (hi : addr.id ∉ a.inserted) {res : AuthResult}
    (hr : (w, res) ∈ a.replies) : res = out addr.id := by
  cases res with
  | ok u =>
    obtain ⟨addr', hw', hA⟩ := ha.ok w hr
    rw [hw] at hw'
    cases hw'
    rcases ha.allowed _ hA with ⟨handle, dialled, hc, hid⟩ | ⟨-, hins⟩
    · exact hid ▸ hout _ hc
    · exact absurd hins hi
  | error e =>
    obtain ⟨addr', handle, dialled, hw', hc, hid⟩ := ha.err w e hr
    rw [hw] at hw'
    cases hw'
    exact hid ▸ hout _ hc

/-- Where handshakes with `x` succeed there is at most one. -/
private theorem Synchronised.dials_le_one (hs : a.Synchronised mode) (hout : ∀ c ∈ a.completed, c.2.2 = out c.2.1.id)
    (hx : out x = .ok ()) : a.dials x ≤ 1 := by
  have hcount : a.completed.countP (·.2.1.id = x) = a.okCount x := by
    refine List.countP_congr fun c hc => ?_
    simp only [decide_eq_true_eq]
    refine ⟨fun hid => ⟨hid, ?_⟩, fun h => h.1⟩
    rw [hout c hc, hid, hx]
  have htasks : a.task.tasks.countP (·.2.id = x) = (a.task.tasks.map (·.2.id)).count x := by
    rw [List.count, List.countP_map]
    exact List.countP_congr fun t _ => by simp [Subtype.ext_iff]
  have hle := hs.okOnce x
  have hone := List.nodup_iff_count_le_one.1 hs.distinct x
  rw [dials, hcount, htasks]
  by_cases hok : a.okCount x = 0
  · omega
  · have hnone : (a.task.tasks.map (·.2.id)).count x = 0 := List.count_eq_zero.2 (hs.settled x (by omega)).2
    omega

variable [DecidableEq ι]

/-- Every handshake with `x` was started by a request for `x`. -/
private theorem dials_step {act : Action ι} (hl : a.Ledger) (h : a.step mode act = some a')
    (hd : a.dials x ≤ (a.taken.filter (asksFor a.requests x)).length) :
    a'.dials x ≤ (a'.taken.filter (asksFor a'.requests x)).length := by
  rcases step_cases h with hq | ⟨handle, rfl⟩ | ⟨handle, res, rfl⟩ | ⟨y, rfl⟩ | ⟨why, rfl⟩
  · have hfilter : a.taken.filter (asksFor a'.requests x) = a.taken.filter (asksFor a.requests x) := by
      refine List.filter_congr fun w hw => ?_
      have hr := List.getElem?_eq_getElem (hl.taken w hw).1
      rw [asksFor_of_getElem? hr, asksFor_of_getElem? (prefix_getElem? hq.requests hr)]
    rw [dials, hq.completed, hq.task, hq.taken, hfilter]
    exact hd
  · obtain ⟨-, -, addr, w, queue, hq, h⟩ := step_recv h
    have hw : a.requests[w]? = some addr := hl.queued (addr, w) (by simp [hq])
    simp only [dials] at hd
    rcases h with ⟨-, rfl⟩ | ⟨ws, -, -, rfl⟩ | ⟨-, -, rfl⟩
    · simp only [dials, List.filter_append, List.length_append]
      omega
    · simp only [dials, List.filter_append, List.length_append]
      omega
    · simp only [dials, List.filter_append, List.length_append, List.countP_append, List.countP_singleton]
      by_cases hx : addr.id = x
      · simp only [hx, asksFor_of_getElem? hw, decide_true, if_true, List.filter_cons_of_pos, List.filter_nil,
          List.length_singleton]
        omega
      · simp only [hx, decide_false, Bool.false_eq_true, if_false]
        omega
  · obtain ⟨-, addr, l₁, l₂, ht, rfl⟩ := step_join h
    simp only [dials, ht, List.countP_append, List.countP_cons, List.countP_nil] at hd ⊢
    omega
  · obtain ⟨-, rfl⟩ := step_insert h
    exact hd
  · obtain ⟨-, -, rfl⟩ := step_stop h
    simp only [dials, stopped, List.countP_nil] at hd ⊢
    omega

private theorem dials_le {acts : List (Action ι)} (h : init.run mode acts = some a) :
    a.dials x ≤ (a.taken.filter (asksFor a.requests x)).length :=
  (run_induction (P := fun a => a.Ledger ∧ a.dials x ≤ (a.taken.filter (asksFor a.requests x)).length)
    (fun _ _ _ hP hs => ⟨hP.1.step hs, dials_step hP.1 hs hP.2⟩) ⟨ledger_init, by simp [init, dials]⟩ h).2

/-- Let every handshake return what `out` says of its remote, and let the acceptor side leave `x` alone.  Then a
request for `x` that was not given up is told what a handshake of its own would have told it, and when those in flight
have returned and the authenticator rests it has been told.  Yet the handshakes with `x` are no more than the requests
for it, and no more than one if they succeed. -/
theorem agrees_with_plain [Infinite ι] (postcard : PostcardError → String) (mode : Mode)
    (out : EndpointId → AuthResult) {acts : List (Action ι)} (h : init.run mode acts = some a) (hr : a.running = true)
    (hout : ∀ c ∈ a.completed, c.2.2 = out c.2.1.id) (x : EndpointId) (hi : x ∉ a.inserted) :
    (∀ w addr, a.requests[w]? = some addr → addr.id = x → w ∉ a.cancelled →
        (a.authenticate postcard w = none ∧
            ¬ a.Rests mode fun handle res => ∃ dialled, (handle, dialled) ∈ a.task.tasks ∧ res = out dialled.id) ∨
          a.authenticate postcard w = some (plain postcard out addr)) ∧
      a.dials x ≤ (a.taken.filter (asksFor a.requests x)).length ∧ (out x = .ok () → a.dials x ≤ 1) := by
  have hl := ledger_of_run h
  have hs := synchronised_of_run h
  refine ⟨?_, dials_le h, fun hx => hs.dials_le_one hout hx⟩
  intro w addr hw hid hc
  have hlt : w < a.requests.length := (List.getElem?_eq_some_iff.1 hw).1
  by_cases hreplied : w ∈ a.replies.map (·.1)
  · obtain ⟨res, hres, ha⟩ := replied_authenticate hreplied
    rw [(answers_of_run h).reply_eq hout hw (hid ▸ hi) hres] at ha
    exact .inr ha
  · have hwait : a.authenticate postcard w = none :=
      (hl.failsClosed (answers_of_run h)).waiting hr w hlt hc hreplied
    refine .inl ⟨hwait, fun hrest => ?_⟩
    -- at rest it would wait for a handshake in flight, and this one can be joined
    have hsettled : a.Settled postcard _ := hrest.settled hl (answers_of_run h) hs hr
    rcases hsettled.calls w addr hw hc with ⟨r, ha, -⟩ | ⟨-, t, ht, -⟩
    · rw [hwait] at ha
      cases ha
    · exact hsettled.tasks t ht _ ⟨t.2, ht, rfl⟩

/-- Two requests share a handshake that succeeds, and a third finds it cached. -/
private def sharedSuccess (x : EndpointAddr) : List (Action Nat) :=
  [.call x, .call x, .send 0, .send 1, .recv 0, .recv 1, .join 0 (.ok ()), .call x, .send 2, .recv 0]

theorem sharedSuccess_plain :
    let x : EndpointAddr := ⟨⟨List.replicate 32 7, rfl⟩, ∅⟩
    let postcard : PostcardError → String := fun _ => "malformed message"
    ∃ a, init.run .oneWay (sharedSuccess x) = some a ∧
      a.authenticate postcard 2 = some (plain postcard (fun _ => .ok ()) x) ∧ a.dials x.id = 1 := by
  intro x postcard
  have h : (init.run .oneWay (sharedSuccess x)).isSome = true := by decide
  refine ⟨Option.get _ h, (Option.some_get h).symm, ?_, rfl⟩
  have hout : ∀ c ∈ (Option.get _ h).completed, c.2.2 = .ok () := by
    show ∀ c ∈ [(0, x, Except.ok ())], _
    simp
  have hin : x.id ∉ (Option.get _ h).inserted := by
    show x.id ∉ []
    simp
  have hplain := (agrees_with_plain postcard .oneWay (fun _ => .ok ()) (Option.some_get h).symm rfl hout x.id hin).1
    2 x rfl rfl (by show 2 ∉ []; simp)
  exact hplain.resolve_left fun hn => nomatch hn.1

end Plain

end Authenticator

end IrohHydeAuth
