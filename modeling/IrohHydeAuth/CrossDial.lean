import IrohHydeAuth.Deduplication

/-!
# Two peers that dial each other

In the mutual mode the task and the acceptor side share one set of allowed remotes.  The task looks at the set when it
takes a request, but it answers a waiter with the result of the handshake, and by then the acceptor side may have
authenticated the same remote.

So the answers agree with what `after_handshake` decides at the same moment exactly in those runs in which no handshake
fails with a remote that has been allowed meanwhile (`agreeRun_iff`).
-/

namespace IrohHydeAuth

open Process

namespace Authenticator

variable {ι : Type} [DecidableEq ι] {a a' : Authenticator ι}

/-! ### The handshakes in flight have distinct names -/

private def Named (a : Authenticator ι) : Prop := (a.task.tasks.map (·.1)).Nodup

omit [DecidableEq ι] in
private theorem Named.unique (hn : a.Named) {handle : ι} {addr addr' : EndpointAddr}
    (h : (handle, addr) ∈ a.task.tasks) (h' : (handle, addr') ∈ a.task.tasks) : addr = addr' :=
  congrArg Prod.snd (List.inj_on_of_nodup_map hn h h' rfl)

private theorem Named.step {mode : Mode} {act : Action ι} (hn : a.Named) (h : a.step mode act = some a') :
    a'.Named := by
  rcases step_cases h with hq | ⟨handle, rfl⟩ | ⟨handle, res, rfl⟩ | ⟨x, rfl⟩ | ⟨why, rfl⟩
  · rw [Named, hq.task]
    exact hn
  · obtain ⟨-, hfresh, addr, w, queue, -, h⟩ := step_recv h
    rcases h with ⟨-, rfl⟩ | ⟨ws, -, -, rfl⟩ | ⟨-, -, rfl⟩
    · exact hn
    · exact hn
    · rw [Named, List.map_append, List.nodup_append]
      refine ⟨hn, by simp, ?_⟩
      intro i hi j hj
      obtain ⟨t, ht, rfl⟩ := List.mem_map.1 hi
      rw [List.map_singleton, List.mem_singleton] at hj
      rw [hj]
      exact hfresh t ht
  · obtain ⟨-, addr, l₁, l₂, ht, rfl⟩ := step_join h
    rw [Named, ht, List.map_append, List.map_cons] at hn
    rw [Named, List.map_append]
    exact (List.nodup_middle.1 hn).of_cons
  · obtain ⟨rfl, rfl⟩ := step_insert h
    exact hn
  · obtain ⟨-, -, rfl⟩ := step_stop h
    exact List.nodup_nil

/-! ### Answers and the gate -/

/-- The answers sent on the way from `a` to `a'` agree with the set of allowed remotes, and so with what
`after_handshake` decides then on an application connection. -/
def Agree (a a' : Authenticator ι) : Prop :=
  ∀ new, a'.replies = a.replies ++ new → ∀ w r addr, (w, r) ∈ new → a.requests[w]? = some addr →
    (addr.id ∈ a'.task.allowed → r = .ok ()) ∧ ∀ alpn, alpn ≠ MUTUAL_ALPN →
      (r = .ok () ↔ MutualAuthHook.afterHandshake a'.task.allowed alpn addr.id = .accept)

/-- Every answer of the run agrees with the gate. -/
def AgreeRun : Authenticator ι → List (Action ι) → Prop
  | _, [] => True
  | a, act :: acts => ∀ a' ∈ a.step .twoWay act, a.Agree a' ∧ AgreeRun a' acts

/-- A handshake that is about to be joined, and has failed, is not with an allowed remote. -/
def Undisturbed (a : Authenticator ι) : Action ι → Prop
  | .join handle (.error _) => ∀ t ∈ a.task.tasks, t.1 = handle → t.2.id ∉ a.task.allowed
  | _ => True

/-- The run meets the condition at every step. -/
def UndisturbedRun : Authenticator ι → List (Action ι) → Prop
  | _, [] => True
  | a, act :: acts => ∀ a' ∈ a.step .twoWay act, a.Undisturbed act ∧ UndisturbedRun a' acts

instance (a : Authenticator ι) : (act : Action ι) → Decidable (a.Undisturbed act)
  | .join handle (.error _) => inferInstanceAs (Decidable (∀ t ∈ a.task.tasks, t.1 = handle → t.2.id ∉ a.task.allowed))
  | .join _ (.ok _) | .call _ | .send _ | .cancel _ | .recv _ | .insert _ | .dropHook | .stop _ => isTrue trivial

instance instDecidableUndisturbedRun :
    (a : Authenticator ι) → (acts : List (Action ι)) → Decidable (UndisturbedRun a acts)
  | _, [] => isTrue trivial
  | a, act :: acts =>
    have (a' : Authenticator ι) : Decidable (UndisturbedRun a' acts) := instDecidableUndisturbedRun a' acts
    inferInstanceAs (Decidable (∀ a' ∈ a.step .twoWay act, a.Undisturbed act ∧ UndisturbedRun a' acts))

omit [DecidableEq ι] in
/-- Answers that agree with the set of allowed remotes agree with the gate. -/
private theorem agree_iff {new : List (Nat × AuthResult)} (hnew : a'.replies = a.replies ++ new) :
    a.Agree a' ↔ ∀ w r addr, (w, r) ∈ new → a.requests[w]? = some addr → (r = .ok () ↔ addr.id ∈ a'.task.allowed) := by
  have hgate : ∀ alpn : Bytes, alpn ≠ MUTUAL_ALPN → ∀ x,
      (MutualAuthHook.afterHandshake a'.task.allowed alpn x = .accept ↔ x ∈ a'.task.allowed) := by
    intro alpn halpn x
    simp [MutualAuthHook.afterHandshake, afterHandshake, halpn]
  constructor
  · intro h w r addr hm hr
    obtain ⟨-, hag⟩ := h new hnew w r addr hm hr
    have hne : ([] : Bytes) ≠ MUTUAL_ALPN := by decide
    rw [hag [] hne, hgate [] hne]
  · intro h new' hnew' w r addr hm hr
    obtain rfl : new' = new := List.append_cancel_left (hnew'.symm.trans hnew)
    have hiff := h w r addr hm hr
    refine ⟨hiff.2, fun alpn halpn => ?_⟩
    rw [hiff, hgate alpn halpn]

omit [DecidableEq ι] in
private theorem agree_of_replies_eq (h : a'.replies = a.replies) : a.Agree a' := by
  have hnew : a'.replies = a.replies ++ [] := by rw [h, List.append_nil]
  exact (agree_iff hnew).2 (by simp)

/-- A handshake that is joined answers its waiters in agreement with the gate exactly if it is undisturbed. -/
private theorem agree_iff_undisturbed_join {handle : ι} {res : AuthResult} (hl : a.Ledger)
    (hs : a.Synchronised .twoWay) (hn : a.Named) (h : a.step .twoWay (.join handle res) = some a') :
    a.Agree a' ↔ a.Undisturbed (.join handle res) := by
  obtain ⟨-, dialled, l₁, l₂, ht, rfl⟩ := step_join h
  have hmem : (handle, dialled) ∈ a.task.tasks := by simp [ht]
  -- the waiters that are answered asked for the remote that was dialled
  have hwaiter : ∀ w addr, w ∈ a.pendingAt dialled.id → a.requests[w]? = some addr → addr.id = dialled.id := by
    intro w addr hw hr
    obtain ⟨addr', hr', hid⟩ := hl.pending dialled.id w hw
    rw [hr] at hr'
    rw [Option.some.inj hr', hid]
  rw [agree_iff rfl]
  cases res with
  | ok u =>
    refine iff_of_true ?_ trivial
    intro w r addr hm hr
    obtain ⟨v, hv, he⟩ := List.mem_map.1 hm
    obtain ⟨rfl, rfl⟩ := Prod.mk.inj he
    refine iff_of_true rfl ?_
    show addr.id ∈ Insert.insert dialled.id a.task.allowed
    rw [hwaiter v addr hv hr]
    exact Finset.mem_insert_self _ _
  | error e =>
    constructor
    · rintro hag ⟨i, addr⟩ hm rfl hA
      rw [hn.unique hm hmem] at hA
      -- there is a waiter to be answered
      have hkey : dialled.id ∈ a.task.pending := (hs.keys _).2 (List.mem_map_of_mem hmem)
      obtain ⟨ws, hws⟩ := Option.isSome_iff_exists.1 (AList.lookup_isSome.2 hkey)
      obtain ⟨w, hw⟩ := List.exists_mem_of_ne_nil ws (hs.nonempty _ _ hws)
      have hpend : w ∈ a.pendingAt dialled.id := by rwa [pendingAt, hws]
      obtain ⟨addr', hr, hid⟩ := hl.pending _ w hpend
      have hiff := hag w (.error e) addr' (List.mem_map.2 ⟨w, hpend, rfl⟩) hr
      cases hiff.2 (hid ▸ hA)
    · intro hu w r addr hm hr
      obtain ⟨v, hv, he⟩ := List.mem_map.1 hm
      obtain ⟨rfl, rfl⟩ := Prod.mk.inj he
      refine iff_of_false (by simp) ?_
      rw [hwaiter v addr hv hr]
      exact hu _ hmem rfl

/-- An action answers in agreement with the gate exactly if it is undisturbed. -/
private theorem agree_iff_undisturbed {act : Action ι} (hl : a.Ledger) (hs : a.Synchronised .twoWay) (hn : a.Named)
    (h : a.step .twoWay act = some a') : a.Agree a' ↔ a.Undisturbed act := by
  cases act with
  | call addr =>
    obtain ⟨-, rfl⟩ := step_call h
    exact iff_of_true (agree_of_replies_eq rfl) trivial
  | send w =>
    obtain ⟨addr, l₁, l₂, -, rfl⟩ := step_send h
    exact iff_of_true (agree_of_replies_eq rfl) trivial
  | cancel w =>
    obtain ⟨-, rfl⟩ := step_cancel h
    exact iff_of_true (agree_of_replies_eq rfl) trivial
  | recv handle =>
    obtain ⟨-, -, addr, w, queue, hq, h⟩ := step_recv h
    have hw : a.requests[w]? = some addr := hl.queued (addr, w) (by simp [hq])
    rcases h with ⟨hA, rfl⟩ | ⟨ws, -, -, rfl⟩ | ⟨-, -, rfl⟩
    · refine iff_of_true ((agree_iff rfl).2 ?_) trivial
      intro v r addr' hm hr
      obtain ⟨rfl, rfl⟩ := Prod.mk.inj (List.mem_singleton.1 hm)
      rw [hw] at hr
      cases hr
      exact iff_of_true rfl hA
    · exact iff_of_true (agree_of_replies_eq rfl) trivial
    · exact iff_of_true (agree_of_replies_eq rfl) trivial
  | join handle res => exact agree_iff_undisturbed_join hl hs hn h
  | insert x =>
    obtain ⟨-, rfl⟩ := step_insert h
    exact iff_of_true (agree_of_replies_eq rfl) trivial
  | dropHook =>
    obtain ⟨-, rfl⟩ := step_dropHook h
    exact iff_of_true (agree_of_replies_eq rfl) trivial
  | stop why =>
    obtain ⟨-, -, rfl⟩ := step_stop h
    exact iff_of_true (agree_of_replies_eq rfl) trivial

private theorem agreeRun_iff_from {acts : List (Action ι)} (hl : a.Ledger) (hs : a.Synchronised .twoWay)
    (hn : a.Named) : a.AgreeRun acts ↔ a.UndisturbedRun acts := by
  induction acts generalizing a with
  | nil => exact Iff.rfl
  | cons act acts ih =>
    refine forall_congr' fun a' => forall_congr' fun h => ?_
    exact and_congr (agree_iff_undisturbed hl hs hn h) (ih (hl.step h) (hs.step h) (hn.step h))

/-- In every run, every answer agrees with the gate if and only if no handshake fails with a remote that has been
allowed meanwhile. -/
theorem agreeRun_iff (acts : List (Action ι)) :
    (init : Authenticator ι).AgreeRun acts ↔ (init : Authenticator ι).UndisturbedRun acts :=
  agreeRun_iff_from ledger_init (synchronised_init _) List.nodup_nil

/-- While a handshake is in flight the peer authenticates itself to the acceptor side, and then the handshake fails. -/
private def crossDial (x : EndpointAddr) : List (Action Nat) :=
  [.call x, .send 0, .recv 0, .insert x.id, .join 0 (.error (.transport "timed out"))]

/-- The dial is refused although the remote is allowed. -/
theorem crossDial_disagrees :
    let x : EndpointAddr := ⟨⟨List.replicate 32 7, rfl⟩, ∅⟩
    ¬ (init : Authenticator Nat).AgreeRun (crossDial x) ∧ ∃ a, init.run .twoWay (crossDial x) = some a ∧
      x.id ∈ a.task.allowed ∧ (∀ postcard, a.beforeConnect postcard .twoWay [] 0 = some .reject) ∧
      MutualAuthHook.afterHandshake a.task.allowed [] x.id = .accept := by
  intro x
  refine ⟨?_, _, rfl, by decide, fun _ => rfl, rfl⟩
  rw [agreeRun_iff_from ledger_init (synchronised_init _) List.nodup_nil]
  decide

end Authenticator

end IrohHydeAuth
