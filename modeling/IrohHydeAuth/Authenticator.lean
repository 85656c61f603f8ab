import IrohHydeAuth.Session

/-!
# The hooks and the background task

`OutgoingAuthHook` with `OutgoingAuthTask` (`outgoing.rs`) and `MutualAuthHook` with `MutualAuthTask` (`mutual.rs`).
The two run the same loop over the same collections; they differ in the handshake they spawn, in the ALPN they let
through, and in that the mutual task shares its set of allowed remotes with `MutualAuthProtocol::accept`.  Both are
the one `Authenticator` below, and `Mode` says which of the two it is.

A waiter is the reply channel of one call of `authenticate`; waiters are numbered in the order of the calls.  It is
parked in `tx.send(..).await`, queued in the channel, listed in the pending map, or has been sent its reply; dropping
it without a reply makes the call return `AuthenticatorStopped`.
-/

namespace IrohHydeAuth

open Process

/-- The two modes that ship: one-directional and mutual. -/
inductive Mode where
  | oneWay
  | twoWay
  deriving DecidableEq, Repr

/-- The ALPN of the auth handshake. -/
def Mode.alpn : Mode → Bytes
  | .oneWay => ALPN
  | .twoWay => MUTUAL_ALPN

/-- The result a waiter is sent. -/
abbrev AuthResult := Except Error Unit

/-- What `OutgoingAuthTask` and `MutualAuthTask` keep.  The handshakes of the `JoinSet` are named by `ι`. -/
structure AuthTask (ι : Type) where
  allowed : Finset EndpointId
  pending : AList fun _ : EndpointId => List Nat
  /-- The handshakes spawned and not yet joined, with the address each one dials. -/
  tasks : List (ι × EndpointAddr)

namespace AuthTask

variable {ι : Type}

/-- `handle_request`; `handle` names the handshake should one be spawned.  Also returned: the replies sent. -/
def handleRequest (self : AuthTask ι) (handle : ι) (remoteAddr : EndpointAddr) (tx : Nat) :
    AuthTask ι × List (Nat × AuthResult) :=
  let remoteId := remoteAddr.id
  if remoteId ∈ self.allowed then (self, [(tx, .ok ())])
  else match self.pending.lookup remoteId with
    | some waiters => ({ self with pending := self.pending.insert remoteId (waiters ++ [tx]) }, [])
    | none =>
      ({ self with
          tasks := self.tasks ++ [(handle, remoteAddr)]
          pending := self.pending.insert remoteId [tx] }, [])

/-- The set after a handshake with `remoteId` has returned `res`. -/
def record (self : AuthTask ι) (remoteId : EndpointId) : AuthResult → Finset EndpointId
  | .ok _ => insert remoteId self.allowed
  | .error _ => self.allowed

/-- `handle_completion`, with the replies sent. -/
def handleCompletion (self : AuthTask ι) (remoteId : EndpointId) (res : AuthResult) :
    AuthTask ι × List (Nat × AuthResult) :=
  let allowed := self.record remoteId res
  match self.pending.lookup remoteId with
  | some waiters =>
    ({ self with allowed, pending := self.pending.erase remoteId }, waiters.map fun tx => (tx, res))
  | none => ({ self with allowed }, [])

/-- Whether a request for `remoteAddr` starts a handshake. -/
def starts (self : AuthTask ι) (remoteAddr : EndpointAddr) : Bool :=
  decide (remoteAddr.id ∉ self.allowed ∧ remoteAddr.id ∉ self.pending)

end AuthTask

/-- The capacity of the request channel. -/
def CHANNEL_CAPACITY : Nat := 16

/-- The hook, the channel and the task.  The last four fields only record what has happened. -/
structure Authenticator (ι : Type) where
  task : AuthTask ι
  /-- Requests parked in `tx.send(..).await`. -/
  sending : List (EndpointAddr × Nat)
  /-- Requests in the channel. -/
  queue : List (EndpointAddr × Nat)
  /-- Whether the receiving end of the channel is alive. -/
  running : Bool
  /-- Whether the hook, the only sender, is alive. -/
  hooked : Bool
  /-- The address each waiter asked for. -/
  requests : List EndpointAddr
  /-- The replies sent, in order. -/
  replies : List (Nat × AuthResult)
  /-- The waiters whose receiver was dropped. -/
  cancelled : List Nat
  /-- The waiters handed to `handle_request`. -/
  taken : List Nat
  /-- The handshakes joined, with their results. -/
  completed : List (ι × EndpointAddr × AuthResult)
  /-- The ids that the acceptor side inserted. -/
  inserted : List EndpointId

/-- Why the loop stops. -/
inductive Stop (ι : Type) where
  /-- `rx.recv` returned `None`. -/
  | channelClosed
  /-- The `TaskGuard` was dropped. -/
  | guardDropped
  /-- A joined handshake had panicked. -/
  | panicked (handle : ι)

/-- What can happen to an authenticator. -/
inductive Action (ι : Type) where
  /-- `authenticate` is called for an application dial. -/
  | call (addr : EndpointAddr)
  /-- A parked request gets its slot in the channel. -/
  | send (w : Nat)
  /-- The caller drops the future of its `before_connect`. -/
  | cancel (w : Nat)
  /-- The loop takes a request. -/
  | recv (handle : ι)
  /-- The loop joins a finished handshake. -/
  | join (handle : ι) (res : AuthResult)
  /-- `MutualAuthProtocol::accept` inserts into the shared set. -/
  | insert (x : EndpointId)
  | dropHook
  | stop (why : Stop ι)

namespace Authenticator

variable {ι : Type}

/-- As `outgoing` and `mutual` build it. -/
def init : Authenticator ι where
  task := ⟨∅, ∅, []⟩
  sending := []
  queue := []
  running := true
  hooked := true
  requests := []
  replies := []
  cancelled := []
  taken := []
  completed := []
  inserted := []

/-- The waiter is still held by someone: its reply may yet come. -/
def held (a : Authenticator ι) (w : Nat) : Bool :=
  a.sending.any (·.2 == w) || a.queue.any (·.2 == w) || a.task.pending.entries.any (·.2.contains w)

/-- What `authenticate` returns to the caller of waiter `w`, as far as it has returned. -/
def authenticate (postcard : PostcardError → String) (a : Authenticator ι) (w : Nat) : Option (Except Error Unit) :=
  match a.replies.lookup w with
  | some (.ok ()) => some (.ok ())
  | some (.error e) => some (.error (.denied (e.toString postcard)))
  | none => if a.held w then none else some (.error .authenticatorStopped)

def recv (a : Authenticator ι) (handle : ι) : Option (Authenticator ι) :=
  match a.queue with
  | [] => none
  | (addr, w) :: queue =>
    let (task, sent) := a.task.handleRequest handle addr w
    some { a with task, queue, replies := a.replies ++ sent, taken := a.taken ++ [w] }

/-- `join_next` yields the handshake `handle`, which returned `res`. -/
def join [DecidableEq ι] (a : Authenticator ι) (handle : ι) (res : AuthResult) : Option (Authenticator ι) :=
  match a.task.tasks.find? (·.1 == handle) with
  | none => none
  | some (_, addr) =>
    let tasks := a.task.tasks.eraseP (·.1 == handle)
    let (task, sent) := { a.task with tasks }.handleCompletion addr.id res
    some { a with task, replies := a.replies ++ sent, completed := a.completed ++ [(handle, addr, res)] }

def insert (a : Authenticator ι) (x : EndpointId) : Authenticator ι :=
  { a with
    task := { a.task with allowed := Insert.insert x a.task.allowed }
    inserted := a.inserted ++ [x] }

/-- The loop is gone: the task's collections, the channel and every parked request are dropped. -/
def stopped (a : Authenticator ι) : Authenticator ι :=
  { a with task := ⟨a.task.allowed, ∅, []⟩, sending := [], queue := [], running := false }

def canStop [DecidableEq ι] (a : Authenticator ι) : Stop ι → Bool
  | .channelClosed => !a.hooked && a.queue.isEmpty
  | .guardDropped => true
  | .panicked handle => a.task.tasks.any (·.1 == handle)

/-- One action, where it is possible. -/
def step [DecidableEq ι] (mode : Mode) (a : Authenticator ι) : Action ι → Option (Authenticator ι)
  | .call addr =>
    if a.hooked then
      let w := a.requests.length
      some { a with
        requests := a.requests ++ [addr]
        sending := if a.running then a.sending ++ [(addr, w)] else a.sending }
    else none
  | .send w =>
    match a.sending.find? (·.2 == w) with
    | some r =>
      if a.queue.length < CHANNEL_CAPACITY then
        some { a with sending := a.sending.eraseP (·.2 == w), queue := a.queue ++ [r] }
      else none
    | none => none
  | .cancel w =>
    -- a request still parked is withdrawn with its future
    if w < a.requests.length then
      some { a with sending := a.sending.eraseP (·.2 == w), cancelled := a.cancelled ++ [w] }
    else none
  | .recv handle => if a.running && !a.task.tasks.any (·.1 == handle) then a.recv handle else none
  | .join handle res => if a.running then a.join handle res else none
  | .insert x =>
    match mode with
    | .twoWay => some (a.insert x)
    | .oneWay => none
  | .dropHook => if a.sending.isEmpty then some { a with hooked := false } else none
  | .stop why => if a.running && a.canStop why then some a.stopped else none

/-- A whole run. -/
def run [DecidableEq ι] (mode : Mode) (a : Authenticator ι) : List (Action ι) → Option (Authenticator ι)
  | [] => some a
  | act :: acts => do run mode (← a.step mode act) acts

end Authenticator

/-! ### What each action does -/

namespace Authenticator

variable {ι : Type} [DecidableEq ι] {mode : Mode} {a a' : Authenticator ι}

private theorem find?_split {α : Type} {l : List α} {p : α → Bool} {x : α} (h : l.find? p = some x) :
    p x = true ∧ ∃ l₁ l₂, l = l₁ ++ x :: l₂ ∧ l.eraseP p = l₁ ++ l₂ := by
  obtain ⟨hx, l₁, l₂, rfl, hl⟩ := List.find?_eq_some_iff_append.1 h
  refine ⟨hx, l₁, l₂, rfl, ?_⟩
  rw [List.eraseP_append_right _ (by simpa using hl), List.eraseP_cons_of_pos hx]

theorem erase_of_lookup_eq_none {s : AList fun _ : EndpointId => List Nat} {x : EndpointId}
    (h : s.lookup x = none) : s.erase x = s :=
  AList.ext (List.kerase_of_notMem_keys (AList.lookup_eq_none.1 h))

theorem step_call {addr : EndpointAddr} (h : a.step mode (.call addr) = some a') :
    a.hooked = true ∧ a' = { a with
      requests := a.requests ++ [addr]
      sending := if a.running then a.sending ++ [(addr, a.requests.length)] else a.sending } := by
  simp only [step] at h
  split at h
  · exact ⟨‹_›, (Option.some.inj h).symm⟩
  · cases h

theorem step_send {w : Nat} (h : a.step mode (.send w) = some a') :
    ∃ addr l₁ l₂, a.sending = l₁ ++ (addr, w) :: l₂ ∧
      a' = { a with sending := l₁ ++ l₂, queue := a.queue ++ [(addr, w)] } := by
  simp only [step] at h
  split at h
  · rename_i r hr
    obtain ⟨hw, l₁, l₂, hs, he⟩ := find?_split hr
    have hw : r.2 = w := by simpa using hw
    subst hw
    split at h
    · exact ⟨r.1, l₁, l₂, hs, by rw [← he]; exact (Option.some.inj h).symm⟩
    · cases h
  · cases h

theorem step_cancel {w : Nat} (h : a.step mode (.cancel w) = some a') :
    w < a.requests.length ∧
      a' = { a with sending := a.sending.eraseP (·.2 == w), cancelled := a.cancelled ++ [w] } := by
  simp only [step] at h
  split at h
  · exact ⟨‹_›, (Option.some.inj h).symm⟩
  · cases h

theorem step_recv {handle : ι} (h : a.step mode (.recv handle) = some a') :
    a.running = true ∧ (∀ p ∈ a.task.tasks, p.1 ≠ handle) ∧ ∃ addr w queue, a.queue = (addr, w) :: queue ∧
      ((addr.id ∈ a.task.allowed ∧
          a' = { a with queue, replies := a.replies ++ [(w, .ok ())], taken := a.taken ++ [w] }) ∨
        (∃ waiters, addr.id ∉ a.task.allowed ∧ a.task.pending.lookup addr.id = some waiters ∧
          a' = { a with
            queue
            task := { a.task with pending := a.task.pending.insert addr.id (waiters ++ [w]) }
            taken := a.taken ++ [w] }) ∨
        (addr.id ∉ a.task.allowed ∧ a.task.pending.lookup addr.id = none ∧
          a' = { a with
            queue
            task := { a.task with
              tasks := a.task.tasks ++ [(handle, addr)]
              pending := a.task.pending.insert addr.id [w] }
            taken := a.taken ++ [w] })) := by
  simp only [step] at h
  split at h
  · rename_i hc
    simp only [Bool.and_eq_true, Bool.not_eq_true', List.any_eq_false, beq_iff_eq] at hc
    refine ⟨hc.1, hc.2, ?_⟩
    simp only [recv] at h
    split at h
    · cases h
    · rename_i addr w queue hq
      refine ⟨addr, w, queue, hq, ?_⟩
      simp only [AuthTask.handleRequest] at h
      by_cases hA : addr.id ∈ a.task.allowed
      · simp only [hA, ↓reduceIte] at h
        exact .inl ⟨hA, (Option.some.inj h).symm⟩
      · simp only [hA, ↓reduceIte] at h
        split at h
        · rename_i waiters hl
          refine .inr (.inl ⟨waiters, hA, hl, ?_⟩)
          simpa using h.symm
        · rename_i hl
          refine .inr (.inr ⟨hA, hl, ?_⟩)
          simpa using h.symm
  · cases h

theorem step_join {handle : ι} {res : AuthResult} (h : a.step mode (.join handle res) = some a') :
    a.running = true ∧ ∃ addr l₁ l₂, a.task.tasks = l₁ ++ (handle, addr) :: l₂ ∧
      a' = { a with
        task := {
          allowed := a.task.record addr.id res
          pending := a.task.pending.erase addr.id
          tasks := l₁ ++ l₂ }
        replies := a.replies ++ ((a.task.pending.lookup addr.id).getD []).map fun tx => (tx, res)
        completed := a.completed ++ [(handle, addr, res)] } := by
  simp only [step] at h
  split at h
  · rename_i hr
    refine ⟨hr, ?_⟩
    simp only [join] at h
    split at h
    · cases h
    · rename_i hd addr hf
      obtain ⟨hw, l₁, l₂, hs, he⟩ := find?_split hf
      have hw : hd = handle := by simpa using hw
      subst hw
      refine ⟨addr, l₁, l₂, hs, ?_⟩
      rw [← Option.some.inj h, he]
      simp only [AuthTask.handleCompletion]
      cases hl : a.task.pending.lookup addr.id with
      | some ws => rfl
      | none => simp [erase_of_lookup_eq_none hl, AuthTask.record]
  · cases h

theorem step_insert {x : EndpointId} (h : a.step mode (.insert x) = some a') :
    mode = .twoWay ∧ a' = a.insert x := by
  cases mode with
  | oneWay => cases h
  | twoWay => exact ⟨rfl, (Option.some.inj h).symm⟩

theorem step_dropHook (h : a.step mode .dropHook = some a') :
    a.sending = [] ∧ a' = { a with hooked := false } := by
  simp only [step] at h
  split at h
  · exact ⟨List.isEmpty_iff.1 ‹_›, (Option.some.inj h).symm⟩
  · cases h

theorem step_stop {why : Stop ι} (h : a.step mode (.stop why) = some a') :
    a.running = true ∧ a.canStop why = true ∧ a' = a.stopped := by
  simp only [step] at h
  split at h
  · rename_i hc
    simp only [Bool.and_eq_true] at hc
    exact ⟨hc.1, hc.2, (Option.some.inj h).symm⟩
  · cases h

/-- The action leaves the task, and what is recorded of it, alone. -/
structure Quiet (a a' : Authenticator ι) : Prop where
  task : a'.task = a.task
  requests : a.requests <+: a'.requests
  replies : a'.replies = a.replies
  taken : a'.taken = a.taken
  completed : a'.completed = a.completed
  inserted : a'.inserted = a.inserted

/-- The actions that are not quiet. -/
theorem step_cases {act : Action ι} (h : a.step mode act = some a') :
    a.Quiet a' ∨ (∃ handle, act = .recv handle) ∨ (∃ handle res, act = .join handle res) ∨
      (∃ x, act = .insert x) ∨ ∃ why, act = .stop why := by
  cases act with
  | call addr =>
    obtain ⟨-, rfl⟩ := step_call h
    exact .inl ⟨rfl, List.prefix_append _ _, rfl, rfl, rfl, rfl⟩
  | send w =>
    obtain ⟨addr, l₁, l₂, -, rfl⟩ := step_send h
    exact .inl ⟨rfl, List.prefix_rfl, rfl, rfl, rfl, rfl⟩
  | cancel w =>
    obtain ⟨-, rfl⟩ := step_cancel h
    exact .inl ⟨rfl, List.prefix_rfl, rfl, rfl, rfl, rfl⟩
  | recv handle => exact .inr (.inl ⟨handle, rfl⟩)
  | join handle res => exact .inr (.inr (.inl ⟨handle, res, rfl⟩))
  | insert x => exact .inr (.inr (.inr (.inl ⟨x, rfl⟩)))
  | dropHook =>
    obtain ⟨-, rfl⟩ := step_dropHook h
    exact .inl ⟨rfl, List.prefix_rfl, rfl, rfl, rfl, rfl⟩
  | stop why => exact .inr (.inr (.inr (.inr ⟨why, rfl⟩)))

/-- A loop that runs has been running. -/
theorem running_of_step {act : Action ι} (h : a.step mode act = some a') (hr : a'.running = true) :
    a.running = true := by
  cases act with
  | call addr =>
    obtain ⟨-, rfl⟩ := step_call h
    exact hr
  | send w =>
    obtain ⟨addr, l₁, l₂, -, rfl⟩ := step_send h
    exact hr
  | cancel w =>
    obtain ⟨-, rfl⟩ := step_cancel h
    exact hr
  | recv handle => exact (step_recv h).1
  | join handle res => exact (step_join h).1
  | insert x =>
    obtain ⟨-, rfl⟩ := step_insert h
    exact hr
  | dropHook =>
    obtain ⟨-, rfl⟩ := step_dropHook h
    exact hr
  | stop why => exact (step_stop h).1

/-- Whatever holds at first and survives every action holds at the end of every run. -/
theorem run_induction {P : Authenticator ι → Prop} (hstep : ∀ a a' act, P a → a.step mode act = some a' → P a')
    {acts : List (Action ι)} (h₀ : P a) (h : a.run mode acts = some a') : P a' := by
  induction acts generalizing a with
  | nil => exact Option.some.inj h ▸ h₀
  | cons act acts ih =>
    obtain ⟨a₁, h₁, h₂⟩ := Option.bind_eq_some_iff.1 h
    exact ih (hstep a a₁ act h₀ h₁) h₂

theorem run_snoc {acts : List (Action ι)} {act : Action ι} {a₁ : Authenticator ι} (h : a.run mode acts = some a₁)
    (hstep : a₁.step mode act = some a') : a.run mode (acts ++ [act]) = some a' := by
  induction acts generalizing a with
  | nil =>
    cases h
    simp [run, hstep]
  | cons act' acts ih =>
    obtain ⟨a₂, h₁, h₂⟩ := Option.bind_eq_some_iff.1 h
    simp [run, h₁, ih h₂]

end Authenticator

/-! ### The hooks -/

inductive BeforeConnectOutcome where
  | accept
  | reject
  deriving DecidableEq, Repr

inductive AfterHandshakeOutcome where
  | accept
  | reject (errorCode : UInt32) (reason : Bytes)
  deriving DecidableEq, Repr

/-- `before_connect` of the hook whose auth ALPN is `authAlpn`, given what `authenticate` has returned: never
intercept the auth handshake itself, and dial only what is authenticated. -/
def beforeConnect (authAlpn alpn : Bytes) (authenticated : Option (Except Error Unit)) :
    Option BeforeConnectOutcome :=
  if alpn = authAlpn then some .accept
  else authenticated.map fun
    | .ok _ => .accept
    | .error _ => .reject

/-- `after_handshake` of the hook whose auth ALPN is `authAlpn`. -/
def afterHandshake (authAlpn : Bytes) (reason : String) (allowed : Finset EndpointId) (alpn : Bytes)
    (remoteId : EndpointId) : AfterHandshakeOutcome :=
  if alpn = authAlpn ∨ remoteId ∈ allowed then .accept else .reject 403 (ascii reason)

theorem mem_of_afterHandshake {authAlpn alpn : Bytes} {reason : String} {allowed : Finset EndpointId}
    {x : EndpointId} (halpn : alpn ≠ authAlpn) (h : afterHandshake authAlpn reason allowed alpn x = .accept) :
    x ∈ allowed := by
  rw [afterHandshake] at h
  split at h
  · rename_i hc
    exact hc.resolve_left halpn
  · cases h

namespace Authenticator

variable {ι : Type}

/-- `OutgoingAuthHook::before_connect` and `MutualAuthHook::before_connect` for the dial of waiter `w`. -/
def beforeConnect (postcard : PostcardError → String) (mode : Mode) (a : Authenticator ι) (alpn : Bytes) (w : Nat) :
    Option BeforeConnectOutcome :=
  IrohHydeAuth.beforeConnect mode.alpn alpn (a.authenticate postcard w)

end Authenticator

def IncomingAuthHook.afterHandshake (allowedRemotes : Finset EndpointId) (alpn : Bytes)
    (remoteId : EndpointId) : AfterHandshakeOutcome :=
  IrohHydeAuth.afterHandshake ALPN "not authenticated" allowedRemotes alpn remoteId

def MutualAuthHook.afterHandshake (allowed : Finset EndpointId) (alpn : Bytes) (remoteId : EndpointId) :
    AfterHandshakeOutcome :=
  IrohHydeAuth.afterHandshake MUTUAL_ALPN "not mutually authenticated" allowed alpn remoteId

end IrohHydeAuth
