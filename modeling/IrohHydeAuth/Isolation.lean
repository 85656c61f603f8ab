import IrohHydeAuth.Basis.Slices
import IrohHydeAuth.Deduplication

/-!
# The remotes of a task do not affect each other

The loop of `OutgoingAuthTask` and `MutualAuthTask` by itself: requests, completions and the insertions of the acceptor
side, in any order.  All that concerns one remote is a slice of the state, and an event of another remote leaves it
alone.  So what happens to a remote is determined by its own events (`isolated`).

Every run of an `Authenticator` is such a run of its loop (`loop_of_run`).
-/

namespace IrohHydeAuth

open Process

/-- What happens to the collections of a task. -/
inductive TaskEvent where
  /-- The loop takes a request. -/
  | request (remoteAddr : EndpointAddr) (tx : Nat)
  /-- The loop joins a handshake, which returns the remote id it was with. -/
  | completion (remoteId : EndpointId) (res : AuthResult)
  /-- `MutualAuthProtocol::accept` inserts into the shared set. -/
  | insert (remoteId : EndpointId)
  deriving DecidableEq

namespace TaskEvent

/-- The remote that an event concerns. -/
def remote : TaskEvent → EndpointId
  | .request remoteAddr _ => remoteAddr.id
  | .completion remoteId _ => remoteId
  | .insert remoteId => remoteId

/-- The reply channel that comes with an event. -/
def waiter : TaskEvent → Option Nat
  | .request _ tx => some tx
  | .completion _ _ => none
  | .insert _ => none

end TaskEvent

/-- The loop of a task.  All it learns of a handshake is the remote id, so the handshakes need no names. -/
structure Loop where
  task : AuthTask Unit
  /-- The replies sent, in order. -/
  replies : List (Nat × AuthResult)
  /-- The addresses for which a handshake was started. -/
  started : List EndpointAddr
  /-- The remote that each waiter asked for. -/
  requests : List (Nat × EndpointId)

namespace Loop

def init : Loop := ⟨⟨∅, ∅, []⟩, [], [], []⟩

/-- One event, where it is possible: a reply channel comes with one request only, and a handshake is joined once. -/
def step (mode : Mode) (s : Loop) : TaskEvent → Option Loop
  | .request remoteAddr tx =>
    if tx ∈ s.requests.map (·.1) then none
    else
      let (task, sent) := s.task.handleRequest () remoteAddr tx
      some {
        task
        replies := s.replies ++ sent
        started := s.started ++ (task.tasks.drop s.task.tasks.length).map (·.2)
        requests := s.requests ++ [(tx, remoteAddr.id)] }
  | .completion remoteId res =>
    if s.task.tasks.any (·.2.id == remoteId) then
      let tasks := s.task.tasks.eraseP (·.2.id == remoteId)
      let (task, sent) := { s.task with tasks }.handleCompletion remoteId res
      some { s with task, replies := s.replies ++ sent }
    else none
  | .insert x =>
    match mode with
    | .twoWay => some { s with task := { s.task with allowed := Insert.insert x s.task.allowed } }
    | .oneWay => none

def run (mode : Mode) (s : Loop) (events : List TaskEvent) : Option Loop := events.foldlM (step mode) s

/-- The replies sent to the waiters that asked for `x`, in order. -/
def repliesTo (s : Loop) (x : EndpointId) : List (Nat × AuthResult) := s.replies.filter fun r => (r.1, x) ∈ s.requests

/-- The number of handshakes started with `x`. -/
def startedWith (s : Loop) (x : EndpointId) : Nat := s.started.countP fun addr => addr.id = x

/-! ### What one event does -/

variable {mode : Mode} {s s' : Loop}

theorem step_request {remoteAddr : EndpointAddr} {tx : Nat} (h : s.step mode (.request remoteAddr tx) = some s') :
    tx ∉ s.requests.map (·.1) ∧
      ((remoteAddr.id ∈ s.task.allowed ∧ s' = { s with
          replies := s.replies ++ [(tx, .ok ())]
          requests := s.requests ++ [(tx, remoteAddr.id)] }) ∨
        (∃ waiters, remoteAddr.id ∉ s.task.allowed ∧ s.task.pending.lookup remoteAddr.id = some waiters ∧ s' = { s with
          task := { s.task with pending := s.task.pending.insert remoteAddr.id (waiters ++ [tx]) }
          requests := s.requests ++ [(tx, remoteAddr.id)] }) ∨
        (remoteAddr.id ∉ s.task.allowed ∧ s.task.pending.lookup remoteAddr.id = none ∧ s' = { s with
          task := { s.task with
            tasks := s.task.tasks ++ [((), remoteAddr)]
            pending := s.task.pending.insert remoteAddr.id [tx] }
          started := s.started ++ [remoteAddr]
          requests := s.requests ++ [(tx, remoteAddr.id)] })) := by
  simp only [step] at h
  split at h
  · cases h
  refine ⟨‹_›, ?_⟩
  by_cases hA : remoteAddr.id ∈ s.task.allowed
  · refine .inl ⟨hA, ?_⟩
    simpa [AuthTask.handleRequest, hA] using h.symm
  · refine .inr ?_
    cases hl : s.task.pending.lookup remoteAddr.id with
    | some waiters =>
      refine .inl ⟨waiters, hA, rfl, ?_⟩
      simpa [AuthTask.handleRequest, hA, hl] using h.symm
    | none =>
      refine .inr ⟨hA, rfl, ?_⟩
      simpa [AuthTask.handleRequest, hA, hl] using h.symm

theorem step_completion {x : EndpointId} {res : AuthResult} (h : s.step mode (.completion x res) = some s') :
    s.task.tasks.any (·.2.id == x) = true ∧ s' = { s with
      task := ⟨s.task.record x res, s.task.pending.erase x, s.task.tasks.eraseP (·.2.id == x)⟩
      replies := s.replies ++ ((s.task.pending.lookup x).getD []).map fun tx => (tx, res) } := by
  simp only [step] at h
  split at h
  · refine ⟨‹_›, ?_⟩
    rw [← Option.some.inj h]
    simp only [AuthTask.handleCompletion]
    cases hl : s.task.pending.lookup x with
    | some waiters => rfl
    | none => simp [Authenticator.erase_of_lookup_eq_none hl, AuthTask.record]
  · cases h

theorem step_insert {x : EndpointId} (h : s.step mode (.insert x) = some s') :
    mode = .twoWay ∧ s' = { s with task := { s.task with allowed := Insert.insert x s.task.allowed } } := by
  cases mode with
  | oneWay => cases h
  | twoWay => exact ⟨rfl, (Option.some.inj h).symm⟩

/-! ### The slice of one remote -/

/-- All that concerns one remote. -/
structure Slice where
  allowed : Bool
  pending : Option (List Nat)
  /-- The handshakes with the remote that are not joined yet. -/
  inFlight : List EndpointAddr
  started : List EndpointAddr
  replies : List (Nat × AuthResult)

def slice (s : Loop) (x : EndpointId) : Slice where
  allowed := decide (x ∈ s.task.allowed)
  pending := s.task.pending.lookup x
  inFlight := (s.task.tasks.map (·.2)).filter fun addr => addr.id = x
  started := s.started.filter fun addr => addr.id = x
  replies := s.repliesTo x

/-- What an event does to the slice of its remote. -/
def Slice.act (l : Slice) : TaskEvent → Slice
  | .request remoteAddr tx =>
    if l.allowed then { l with replies := l.replies ++ [(tx, .ok ())] }
    else match l.pending with
      | some waiters => { l with pending := some (waiters ++ [tx]) }
      | none => { l with
          pending := some [tx]
          inFlight := l.inFlight ++ [remoteAddr]
          started := l.started ++ [remoteAddr] }
  | .completion _ res => { l with
      allowed := l.allowed || res.isOk
      pending := none
      inFlight := l.inFlight.tail
      replies := l.replies ++ (l.pending.getD []).map fun tx => (tx, res) }
  | .insert _ => { l with allowed := true }

/-- Whether the slice of its remote lets an event happen. -/
def Slice.Enabled (mode : Mode) (l : Slice) : TaskEvent → Prop
  | .request _ _ => True
  | .completion _ _ => l.inFlight ≠ []
  | .insert _ => mode = .twoWay

/-- Each waiter asked for one remote, and waits for no other. -/
structure Owned (s : Loop) : Prop where
  nodup : (s.requests.map (·.1)).Nodup
  replied : ∀ r ∈ s.replies, r.1 ∈ s.requests.map (·.1)
  pending : ∀ x waiters, s.task.pending.lookup x = some waiters → ∀ w ∈ waiters, (w, x) ∈ s.requests

theorem owned_init : init.Owned where
  nodup := by simp [init]
  replied := by simp [init]
  pending := by simp [init]

theorem Owned.unique (hs : s.Owned) {w : Nat} {x y : EndpointId} (hx : (w, x) ∈ s.requests) (hy : (w, y) ∈ s.requests) :
    x = y :=
  congrArg Prod.snd (List.inj_on_of_nodup_map hs.nodup hx hy rfl)

/-- The waiters that a completion for `x` answers asked for `x`. -/
theorem Owned.waiters (hs : s.Owned) {x : EndpointId} {w : Nat} (hw : w ∈ (s.task.pending.lookup x).getD []) :
    (w, x) ∈ s.requests := by
  cases hl : s.task.pending.lookup x with
  | none => simp [hl] at hw
  | some waiters =>
    rw [hl, Option.getD_some] at hw
    exact hs.pending x waiters hl w hw

private theorem Owned.request {remoteAddr : EndpointAddr} {tx : Nat} (hs : s.Owned)
    (h : s.step mode (.request remoteAddr tx) = some s') : s'.Owned := by
  obtain ⟨hnew, h⟩ := step_request h
  have hnodup : ((s.requests ++ [(tx, remoteAddr.id)]).map (·.1)).Nodup := by
    rw [List.map_append, List.map_singleton]
    exact hs.nodup.append (List.nodup_singleton _) (by simpa using hnew)
  have hreplied : ∀ r ∈ s.replies, r.1 ∈ (s.requests ++ [(tx, remoteAddr.id)]).map (·.1) := by
    intro r hr
    rw [List.map_append]
    exact List.mem_append_left _ (hs.replied r hr)
  have hold : ∀ x waiters, s.task.pending.lookup x = some waiters →
      ∀ w ∈ waiters, (w, x) ∈ s.requests ++ [(tx, remoteAddr.id)] := by
    intro x waiters hx w hw
    exact List.mem_append_left _ (hs.pending x waiters hx w hw)
  have hlast : (tx, remoteAddr.id) ∈ s.requests ++ [(tx, remoteAddr.id)] := by simp
  have hinsert : ∀ ws, (∀ w ∈ ws, (w, remoteAddr.id) ∈ s.requests ++ [(tx, remoteAddr.id)]) →
      ∀ x waiters, (s.task.pending.insert remoteAddr.id ws).lookup x = some waiters →
        ∀ w ∈ waiters, (w, x) ∈ s.requests ++ [(tx, remoteAddr.id)] := by
    intro ws hws x waiters hx w hw
    by_cases hne : x = remoteAddr.id
    · subst hne
      rw [AList.lookup_insert, Option.some.injEq] at hx
      exact hws w (hx ▸ hw)
    · rw [AList.lookup_insert_ne hne] at hx
      exact hold x waiters hx w hw
  rcases h with ⟨-, rfl⟩ | ⟨waiters, -, hl, rfl⟩ | ⟨-, -, rfl⟩
  · refine ⟨hnodup, ?_, hold⟩
    intro r hr
    rcases List.mem_append.1 hr with hr | hr
    · exact hreplied r hr
    · rw [List.mem_singleton.1 hr]
      exact List.mem_map_of_mem hlast
  · refine ⟨hnodup, hreplied, hinsert _ ?_⟩
    intro w hw
    rcases List.mem_append.1 hw with hw | hw
    · exact hold _ _ hl w hw
    · rw [List.mem_singleton.1 hw]
      exact hlast
  · refine ⟨hnodup, hreplied, hinsert _ ?_⟩
    intro w hw
    rw [List.mem_singleton.1 hw]
    exact hlast

private theorem Owned.completion {x : EndpointId} {res : AuthResult} (hs : s.Owned)
    (h : s.step mode (.completion x res) = some s') : s'.Owned := by
  obtain ⟨-, rfl⟩ := step_completion h
  refine ⟨hs.nodup, ?_, ?_⟩
  · intro r hr
    rcases List.mem_append.1 hr with hr | hr
    · exact hs.replied r hr
    · obtain ⟨w, hw, rfl⟩ := List.mem_map.1 hr
      exact List.mem_map_of_mem (hs.waiters hw)
  · intro y waiters hy w hw
    by_cases hne : y = x
    · subst hne
      simp [AList.lookup_erase] at hy
    · rw [AList.lookup_erase_ne hne] at hy
      exact hs.pending y waiters hy w hw

theorem Owned.step {e : TaskEvent} (hs : s.Owned) (h : s.step mode e = some s') : s'.Owned := by
  cases e with
  | request remoteAddr tx => exact hs.request h
  | completion x res => exact hs.completion h
  | insert x =>
    obtain ⟨-, rfl⟩ := step_insert h
    exact ⟨hs.nodup, hs.replied, hs.pending⟩

/-! ### An event changes the slice of its remote only -/

private theorem repliesTo_request {tx : Nat} {x : EndpointId} (hs : s.Owned) (hnew : tx ∉ s.requests.map (·.1))
    (y : EndpointId) : (s.replies.filter fun r => (r.1, y) ∈ s.requests ++ [(tx, x)]) = s.repliesTo y := by
  refine List.filter_congr fun r hr => ?_
  have hne : r.1 ≠ tx := fun he => hnew (he ▸ hs.replied r hr)
  simp [hne]

private theorem filter_new {tx : Nat} {x : EndpointId} {res : AuthResult} (hnew : tx ∉ s.requests.map (·.1))
    (y : EndpointId) : ([(tx, res)].filter fun r => (r.1, y) ∈ s.requests ++ [(tx, x)]) =
      if x = y then [(tx, res)] else [] := by
  have hnot : (tx, y) ∉ s.requests := fun hm => hnew (List.mem_map_of_mem hm)
  by_cases hxy : x = y
  · simp [hxy]
  · simp [hxy, hnot, Ne.symm hxy]

/-- The replies of a completion go to the waiters of its remote. -/
private theorem filter_waiters {x : EndpointId} {res : AuthResult} (hs : s.Owned) (y : EndpointId) :
    ((((s.task.pending.lookup x).getD []).map fun tx => (tx, res)).filter fun r => (r.1, y) ∈ s.requests) =
      if x = y then ((s.task.pending.lookup x).getD []).map fun tx => (tx, res) else [] := by
  split
  · subst x
    rw [List.filter_eq_self]
    rintro r hr
    obtain ⟨w, hw, rfl⟩ := List.mem_map.1 hr
    simpa using hs.waiters hw
  · rename_i hxy
    rw [List.filter_eq_nil_iff]
    rintro r hr
    obtain ⟨w, hw, rfl⟩ := List.mem_map.1 hr
    simpa using fun hy => hxy (hs.unique (hs.waiters hw) hy)

private theorem filter_singleton_id (addr : EndpointAddr) (x : EndpointId) :
    [addr].filter (fun addr => addr.id = x) = if addr.id = x then [addr] else [] := by
  by_cases h : addr.id = x
  · simp [h]
  · simp [h]

/-- The handshake joined is the oldest one with its remote. -/
private theorem filter_eraseP (l : List (Unit × EndpointAddr)) (x y : EndpointId) :
    ((l.eraseP (·.2.id == x)).map (·.2)).filter (fun addr => addr.id = y) =
      if x = y then ((l.map (·.2)).filter fun addr => addr.id = y).tail
      else (l.map (·.2)).filter fun addr => addr.id = y := by
  induction l with
  | nil => simp
  | cons p l ih =>
    by_cases hp : p.2.id = x
    · rw [List.eraseP_cons, beq_iff_eq.2 hp, cond_true]
      by_cases hxy : x = y
      · simp [hp, hxy]
      · simp [hp, hxy]
    · rw [List.eraseP_cons, beq_eq_false_iff_ne.2 hp, cond_false, List.map_cons, List.filter_cons, ih, List.map_cons,
        List.filter_cons]
      by_cases hxy : x = y
      · subst hxy
        simp [hp]
      · simp [hxy]

private theorem slice_request {remoteAddr : EndpointAddr} {tx : Nat} (hs : s.Owned)
    (h : s.step mode (.request remoteAddr tx) = some s') (y : EndpointId) :
    s'.slice y = if remoteAddr.id = y then (s.slice y).act (.request remoteAddr tx) else s.slice y := by
  obtain ⟨hnew, h⟩ := step_request h
  rcases h with ⟨hA, rfl⟩ | ⟨waiters, hA, hl, rfl⟩ | ⟨hA, hl, rfl⟩
  · simp only [slice, repliesTo, List.filter_append]
    rw [repliesTo_request hs hnew, filter_new hnew]
    split
    · subst y
      simp [Slice.act, hA, repliesTo]
    · simp [repliesTo]
  · simp only [slice, repliesTo]
    rw [repliesTo_request hs hnew]
    split
    · subst y
      simp [Slice.act, hA, hl, repliesTo]
    · rename_i hne
      simp [AList.lookup_insert_ne (Ne.symm hne), repliesTo]
  · simp only [slice, repliesTo, List.map_append, List.filter_append, List.map_singleton, filter_singleton_id]
    rw [repliesTo_request hs hnew]
    split
    · subst y
      simp [Slice.act, hA, hl, repliesTo]
    · rename_i hne
      simp [AList.lookup_insert_ne (Ne.symm hne), repliesTo]

private theorem mem_record {x y : EndpointId} {res : AuthResult} :
    y ∈ s.task.record x res ↔ y ∈ s.task.allowed ∨ (x = y ∧ res.isOk = true) := by
  cases res with
  | ok _ =>
    rw [AuthTask.record, Finset.mem_insert, or_comm]
    simp [eq_comm, Except.isOk, Except.toBool]
  | error e => simp [AuthTask.record, Except.isOk, Except.toBool]

private theorem slice_completion {x : EndpointId} {res : AuthResult} (hs : s.Owned)
    (h : s.step mode (.completion x res) = some s') (y : EndpointId) :
    s'.slice y = if x = y then (s.slice y).act (.completion x res) else s.slice y := by
  obtain ⟨-, rfl⟩ := step_completion h
  simp only [slice, repliesTo, List.filter_append, mem_record, Bool.decide_or, Bool.decide_and]
  rw [filter_waiters hs, filter_eraseP]
  split
  · subst y
    simp [Slice.act, AList.lookup_erase]
  · rename_i hne
    simp [AList.lookup_erase_ne (Ne.symm hne), hne]

private theorem slice_insert {x : EndpointId} (h : s.step mode (.insert x) = some s') (y : EndpointId) :
    s'.slice y = if x = y then (s.slice y).act (.insert x) else s.slice y := by
  obtain ⟨-, rfl⟩ := step_insert h
  split
  · subst y
    simp [slice, Slice.act, repliesTo]
  · rename_i hne
    simp [slice, repliesTo, Ne.symm hne]

private theorem used_step {e : TaskEvent} (h : s.step mode e = some s') (w : Nat) :
    w ∈ s'.requests.map (·.1) ↔ w ∈ s.requests.map (·.1) ∨ e.waiter = some w := by
  cases e with
  | request remoteAddr tx =>
    obtain ⟨-, h⟩ := step_request h
    have hr : s'.requests = s.requests ++ [(tx, remoteAddr.id)] := by
      rcases h with ⟨-, rfl⟩ | ⟨_, -, -, rfl⟩ | ⟨-, -, rfl⟩ <;> rfl
    rw [hr, List.map_append, List.mem_append]
    simp [TaskEvent.waiter, eq_comm]
  | completion x res =>
    obtain ⟨-, rfl⟩ := step_completion h
    simp [TaskEvent.waiter]
  | insert x =>
    obtain ⟨-, rfl⟩ := step_insert h
    simp [TaskEvent.waiter]

private theorem step_possible (e : TaskEvent) : (∃ s', s.step mode e = some s') ↔
    (∀ w, e.waiter = some w → w ∉ s.requests.map (·.1)) ∧ (s.slice e.remote).Enabled mode e := by
  cases e with
  | request remoteAddr tx =>
    simp only [step, TaskEvent.waiter, Slice.Enabled, Option.some.injEq, forall_eq', and_true]
    split
    · simp_all
    · simp_all
  | completion x res =>
    have hany : s.task.tasks.any (·.2.id == x) = true ↔ (s.slice x).inFlight ≠ [] := by
      simp only [slice, List.any_eq_true, beq_iff_eq, ne_eq, List.filter_eq_nil_iff, List.mem_map, not_forall,
        decide_eq_true_eq, not_not]
      constructor
      · rintro ⟨p, hp, hx⟩
        exact ⟨p.2, ⟨p, hp, rfl⟩, hx⟩
      · rintro ⟨_, ⟨p, hp, rfl⟩, hx⟩
        exact ⟨p, hp, hx⟩
    simp only [step, TaskEvent.waiter, Slice.Enabled, reduceCtorEq, false_implies, implies_true, true_and]
    refine Iff.trans ?_ hany
    split
    · exact ⟨fun _ => ‹_›, fun _ => ⟨_, rfl⟩⟩
    · exact ⟨fun ⟨_, h⟩ => absurd h (by simp), fun h => absurd h ‹_›⟩
  | insert x =>
    cases mode with
    | oneWay => simp [step, Slice.Enabled]
    | twoWay => simp [step, Slice.Enabled, TaskEvent.waiter]

/-- The loop falls into the slices of its remotes. -/
def slices (mode : Mode) : Slices (step mode) TaskEvent.remote slice TaskEvent.waiter where
  act := Slice.act
  enabled := Slice.Enabled mode
  used s := s.requests.map (·.1)
  inv := Owned
  inv_step hs h := hs.step h
  slice_step := by
    intro s s' e hs h y
    cases e with
    | request remoteAddr tx => exact slice_request hs h y
    | completion x res => exact slice_completion hs h y
    | insert x => exact slice_insert h y
  used_step h := used_step h
  possible _ := step_possible _

/-! ### Isolation -/

/-- The two states agree on all that concerns `x`. -/
structure SameAt (x : EndpointId) (s s' : Loop) : Prop where
  replies : s.repliesTo x = s'.repliesTo x
  started : s.startedWith x = s'.startedWith x
  pending : s.task.pending.lookup x = s'.task.pending.lookup x
  allowed : x ∈ s.task.allowed ↔ x ∈ s'.task.allowed
  tasks : ((s.task.tasks.map (·.2)).filter fun addr => addr.id = x) =
    (s'.task.tasks.map (·.2)).filter fun addr => addr.id = x

theorem sameAt_of_slice {x : EndpointId} (h : s.slice x = s'.slice x) : SameAt x s s' where
  replies := congrArg Slice.replies h
  started := by
    rw [startedWith, startedWith, List.countP_eq_length_filter, List.countP_eq_length_filter]
    exact congrArg (fun l => l.started.length) h
  pending := congrArg Slice.pending h
  allowed := decide_eq_decide.1 (congrArg Slice.allowed h)
  tasks := congrArg Slice.inFlight h

/-- What a run of the loop does for each remote, it does without the others, and in whatever order their events come. -/
structure Isolated (mode : Mode) (events : List TaskEvent) (s : Loop) : Prop where
  /-- The events of one remote alone have the same effect on it. -/
  alone : ∀ x, ∃ s', init.run mode (events.filter fun e => e.remote = x) = some s' ∧ SameAt x s' s
  /-- Two neighbouring events of different remotes may change places. -/
  swap : ∀ before e₁ e₂ after, events = before ++ e₁ :: e₂ :: after → e₁.remote ≠ e₂.remote →
    ∃ s', init.run mode (before ++ e₂ :: e₁ :: after) = some s' ∧ ∀ x, SameAt x s' s
  /-- All that matters is the order among the events of each remote. -/
  reorder : ∀ events', (∀ x, (events'.filter fun e => e.remote = x) = events.filter fun e => e.remote = x) →
    ∃ s', init.run mode events' = some s' ∧ ∀ x, SameAt x s' s

/-- Events over any number of remotes, interleaved in any way, affect each remote as its own events alone do. -/
theorem isolated {events : List TaskEvent} (h : init.run mode events = some s) : Isolated mode events s := by
  have hreorder : ∀ events', (∀ x, (events'.filter fun e => e.remote = x) = events.filter fun e => e.remote = x) →
      ∃ s', init.run mode events' = some s' ∧ ∀ x, SameAt x s' s := by
    intro events' hsame
    obtain ⟨s', h', hslice⟩ := (slices mode).run_reorder owned_init h hsame
    exact ⟨s', h', fun x => sameAt_of_slice (hslice x)⟩
  refine ⟨?_, ?_, hreorder⟩
  · intro x
    obtain ⟨s', h', hslice⟩ := (slices mode).run_ofKey owned_init h x
    exact ⟨s', h', sameAt_of_slice hslice⟩
  · rintro before e₁ e₂ after rfl hne
    refine hreorder _ fun x => ?_
    rw [List.filter_append, List.filter_append]
    congr 1
    by_cases h₁ : e₁.remote = x
    · have h₂ : e₂.remote ≠ x := fun h₂ => hne (h₁.trans h₂.symm)
      simp [h₁, h₂]
    · simp [List.filter_cons, h₁]

/-- Two dials of `x` overlap with two of `y`; the acceptor side allows `x` before its handshake fails. -/
private def crossing (x y : EndpointAddr) : List TaskEvent :=
  [.request x 0, .request y 1, .request x 2, .insert x.id, .completion y.id (.ok ()), .request x 3, .request y 4,
    .completion x.id (.error .clockSkew)]

theorem crossing_isolated :
    let x : EndpointAddr := ⟨⟨List.replicate 32 7, rfl⟩, ∅⟩
    let y : EndpointAddr := ⟨⟨List.replicate 32 8, rfl⟩, ∅⟩
    ∃ s, init.run .twoWay (crossing x y) = some s ∧ Isolated .twoWay (crossing x y) s ∧
      s.repliesTo x.id = [(3, .ok ()), (0, .error .clockSkew), (2, .error .clockSkew)] ∧
      s.repliesTo y.id = [(1, .ok ()), (4, .ok ())] ∧ s.startedWith x.id = 1 ∧ s.startedWith y.id = 1 := by
  intro x y
  have h : (init.run .twoWay (crossing x y)).isSome = true := by decide
  refine ⟨Option.get _ h, (Option.some_get h).symm, isolated (Option.some_get h).symm, ?_, ?_, ?_, ?_⟩
  all_goals decide +revert

/-! ### The loop of an authenticator -/

/-- The loop is where the task of the authenticator is. -/
structure Tracks {ι : Type} (l : Loop) (a : Authenticator ι) : Prop where
  allowed : l.task.allowed = a.task.allowed
  pending : l.task.pending = a.task.pending
  tasks : l.task.tasks.map (·.2) = a.task.tasks.map (·.2)
  replies : l.replies = a.replies
  taken : l.requests.map (·.1) = a.taken

section Tracks

variable {ι : Type} [DecidableEq ι] {l : Loop} {a a' : Authenticator ι}

private theorem Tracks.recv {handle : ι} (ht : l.Tracks a) (hl : a.Ledger)
    (h : a.step mode (.recv handle) = some a') : ∃ e l', l.step mode e = some l' ∧ l'.Tracks a' := by
  obtain ⟨-, -, addr, w, queue, hq, h⟩ := Authenticator.step_recv h
  have hnew : w ∉ l.requests.map (·.1) := by
    rw [ht.taken]
    intro hw
    exact (hl.taken w hw).2.2.1 (by simp [hq])
  have hpossible : ∃ l', l.step mode (.request addr w) = some l' := by
    refine (step_possible _).2 ⟨?_, trivial⟩
    rintro _ ⟨⟩
    exact hnew
  obtain ⟨l', hl'⟩ := hpossible
  refine ⟨_, l', hl', ?_⟩
  obtain ⟨-, hcases⟩ := step_request hl'
  have htaken : (l.requests ++ [(w, addr.id)]).map (·.1) = a.taken ++ [w] := by simp [ht.taken]
  rw [ht.allowed, ht.pending] at hcases
  rcases h with ⟨hA, rfl⟩ | ⟨waiters, hA, hws, rfl⟩ | ⟨hA, hws, rfl⟩
  · simp only [hA, true_and, not_true_eq_false, false_and, exists_false, or_false] at hcases
    subst hcases
    exact ⟨ht.allowed, ht.pending, ht.tasks, congrArg (· ++ _) ht.replies, htaken⟩
  · simp only [hA, hws, not_false_eq_true, false_and, true_and, false_or, reduceCtorEq, and_false, or_false,
      Option.some.injEq, exists_eq_left'] at hcases
    subst hcases
    exact ⟨ht.allowed, rfl, ht.tasks, ht.replies, htaken⟩
  · simp only [hA, hws, not_false_eq_true, false_and, true_and, false_or, reduceCtorEq, exists_false] at hcases
    subst hcases
    exact ⟨ht.allowed, rfl, by simp [ht.tasks], ht.replies, htaken⟩

private theorem Tracks.join {handle : ι} {res : AuthResult} (ht : l.Tracks a) (hs : a.Synchronised mode)
    (h : a.step mode (.join handle res) = some a') : ∃ e l', l.step mode e = some l' ∧ l'.Tracks a' := by
  obtain ⟨-, addr, l₁, l₂, htasks, rfl⟩ := Authenticator.step_join h
  have hmap : l.task.tasks.map (·.2) = l₁.map (·.2) ++ addr :: l₂.map (·.2) := by simp [ht.tasks, htasks]
  have hpossible : ∃ l', l.step mode (.completion addr.id res) = some l' := by
    refine (step_possible _).2 ⟨by simp [TaskEvent.waiter], ?_⟩
    simp [Slice.Enabled, slice, hmap, TaskEvent.remote]
  -- the handshakes in flight have distinct remotes, so the first with this one is the one joined
  have herase : (l.task.tasks.eraseP (·.2.id == addr.id)).map (·.2) = (l₁ ++ l₂).map (·.2) := by
    have hd := hs.distinct
    rw [htasks, List.map_append, List.map_cons, List.nodup_middle, List.nodup_cons, ← List.map_append] at hd
    have hnot : ∀ q ∈ l₁.map (·.2), ¬ (q.id == addr.id) = true := by
      intro q hq hx
      obtain ⟨p, hp, rfl⟩ := List.mem_map.1 hq
      exact hd.1 (List.mem_map.2 ⟨p, List.mem_append_left _ hp, beq_iff_eq.1 hx⟩)
    calc (l.task.tasks.eraseP (·.2.id == addr.id)).map (·.2)
      _ = (l.task.tasks.map (·.2)).eraseP (·.id == addr.id) := by
        rw [List.eraseP_map]
        rfl
      _ = l₁.map (·.2) ++ (addr :: l₂.map (·.2)).eraseP (·.id == addr.id) := by
        rw [hmap, List.eraseP_append_right _ hnot]
      _ = (l₁ ++ l₂).map (·.2) := by simp
  obtain ⟨l', hl'⟩ := hpossible
  refine ⟨_, l', hl', ?_⟩
  obtain ⟨-, rfl⟩ := step_completion hl'
  refine ⟨?_, ?_, herase, ?_, ht.taken⟩
  · cases res with
    | ok _ => simp [AuthTask.record, ht.allowed]
    | error e => simp [AuthTask.record, ht.allowed]
  · simp [ht.pending]
  · simp [ht.pending, ht.replies]

/-- Every action that leaves the loop running is an event of the loop, or does not concern it. -/
theorem Tracks.step {act : Action ι} (ht : l.Tracks a) (hl : a.Ledger) (hs : a.Synchronised mode)
    (h : a.step mode act = some a') (hr : a'.running = true) :
    ∃ events l', l.run mode events = some l' ∧ l'.Tracks a' := by
  have hone : (∃ e l', l.step mode e = some l' ∧ l'.Tracks a') →
      ∃ events l', l.run mode events = some l' ∧ l'.Tracks a' := by
    rintro ⟨e, l', he, ht'⟩
    exact ⟨[e], l', by simp [run, he], ht'⟩
  rcases Authenticator.step_cases h with hq | ⟨handle, rfl⟩ | ⟨handle, res, rfl⟩ | ⟨x, rfl⟩ | ⟨why, rfl⟩
  · refine ⟨[], l, rfl, ?_, ?_, ?_, ?_, ?_⟩
    · rw [hq.task, ht.allowed]
    · rw [hq.task, ht.pending]
    · rw [hq.task, ht.tasks]
    · rw [hq.replies, ht.replies]
    · rw [hq.taken, ht.taken]
  · exact hone (ht.recv hl h)
  · exact hone (ht.join hs h)
  · obtain ⟨rfl, rfl⟩ := Authenticator.step_insert h
    refine hone ⟨.insert x, _, rfl, ?_, ht.pending, ht.tasks, ht.replies, ht.taken⟩
    simp [Authenticator.insert, ht.allowed]
  · obtain ⟨-, -, rfl⟩ := Authenticator.step_stop h
    cases hr

/-- The task of an authenticator, as long as it runs, is where a run of its loop by itself gets. -/
theorem loop_of_run {acts : List (Action ι)} (h : Authenticator.init.run mode acts = some a) (hr : a.running = true) :
    ∃ events l, init.run mode events = some l ∧ l.Tracks a := by
  let P (b : Authenticator ι) : Prop := b.Ledger ∧ b.Synchronised mode ∧
    (b.running = true → ∃ events l, init.run mode events = some l ∧ l.Tracks b)
  have hinv : P a := by
    refine Authenticator.run_induction ?_ ⟨Authenticator.ledger_init, Authenticator.synchronised_init mode, ?_⟩ h
    · rintro b b' act ⟨hl, hs, ih⟩ hb
      refine ⟨hl.step hb, hs.step hb, fun hr' => ?_⟩
      obtain ⟨events, l, hrun, ht⟩ := ih (Authenticator.running_of_step hb hr')
      obtain ⟨events', l', hrun', ht'⟩ := ht.step hl hs hb hr'
      refine ⟨events ++ events', l', ?_, ht'⟩
      rw [run, List.foldlM_append]
      exact Option.bind_eq_some_iff.2 ⟨l, hrun, hrun'⟩
    · intro _
      exact ⟨[], init, rfl, rfl, rfl, rfl, rfl, rfl⟩
  exact hinv.2.2 hr

end Tracks

end Loop

end IrohHydeAuth
