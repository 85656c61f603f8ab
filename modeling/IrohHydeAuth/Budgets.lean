import IrohHydeAuth.Basis.Budget
import IrohHydeAuth.Authentication
import Mathlib.Algebra.Order.BigOperators.Group.Finset
import Mathlib.Algebra.Order.Pi

/-!
# What an attacker can make an endpoint do

Every session costs an endpoint operations, bytes to read, signatures and signature checks.  None of the four programs
has a loop and `read_msg` refuses large frames before it reads them, so whatever its peer sends a session stays within a
`budget`, and over a whole run the work of an endpoint is bounded by the connections that it accepted and the requests
that it took (`Net.bounded_work`).
-/

namespace IrohHydeAuth

open Process Prog

/-- What is counted. -/
inductive Resource where
  | operation
  | byteRead
  | signature
  | verification
  | insertion
  | close
  deriving DecidableEq

abbrev Usage := Resource → Nat

namespace Usage

/-- Operations that count as nothing else. -/
def plain (n : Nat) : Usage
  | .operation => n
  | _ => 0

/-- One operation that counts as one of `resource`, too. -/
def one (resource : Resource) : Usage := fun r => if r = .operation ∨ r = resource then 1 else 0

/-- Reading so many bytes at once. -/
def bytes (n : Nat) : Usage
  | .operation => 1
  | .byteRead => n
  | _ => 0

/-- Reading a message of at most `max` bytes. -/
def message (max : Nat) : Usage
  | .operation => 2
  | .byteRead => 4 + max
  | _ => 0

end Usage

def Op.usage : Op → Usage
  | .readExact n => .bytes n
  | .sign _ => .one .signature
  | .verify _ _ _ => .one .verification
  | .insert _ => .one .insertion
  | .close _ _ => .one .close
  | _ => .plain 1

/-! ### The parts of a session -/

section Parts

variable {α : Type} {n : Usage}

theorem costs_transport {p : Prog Resp (Except String α)} (hp : p.Costs Op.usage n) :
    (transport p).run.Costs Op.usage n := by
  have h : (transport p).run.Costs Op.usage (n + 0) := by
    refine hp.bind fun r => ?_
    cases r with
    | ok a => exact costs_ret _
    | error e => exact costs_ret _
  rwa [add_zero] at h

theorem costs_lift (op : Op) : (liftM (call op) : Async (Resp op)).run.Costs Op.usage op.usage := by
  have h : (liftM (call op) : Async (Resp op)).run.Costs Op.usage (op.usage + 0) :=
    costs_ask fun r => costs_ret _
  rwa [add_zero] at h

theorem costs_throw {e : Error} : (throw e : Async α).run.Costs Op.usage n :=
  (costs_ret _).mono zero_le

theorem costs_checkSkewNow (maxSkewSecs : Option UInt64) (asserted : UInt64) :
    (liftM (checkSkewNow maxSkewSecs asserted) : Async Bool).run.Costs Op.usage (.plain 1) := by
  cases maxSkewSecs with
  | none => exact (costs_ret _).mono zero_le
  | some max =>
    have h : (liftM (checkSkewNow (some max) asserted) : Async Bool).run.Costs Op.usage (Usage.plain 1 + 0) :=
      costs_ask fun now => costs_ret _
    rwa [add_zero] at h

theorem costs_close_throw (code : UInt32) (reason : Bytes) (e : Error) :
    (do call (.close code reason); throw e : Async α).run.Costs Op.usage (.one .close) := by
  have h : (do call (.close code reason); throw e : Async α).run.Costs Op.usage (Usage.one .close + 0) :=
    costs_ask fun _ => costs_ret _
  rwa [add_zero] at h

variable [Postcard α]

theorem costs_writeMsg (m : α) : (writeMsg m).run.Costs Op.usage (.plain 2) := by
  have h : Usage.plain 2 = .plain 1 + .plain 1 := by
    funext r
    cases r <;> rfl
  unfold writeMsg
  refine costs_ite ?_ costs_throw
  rw [h]
  exact (costs_transport (costs_call _)).run_bind fun _ => costs_transport (costs_call _)

theorem costs_readMsg (max : Nat) : (readMsg max : Async α).run.Costs Op.usage (.message max) := by
  have h : Usage.message max = .bytes 4 + (.bytes max + 0) := by
    funext r
    cases r <;> rfl
  rw [h]
  refine (costs_transport (costs_call _)).run_bind fun lenBuf => ?_
  dsimp only
  split
  · exact costs_throw
  · rename_i hlen
    have hle : Usage.bytes (beNat lenBuf.val) ≤ .bytes max := by
      intro r
      cases r with
      | byteRead => exact Nat.le_of_not_gt hlen
      | _ => exact le_rfl
    refine Costs.mono ?_ (add_le_add hle le_rfl)
    refine (costs_transport (costs_call _)).run_bind fun buf => ?_
    split
    · exact costs_ret _
    · exact costs_ret _

/-- An initiator that asserts itself. -/
theorem costs_attest {message : UInt64 → Bytes} {assertion : Bytes → UInt64 → α} :
    (attest message assertion).run.Costs Op.usage
      (.plain 1 + (.one .signature + (.plain 2 + (.plain 1 + (.plain 1 + 0))))) := by
  refine (costs_lift _).run_bind fun now => Costs.run_bind (costs_call _) fun signature => ?_
  refine (costs_writeMsg _).run_bind fun _ => (costs_transport (costs_call _)).run_bind fun _ => ?_
  exact (costs_lift _).run_bind fun reason => costs_ret _

end Parts

/-! ### The four sessions -/

/-- What a session may cost. -/
def budget : Mode → Side → Usage
  | _, .dialer, .byteRead => 4 + MAX_MSG
  | _, .acceptor, .byteRead => 2 * (4 + MAX_MSG)
  | .oneWay, _, .operation => 12
  | .twoWay, _, .operation => 15
  | .oneWay, .dialer, .signature => 1
  | .oneWay, .acceptor, .signature => 0
  | .twoWay, _, .signature => 1
  | .oneWay, .dialer, .verification => 0
  | .oneWay, .acceptor, .verification => 1
  | .twoWay, _, .verification => 1
  | _, .dialer, .insertion => 0
  | _, .acceptor, .insertion => 1
  | .oneWay, .dialer, .close => 0
  | _, _, .close => 1

theorem Outgoing.costs_handshake (endpointId : EndpointId) (remoteAddr : EndpointAddr) (signer : InstitutionalSigner) :
    (Outgoing.handshake endpointId remoteAddr signer).run.Costs Op.usage (budget .oneWay .dialer) := by
  have h : (Outgoing.handshake endpointId remoteAddr signer).run.Costs Op.usage
      (.plain 1 + (.plain 1 + (.plain 2 + (.message MAX_MSG + (.plain 1 + (.one .signature + (.plain 2 + (.plain 1 +
        (.plain 1 + 0))))))))) := by
    refine (costs_transport (costs_call _)).run_bind fun _ => (costs_transport (costs_call _)).run_bind fun _ => ?_
    refine (costs_writeMsg _).run_bind fun _ => (costs_readMsg _).run_bind fun challenge => ?_
    exact costs_ite costs_throw costs_attest
  refine h.mono fun r => ?_
  cases r <;> decide

/-- The end of an acceptor. -/
theorem costs_conclude {β : Type} (remote : β → EndpointId) (r : Except Error β) :
    (conclude remote r).Costs Op.usage (.one .insertion + (.one .close + 0)) := by
  cases r with
  | ok b => exact costs_ask fun _ => costs_ask fun _ => costs_ret _
  | error e =>
    refine Costs.mono (costs_ask fun _ => costs_ret _) (le_add_left le_rfl)

theorem AuthProtocol.costs_accept (self : AuthProtocol) (remoteId : EndpointId) :
    (self.accept remoteId).Costs Op.usage (budget .oneWay .acceptor) := by
  have h : (self.runHandshake remoteId).run.Costs Op.usage
      (.plain 1 + (.message MAX_MSG + (.plain 1 + (.plain 1 + (.plain 2 + (.message MAX_MSG +
        (.one .verification + 0))))))) := by
    refine (costs_transport (costs_call _)).run_bind fun _ => ?_
    refine (costs_readMsg _).run_bind fun hello => costs_ite costs_throw ?_
    refine (costs_lift _).run_bind fun nonce => (costs_lift _).run_bind fun serverNow => ?_
    refine (costs_writeMsg _).run_bind fun _ => (costs_readMsg _).run_bind fun auth => costs_ite costs_throw ?_
    refine (costs_lift _).run_bind fun res => ?_
    cases res with
    | error e => exact costs_throw
    | ok institution => exact costs_ret _
  rw [AuthProtocol.accept_eq]
  refine (h.bind (costs_conclude _)).mono fun r => ?_
  cases r <;> decide

theorem Mutual.costs_handshake (endpointId : EndpointId) (remoteAddr : EndpointAddr) (peerId : EndpointId)
    (signer : InstitutionalSigner) (maxSkewSecs : Option UInt64) :
    (Mutual.handshake endpointId remoteAddr peerId signer maxSkewSecs).run.Costs Op.usage (budget .twoWay .dialer) := by
  -- each test either closes the connection or goes on
  have h : (Mutual.handshake endpointId remoteAddr peerId signer maxSkewSecs).run.Costs Op.usage
      (.plain 1 + (.plain 1 + (.plain 1 + (.plain 2 + (.message MAX_MSG + (.one .close ⊔ (.plain 1 + (.one .close ⊔
        (.one .verification + (.one .close ⊔ (.plain 1 + (.one .signature + (.plain 2 + (.plain 1 +
          (.plain 1 + 0))))))))))))))) := by
    refine (costs_transport (costs_call _)).run_bind fun _ => (costs_transport (costs_call _)).run_bind fun _ => ?_
    refine (costs_lift _).run_bind fun nonceA => (costs_writeMsg _).run_bind fun _ => ?_
    refine (costs_readMsg _).run_bind fun challenge => ?_
    refine costs_ite ((costs_close_throw _ _ _).mono le_sup_left) (Costs.mono ?_ le_sup_right)
    refine (costs_checkSkewNow _ _).run_bind fun fresh => ?_
    refine costs_ite ((costs_close_throw _ _ _).mono le_sup_left) (Costs.mono ?_ le_sup_right)
    refine (costs_lift _).run_bind fun res => ?_
    cases res with
    | error e => exact (costs_close_throw _ _ _).mono le_sup_left
    | ok institution => exact costs_attest.mono le_sup_right
  refine h.mono fun r => ?_
  cases r <;> decide

theorem MutualAuthProtocol.costs_accept (self : MutualAuthProtocol) (remoteId : EndpointId) :
    (self.accept remoteId).Costs Op.usage (budget .twoWay .acceptor) := by
  have h : (self.handshake remoteId).run.Costs Op.usage
      (.plain 1 + (.plain 1 + (.message MAX_MSG + (.plain 1 + (.plain 1 + (.one .signature + (.plain 2 +
        (.message MAX_MSG + (.plain 1 + (.one .verification + 0)))))))))) := by
    refine (costs_lift _).run_bind fun id? => ?_
    cases id? with
    | none => exact costs_throw
    | some localId =>
      refine (costs_transport (costs_call _)).run_bind fun _ => ?_
      refine (costs_readMsg _).run_bind fun hello => costs_ite costs_throw ?_
      refine (costs_lift _).run_bind fun nonceB => (costs_lift _).run_bind fun timeB => ?_
      refine Costs.run_bind (costs_call _) fun sigB => (costs_writeMsg _).run_bind fun _ => ?_
      refine (costs_readMsg _).run_bind fun response => (costs_checkSkewNow _ _).run_bind fun fresh => ?_
      refine costs_ite costs_throw ((costs_lift _).run_bind fun res => ?_)
      cases res with
      | error e => exact costs_throw
      | ok institution => exact costs_ret _
  rw [MutualAuthProtocol.accept_eq]
  refine (h.bind (costs_conclude _)).mono fun r => ?_
  cases r <;> decide

/-! ### Over a whole run -/

/-- The step may start a session at the endpoint: its task takes a request, or its router a connection. -/
def Label.opens (e : EndpointId) : Label → Bool
  | .recv e' _ _ => e' == e
  | .accept c => c.target.id == e
  | _ => false

/-- What any session may cost. -/
def Usage.session : Usage
  | .operation => 15
  | .byteRead => 2 * (4 + MAX_MSG)
  | _ => 1

/-- Every operation can be answered. -/
private theorem nonempty_resp (op : Op) : Nonempty (Resp op) := by
  cases op with
  | random => exact ⟨⟨List.replicate 32 0, rfl⟩⟩
  | unixSecs => exact ⟨(0 : UInt64)⟩
  | sign message => exact ⟨.ok []⟩
  | verify verifyingKey message signature => exact ⟨.error .untrustedKey⟩
  | localId => exact ⟨(none : Option EndpointId)⟩
  | insert id => exact ⟨()⟩
  | close code reason => exact ⟨()⟩
  | closed => exact ⟨.other ""⟩
  | _ => exact ⟨.error ""⟩

namespace Net

variable {w : World} {st st' : Net}

theorem costs_program {s : End} {p : Session} (hp : w.program s = some p) :
    p.Costs Op.usage (budget s.1.mode s.2) := by
  obtain ⟨c, side⟩ := s
  cases side with
  | dialer =>
    cases hmode : c.mode with
    | oneWay =>
      obtain ⟨n, -, rfl⟩ := program_dialer_oneWay hmode hp
      exact Outgoing.costs_handshake _ _ _
    | twoWay =>
      obtain ⟨n, -, rfl⟩ := program_dialer_twoWay hmode hp
      exact Mutual.costs_handshake _ _ _ _ _
  | acceptor =>
    cases hmode : c.mode with
    | oneWay =>
      obtain ⟨n, -, rfl⟩ := program_acceptor_oneWay hmode hp
      exact n.protocol.costs_accept _
    | twoWay =>
      obtain ⟨n, -, rfl⟩ := program_acceptor_twoWay hmode hp
      exact n.mutualProtocol.costs_accept _

/-- Whatever happens, what a session has cost so far is within its budget. -/
theorem Sound.spent_le (hs : Sound w st) (s : End) : spent Op.usage (st.trace s) ≤ budget s.1.mode s.2 := by
  cases hp : st.proc s with
  | none =>
    rw [hs.sessions.idle s hp, spent_nil]
    exact zero_le
  | some q =>
    obtain ⟨p, hprog, hpath⟩ := hs.sessions.path s q hp
    exact costs_program hprog _ _ hpath

/-- A session that has not returned has operations left. -/
theorem Sound.spent_lt (hs : Sound w st) {s : End} {q : Session} (hp : st.proc s = some q) (hq : q.value? = none) :
    spent Op.usage (st.trace s) .operation < budget s.1.mode s.2 .operation := by
  obtain ⟨p, hprog, hpath⟩ := hs.sessions.path s q hp
  cases q with
  | ret r => cases hq
  | ask op k =>
    obtain ⟨r⟩ := nonempty_resp op
    have hle := costs_program hprog _ _ (hpath.snoc r) .operation
    have hone : op.usage .operation = 1 := by cases op <;> rfl
    rw [spent_append, spent_cons, spent_nil, add_zero, Pi.add_apply, hone] at hle
    exact hle

/-- A step starts at most one session, and only if it takes a request or accepts a connection. -/
theorem step_opens {l : Label} (h : st.step w l = some st') :
    ∃ s₀ : End, ∀ s, st'.proc s ≠ none → st.proc s ≠ none ∨ s = s₀ ∧ l.opens s.owner = true := by
  have hspawn : ∀ {st : Net} {s₀ s : End}, (st.spawn w s₀).proc s ≠ none → st.proc s ≠ none ∨ s = s₀ := by
    intro st s₀ s hs
    by_cases he : s = s₀
    · exact .inr he
    · exact .inl (by simpa [spawn, he] using hs)
  cases l with
  | gate e mode act =>
    obtain ⟨-, -, a, -, rfl⟩ := step_gate h
    exact ⟨(⟨e, ⟨e, ∅⟩, mode, 0⟩, .dialer), fun s hs => .inl hs⟩
  | recv e mode serial =>
    obtain ⟨addr, v, queue, a, -, -, -, -, rfl⟩ := step_recv h
    refine ⟨(⟨e, addr, mode, serial⟩, .dialer), fun s hs => ?_⟩
    split at hs
    · refine (hspawn hs).imp id ?_
      rintro rfl
      exact ⟨rfl, by simp [Label.opens, End.owner]⟩
    · exact .inl hs
  | join e mode c =>
    obtain ⟨res, a, -, -, rfl⟩ := step_join h
    exact ⟨(c, .dialer), fun s hs => .inl hs⟩
  | publish e =>
    obtain ⟨-, rfl⟩ := step_publish h
    exact ⟨(⟨e, ⟨e, ∅⟩, .twoWay, 0⟩, .dialer), fun s hs => .inl hs⟩
  | accept c =>
    obtain ⟨-, -, rfl⟩ := step_accept h
    refine ⟨(c, .acceptor), fun s hs => (hspawn hs).imp id ?_⟩
    rintro rfl
    exact ⟨rfl, by simp [Label.opens, End.owner]⟩
  | answer s ev delivered =>
    obtain ⟨p, q, hp, -, -, rfl⟩ := step_answer h
    refine ⟨s, fun s' hs' => .inl ?_⟩
    by_cases he : s' = s
    · rw [he, hp]
      simp
    · simpa [record, he] using hs'
  | attack s bytes =>
    obtain ⟨-, rfl⟩ := step_attack h
    exact ⟨s, fun s hs => .inl hs⟩

/-- The sessions of an endpoint are at most as many as the requests it took and the connections it accepted. -/
theorem started_le {e : EndpointId} {S : Finset End} (hS : ∀ s, s.owner = e → st.proc s ≠ none → s ∈ S)
    {labels : List Label} (h : st.run w labels = some st') :
    ∃ S' : Finset End, (∀ s, s.owner = e → st'.proc s ≠ none → s ∈ S') ∧
      S'.card ≤ S.card + labels.countP (Label.opens e) := by
  induction labels generalizing st S with
  | nil =>
    cases h
    exact ⟨S, hS, by simp⟩
  | cons l labels ih =>
    obtain ⟨st₁, h₁, h₂⟩ := Option.bind_eq_some_iff.1 h
    obtain ⟨s₀, hs₀⟩ := step_opens h₁
    rw [List.countP_cons]
    by_cases ho : l.opens e = true
    · have hS₁ : ∀ s, s.owner = e → st₁.proc s ≠ none → s ∈ insert s₀ S := by
        intro s hs hp
        rcases hs₀ s hp with hp | ⟨rfl, -⟩
        · exact Finset.mem_insert_of_mem (hS s hs hp)
        · exact Finset.mem_insert_self _ _
      obtain ⟨S', hS', hcard⟩ := ih hS₁ h₂
      have hinsert := Finset.card_insert_le s₀ S
      refine ⟨S', hS', ?_⟩
      rw [if_pos ho]
      omega
    · have hS₁ : ∀ s, s.owner = e → st₁.proc s ≠ none → s ∈ S := by
        intro s hs hp
        rcases hs₀ s hp with hp | ⟨-, hl⟩
        · exact hS s hs hp
        · exact absurd (hs ▸ hl) ho
      obtain ⟨S', hS', hcard⟩ := ih hS₁ h₂
      exact ⟨S', hS', by rw [if_neg ho]; exact hcard⟩

/-- All that an endpoint has done. -/
def work (st : Net) (e : EndpointId) : Trace Resp := (st.log.filter fun r => r.1.owner = e).map (·.2)

theorem Sound.work_le (hs : Sound w st) {e : EndpointId} {S : Finset End}
    (hS : ∀ s, s.owner = e → st.proc s ≠ none → s ∈ S) : spent Op.usage (st.work e) ≤ S.card • Usage.session := by
  have hmem : ∀ r ∈ st.log.filter (fun r => r.1.owner = e), r.1 ∈ S := by
    intro r hr
    obtain ⟨hr, ho⟩ := List.mem_filter.1 hr
    refine hS r.1 (by simpa using ho) fun hnone => ?_
    have htrace : r.2 ∈ st.trace r.1 := List.mem_map.2 ⟨r, List.mem_filter.2 ⟨hr, by simp⟩, rfl⟩
    rw [hs.sessions.idle r.1 hnone] at htrace
    cases htrace
  rw [work, spent_eq_sum hmem]
  refine Finset.sum_le_card_nsmul _ _ _ fun s _ => ?_
  have hbudget : budget s.1.mode s.2 ≤ Usage.session := by
    intro r
    cases s.1.mode <;> cases s.2 <;> cases r <;> decide
  refine le_trans ?_ ((hs.spent_le s).trans hbudget)
  -- at an end of another endpoint nothing is left of the log
  by_cases ho : s.owner = e
  · have hself : ((st.log.filter fun r => r.1.owner = e).filter fun r => r.1 = s) = st.log.filter (·.1 == s) := by
      rw [List.filter_filter]
      refine List.filter_congr fun r _ => ?_
      by_cases hr : r.1 = s
      · simp [hr, ho]
      · simp [hr]
    rw [hself]
    exact le_rfl
  · have hnil : ((st.log.filter fun r => r.1.owner = e).filter fun r => r.1 = s) = [] := by
      rw [List.filter_filter, List.filter_eq_nil_iff]
      intro r _ hr
      simp only [Bool.and_eq_true, decide_eq_true_eq] at hr
      exact ho (hr.1 ▸ hr.2)
    rw [hnil]
    exact zero_le

/-- In every run, whatever the attackers send: no session exceeds its budget, a session that has not returned has
operations left, and all that an endpoint has done is bounded by the requests it took and the connections it accepted,
with one signature and one signature check for each. -/
theorem bounded_work {labels : List Label} (h : init.run w labels = some st) :
    (∀ s, spent Op.usage (st.trace s) ≤ budget s.1.mode s.2) ∧
    (∀ s q, st.proc s = some q → q.value? = none →
      spent Op.usage (st.trace s) .operation < budget s.1.mode s.2 .operation) ∧
    ∀ e, spent Op.usage (st.work e) ≤ labels.countP (Label.opens e) • Usage.session := by
  have hs := sound_of_run h
  refine ⟨hs.spent_le, fun s q hp hq => hs.spent_lt hp hq, fun e => ?_⟩
  obtain ⟨S, hS, hcard⟩ := started_le (e := e) (S := ∅) (fun s _ hp => absurd rfl hp) h
  refine (hs.work_le hS).trans ?_
  rw [Finset.card_empty, zero_add] at hcard
  exact nsmul_le_nsmul_left zero_le hcard

/-- A mutual handshake, for which the acceptor has signed once. -/
theorem duo_bounded_work : ∃ st, init.run (Duo.world none) (Duo.labels .twoWay) = some st ∧
    (Duo.labels .twoWay).countP (Label.opens Duo.bob) = 1 ∧ spent Op.usage (st.work Duo.bob) .signature = 1 ∧
      spent Op.usage (st.work Duo.bob) ≤ 1 • Usage.session := by
  have hrun : (init.run (Duo.world none) (Duo.labels .twoWay)).any (fun st =>
      decide ((Duo.labels .twoWay).countP (Label.opens Duo.bob) = 1 ∧
        spent Op.usage (st.work Duo.bob) .signature = 1)) = true := by
    decide +kernel
  obtain ⟨st, h, hst⟩ := (Option.any_eq_true _ _).1 hrun
  obtain ⟨hopens, hsigned⟩ := of_decide_eq_true hst
  have hle := (bounded_work h).2.2 Duo.bob
  rw [hopens] at hle
  exact ⟨st, h, hopens, hsigned, hle⟩

end Net

end IrohHydeAuth
