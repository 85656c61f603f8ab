import IrohHydeAuth.Authentication
import IrohHydeAuth.Signer

/-!
# Endpoints put together

`Net` leaves two things open: whether the hooks of an endpoint let an auth connection through, and what a signer
answers.  In a deployment an endpoint has mounted hooks, which are asked about every connection, and a handshake that
signs with a `HydeSigner` does so on a thread of its own, which waits for the mutex of that signer together with the
threads of the other handshakes.

A hook that does not define one of the two functions of `EndpointHooks` accepts.  `before_connect` is asked at the
dialling end, where all hooks have to accept before the connection is dialled, and `after_handshake` at the accepting
end, before the router sees the connection.  A dial that `after_handshake` rejects at the dialling end is one that
fails, which any dial may do.

Whatever a deployment does its network does too (`run_net`), so what holds of every run of a network holds of every
deployment.
-/

namespace IrohHydeAuth

open Process Prog

inductive Hook where
  | outgoing
  | incoming
  | mutual
  deriving DecidableEq

/-- The hook that asks the task of this mode. -/
def Mode.hook : Mode → Hook
  | .oneWay => .outgoing
  | .twoWay => .mutual

/-- The honest endpoints with their hooks and their signers. -/
structure Deployment (hyde : Hyde) (K : Type) where
  world : World
  /-- The hooks of an endpoint, in the order in which they were mounted. -/
  hooks : EndpointId → List Hook
  /-- What each `HydeSigner` was built from. -/
  parts : K → hyde.Context × hyde.WrappedSigningKey
  /-- The `HydeSigner` that an endpoint signs with in a mode; it may have a signer of another kind. -/
  signerOf : EndpointId → Mode → Option K
  keys : ∀ (s : End) (k : K), signerOf s.owner s.1.mode = some k →
    world.signingKey s = some (hyde.verifyingKey (parts k).2)
  /-- How the errors of that crate are displayed. -/
  postcard : PostcardError → String

/-- The state of a deployment. -/
structure Deployed (hyde : Hyde) (K : Type) where
  net : Net
  signers : K → HydeSigner hyde
  /-- The thread on which the session at an end is signing. -/
  thread : End → Option Nat
  /-- The waiter of a dial at the hook of each mode. -/
  asked : Conn → Mode → Option Nat

/-- What the hook of `mode` says to the dial of `c`. -/
def Deployed.beforeConnect {hyde : Hyde} {K : Type} (postcard : PostcardError → String) (st : Deployed hyde K)
    (mode : Mode) (c : Conn) (alpn : Bytes) : Option BeforeConnectOutcome :=
  IrohHydeAuth.beforeConnect mode.alpn alpn
    ((st.asked c mode).bind ((st.net.gate c.dialer mode).authenticate postcard))

/-- `before_connect` of a hook, for the dial of `c`. -/
def Hook.beforeConnect {hyde : Hyde} {K : Type} (postcard : PostcardError → String) (st : Deployed hyde K) (c : Conn)
    (alpn : Bytes) : Hook → Option BeforeConnectOutcome
  | .outgoing => st.beforeConnect postcard .oneWay c alpn
  | .incoming => some .accept
  | .mutual => st.beforeConnect postcard .twoWay c alpn

/-- `after_handshake` of a hook of `e`, for a connection from `remoteId`. -/
def Hook.afterHandshake (st : Net) (e : EndpointId) (alpn : Bytes) (remoteId : EndpointId) :
    Hook → AfterHandshakeOutcome
  | .outgoing => .accept
  | .incoming => IncomingAuthHook.afterHandshake (st.incoming e) alpn remoteId
  | .mutual => MutualAuthHook.afterHandshake (st.gate e .twoWay).task.allowed alpn remoteId

namespace Deployment

variable {hyde : Hyde} {K : Type}

/-- What can happen next. -/
inductive Act (K : Type) where
  /-- A step of the network in which no hook and no `HydeSigner` has a part, or that the hooks allow. -/
  | net (l : Label)
  /-- The hook of `mode` asks its task about the dial of `c`. -/
  | dial (c : Conn) (mode : Mode)
  /-- `sign_blocking` starts the thread of the session at `s`. -/
  | sign (s : End)
  /-- Thread `i` gets the lock of the signer. -/
  | lock (k : K) (i : Nat)
  /-- The thread that has the lock calls hyde and lets go of the lock. -/
  | unlock (k : K)
  /-- `sign_blocking` joins the thread of the session at `s`. -/
  | signed (s : End)

def init (d : Deployment hyde K) : Deployed hyde K where
  net := .init
  signers k := .fromParts (d.parts k).1 (d.parts k).2
  thread _ := none
  asked _ _ := none

/-- Whether the hooks allow a step of the network; what a `HydeSigner` answers is not up to the network. -/
def admits (d : Deployment hyde K) (st : Deployed hyde K) : Label → Bool
  | .gate e mode (.call _) => decide (mode.hook ∈ d.hooks e)
  | .accept c =>
    (d.hooks c.target.id).all fun hook =>
      decide (hook.afterHandshake st.net c.target.id c.mode.alpn c.dialer = .accept)
  | .answer s ⟨.connect _ alpn, .ok _⟩ _ =>
    (d.hooks s.owner).all fun hook => decide (hook.beforeConnect d.postcard st s.1 alpn = some .accept)
  | .answer s ⟨.sign _, _⟩ _ => (d.signerOf s.owner s.1.mode).isNone
  | _ => true

variable [DecidableEq K]

def setSigner (st : Deployed hyde K) (k : K) (signer : HydeSigner hyde) : Deployed hyde K :=
  { st with signers := Function.update st.signers k signer }

/-- One step, where it is possible. -/
def step (d : Deployment hyde K) (st : Deployed hyde K) : Act K → Option (Deployed hyde K)
  | .net l => if d.admits st l then (st.net.step d.world l).map fun net => { st with net } else none
  | .dial c mode =>
    match st.net.proc (c, .dialer) with
    | some (.ask (.connect remoteAddr alpn) _) =>
      if mode.hook ∈ d.hooks c.dialer ∧ alpn ≠ mode.alpn ∧ st.asked c mode = none then
        (st.net.step d.world (.gate c.dialer mode (.call remoteAddr))).map fun net =>
          let w := (st.net.gate c.dialer mode).requests.length
          { st with net, asked := Function.update st.asked c (Function.update (st.asked c) mode (some w)) }
      else none
    | _ => none
  | .sign s =>
    match st.net.proc s, d.signerOf s.owner s.1.mode with
    | some (.ask (.sign message) _), some k =>
      if st.thread s = none then
        ((st.signers k).step (.call message)).map fun signer =>
          { setSigner st k signer with
            thread := Function.update st.thread s (some (st.signers k).inner.calls.length) }
      else none
    | _, _ => none
  | .lock k i => ((st.signers k).step (.lock i)).map (setSigner st k)
  | .unlock k => ((st.signers k).step .unlock).map (setSigner st k)
  | .signed s =>
    match st.net.proc s, d.signerOf s.owner s.1.mode, st.thread s with
    | some (.ask (.sign message) _), some k, some i =>
      match (st.signers k).inner.results.lookup i with
      | some out =>
        (st.net.step d.world (.answer s ⟨.sign message, HydeSigner.signBlocking out⟩ 0)).map fun net =>
          { st with net, thread := Function.update st.thread s none }
      | none => none
    | _, _, _ => none

/-- A whole run. -/
def run (d : Deployment hyde K) (st : Deployed hyde K) : List (Act K) → Option (Deployed hyde K)
  | [] => some st
  | act :: acts => do run d (← d.step st act) acts

/-! ### What one step does -/

/-- The steps, one rule for each thing that happens. -/
inductive Steps (d : Deployment hyde K) (st : Deployed hyde K) : Deployed hyde K → Prop
  | net {l : Label} {net : Net} (hadmits : d.admits st l = true) (hnet : st.net.step d.world l = some net) :
      Steps d st { st with net }
  | dial {c : Conn} {mode : Mode} {remoteAddr : EndpointAddr} {alpn : Bytes}
      {cont : Resp (.connect remoteAddr alpn) → Session} {net : Net}
      (hproc : st.net.proc (c, .dialer) = some (ask (.connect remoteAddr alpn) cont))
      (hnet : st.net.step d.world (.gate c.dialer mode (.call remoteAddr)) = some net) :
      Steps d st { st with
        net
        asked := Function.update st.asked c
          (Function.update (st.asked c) mode (some (st.net.gate c.dialer mode).requests.length)) }
  | sign {s : End} {k : K} {message : Bytes} {cont : Resp (.sign message) → Session} {signer : HydeSigner hyde}
      (hproc : st.net.proc s = some (ask (.sign message) cont)) (hk : d.signerOf s.owner s.1.mode = some k)
      (hcall : (st.signers k).step (.call message) = some signer) :
      Steps d st { setSigner st k signer with
        thread := Function.update st.thread s (some (st.signers k).inner.calls.length) }
  | turn {k : K} {act : Mutex.Act Bytes} {signer : HydeSigner hyde} (hcall : ∀ message, act ≠ .call message)
      (hturn : (st.signers k).step act = some signer) : Steps d st (setSigner st k signer)
  | signed {s : End} {k : K} {i : Nat} {message : Bytes} {cont : Resp (.sign message) → Session}
      {out : Outcome (Except String Bytes)} {net : Net}
      (hproc : st.net.proc s = some (ask (.sign message) cont)) (hk : d.signerOf s.owner s.1.mode = some k)
      (hthread : st.thread s = some i) (hout : (i, out) ∈ (st.signers k).inner.results)
      (hnet : st.net.step d.world (.answer s ⟨.sign message, HydeSigner.signBlocking out⟩ 0) = some net) :
      Steps d st { st with net, thread := Function.update st.thread s none }

variable {d : Deployment hyde K} {st st' : Deployed hyde K}

theorem steps_of_step {act : Act K} (h : d.step st act = some st') : Steps d st st' := by
  cases act with
  | net l =>
    simp only [step] at h
    split at h
    · obtain ⟨net, hnet, rfl⟩ := Option.map_eq_some_iff.1 h
      exact .net ‹_› hnet
    · cases h
  | dial c mode =>
    simp only [step] at h
    split at h
    · split at h
      · obtain ⟨net, hnet, rfl⟩ := Option.map_eq_some_iff.1 h
        exact .dial ‹_› hnet
      · cases h
    · cases h
  | sign s =>
    simp only [step] at h
    split at h
    · split at h
      · obtain ⟨signer, hcall, rfl⟩ := Option.map_eq_some_iff.1 h
        exact .sign ‹_› ‹_› hcall
      · cases h
    · cases h
  | lock k i =>
    obtain ⟨signer, hturn, rfl⟩ := Option.map_eq_some_iff.1 h
    exact .turn (by simp) hturn
  | unlock k =>
    obtain ⟨signer, hturn, rfl⟩ := Option.map_eq_some_iff.1 h
    exact .turn (by simp) hturn
  | signed s =>
    simp only [step] at h
    split at h
    · split at h
      · rename_i hlookup
        obtain ⟨net, hnet, rfl⟩ := Option.map_eq_some_iff.1 h
        obtain ⟨l₁, l₂, hresults, -⟩ := List.lookup_eq_some_iff.1 hlookup
        exact .signed ‹_› ‹_› ‹_› (by simp [hresults]) hnet
      · cases h
    · cases h

/-- Whatever holds at first and survives every step holds at the end of every run. -/
theorem run_induction {P : Deployed hyde K → Prop} (hstep : ∀ st st', P st → Steps d st st' → P st')
    {acts : List (Act K)} (h₀ : P st) (h : d.run st acts = some st') : P st' := by
  induction acts generalizing st with
  | nil => exact Option.some.inj h ▸ h₀
  | cons act acts ih =>
    obtain ⟨st₁, h₁, h₂⟩ := Option.bind_eq_some_iff.1 h
    exact ih (hstep st st₁ h₀ (steps_of_step h₁)) h₂

/-! ### Its network -/

/-- A step of a deployment leaves the network alone, or is one of its network that the hooks allow, a call of a hook or
the answer of a signer. -/
theorem Steps.net_cases (h : Steps d st st') :
    st'.net = st.net ∨ ∃ l, st.net.step d.world l = some st'.net ∧
      (d.admits st l = true ∨ (∃ e mode addr, l = .gate e mode (.call addr)) ∨
        ∃ s message out, l = .answer s ⟨.sign message, out⟩ 0) := by
  cases h with
  | net hadmits hnet => exact .inr ⟨_, hnet, .inl hadmits⟩
  | dial hproc hnet => exact .inr ⟨_, hnet, .inr (.inl ⟨_, _, _, rfl⟩)⟩
  | sign hproc hk hcall => exact .inl rfl
  | turn hcall hturn => exact .inl rfl
  | signed hproc hk hthread hout hnet => exact .inr ⟨_, hnet, .inr (.inr ⟨_, _, _, rfl⟩)⟩

/-- What a deployment does its network does. -/
theorem run_net {acts : List (Act K)} (h : d.run st acts = some st') :
    ∃ labels, st.net.run d.world labels = some st'.net := by
  refine run_induction (P := fun st' => ∃ labels, st.net.run d.world labels = some st'.net) ?_ ⟨[], rfl⟩ h
  rintro st₁ st₂ ⟨labels, hrun⟩ hstep
  rcases hstep.net_cases with heq | ⟨l, hl, -⟩
  · exact ⟨labels, heq ▸ hrun⟩
  · exact ⟨labels ++ [l], Net.run_snoc hrun hl⟩

theorem sound_of_run {acts : List (Act K)} (h : d.run d.init acts = some st) : Net.Sound d.world st.net := by
  obtain ⟨labels, hrun⟩ := run_net h
  exact Net.sound_of_run hrun

end Deployment

end IrohHydeAuth
