import IrohHydeAuth.Basis.Prog
import IrohHydeAuth.Wire
import IrohHydeAuth.Verifier
import Mathlib.Data.Finset.Basic

/-!
# The handshakes

The four parties of the two protocols as programs: `AuthProtocol::accept` (`incoming.rs`) against
`outgoing::handshake`, and `MutualAuthProtocol::accept` against `mutual::handshake`.  Every point at which the source
awaits, reads the clock or the random generator, or touches state that others share is one operation.
-/

namespace IrohHydeAuth

open Process

/-- A transport address at which an endpoint may be reached. -/
inductive TransportAddr where
  | relay (url : String)
  | ip (octets : Bytes) (port : UInt16)
  deriving DecidableEq, Repr

/-- An endpoint's id with the direct addresses to try. -/
structure EndpointAddr where
  id : EndpointId
  addrs : Finset TransportAddr
  deriving DecidableEq

/-- What a session asks of its surroundings. -/
inductive Op where
  /-- `endpoint.connect(remote_addr, alpn)`. -/
  | connect (remoteAddr : EndpointAddr) (alpn : Bytes)
  | openBi
  | acceptBi
  /-- `recv.read_exact` of `n` bytes. -/
  | readExact (n : Nat)
  /-- `send.write_all`. -/
  | writeAll (bytes : Bytes)
  /-- `send.finish`. -/
  | finish
  /-- `rand::random`. -/
  | random
  /-- `unix_secs`. -/
  | unixSecs
  /-- `sign_blocking`. -/
  | sign (message : Bytes)
  /-- `verifier.verify`. -/
  | verify (verifyingKey message signature : Bytes)
  /-- `shared.local_id.get`. -/
  | localId
  /-- `insert` into the set of authenticated remotes, under its lock. -/
  | insert (id : EndpointId)
  /-- `conn.close`. -/
  | close (code : UInt32) (reason : Bytes)
  /-- `conn.closed`. -/
  | closed
  deriving DecidableEq

/-- The answers to an operation; a transport error is its displayed text. -/
@[reducible] def Resp : Op → Type
  | .connect _ _ | .openBi | .acceptBi | .writeAll _ | .finish => Except String Unit
  | .readExact n => Except String (ByteArr n)
  | .random => Nonce
  | .unixSecs => UInt64
  | .sign _ => Except Error Bytes
  | .verify _ _ _ => Except VerifyError InstitutionId
  | .localId => Option EndpointId
  | .insert _ | .close _ _ => Unit
  | .closed => ConnectionError

/-- A fallible asynchronous function of the crate. -/
abbrev Async := ExceptT Error (Prog Resp)

/-- A session: what runs on one end of an auth connection. -/
abbrev Session := Prog Resp (Except Error Unit)

abbrev call (op : Op) : Prog Resp (Resp op) := Prog.call op

/-- `.await.map_err(transport)?`. -/
def transport {α : Type} (p : Prog Resp (Except String α)) : Async α :=
  ExceptT.mk do
    match ← p with
    | .ok a => return .ok a
    | .error e => return .error (.transport e)

def signBlocking (message : Bytes) : Async Bytes := ExceptT.mk (call (.sign message))

/-- `u64::abs_diff`. -/
def absDiff (a b : UInt64) : UInt64 := if a < b then b - a else a - b

/-! ### Reading and writing messages -/

section Messages

variable {α : Type} [Postcard α]

def writeMsg (msg : α) : Async Unit := do
  let bytes := Postcard.encode msg
  if bytes.length < 2 ^ 32 then
    transport (call (.writeAll (beBytes 4 bytes.length)))
    transport (call (.writeAll bytes))
  else throw (.messageTooLarge bytes.length)

def readMsg (max : Nat) : Async α := do
  let lenBuf ← transport (call (.readExact 4))
  let len := beNat lenBuf.val
  if len > max then throw (.messageTooLarge len)
  else
    let buf ← transport (call (.readExact len))
    match Postcard.fromBytes buf.val with
    | .ok msg => return msg
    | .error e => throw (.codec e)

end Messages

/-- The freshness test: the clock against an asserted time. -/
def checkSkew (maxSkewSecs : Option UInt64) (now asserted : UInt64) : Bool :=
  match maxSkewSecs with
  | some max => decide (absDiff now asserted ≤ max)
  | none => true

/-- Two readings of a clock differ by no more than the tolerance, if there is one. -/
def Within (maxSkewSecs : Option UInt64) (t t' : UInt64) : Prop :=
  ∀ max, maxSkewSecs = some max → t.toNat ≤ t'.toNat + max.toNat ∧ t'.toNat ≤ t.toNat + max.toNat

theorem checkSkew_iff {maxSkewSecs : Option UInt64} {now asserted : UInt64} :
    checkSkew maxSkewSecs now asserted = true ↔ Within maxSkewSecs now asserted := by
  cases maxSkewSecs with
  | none => simp [checkSkew, Within]
  | some max =>
    simp only [checkSkew, Within, Option.some.injEq, forall_eq', decide_eq_true_eq, UInt64.le_iff_toNat_le, absDiff]
    split
    · rename_i hlt
      rw [UInt64.lt_iff_toNat_lt] at hlt
      rw [UInt64.toNat_sub_of_le _ _ (UInt64.le_iff_toNat_le.2 hlt.le)]
      omega
    · rename_i hlt
      rw [UInt64.lt_iff_toNat_lt, not_lt] at hlt
      rw [UInt64.toNat_sub_of_le _ _ (UInt64.le_iff_toNat_le.2 hlt)]
      omega

/-- The freshness test of the mutual handshake reads the clock itself, and only when there is a tolerance. -/
def checkSkewNow (maxSkewSecs : Option UInt64) (asserted : UInt64) : Prog Resp Bool :=
  match maxSkewSecs with
  | some max => do
    let now ← call .unixSecs
    return checkSkew (some max) now asserted
  | none => return true

/-- The verdict both initiators read off the reason for which the connection was closed; the code is narrowed to
`u32` before it is compared. -/
def verdict (reason : ConnectionError) : Except Error Unit :=
  match reason with
  | .applicationClosed errorCode _ =>
    let c := UInt32.ofNat errorCode.val
    if c = CLOSE_ACCEPTED then .ok ()
    else if c = CLOSE_DENIED then .error (.denied "rejected by remote acceptor")
    else .error (.transport reason.toString)
  | .other _ => .error (.transport reason.toString)

def DEFAULT_MAX_SKEW_SECS : UInt64 := 300

/-- A signer as a session sees it: its publishable key.  `Op.sign` is answered by the signer. -/
structure InstitutionalSigner where
  verifyingKey : Bytes
  deriving DecidableEq

/-! ### How the parties end

The source writes these lines out in each of the two modes. -/

/-- An acceptor records the remote that it has verified and then says so, or it denies. -/
def conclude {β : Type} (remote : β → EndpointId) : Except Error β → Session
  | .ok b => do
    call (.insert (remote b))
    call (.close CLOSE_ACCEPTED (ascii "accepted"))
    return .ok ()
  | .error _ => do
    call (.close CLOSE_DENIED (ascii "denied"))
    return .ok ()

/-- An initiator waits for the verdict. -/
def awaitVerdict : Async Unit := do
  let reason ← call .closed
  ExceptT.mk (pure (verdict reason))

section Settle

variable {α : Type} [Postcard α]

/-- It sends its last message first. -/
def settle (m : α) : Async Unit := do
  writeMsg m
  transport (call .finish)
  awaitVerdict

/-- And before that it reads the clock and signs. -/
def attest (message : UInt64 → Bytes) (assertion : Bytes → UInt64 → α) : Async Unit := do
  let now ← call .unixSecs
  let signature ← signBlocking (message now)
  settle (assertion signature now)

end Settle

/-! ### The one-directional handshake -/

/-- The acceptor's configuration; the verifier answers `Op.verify` and the shared set takes `Op.insert`. -/
structure AuthProtocol where
  maxSkewSecs : Option UInt64

namespace AuthProtocol

/-- The handler that `incoming` builds. -/
def incoming : AuthProtocol := ⟨some DEFAULT_MAX_SKEW_SECS⟩

def withMaxSkew (self : AuthProtocol) (secs : Option UInt64) : AuthProtocol := { self with maxSkewSecs := secs }

/-- `run_handshake` behind the challenge. -/
def judge (self : AuthProtocol) (remoteId : EndpointId) (nonce : Nonce) (serverNow : UInt64) :
    Async InstitutionId := do
  let auth : ClientAuth ← readMsg MAX_MSG
  if !checkSkew self.maxSkewSecs serverNow auth.clientUnixSecs then throw .clockSkew
  else
    -- bound to the authenticated remote id, never to anything the client claims
    let message := transcript nonce remoteId auth.clientUnixSecs
    match ← call (.verify auth.verifyingKey message auth.signature) with
    | .ok institution => return institution
    | .error e => throw (.denied e.toString)

def runHandshake (self : AuthProtocol) (remoteId : EndpointId) : Async InstitutionId := do
  transport (call .acceptBi)
  let hello : ClientHello ← readMsg MAX_MSG
  if hello.version ≠ PROTOCOL_VERSION then throw (.version hello.version)
  else
    let nonce ← call .random
    let serverNow ← call .unixSecs
    writeMsg (ServerChallenge.mk PROTOCOL_VERSION nonce serverNow)
    self.judge remoteId nonce serverNow

def accept (self : AuthProtocol) (remoteId : EndpointId) : Session := do
  conclude (fun _ => remoteId) (← (self.runHandshake remoteId).run)

end AuthProtocol

namespace Outgoing

/-- `outgoing::handshake` from its second step. -/
def respond (endpointId : EndpointId) (signer : InstitutionalSigner) : Async Unit := do
  let challenge : ServerChallenge ← readMsg MAX_MSG
  if challenge.version ≠ PROTOCOL_VERSION then throw (.version challenge.version)
  else attest (transcript challenge.nonce endpointId) (ClientAuth.mk signer.verifyingKey)

/-- `outgoing::handshake`, run by the endpoint `endpointId`. -/
def handshake (endpointId : EndpointId) (remoteAddr : EndpointAddr) (signer : InstitutionalSigner) : Async Unit := do
  transport (call (.connect remoteAddr ALPN))
  transport (call .openBi)
  writeMsg (ClientHello.mk PROTOCOL_VERSION)
  respond endpointId signer

end Outgoing

/-! ### The mutual handshake -/

structure MutualAuthProtocol where
  signer : InstitutionalSigner
  maxSkewSecs : Option UInt64

/-- What a `MutualAuthTask` passes on to the handshakes it spawns. -/
structure MutualAuthTask where
  signer : InstitutionalSigner
  maxSkewSecs : Option UInt64

/-- The task that `mutual` builds. -/
def MutualAuthTask.ofMutual (signer : InstitutionalSigner) : MutualAuthTask := ⟨signer, some DEFAULT_MAX_SKEW_SECS⟩

namespace MutualAuthProtocol

/-- The handler that `mutual` builds. -/
def ofMutual (signer : InstitutionalSigner) : MutualAuthProtocol := ⟨signer, some DEFAULT_MAX_SKEW_SECS⟩

def withMaxSkew (self : MutualAuthProtocol) (secs : Option UInt64) : MutualAuthProtocol :=
  { self with maxSkewSecs := secs }

/-- The acceptor behind its challenge: verify the initiator, bound to the acceptor's nonce and the authenticated
id. -/
def judge (self : MutualAuthProtocol) (remoteId : EndpointId) (nonceB : Nonce) : Async EndpointId := do
  let response : MutualResponse ← readMsg MAX_MSG
  if !(← checkSkewNow self.maxSkewSecs response.initiatorUnixSecs) then throw .clockSkew
  else
    let aTranscript := mutualTranscript ROLE_INITIATOR nonceB remoteId response.initiatorUnixSecs
    match ← call (.verify response.verifyingKey aTranscript response.signature) with
    | .ok _ => return remoteId
    | .error e => throw (.denied e.toString)

/-- The acceptor behind its signature. -/
def respond (self : MutualAuthProtocol) (remoteId : EndpointId) (challenge : MutualChallenge) : Async EndpointId := do
  writeMsg challenge
  self.judge remoteId challenge.nonce

/-- The acceptor behind the look at its own id: prove ourselves to the initiator, bound to its nonce. -/
def greet (self : MutualAuthProtocol) (remoteId localId : EndpointId) : Async EndpointId := do
  transport (call .acceptBi)
  let hello : MutualHello ← readMsg MAX_MSG
  if hello.version ≠ PROTOCOL_VERSION then throw (.version hello.version)
  else
    let nonceB ← call .random
    let timeB ← call .unixSecs
    let bTranscript := mutualTranscript ROLE_ACCEPTOR hello.nonce localId timeB
    let sigB ← signBlocking bTranscript
    self.respond remoteId ⟨PROTOCOL_VERSION, nonceB, self.signer.verifyingKey, sigB, timeB⟩

def handshake (self : MutualAuthProtocol) (remoteId : EndpointId) : Async EndpointId := do
  match ← call .localId with
  | none => throw (.signer "local endpoint id not set — spawn the MutualAuthTask")
  | some localId => self.greet remoteId localId

def accept (self : MutualAuthProtocol) (remoteId : EndpointId) : Session := do
  conclude id (← (self.handshake remoteId).run)

end MutualAuthProtocol

namespace Mutual

/-- `mutual::handshake` behind the challenge: verify the acceptor's assertion, then prove ourselves, bound to the
acceptor's nonce. -/
def judge (endpointId peerId : EndpointId) (signer : InstitutionalSigner) (maxSkewSecs : Option UInt64)
    (nonceA : Nonce) (challenge : MutualChallenge) : Async Unit := do
  if challenge.version ≠ PROTOCOL_VERSION then
    call (.close CLOSE_DENIED (ascii "version"))
    throw (.version challenge.version)
  else
    if !(← checkSkewNow maxSkewSecs challenge.acceptorUnixSecs) then
      call (.close CLOSE_DENIED (ascii "skew"))
      throw .clockSkew
    else
      let bTranscript := mutualTranscript ROLE_ACCEPTOR nonceA peerId challenge.acceptorUnixSecs
      match ← call (.verify challenge.verifyingKey bTranscript challenge.signature) with
      | .error e =>
        -- close without responding, so that the acceptor never records us
        call (.close CLOSE_DENIED (ascii "peer-untrusted"))
        throw (.denied ("acceptor failed verification: " ++ e.toString))
      | .ok _ =>
        attest (mutualTranscript ROLE_INITIATOR challenge.nonce endpointId) (MutualResponse.mk signer.verifyingKey)

/-- `mutual::handshake` from its second step. -/
def respond (endpointId peerId : EndpointId) (signer : InstitutionalSigner) (maxSkewSecs : Option UInt64)
    (nonceA : Nonce) : Async Unit := do
  let challenge : MutualChallenge ← readMsg MAX_MSG
  judge endpointId peerId signer maxSkewSecs nonceA challenge

/-- `mutual::handshake`, run by the endpoint `endpointId` on a connection whose authenticated remote is `peerId`. -/
def handshake (endpointId : EndpointId) (remoteAddr : EndpointAddr) (peerId : EndpointId)
    (signer : InstitutionalSigner) (maxSkewSecs : Option UInt64) : Async Unit := do
  transport (call (.connect remoteAddr MUTUAL_ALPN))
  transport (call .openBi)
  let nonceA ← call .random
  writeMsg (MutualHello.mk PROTOCOL_VERSION nonceA)
  respond endpointId peerId signer maxSkewSecs nonceA

end Mutual

end IrohHydeAuth
