import IrohHydeAuth.Basis.Prog
import IrohHydeAuth.Error

/-!
# The ssh-agent backend

`ssh_agent.rs`: a signer that asks a running `ssh-agent` over a Unix socket, and the reader it parses the replies
with.  The socket is the surroundings of a program; the reader is a state that every operation moves, also when it
fails.  An access out of range would be a panic of the source, and the functions below say so (`Fault.panic`) instead
of assuming that it cannot happen.
-/

namespace IrohHydeAuth

open Process

namespace SshAgent

def REQUEST_IDENTITIES : UInt8 := 11

def IDENTITIES_ANSWER : UInt8 := 12

def SIGN_REQUEST : UInt8 := 13

def SIGN_RESPONSE : UInt8 := 14

def ED25519_KEY_TYPE : Bytes := ascii "ssh-ed25519"

def MAX_AGENT_MSG : Nat := 1 <<< 20

/-- What ends a function early: an error it returns, or an access out of range. -/
inductive Fault where
  | error (e : Error)
  | panic
  deriving DecidableEq, Repr

/-- `Err(Error::Signer(..))`. -/
def signerError (text : String) : Fault := .error (.signer text)

/-! ### The reader -/

structure Reader where
  buf : Bytes
  pos : Nat
  deriving DecidableEq, Repr

/-- A function that takes `&mut Reader`: where the reader stands is kept when it fails. -/
abbrev Read := EStateM Fault Reader

/-- `&buf[start..stop]`. -/
def slice (buf : Bytes) (start stop : Nat) : Except Fault Bytes :=
  if start ≤ stop ∧ stop ≤ buf.length then .ok ((buf.drop start).take (stop - start)) else .error .panic

/-- `buf[i]`. -/
def index (buf : Bytes) (i : Nat) : Except Fault UInt8 :=
  match buf[i]? with
  | some x => .ok x
  | none => .error .panic

/-- `usize::checked_add`. -/
def checkedAdd (a b : Nat) : Option Nat := if a + b < 2 ^ 64 then some (a + b) else none

namespace Reader

def new (buf : Bytes) : Reader := ⟨buf, 0⟩

def take (n : Nat) : Read Bytes := do
  let self ← get
  match (checkedAdd self.pos n).filter (· ≤ self.buf.length) with
  | none => throw (signerError "ssh-agent: truncated message")
  | some stop =>
    let s ← ofExcept (slice self.buf self.pos stop)
    set { self with pos := stop }
    return s

def u8 : Read UInt8 := do
  let b ← take 1
  ofExcept (index b 0)

def u32 : Read Nat := do
  let b ← take 4
  let b0 ← ofExcept (index b 0)
  let b1 ← ofExcept (index b 1)
  let b2 ← ofExcept (index b 2)
  let b3 ← ofExcept (index b 3)
  return beNat [b0, b1, b2, b3]

def string : Read Bytes := do
  let len ← u32
  take len

end Reader

/-- What a function returns when it is given a new reader of `buf`. -/
def Read.on {α : Type} (m : Read α) (buf : Bytes) : Except Fault α :=
  match m.run (Reader.new buf) with
  | .ok a _ => .ok a
  | .error e _ => .error e

/-- `Result::ok`, which does not catch a panic. -/
def ok? {α : Type} : Except Fault α → Except Fault (Option α)
  | .ok a => .ok (some a)
  | .error (.error _) => .ok none
  | .error .panic => .error .panic

/-- The body of `parse_ed25519_public_key`. -/
def ed25519PublicKey : Read (Option (ByteArr 32)) := do
  let keyType ← Reader.string
  if keyType ≠ ED25519_KEY_TYPE then return none
  else
    let pk ← Reader.string
    return if h : pk.length = 32 then some ⟨pk, h⟩ else none

/-- `parse_ed25519_public_key`, which makes `None` of an error. -/
def parseEd25519PublicKey (keyBlob : Bytes) : Except Fault (Option (ByteArr 32)) :=
  (ok? (ed25519PublicKey.on keyBlob)).map Option.join

/-- `put_string`; the length is cast to `u32`. -/
def putString (buf s : Bytes) : Bytes := buf ++ beBytes 4 (s.length % 2 ^ 32) ++ s

/-! ### The socket -/

/-- What the backend asks of a Unix socket. -/
inductive AgentOp where
  /-- `UnixStream::connect`. -/
  | connect (sock : String)
  | writeAll (bytes : Bytes)
  | readExact (n : Nat)
  deriving DecidableEq

/-- The answers; an I/O error is its displayed text. -/
@[reducible] def AgentResp : AgentOp → Type
  | .connect _ | .writeAll _ => Except String Unit
  | .readExact n => Except String (ByteArr n)

/-- A function that talks to the agent. -/
abbrev Blocking := ExceptT Fault (Prog AgentResp)

def ask (op : AgentOp) : Prog AgentResp (AgentResp op) := Prog.call op

/-- `.map_err(|e| Error::Signer(format!("{text}: {e}")))?`. -/
def mapErr {α : Type} (text : String) (p : Prog AgentResp (Except String α)) : Blocking α :=
  ExceptT.mk do
    match ← p with
    | .ok a => return .ok a
    | .error e => return .error (signerError (text ++ ": " ++ e))

def connect (sock : String) : Blocking Unit := mapErr "ssh-agent connect" (ask (.connect sock))

def send (payload : Bytes) : Blocking Unit := do
  if payload.length < 2 ^ 32 then
    mapErr "ssh-agent write" (ask (.writeAll (beBytes 4 payload.length)))
    mapErr "ssh-agent write" (ask (.writeAll payload))
  else throw (signerError "agent msg too large")

def recv : Blocking Bytes := do
  let len ← mapErr "ssh-agent read" (ask (.readExact 4))
  let n := beNat len.val
  if n = 0 ∨ n > MAX_AGENT_MSG then throw (signerError "ssh-agent: bad message length")
  else
    let buf ← mapErr "ssh-agent read" (ask (.readExact n))
    return buf.val

end SshAgent

open SshAgent

/-! ### The signer -/

structure SshAgentSigner where
  sock : String
  /-- The full key blob. -/
  keyBlob : Bytes
  /-- The raw public key, which is the institutional verifying key. -/
  publicKey : ByteArr 32
  deriving DecidableEq, Repr

namespace SshAgentSigner

/-- The loop of `connect` over the identities, of which `count` are left. -/
def scan (wantPublicKey : Option (ByteArr 32)) : Nat → Read (Bytes × ByteArr 32)
  | 0 => throw (signerError "ssh-agent: no matching ed25519 identity loaded")
  | count + 1 => do
    let keyBlob ← Reader.string
    let _comment ← Reader.string
    match ← ofExcept (parseEd25519PublicKey keyBlob) with
    | some pk =>
      if (wantPublicKey.map fun w => decide (w = pk)).getD true then return (keyBlob, pk)
      else scan wantPublicKey count
    | none => scan wantPublicKey count

/-- What `connect` makes of the identities reply. -/
def select (wantPublicKey : Option (ByteArr 32)) : Read (Bytes × ByteArr 32) := do
  if (← Reader.u8) ≠ IDENTITIES_ANSWER then throw (signerError "ssh-agent: unexpected identities reply")
  else
    let count ← Reader.u32
    scan wantPublicKey count

def connect (sock : String) (wantPublicKey : Option (ByteArr 32)) : Blocking SshAgentSigner := do
  SshAgent.connect sock
  send [REQUEST_IDENTITIES]
  let resp ← recv
  let (keyBlob, pk) ← (ofExcept ((select wantPublicKey).on resp) : Blocking _)
  return ⟨sock, keyBlob, pk⟩

/-- `from_env`, given the value of `SSH_AUTH_SOCK`. -/
def fromEnv (sshAuthSock : Option String) : Blocking SshAgentSigner :=
  match sshAuthSock with
  | none => throw (signerError "SSH_AUTH_SOCK is not set")
  | some sock => connect sock none

def verifyingKey (self : SshAgentSigner) : Bytes := self.publicKey.val

/-- The request that `sign` sends. -/
def signRequest (self : SshAgentSigner) (message : Bytes) : Bytes :=
  -- flags: 0 for ed25519
  putString (putString [SIGN_REQUEST] self.keyBlob) message ++ beBytes 4 0

/-- `string "ssh-ed25519" || string raw_sig`. -/
def rawSignature : Read Bytes := do
  if (← Reader.string) ≠ ED25519_KEY_TYPE then throw (signerError "ssh-agent: non-ed25519 signature")
  else Reader.string

/-- What `sign` makes of the reply. -/
def signature : Read Bytes := do
  if (← Reader.u8) ≠ SIGN_RESPONSE then throw (signerError "ssh-agent: signing was refused")
  else
    let sigBlob ← Reader.string
    ofExcept (rawSignature.on sigBlob)

def sign (self : SshAgentSigner) (message : Bytes) : Blocking Bytes := do
  SshAgent.connect self.sock
  send (self.signRequest message)
  let resp ← recv
  ofExcept (signature.on resp)

end SshAgentSigner

end IrohHydeAuth
