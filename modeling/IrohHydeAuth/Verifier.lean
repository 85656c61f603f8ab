import IrohHydeAuth.Error
import Mathlib.Data.List.AList

/-!
# Rosters and verifiers

`verifier.rs`, and the verifier of the second backend in `ssh_agent.rs`.  The signature checks themselves belong to
other crates and are the parameter `Crypto`.  Both verifiers look the key up in the roster first, so an accepted
assertion always names a trusted key (`InstitutionVerifier.mem_roster_of_verify`).
-/

namespace IrohHydeAuth

open Process

/-- An institution's roster label. -/
abbrev InstitutionId := String

/-- The ML-DSA parameter set. -/
inductive SigningAlgorithm where
  | mlDsa44
  | mlDsa65
  | mlDsa87
  deriving DecidableEq, Repr

/-- The signature checks of the `hyde` and `ed25519_dalek` crates. -/
structure Crypto where
  /-- `hyde::verify_signature`. -/
  verifySignature : SigningAlgorithm → Bytes → Bytes → Bytes → Except String Bool
  /-- `VerifyingKey::from_bytes`; a decoded key is kept as its bytes. -/
  fromBytes : ByteArr 32 → Except String (ByteArr 32)
  /-- `VerifyingKey::verify_strict`. -/
  verifyStrict : ByteArr 32 → Bytes → ByteArr 64 → Bool

/-- The keys an acceptor trusts, each with its label. -/
structure Roster where
  keys : AList fun _ : Bytes => String

namespace Roster

def new : Roster := ⟨∅⟩

def insert (self : Roster) (verifyingKey : Bytes) (label : String) : Roster :=
  ⟨self.keys.insert verifyingKey label⟩

def contains (self : Roster) (verifyingKey : Bytes) : Bool := decide (verifyingKey ∈ self.keys)

def label (self : Roster) (verifyingKey : Bytes) : Option String := self.keys.lookup verifyingKey

end Roster

structure HydeVerifier where
  roster : Roster
  algorithm : SigningAlgorithm

namespace HydeVerifier

def new (roster : Roster) : HydeVerifier := ⟨roster, .mlDsa65⟩

def withAlgorithm (self : HydeVerifier) (algorithm : SigningAlgorithm) : HydeVerifier :=
  { self with algorithm }

def verify (c : Crypto) (self : HydeVerifier) (verifyingKey message signature : Bytes) :
    Except VerifyError InstitutionId :=
  if !self.roster.contains verifyingKey then .error .untrustedKey
  else match c.verifySignature self.algorithm verifyingKey message signature with
    | .error e => .error (.crypto e)
    | .ok false => .error .badSignature
    | .ok true => .ok ((self.roster.label verifyingKey).getD "")

end HydeVerifier

structure SshVerifier where
  roster : Roster

def SshVerifier.verify (c : Crypto) (self : SshVerifier) (verifyingKey message signature : Bytes) :
    Except VerifyError InstitutionId :=
  if !self.roster.contains verifyingKey then .error .untrustedKey
  else if hk : verifyingKey.length = 32 then
    match c.fromBytes ⟨verifyingKey, hk⟩ with
    | .error e => .error (.crypto e)
    | .ok vk =>
      if hs : signature.length = 64 then
        if c.verifyStrict vk message ⟨signature, hs⟩ then .ok ((self.roster.label verifyingKey).getD "")
        else .error .badSignature
      else .error .badSignature
  else .error (.crypto "ed25519 key must be 32 bytes")

/-- The implementations of the trait `InstitutionVerifier`. -/
inductive InstitutionVerifier where
  | hyde (v : HydeVerifier)
  | ssh (v : SshVerifier)

namespace InstitutionVerifier

def roster : InstitutionVerifier → Roster
  | .hyde v => v.roster
  | .ssh v => v.roster

def verify (c : Crypto) : InstitutionVerifier → Bytes → Bytes → Bytes → Except VerifyError InstitutionId
  | .hyde v => v.verify c
  | .ssh v => v.verify c

/-- The signature check behind a verifier, without the roster. -/
def checks (c : Crypto) : InstitutionVerifier → Bytes → Bytes → Bytes → Bool
  | .hyde v, key, msg, sig =>
    match c.verifySignature v.algorithm key msg sig with
    | .ok b => b
    | .error _ => false
  | .ssh _, key, msg, sig =>
    if hk : key.length = 32 then
      match c.fromBytes ⟨key, hk⟩ with
      | .ok vk => if hs : sig.length = 64 then c.verifyStrict vk msg ⟨sig, hs⟩ else false
      | .error _ => false
    else false

/-- A verifier accepts exactly the assertions of trusted keys whose signature checks. -/
theorem verify_isOk (c : Crypto) (v : InstitutionVerifier) (key msg sig : Bytes) :
    (∃ label, v.verify c key msg sig = .ok label) ↔
      v.roster.contains key = true ∧ v.checks c key msg sig = true := by
  cases v with
  | hyde v =>
    simp only [verify, HydeVerifier.verify, roster, checks]
    cases v.roster.contains key with
    | false => simp
    | true =>
      cases c.verifySignature v.algorithm key msg sig with
      | error e => simp
      | ok b => cases b <;> simp
  | ssh v =>
    simp only [verify, SshVerifier.verify, roster, checks]
    cases v.roster.contains key with
    | false => simp
    | true =>
      by_cases hk : key.length = 32
      · simp only [hk, ↓reduceDIte]
        cases c.fromBytes ⟨key, hk⟩ with
        | error e => simp
        | ok vk =>
          by_cases hs : sig.length = 64
          · simp only [hs, ↓reduceDIte]
            cases c.verifyStrict vk msg ⟨sig, hs⟩ <;> simp
          · simp [hs]
      · simp [hk]

theorem mem_roster_of_verify {c : Crypto} {v : InstitutionVerifier} {key msg sig : Bytes}
    {label : InstitutionId} (h : v.verify c key msg sig = .ok label) : v.roster.contains key = true :=
  ((verify_isOk c v key msg sig).1 ⟨label, h⟩).1

end InstitutionVerifier

end IrohHydeAuth
