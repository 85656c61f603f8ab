import IrohHydeAuth.Basis.Postcard

/-!
# Errors

The errors of the handshake (`error.rs`) and the reasons a verifier gives for a rejection (`verifier.rs`), with the
texts they are displayed as, and the reasons for which a connection can be gone.  The texts of other crates are
parameters.
-/

namespace IrohHydeAuth

open Process

inductive Error where
  /-- An iroh connection or stream operation failed. -/
  | transport (e : String)
  /-- A wire message could not be decoded. -/
  | codec (e : PostcardError)
  /-- A length-prefixed message exceeded the allowed maximum. -/
  | messageTooLarge (bytes : Nat)
  /-- The peer spoke an unsupported protocol version. -/
  | version (v : UInt8)
  /-- The asserted timestamp drifted outside the allowed window. -/
  | clockSkew
  /-- The local institutional signer failed to produce a signature. -/
  | signer (e : String)
  /-- The remote failed verification. -/
  | denied (e : String)
  /-- The authenticator background task is no longer running. -/
  | authenticatorStopped
  deriving DecidableEq, Repr

/-- What an error is displayed as; `postcard` says how the errors of that crate are displayed. -/
def Error.toString (postcard : PostcardError → String) : Error → String
  | .transport e => "transport error: " ++ e
  | .codec e => "codec error: " ++ postcard e
  | .messageTooLarge n => "message too large: " ++ ToString.toString n ++ " bytes"
  | .version v => "unsupported protocol version: " ++ ToString.toString v.toNat
  | .clockSkew => "clock skew outside allowed window"
  | .signer e => "institutional signer failed: " ++ e
  | .denied e => "authentication denied: " ++ e
  | .authenticatorStopped => "authenticator task stopped"

inductive VerifyError where
  /-- The presented verifying key is not in the roster of trusted institutions. -/
  | untrustedKey
  /-- The signature did not verify against the presented key. -/
  | badSignature
  /-- The key is known but has been revoked. -/
  | revoked
  /-- The underlying crypto verifier errored. -/
  | crypto (e : String)
  deriving DecidableEq, Repr

def VerifyError.toString : VerifyError → String
  | .untrustedKey => "verifying key is not a trusted institution"
  | .badSignature => "signature verification failed"
  | .revoked => "institution has been revoked"
  | .crypto e => "crypto error: " ++ e

/-- An application close code: a QUIC variable-length integer. -/
abbrev VarInt := { n : Nat // n < 2 ^ 62 }

/-- Why a connection is gone, with the text that iroh displays for it.  Of an application close by the peer the code
is read, too; every other reason is only ever displayed. -/
inductive ConnectionError where
  | applicationClosed (errorCode : VarInt) (display : String)
  | other (display : String)
  deriving DecidableEq, Repr

def ConnectionError.toString : ConnectionError → String
  | .applicationClosed _ display => display
  | .other display => display

end IrohHydeAuth
