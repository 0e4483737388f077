import CertKeeper.Failure

/-!
# Authorities

Who issues certificates and judges them. An authority may read the clock, draw keys and serial
numbers, and consult a signer outside the library; it has no access to the store.
-/

namespace CertKeeper

open Crypto X509

/-- What a certificate is issued for. -/
structure IssueOptions where
  /-- The moment at which the certificate is to expire. -/
  notAfter : Moment
  /-- The DNS name that the certificate is to bear. -/
  dnsName : String

/-- The kinds of rejections. -/
inductive RejectionKind where
  | expired
  | chainMismatch
  | other
  deriving DecidableEq, Repr

/-- The word for a kind. -/
def RejectionKind.text : RejectionKind → String
  | .expired => "expired"
  | .chainMismatch => "chain-mismatch"
  | .other => "other"

/-- The kind that a word stands for. -/
def RejectionKind.ofText? : String → Option RejectionKind
  | "expired" => some .expired
  | "chain-mismatch" => some .chainMismatch
  | "other" => some .other
  | _ => none

/-- Why a certificate is rejected. -/
inductive Rejection where
  /-- The certificate is not signed by the authority. -/
  | chain (defect : ChainDefect)
  /-- The certificate has expired at the given moment. -/
  | expired (moment : Moment)
  /-- The certificate becomes valid at the given moment. -/
  | notYetValid (moment : Moment)
  /-- The DNS names of the certificate cannot be read. -/
  | unreadableNames (defect : ExtensionDefect)
  /-- The certificate is for other DNS names. -/
  | otherName (dnsName : String)
  /-- A signer outside the library rejects the certificate. -/
  | external (kind : RejectionKind) (report : String)

namespace Rejection

/-- The kind of a rejection. -/
def kind : Rejection → RejectionKind
  | chain _ => .chainMismatch
  | expired _ => .expired
  | notYetValid _ | unreadableNames _ | otherName _ => .other
  | external kind _ => kind

/-- The report of a rejection. -/
def message : Rejection → String
  | chain defect => "certificate is not signed by this authority: " ++ defect.message
  | expired moment => "certificate expired at " ++ moment.text
  | notYetValid moment => "certificate is not yet valid (valid from " ++ moment.text ++ ")"
  | unreadableNames defect => "cannot read subject alternative names: " ++ defect.message
  | otherName dnsName => "certificate is not issued for " ++ Text.quote dnsName
  | external _ report => report

end Rejection

/-- What an authority says about a certificate. -/
inductive Verdict where
  | accepted
  | rejected (rejection : Rejection)

namespace Signing

/-- What an authority may ask of its surroundings. -/
inductive Request where
  /-- The current time. -/
  | clock
  /-- A new RSA key with a public exponent and a number of bits; `Signing.noKey` where none can be
  made. -/
  | drawKey (exponent : Nat) (bits : Int)
  /-- A new serial number. -/
  | drawSerial
  /-- A certificate and its key from a signer outside the library. -/
  | consultIssue (options : IssueOptions) (now : Option Moment)
  /-- The judgement of a signer outside the library. -/
  | consultValidate (c : Certificate) (dnsName : Option String) (now : Option Moment)

/-- What the surroundings answer. -/
def Request.Result : Request → Type
  | .clock => Moment
  | .drawKey _ _ => Rsa.PrivateKey
  | .drawSerial => Int
  | .consultIssue _ _ => Except Failure (Bytes × Bytes)
  | .consultValidate _ _ _ => Except Failure Verdict

end Signing

/-- The requests of an authority and their answers. -/
def Signing : Interface where
  Question := Signing.Request
  Answer q := q.Result

namespace Signing

/-- The answer where no key can be made. No key has its modulus. -/
def noKey : Rsa.PrivateKey := ⟨0, 0, 0, 0, 0, 0, 0, 0⟩

/-- The current time. -/
def clock : Action Signing Moment :=
  ExceptT.lift (Program.question (I := Signing) .clock)

/-- A given time, or the current one. -/
def momentOr (now : Option Moment) : Action Signing Moment :=
  match now with
  | some m => return m
  | none => clock

/-- A new RSA key, or the failure that there is none of that number of bits. -/
def drawKey (exponent : Nat) (bits : Int) : Action Signing Rsa.PrivateKey := do
  let key ← ExceptT.lift (Program.question (I := Signing) (.drawKey exponent bits))
  if key.modulus = noKey.modulus then throw (.issue (.noKey bits))
  return key

/-- A new serial number. -/
def drawSerial : Action Signing Int := ExceptT.lift (Program.question (I := Signing) .drawSerial)

end Signing

/-- Someone who issues and judges certificates. -/
structure Authority where
  /-- A certificate and its private key, as texts. -/
  issue : IssueOptions → Option Moment → Action Signing (Bytes × Bytes)
  /-- The judgement of a certificate, for a DNS name if one is given. -/
  validate : Certificate → Option String → Option Moment → Action Signing Verdict

/-- The authority that leaves everything to a signer outside the library. -/
def Authority.outside : Authority where
  issue options now := Program.question (I := Signing) (.consultIssue options now)
  validate c dnsName now := Program.question (I := Signing) (.consultValidate c dnsName now)

end CertKeeper
