import CertKeeper.Authority.Resolution
import CertKeeper.Decision
import CertKeeper.Restart
import CertKeeper.Settings.Basic
import CertKeeper.Writer

/-!
# Passes

One look at a record: the pair in it is kept, issued or replaced, and if the serving record was
changed the servers are restarted.
-/

namespace CertKeeper

/-- The surroundings of a pass: a store, and what authorities ask for. -/
def World : Interface := Store.sum Signing

/-- What passes keep valid and with whose help. -/
structure Reconciler where
  /-- Finds the authority; this happens once in every pass. -/
  resolve : Action Store Authority
  /-- The DNS name that certificates are issued for. -/
  dnsName : String
  /-- The record whose change restarts the servers. -/
  reserved : Identity
  /-- The executing instance. -/
  self : Identity
  /-- The lifetime of issued certificates. -/
  lifetime : Span

/-- What a pass did. -/
structure PassResult where
  id : Identity
  decision : Decision
  outcome : Outcome
  /-- The time after which the next pass is due. -/
  requeueAfter : Span
  restart : Option RestartReport

namespace Reconciler

/-- An action on the store within a pass. -/
def onStore {α : Type} (a : Action Store α) : Action World α := Action.left a

/-- An action of an authority within a pass. -/
def onSigning {α : Type} (a : Action Signing α) : Action World α := Action.right a

variable (r : Reconciler)

/-- The record that a pass looks at; it may not exist yet. -/
def fetch (id : Identity) : Action Store Record := do
  match ← (Store.getRecord id).outcome with
  | .ok record => return record
  | .error cause => if cause.isRecordNotFound then return .missing id else throw (.fetch id cause)

/-- The authority of a pass. -/
def authority : Action Store Authority :=
  r.resolve.mapFailure fun cause =>
    if cause.engineKind? = some .authority then cause else .authorityUnresolved cause

/-- Issues a pair and stores it. -/
def issue (id : Identity) (authority : Authority) (now : Moment) : Action World Outcome := do
  let notAfter ← Action.ofExcept .time (now.add? r.lifetime)
  let (certificate, key) ← onSigning
    ((authority.issue ⟨notAfter, r.dnsName⟩ (some now)).mapFailure (.issuance r.dnsName))
  onStore (Writer.write id certificate key)

/-- Carries out a decision about a record with the given fields. -/
def carryOut (id : Identity) (data : Fields) (authority : Authority) (now : Moment) :
    Decision → Action World Outcome
  | .invalidate _ _ => do
    let first ← onStore (Writer.clear id)
    let second ← r.issue id authority now
    return first.merge second
  | .issue _ _ => r.issue id authority now
  | .keep _ =>
    onStore (Writer.write id ((data.get? certificateField).getD [])
      ((data.get? keyField).getD []))

/-- One pass for a record. -/
def reconcile (id : Identity) (now : Option Moment) : Action World PassResult := do
  let now ← onSigning (Signing.momentOr now)
  let record ← onStore (fetch id)
  let authority ← onStore r.authority
  let evaluation ← onSigning (evaluate record authority (some r.dnsName) (some now))
  let decision ← Action.ofExcept .time (evaluation.decide r.lifetime now)
  let outcome ← r.carryOut id record.data authority now decision
  let restart ←
    if id = r.reserved ∧ outcome = .updated then some <$> onStore (Restart.restart r.self)
    else pure none
  return ⟨id, decision, outcome, decision.requeueAfter, restart⟩

/-- The reconciler that settings ask for; its authority is read from the authority's record. -/
def ofSettings (s : Settings) : Except TimeError Reconciler := do
  let lifetime ← s.lifetime?
  return {
    resolve := SelfSigned.toAuthority <$> resolveAuthority s.authorityId s.keyBits
    dnsName := s.dnsName
    reserved := s.servingId
    self := s.selfId
    lifetime := lifetime }

end Reconciler

end CertKeeper
