import CertKeeper.Authority.SelfSigned
import CertKeeper.Store

/-!
# Finding the authority

The authority is read from its record whenever it is needed, so that an exchanged one is used from
the next pass on.
-/

namespace CertKeeper

/-- The authority in the fields of a record. -/
def SelfSigned.ofFields (id : Identity) (data : Fields) (leafBits : Int) :
    Except Failure SelfSigned :=
  match Fields.filled? data authorityCertificateField, Fields.filled? data authorityKeyField with
  | some certificate, some key =>
    match SelfSigned.ofTexts certificate key leafBits with
    | .ok a => .ok a
    | .error cause =>
      if isLoadFailure cause then .error (.authorityUnloadable id cause) else .error cause
  | _, _ => .error (.authorityIncomplete id)
where
  /-- Whether a failure to load an authority is reported as one. Versions, kinds of keys and curves
  that do not exist are not. -/
  isLoadFailure : Failure → Bool
    | .certificate (.version _) => false
    | .key defect => !defect.isUnknown
    | .distinguishedName (.unknownType _) => false
    | _ => true

/-- The authority in the record with an identity. -/
def resolveAuthority (id : Identity) (leafBits : Int) : Action Store SelfSigned := do
  match ← (Store.getRecord id).outcome with
  | .ok r => ExceptT.mk (pure (SelfSigned.ofFields id r.data leafBits))
  | .error cause =>
    if cause.isRecordNotFound then throw (.authorityMissing id)
    else throw (.authorityUnreadable id cause)

end CertKeeper
