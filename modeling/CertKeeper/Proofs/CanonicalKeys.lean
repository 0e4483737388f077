import CertKeeper.Proofs.CanonicalElements
import CertKeeper.Proofs.KeyText

/-!
# Keys are written as they were read

Whatever form a private key was read from, the numbers of an RSA key come from octets that are the
one encoding of it, so that its text is read as the same key
(`PrivateKey.ofText_writeRsa_of_ofText`). That the reader has accepted the key is enough: nothing is
known of how its numbers were made.
-/

namespace CertKeeper.X509.PrivateKey

open Encoding Der Element Crypto

variable {b : Bytes} {k : Rsa.PrivateKey}

/-- The octets of an RSA key are those that it was read from. -/
private theorem encode_of_readRsa? (h : readRsa? b = some k) : (rsaElement k).encode = b := by
  obtain ⟨e, he, h⟩ := Option.bind_eq_some_iff.mp h
  obtain ⟨numbers, hnumbers, h⟩ := Option.bind_eq_some_iff.mp h
  obtain ⟨items, hitems, hread⟩ := Option.bind_eq_some_iff.mp hnumbers
  split at h
  · obtain ⟨_, h⟩ := Option.ite_none_right_eq_some.mp h
    cases h
    rw [rsaElement, map_of_mapM natural_of_natural? hread]
    exact (congrArg encode (group_of_items? hitems)).trans (encode_of_readOnly? he)
  · cases h

/-! ## Where RSA keys come from -/

/-- What was read is an RSA key only if some octets are read as that key. -/
def IsRead (r : Except KeyDefect PrivateKey) : Prop :=
  ∀ k, r = .ok (.rsa k) → ∃ b, readRsa? b = some k

namespace IsRead

/-- No RSA key comes from a defect. -/
theorem error (defect : KeyDefect) : IsRead (.error defect) := nofun

/-- An RSA key that a step gives was read if that step reads all its RSA keys. -/
theorem bind {α : Type} {x : Except KeyDefect α} {f : α → Except KeyDefect PrivateKey}
    (h : ∀ a, IsRead (f a)) : IsRead (x >>= f) := by
  cases x with
  | error defect => exact error defect
  | ok a => exact h a

private theorem ite {p : Prop} [Decidable p] {x y : Except KeyDefect PrivateKey} (hx : IsRead x)
    (hy : IsRead y) : IsRead (if p then x else y) := by
  split
  · exact hx
  · exact hy

private theorem readRsa (b : Bytes) :
    IsRead (readable (readRsa? b) >>= fun k => pure (PrivateKey.rsa k)) := by
  intro k h
  refine ⟨b, ?_⟩
  cases hread : readRsa? b with
  | none =>
    rw [hread] at h
    cases h
  | some k' =>
    rw [hread] at h
    cases h
    rfl

end IsRead

/-- A key on a curve is no RSA key. -/
theorem isRead_readCurveKey (outer : Option Element) (b : Bytes) :
    IsRead (readCurveKey outer b) := by
  unfold readCurveKey
  refine .bind fun items => ?_
  split
  · refine .bind fun version => .bind fun secret => .bind fun parts => ?_
    refine .bind fun inner => .bind fun point => ?_
    refine .ite (.error _) (.ite (.error _) ?_)
    refine .bind fun parameters => .bind fun curve => ?_
    refine .ite (.error _) (.bind fun own => ?_)
    split
    · nofun
    · exact .bind fun given => .ite nofun (.error _)
  · exact .error _

/-- What is read as a discrete logarithm key is no RSA key. -/
private theorem isRead_readDsa? (b : Bytes) : IsRead (readable (readDsa? b)) := by
  intro k h
  cases hread : readDsa? b with
  | none =>
    rw [hread] at h
    cases h
  | some k' =>
    rw [hread] at h
    cases h
    obtain ⟨e, _, hread⟩ := Option.bind_eq_some_iff.mp hread
    obtain ⟨numbers, _, hread⟩ := Option.bind_eq_some_iff.mp hread
    split at hread <;> cases hread

/-- In the general form the octets of an RSA key stand inside. -/
private theorem isRead_readGeneral (b : Bytes) : IsRead (readGeneral b) := by
  unfold readGeneral
  refine .bind fun items => ?_
  extract_lets kind
  have hkind (p : AlgorithmId × Bytes) : IsRead (kind p) := by
    refine .ite (.readRsa _) (.ite (isRead_readCurveKey _ _) ?_)
    refine .ite (.bind fun _ => nofun) (.ite (.bind fun _ => nofun) (.ite ?_ (.error _)))
    split
    · nofun
    · exact .error _
  split
  · exact .bind hkind
  · split
    · exact .bind hkind
    · exact .error _
  · exact .error _

private theorem isRead_ofBlock (b : Pem.Block) : IsRead (ofBlock b) := by
  unfold ofBlock
  split
  · exact .error _
  · exact .error _
  · split
    · exact isRead_readGeneral _
    · exact .readRsa _
    · exact isRead_readCurveKey _ _
    · exact isRead_readDsa? _
    · exact .error _

/-- The text of an RSA key that was read from some text is read as that key. -/
theorem ofText_writeRsa_of_ofText (h : ofText b = .ok (.rsa k)) :
    ofText (writeRsa k) = .ok (.rsa k) := by
  unfold ofText at h
  split at h
  · cases h
  split at h
  · cases h
  obtain ⟨octets, hread⟩ := isRead_ofBlock _ k h
  refine ofText_writeRsa_of_readRsa? ?_
  rw [encode_of_readRsa? hread, hread]

end CertKeeper.X509.PrivateKey
