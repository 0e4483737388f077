import CertKeeper.Proofs.CanonicalElements
import CertKeeper.Proofs.Escapes
import CertKeeper.Proofs.IssuedPair

/-!
# Authorities that are read from texts

Loading does not look at whether the key belongs to the certificate, so an authority may issue
certificates that it does not accept. Nothing but this stands between a pair that is issued and its
use: the key is the certificate's own, the time and the name are right, and the signature is judged
by the key of the authority's certificate (`SelfSigned.evaluate_issued`).
-/

namespace CertKeeper

open CertKeeper.Action Crypto Encoding X509

namespace SelfSigned

variable {a : SelfSigned} {c : Certificate} {r : Record} {o : IssueOptions} {now : Moment}
  {pair : Bytes × Bytes}

/-- The pair that was made is worth what the chain is: it is valid if the certificate is taken for
one of the authority. -/
private theorem appraise_minted (hc : a.Minted o now pair c) (hnow : now.isAware)
    (hcertificate : r.data.get? certificateField = some pair.1)
    (hkey : r.data.get? keyField = some pair.2) :
    ∃ last, last.instant = o.notAfter.instant / 1000000 * 1000000 ∧
      a.appraise r (some o.dnsName) now =
        match c.checkIssuedBy a.certificate with
        | .ok () => .ok (.valid last)
        | .error defect =>
          if defect.isUnknown then .error (.chain defect)
          else .ok (.invalid (.rejected (.chain defect))) := by
  obtain ⟨last, hvalid, hlast⟩ := hc.valid
  have holds : r.Holds c := Record.holds_of_get? hcertificate hkey hc.text hc.own
  refine ⟨last, hlast, ?_⟩
  rcases hissued : c.checkIssuedBy a.certificate with defect | ⟨⟩
  · rw [appraise_of_holds holds, judgeAt, hissued]
    cases hunknown : defect.isUnknown with
    | true => simp only [hunknown, if_true]
    | false => simp only [hunknown, Bool.false_eq_true, if_false]
  · refine (appraise_eq_valid_iff hnow).mpr ⟨c, holds, hissued, hvalid, ?_⟩
    rintro name hname
    cases hname
    exact ⟨[o.dnsName], hc.names, List.mem_singleton_self _⟩

/-- Whatever authority is read from two texts: a pair that it issues, for an end that is at least a
second later, is found valid by it unless the key of its certificate does not verify the signature,
and its certificate is rejected with its chain, or cannot be judged, in that case. If the
authority's certificate is for its own key, the pair is valid. That signatures made with the
authority's key are right and that new keys are RSA keys is left to whoever signs and draws
them. -/
theorem evaluate_issued {authorityCertificate authorityKey certificate key : Bytes} {bits : Int}
    {τ : Type} {g : Handler Signing τ} {t t' : τ} {notAfter : Moment} {dnsName : String}
    (hload : ofTexts authorityCertificate authorityKey bits = .ok a)
    (hsigns : a.key.Signs .sha256) (hdraws : Signing.DrawsSoundFor g a.leafBits)
    (hnow : now.isAware) (hlate : now.instant + 1000000 ≤ notAfter.instant)
    (hissue : runWith g (a.issue ⟨notAfter, dnsName⟩ (some now)) t =
      (.ok (certificate, key), t'))
    (hcertificate : r.data.get? certificateField = some certificate)
    (hkey : r.data.get? keyField = some key) :
    ∃ c last, Certificate.ofText certificate = .ok c ∧
      last.instant = notAfter.instant / 1000000 * 1000000 ∧
      (∀ {τ' : Type} (g' : Handler Signing τ') (s : τ'),
        runWith g' (evaluate r a.toAuthority (some dnsName) (some now)) s =
          (match c.checkIssuedBy a.certificate with
            | .ok () => .ok (.valid last)
            | .error defect =>
              if defect.isUnknown then .error (.chain defect)
              else .ok (.invalid (.rejected (.chain defect))), s)) ∧
      (c.checkIssuedBy a.certificate = .ok () ↔
        ∃ k : Rsa.PublicKey, a.certificate.publicKey? = .ok (.rsa k) ∧
          k.verify .sha256 c.signed c.signature) ∧
      (a.certificate.publicKey? = .ok (.rsa a.key.publicKey) →
        c.checkIssuedBy a.certificate = .ok ()) := by
  obtain ⟨hread, _⟩ := ofTexts_eq_ok_iff.mp hload
  obtain ⟨c, hc⟩ := exists_minted_of_issue
    (fun _ => Certificate.ofElement?_subject hread) hsigns hdraws hlate hissue
  obtain ⟨s, hsigned, halgorithm, hissuer⟩ := hc.signed
  obtain ⟨last, hlast, happraise⟩ := appraise_minted hc hnow hcertificate hkey
  refine ⟨c, last, hc.text, hlast, ?_, ?_, ?_⟩
  · intro τ' g' s
    rw [runWith_evaluate, happraise]
  · exact Certificate.checkIssuedBy_eq_ok_iff hsigned halgorithm hissuer
  · exact Certificate.checkIssuedBy_of_signed hsigned halgorithm hissuer

/-- What the certificate for a server states that the holder of the large key issues under the name
of the small one. -/
def foreignStatement : Statement :=
  statementOf (.ofCommonName serviceName "small") (.ofCommonName "small" "small")
    Rsa.PrivateKey.large.publicKey 1 .march .august (serverExtensions serviceName)

/-- The certificate about the foreign key is signed, and the small key does not verify its
signature. -/
private theorem exists_sign_foreign :
    ∃ leaf, foreignStatement.sign .large = .ok leaf ∧ Certificate.ofDer leaf.der = .ok leaf ∧
      ¬ Rsa.PrivateKey.small.publicKey.verify .sha256 leaf.signed leaf.signature := by
  have hserver := fun h => @Name.ofElement?_ofCommonName serviceName "small" h
  have hissuer := fun h => @Name.ofElement?_ofCommonName "small" "small" h
  have hlegible : foreignStatement.Legible :=
    legible_statementOf hserver hissuer (by decide) (by decide) (by decide)
      (oid?_serverExtensions _)
  have hfits : (Rsa.PrivateKey.large.sign? .sha256 foreignStatement.element.encode).map
      (fun signature =>
        decide
            ((Der.Element.sequence (foreignStatement.parts signature)).content.length < 2 ^ 32) &&
          !(Rsa.PrivateKey.small.publicKey.verify .sha256 foreignStatement.element.encode
            signature)) = some true := by decide +kernel
  obtain ⟨signature, hsign, hboth⟩ := Option.map_eq_some_iff.mp hfits
  rw [Bool.and_eq_true, Bool.not_eq_true', decide_eq_true_eq] at hboth
  obtain ⟨hlength, hwrong⟩ := hboth
  refine ⟨_, Statement.sign_of_sign? hlegible hsign hlength, ?_, ?_⟩
  · exact Certificate.ofDer_seal hlegible hlength
  · rw [hwrong]
    exact Bool.false_ne_true

/-- An authority is read from the certificate for the small key and the large key. -/
theorem exists_ofTexts_foreign :
    ∃ a, ofTexts Certificate.small.text (PrivateKey.writeRsa .large) 2048 = .ok a ∧
      a.certificate.statement.subject = .ofCommonName "small" "small" ∧
      a.certificate.publicKey? = .ok (.rsa Rsa.PrivateKey.small.publicKey) ∧
      a.key = .large ∧ a.organization = "small" ∧ a.leafBits = 2048 := by
  have hread : (Certificate.ofDer Certificate.small.der).toOption.map (fun c =>
      decide (c.statement.subject = .ofCommonName "small" "small" ∧
        c.publicKey?.toOption = some (.rsa Rsa.PrivateKey.small.publicKey))) = some true := by
    decide +kernel
  have horganization : (Name.ofCommonName "small" "small").organization? = .ok (some "small") := by
    decide +kernel
  cases hc : Certificate.ofDer Certificate.small.der with
  | error defect =>
    rw [hc] at hread
    cases hread
  | ok c =>
    rw [hc] at hread
    obtain ⟨hsubject, hkey⟩ := of_decide_eq_true (Option.some.inj hread)
    refine ⟨⟨c, .large, "small", 2048⟩, ?_, hsubject, ?_, rfl, rfl, rfl⟩
    · refine ofTexts_eq_ok_iff.mpr ⟨?_, ?_, rfl, some "small", ?_, rfl⟩
      · rw [Certificate.ofText_text, hc]
      · exact PrivateKey.ofText_writeRsa Rsa.PrivateKey.sound_large
      · rw [hsubject, horganization]
    · cases hpublic : c.publicKey? with
      | error defect =>
        rw [hpublic] at hkey
        cases hkey
      | ok k =>
        rw [hpublic] at hkey
        cases hkey
        rfl

/-- An authority whose certificate is for another key than its own does not accept the pair that it
issues. -/
theorem evaluate_issued_foreign :
    ∃ a pair, ofTexts Certificate.small.text (PrivateKey.writeRsa .large) 2048 = .ok a ∧
      runWith Signing.steady (a.issue ⟨.august, serviceName⟩ (some .march)) () = (.ok pair, ()) ∧
      ∀ last, (runWith Signing.steady (evaluate
        ⟨⟨"system", "tls"⟩, Writer.setPair pair.1 pair.2 .empty, 1⟩ a.toAuthority
        (some serviceName) (some .march)) ()).1 ≠ .ok (.valid last) := by
  obtain ⟨a, hload, hsubject, hpublic, hkey, horganization, hbits⟩ := exists_ofTexts_foreign
  obtain ⟨leaf, hsign, hread, hwrong⟩ := exists_sign_foreign
  have hstart : universalStart .march = .ok .march := by decide
  have hstop : universalEnd .march .august = .ok .august := by decide
  have hsign' : (statementOf (.ofCommonName serviceName a.organization)
      a.certificate.statement.subject Rsa.PrivateKey.large.publicKey 1 .march .august
        (serverExtensions serviceName)).sign a.key = .ok leaf := by
    rw [hsubject, horganization, hkey]
    exact hsign
  have hissue := runWith_issue_steady hbits (by decide) hstart hstop hsign'
  refine ⟨a, _, hload, hissue, ?_⟩
  obtain ⟨c, last, htext, _, heval, hchain, _⟩ := evaluate_issued hload
    (hkey ▸ Rsa.PrivateKey.sound_large.signs _)
    (Signing.drawsSoundFor_steady _) rfl (by decide) hissue
    (r := ⟨⟨"system", "tls"⟩, Writer.setPair leaf.text (PrivateKey.writeRsa .large) .empty, 1⟩)
    (Writer.get?_setPair_certificate _ _ _) (Writer.get?_setPair_key _ _ _)
  rw [Certificate.ofText_text, hread] at htext
  cases htext
  intro last' hvalid
  rw [heval] at hvalid
  rcases hissued : leaf.checkIssuedBy a.certificate with defect | ⟨⟩
  · rw [hissued] at hvalid
    dsimp only at hvalid
    split at hvalid <;> cases hvalid
  · obtain ⟨k, hk, hverify⟩ := hchain.mp hissued
    rw [hpublic] at hk
    cases hk
    exact hwrong hverify

end SelfSigned

end CertKeeper
