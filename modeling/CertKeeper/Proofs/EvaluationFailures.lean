import CertKeeper.Proofs.Escapes
import CertKeeper.Proofs.IssuedPair

/-!
# What an evaluation ends with

At a given moment the evaluation of a record asks nothing. It finds nothing exactly if one half of
the pair is missing or empty, and it ends with a failure instead of a result exactly in the cases
that it does not foresee (`SelfSigned.evaluate_eq_error_iff`).
-/

namespace CertKeeper

open CertKeeper.Action Encoding X509

/-- A field that is missing or empty. -/
theorem Fields.filled?_eq_none_iff {data : Fields} {name : String} :
    data.filled? name = none ↔ ∀ b, data.get? name = some b → b = [] := by
  cases hfield : data.get? name with
  | none => simp [filled?, hfield]
  | some b => cases b <;> simp [filled?, hfield]

/-- A certificate for the smallest of keys, of the fourth version. -/
def X509.Certificate.fourth : Certificate :=
  let statement := { Certificate.small.statement with version := 3 }
  ⟨statement.seal [], statement.element.encode, statement, .rsaSha256, []⟩

/-- A certificate that says it is of the fourth version is refused for its version. -/
theorem X509.Certificate.ofText_fourth :
    Certificate.ofText Certificate.fourth.text = .error (.version 3) := by
  rw [Certificate.ofText_text]
  have hread : (Certificate.ofOctets? Certificate.fourth.der).map (·.statement.version) =
      some 3 := by decide +kernel
  obtain ⟨c, hc, hversion⟩ := Option.map_eq_some_iff.mp hread
  rw [Certificate.ofDer, hc]
  dsimp only
  rw [hversion]
  exact if_neg (by decide)

namespace SelfSigned

variable {a : SelfSigned} {r : Record} {dnsName : Option String} {now : Moment}

/-- The evaluation of a record at a moment with an offset changes nothing around it. Its result is
that nothing is there if and only if the certificate or the key is missing or empty. It ends with a
failure if and only if it meets what it does not foresee: a certificate of a version that does not
exist, a signature under a key, a curve or a hash function that is not known, times that no moment
has, or, if a name is given, names of a form that is not handled. -/
theorem evaluate_eq_error_iff (hnow : now.isAware) {τ : Type} (g : Handler Signing τ) (t : τ) :
    ∃ result, runWith g (evaluate r a.toAuthority dnsName (some now)) t = (result, t) ∧
      (∀ e, result = .error e ↔
        a.Unforeseen r now e ∧ (dnsName = none → ∀ defect, e ≠ .extension defect)) ∧
      (result = .ok .absent ↔ (∀ b, r.data.get? certificateField = some b → b = []) ∨
        (∀ b, r.data.get? keyField = some b → b = [])) := by
  refine ⟨a.appraise r dnsName now, runWith_evaluate g a r dnsName now t,
    fun e => appraise_eq_error_iff_of_name hnow, ?_⟩
  rw [appraise_eq_absent_iff, Record.certificate?, Record.key?, Fields.filled?_eq_none_iff,
      Fields.filled?_eq_none_iff]

/-- The evaluation of a certificate of the fourth version ends with a failure. -/
theorem evaluate_eq_error_fourth :
    ∃ result, runWith Signing.steady (evaluate
        ⟨⟨"system", "tls"⟩, Writer.setPair Certificate.fourth.text [0] .empty, 1⟩
        SelfSigned.small.toAuthority (some serviceName) (some .march)) () = (result, ()) ∧
      result = .error (.certificate (.version 3)) := by
  let record : Record :=
    ⟨⟨"system", "tls"⟩, Writer.setPair Certificate.fourth.text [0] .empty, 1⟩
  have hcertificate : record.certificate? = some Certificate.fourth.text :=
    Fields.filled?_eq_some_iff.mpr ⟨Writer.get?_setPair_certificate _ _ _, Pem.write_ne_nil _ _⟩
  have hkey : record.key? = some [0] :=
    Fields.filled?_eq_some_iff.mpr ⟨Writer.get?_setPair_key _ _ _, List.cons_ne_nil _ _⟩
  have hstored : record.key?.isSome := by
    rw [hkey]
    rfl
  have haware : Moment.march.isAware := rfl
  obtain ⟨result, hrun, herror, _⟩ : ∃ result,
      runWith Signing.steady (evaluate record SelfSigned.small.toAuthority (some serviceName)
        (some .march)) () = (result, ()) ∧ _ :=
    evaluate_eq_error_iff haware Signing.steady ()
  have hunforeseen : SelfSigned.small.Unforeseen record .march (.certificate (.version 3)) :=
    .version ⟨hcertificate, hstored⟩ Certificate.ofText_fourth
  exact ⟨result, hrun, (herror _).mpr ⟨hunforeseen, nofun⟩⟩

end SelfSigned

end CertKeeper
