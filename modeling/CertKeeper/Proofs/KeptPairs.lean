import CertKeeper.Proofs.IssuedPair
import CertKeeper.Proofs.OtherClients
import CertKeeper.Proofs.StoredAuthority

/-!
# Kept pairs among other clients

A pass that keeps a pair writes the pair that it fetched, whatever the other clients of the store
have made of the record since. Where they have left that pair the write changes nothing, is reported
as no change and restarts nothing; where they have stored another one or removed it, the write
brings the former pair back (`Reconciler.reconcile_keep`).
-/

namespace CertKeeper

open CertKeeper.Action Reconciler X509

namespace Reconciler

variable {r : Reconciler} {τ : Type} {g : Handler Signing τ} {w w' : Contended τ}
  {id : Identity} {now : Option Moment} {remaining : Span}

/-- A pair that is to be kept has been fetched in the first turn, and nothing but turns of the
others has come since. -/
private theorem judge_keep (hr : ReadsOnly r.resolve) {m : Moment} {data : Fields}
    {authority : Authority}
    (hrun : runWith (World.contended g) (r.judge id m) w =
      (.ok (data, authority, .keep remaining), w')) :
    ∃ n certificate key, 1 ≤ n ∧ Contended.Passes n w w' ∧
      (w.leftAfter 1).managed? id = some (some certificate, some key) ∧
      data.get? certificateField = some certificate ∧ data.get? keyField = some key := by
  obtain ⟨record, evaluation, w₁, w₂, rfl, hfetch, hauthority, hevaluate, hdecide⟩ :=
    r.runWith_judge_eq_ok hrun
  obtain ⟨notAfter, rfl, _⟩ := decide_eq_keep hdecide
  have hevaluates := Contended.passes_onSigning g
    (evaluate record authority (some r.dnsName) (some m)) w₂
  rw [hevaluate] at hevaluates
  rw [runWith_onSigning] at hevaluate
  obtain ⟨certificate, key, hcertificate, hkey⟩ := exists_pair_of_evaluate hevaluate
  have hcertificate' := (Fields.filled?_eq_some_iff.mp hcertificate).1
  have hkey' := (Fields.filled?_eq_some_iff.mp hkey).1
  obtain ⟨n, hreads⟩ := Contended.exists_passes_of_reads (g := g)
    (storeOnly_onStore (hr.mapFailure _) : Asks _ (onStore r.authority)) w₁
  rw [hauthority] at hreads
  obtain ⟨hfetches, rfl | hrecord⟩ := Contended.runWith_fetch hfetch
  · cases hcertificate'
  · refine ⟨1 + n + 0, certificate, key, by omega, (hfetches.trans hreads).trans hevaluates, ?_,
      hcertificate', hkey'⟩
    rw [MemoryStore.managed?, hrecord, Option.map_some, hcertificate', hkey']

/-- The write of a pass that keeps a pair, and what the others have left before it: if that is the
pair, nothing changes; else the pair is put back in a new version of the record. -/
private theorem settle_keep (hr : ReadsOnly r.resolve) {outcome : Outcome}
    (hrun : runWith (World.contended g) (r.settle id now) w =
      (.ok (.keep remaining, outcome), w')) :
    ∃ n certificate key, 1 ≤ n ∧ w'.turns = w.turns.drop (n + 1) ∧
      (w.leftAfter 1).managed? id = some (some certificate, some key) ∧
      if (w.leftAfter (n + 1)).managed? id = some (some certificate, some key) then
        outcome = .unchanged ∧ w'.store = w.leftAfter (n + 1)
      else
        outcome = .updated ∧ ∃ left, (w.leftAfter (n + 1)).records.get? id = some left ∧
          w'.store = (w.leftAfter (n + 1)).setRecord
            ⟨id, Writer.setPair certificate key left.data, left.version + 1⟩ := by
  cases r.settles_of_runWith hrun with
  | @done m w₀ w₁ _ data authority decision outcome hclock hjudge hcarry =>
  have hstart := Contended.passes_onSigning g (Signing.momentOr now) w
  rw [hclock] at hstart
  obtain ⟨n, certificate, key, hn, hjudges, hfetched, hcertificate, hkey⟩ := judge_keep hr hjudge
  have hpasses := hstart.trans hjudges
  have hnext : w₁.next = w.leftAfter (n + 1) := by
    rw [Contended.next_eq, hpasses.leftAfter_eq, Nat.zero_add]
  rw [hstart.leftAfter_eq, Nat.zero_add] at hfetched
  rw [carryOut, hcertificate, hkey] at hcarry
  obtain ⟨hturns, ⟨⟨_, he⟩, _⟩ | ⟨o, ho, hupsert⟩⟩ := Contended.runWith_apply hcarry
  · cases he
  cases ho
  rw [hnext] at hupsert
  refine ⟨n, certificate, key, hn, ?_, hfetched, ?_⟩
  · rw [hturns, hpasses.turns, List.tail_drop, Nat.zero_add]
  obtain ⟨fetched, hrecord, -⟩ := Option.map_eq_some_iff.mp hfetched
  obtain ⟨left, hleft⟩ := Contended.exists_record_leftAfter hrecord (Nat.le_add_left 1 n)
  split
  · next hsame =>
    rw [MemoryStore.managed?, hleft, Option.map_some, Option.some_inj, Prod.mk.injEq] at hsame
    rw [Option.getD_some, Option.getD_some,
      MemoryStore.upsert_setPair_same hleft hsame.1 hsame.2, Prod.mk.injEq,
      Except.ok.injEq] at hupsert
    exact ⟨hupsert.1.symm, hupsert.2.symm⟩
  · next hother =>
    rw [Option.getD_some, Option.getD_some,
      MemoryStore.upsert_setPair_other hleft hother, Prod.mk.injEq,
      Except.ok.injEq] at hupsert
    exact ⟨hupsert.1.symm, left, hleft, hupsert.2.symm⟩

/-- A pass that keeps a pair has fetched it in the first turn of the others and writes it in a later
one. Where they have left the pair until then, the write leaves the store as they left it, no change
is reported and nothing is restarted. Where they have not, the write brings the pair back in a new
version of the record: what they stored in its place is lost, a change is reported, and the servers
are restarted if the record is the reserved one. -/
theorem reconcile_keep (hr : ReadsOnly r.resolve) {result : PassResult}
    (hrun : runWith (World.contended g) (r.reconcile id now) w = (.ok result, w'))
    (hkeep : result.decision = .keep remaining) :
    ∃ n certificate key w₁, 1 ≤ n ∧ w₁.turns = w.turns.drop (n + 1) ∧
      runWith (World.contended g) (r.settle id now) w =
        (.ok (result.decision, result.outcome), w₁) ∧
      (w.leftAfter 1).managed? id = some (some certificate, some key) ∧
      if (w.leftAfter (n + 1)).managed? id = some (some certificate, some key) then
        w₁.store = w.leftAfter (n + 1) ∧ result.outcome = .unchanged ∧ result.restart = none ∧
          w' = w₁
      else
        (∃ left, (w.leftAfter (n + 1)).records.get? id = some left ∧
          w₁.store = (w.leftAfter (n + 1)).setRecord
            ⟨id, Writer.setPair certificate key left.data, left.version + 1⟩) ∧
        result.outcome = .updated ∧ (result.restart.isSome ↔ id = r.reserved) := by
  obtain ⟨decision, outcome, restart, w₁, rfl, hsettle, hrestart, hcalm⟩ :=
    r.exists_settle_of_reconcile hrun
  cases hkeep
  obtain ⟨n, certificate, key, hn, hturns, hfetched, hleft⟩ := settle_keep hr hsettle
  refine ⟨n, certificate, key, w₁, hn, hturns, hsettle, hfetched, ?_⟩
  split at hleft
  · next hsame =>
    obtain ⟨rfl, hstore⟩ := hleft
    have hnone : restart = none := by simpa using hrestart
    rw [if_pos hsame]
    exact ⟨hstore, rfl, hnone, hcalm hnone⟩
  · next hother =>
    obtain ⟨rfl, hstore⟩ := hleft
    rw [if_neg hother]
    exact ⟨hstore, rfl, by simpa using hrestart⟩

/-- A signer outside the library that accepts everything finds a certificate with its key valid
until the certificate ends. -/
private theorem evaluate_outside {record : Record} {c : Certificate} {notAfter : Moment}
    (holds : record.Holds c) (hends : c.notAfter? = .ok notAfter) (dnsName : Option String)
    (now : Option Moment) (script : List (Except Failure (Bytes × Bytes))) :
    runWith scriptedSigner (evaluate record .outside dnsName now) script =
      (.ok (.valid notAfter), script) := by
  obtain ⟨certificate, key, hcertificate, hkey, htext, hown⟩ := holds
  simp only [evaluate, hcertificate, hkey, htext, hown]
  rw [runWith_bind]
  have haccepted : runWith scriptedSigner (Authority.outside.validate c dnsName now) script =
      (.ok .accepted, script) := rfl
  rw [haccepted]
  dsimp only
  rw [runWith_bind, runWith_ofExcept, hends]
  rfl

end Reconciler

/-! ## A new pair that is lost -/

/-- What another client stores in a record while its pass is under way. -/
def ClientCall.rotation : ClientCall :=
  ⟨⟨"system", "tls"⟩, fun data => .ok (Writer.setPair [3] [4] data)⟩

/-- A store with a pair in a record, which another client replaces between the first request of a
pass and the second one. -/
def Contended.rotated (pair : Bytes × Bytes) : Contended (List (Except Failure (Bytes × Bytes))) :=
  ⟨.setRecord .empty ⟨⟨"system", "tls"⟩, Writer.setPair pair.1 pair.2 .empty, 1⟩,
    [.calm, ⟨[.rotation], none⟩], []⟩

namespace Reconciler

/-- Some pair, another one than the one that replaces it, is found valid in the store where it is
replaced. -/
private theorem exists_judge_rotated :
    ∃ (pair : Bytes × Bytes) (remaining : Span) (w : Contended _), pair.1 ≠ [3] ∧
      w.turn.failure = none ∧
      runWith (World.contended scriptedSigner)
        (Reconciler.outside.judge ⟨"system", "tls"⟩ .march) (.rotated pair) =
          (.ok (Writer.setPair pair.1 pair.2 .empty, .outside, .keep remaining), w) := by
  obtain ⟨ca, hca, hshort⟩ := SelfSigned.exists_generate_short
  obtain ⟨pair, hissue⟩ := hshort.exists_issue
  obtain ⟨c, htext, hown, _, ⟨notAfter, hvalid, _⟩, _⟩ :=
    SelfSigned.holds_of_issue
      (SelfSigned.genuine_of_generate (Signing.drawsSoundFor_steady _) hca)
      (Signing.drawsSoundFor_steady _) (by decide) hissue
  let record : Record := ⟨⟨"system", "tls"⟩, Writer.setPair pair.1 pair.2 .empty, 1⟩
  have holds : record.Holds c :=
    Record.holds_of_get? (Writer.get?_setPair_certificate _ _ _) (Writer.get?_setPair_key _ _ _)
      htext hown
  obtain ⟨remaining, hdecide⟩ : ∃ remaining,
      (Evaluation.valid notAfter).decide Reconciler.outside.lifetime .march =
        .ok (.keep remaining) :=
    ⟨_, Evaluation.decide_valid _ (Certificate.isAware_notAfter hvalid.ends) rfl⟩
  let met : Contended (List (Except Failure (Bytes × Bytes))) :=
    ⟨(Contended.rotated pair).store, [⟨[.rotation], none⟩], []⟩
  refine ⟨pair, remaining, met, ?_, rfl, ?_⟩
  · intro hthree
    have hunreadable : ¬ (Certificate.ofText [3]).isOk := by decide
    rw [← hthree, htext] at hunreadable
    exact hunreadable rfl
  · refine runWith_bind_eq_ok.mpr ⟨record, met, rfl, ?_⟩
    refine runWith_bind_eq_ok.mpr ⟨.outside, met, rfl, ?_⟩
    refine runWith_bind_eq_ok.mpr ⟨.valid notAfter, met, ?_, ?_⟩
    · rw [Contended.runWith_onSigning, evaluate_outside holds hvalid.ends]
    · exact runWith_ofExcept_bind_eq_ok.mpr ⟨_, hdecide, rfl⟩

/-- A pass that finds a valid pair, while another client stores `([3], [4])` between its fetch and
its write, replaces the new pair by the former one and restarts the server. -/
theorem reconcile_keep_over_newer :
    ∃ (pair : Bytes × Bytes) (result : PassResult) (w₁ w' : Contended _),
      runWith (World.contended scriptedSigner)
        (Reconciler.outside.reconcile ⟨"system", "tls"⟩ (some .march)) (.rotated pair) =
          (.ok result, w') ∧
      runWith (World.contended scriptedSigner)
        (Reconciler.outside.settle ⟨"system", "tls"⟩ (some .march)) (.rotated pair) =
          (.ok (result.decision, .updated), w₁) ∧
      ((Contended.rotated pair).leftAfter 2).managed? ⟨"system", "tls"⟩ =
        some (some [3], some [4]) ∧
      w₁.store.managed? ⟨"system", "tls"⟩ = some (some pair.1, some pair.2) ∧
      result.restart.isSome := by
  obtain ⟨pair, remaining, w, hpair, hturn, hjudge⟩ := exists_judge_rotated
  obtain ⟨outcome, w₁, hwrite⟩ := Contended.exists_runWith_apply hturn ⟨"system", "tls"⟩
    (Writer.setPair pair.1 pair.2)
  have hsettle : runWith (World.contended scriptedSigner)
      (Reconciler.outside.settle ⟨"system", "tls"⟩ (some .march)) (.rotated pair) =
        (.ok (.keep remaining, outcome), w₁) := by
    rw [runWith_settle_of_judge hjudge, carryOut, Writer.get?_setPair_certificate,
      Writer.get?_setPair_key]
    exact runWith_bind_eq_ok.mpr ⟨outcome, w₁, hwrite, rfl⟩
  obtain ⟨restart, w', hrun⟩ := Reconciler.outside.exists_runWith_reconcile hsettle
  obtain ⟨n, certificate, key, w₁, hn, -, hsettle', hfetched, hleft⟩ :=
    reconcile_keep (r := Reconciler.outside) (asks_pure _) hrun rfl
  have hall : (Contended.rotated pair).leftAfter (n + 1) =
      (Contended.rotated pair).leftAfter 2 := by
    rw [Contended.leftAfter, Contended.leftAfter,
      List.take_of_length_le (by simpa [Contended.rotated] using hn)]
    rfl
  have hnewer : ((Contended.rotated pair).leftAfter 2).managed? ⟨"system", "tls"⟩ =
      some (some [3], some [4]) := by
    obtain ⟨_, left, hrotation⟩ := MemoryStore.exists_upsert_eq_ok (Contended.rotated pair).store
      ⟨"system", "tls"⟩ (Writer.setPair [3] [4])
    have hleft : (Contended.rotated pair).leftAfter 2 = left := congrArg Prod.snd hrotation
    rw [hleft]
    exact MemoryStore.managed?_upsert_setPair hrotation
  obtain ⟨rfl, rfl⟩ : pair.1 = certificate ∧ pair.2 = key := by
    have hformer : ((Contended.rotated pair).leftAfter 1).managed? ⟨"system", "tls"⟩ =
        some (some pair.1, some pair.2) := rfl
    rw [hformer, Option.some_inj, Prod.mk.injEq, Option.some_inj, Option.some_inj] at hfetched
    exact hfetched
  have hother : ¬ ((Contended.rotated pair).leftAfter (n + 1)).managed? ⟨"system", "tls"⟩ =
      some (some pair.1, some pair.2) := by
    rw [hall, hnewer, Option.some_inj, Prod.mk.injEq, Option.some_inj]
    exact fun hsame => hpair hsame.1.symm
  rw [if_neg hother] at hleft
  obtain ⟨⟨left, -, hstore⟩, houtcome, hrestart⟩ := hleft
  refine ⟨pair, _, w₁, w', hrun, ?_, hnewer, ?_, hrestart.mpr rfl⟩
  · rw [hsettle', houtcome]
  · rw [hstore, MemoryStore.managed?, MemoryStore.get?_setRecord, if_pos rfl, Option.map_some,
      Writer.get?_setPair_certificate, Writer.get?_setPair_key]

end Reconciler

end CertKeeper
