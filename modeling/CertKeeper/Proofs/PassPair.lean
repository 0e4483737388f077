import CertKeeper.Proofs.SharedStore

/-!
# The pair after a pass

A pass that fails has left the pair of its record alone or removed it; one that succeeds has left a
whole pair: the one that its authority issued, or the one that was there (`Serves.runWith_settle`).
-/

namespace CertKeeper

open CertKeeper.Action Reconciler

/-! ## What is asked until the record is dealt with -/

/-- Whether a request changes at most the pair of a record. -/
def Store.Request.WritesPair (id : Identity) : Store.Request → Prop
  | .upsert j change => j = id ∧ ∃ f : Fields → Fields, (change = fun data => .ok (f data)) ∧
      ∀ data name, ¬ Writer.IsManaged name → (f data).get? name = data.get? name
  | _ => False

namespace Reconciler

variable (r : Reconciler) {σ : Type} {h : Handler World σ} {w w' : σ} {id : Identity}

private theorem asks_write (id : Identity) (certificate key : Bytes) :
    Asks (Store.Request.WritesPair id) (Writer.write id certificate key) :=
  Asks.mapFailure _ ⟨⟨rfl, _, rfl, fun data _ hn =>
    Writer.get?_setPair_of_not_isManaged certificate key data hn⟩, fun _ => trivial⟩

private theorem asks_clear (id : Identity) : Asks (Store.Request.WritesPair id) (Writer.clear id) :=
  Asks.mapFailure _ ⟨⟨rfl, _, rfl, fun data _ hn =>
    Writer.get?_removePair_of_not_isManaged data hn⟩, fun _ => trivial⟩

private theorem asks_issue (id : Identity) (authority : Authority) (now : Moment) :
    Asks (World.StoreOnly (Store.Request.WritesPair id)) (r.issue id authority now) := by
  refine (asks_ofExcept _ _).bind fun notAfter => ?_
  refine (asks_onSigning _).bind fun pair => ?_
  exact storeOnly_onStore (asks_write id pair.1 pair.2)

/-- Carrying out a decision about a record asks of the store only to write or remove the pair of
that record. -/
theorem asks_carryOut (id : Identity) (data : Fields) (authority : Authority) (now : Moment)
    (decision : Decision) :
    Asks (World.StoreOnly (Store.Request.WritesPair id))
      (r.carryOut id data authority now decision) := by
  cases decision with
  | issue reason lifetime => exact r.asks_issue id authority now
  | invalidate reason lifetime =>
    refine (storeOnly_onStore (asks_clear id)).bind fun first => ?_
    exact (r.asks_issue id authority now).bind fun second => asks_pure _
  | keep remaining => exact storeOnly_onStore (asks_write id _ _)

/-- Until the record is dealt with, records are read and the pair is written, and nothing else is
done in the store. -/
theorem asks_settle (hr : ReadsOnly r.resolve) (id : Identity) (now : Option Moment) :
    Asks (World.StoreOnly fun q => q.IsRead ∨ q.WritesPair id) (r.settle id now) := by
  have hread := fun q => World.StoreOnly.mono (P := Store.Request.IsRead)
    (Q := fun q => q.IsRead ∨ q.WritesPair id) (fun _ hq => .inl hq) q
  have hwrite := fun q => World.StoreOnly.mono (P := Store.Request.WritesPair id)
    (Q := fun q => q.IsRead ∨ q.WritesPair id) (fun _ hq => .inr hq) q
  refine (asks_onSigning _).bind fun m => ?_
  refine ((r.asks_judge hr id m).mono hread).bind fun judged => ?_
  refine ((r.asks_carryOut id _ _ m _).mono hwrite).bind fun outcome => asks_pure _

end Reconciler

/-! ## Where a pair comes from -/

namespace Reconciler

variable (r : Reconciler) {σ : Type}

/-- In a state the authority answers a request for a certificate of this reconciler with a pair. -/
def IssuesFrom (h : Handler World σ) (authority : Authority) (now : Moment) (w : σ)
    (pair : Bytes × Bytes) : Prop :=
  ∃ notAfter w', now.add? r.lifetime = .ok notAfter ∧
    runWith h (onSigning (authority.issue ⟨notAfter, r.dnsName⟩ (some now))) w = (.ok pair, w')

/-- Carrying out a decision stores a pair: one that the authority issues, after the old one has been
removed if it was of no use, or the one that was fetched. -/
def Stores (h : Handler World σ) (id : Identity) (data : Fields) (authority : Authority)
    (now : Moment) (w : σ) (pair : Bytes × Bytes) : Decision → Prop
  | .issue _ _ => r.IssuesFrom h authority now w pair
  | .invalidate _ _ => ∃ o w₁, runWith h (onStore (Writer.clear id)) w = (.ok o, w₁) ∧
      r.IssuesFrom h authority now w₁ pair
  | .keep _ => pair = ((data.get? certificateField).getD [], (data.get? keyField).getD [])

/-- A pass with a decision stores a pair. -/
def StoresInPass (h : Handler World σ) (id : Identity) (now : Option Moment) (w : σ)
    (decision : Decision) (pair : Bytes × Bytes) : Prop :=
  ∃ m w₀ data authority w₁, runWith h (onSigning (Signing.momentOr now)) w = (.ok m, w₀) ∧
    runWith h (r.judge id m) w₀ = (.ok (data, authority, decision), w₁) ∧
    r.Stores h id data authority m w₁ pair decision

variable {r} {h : Handler World σ} {w w' : σ} {id : Identity}

/-- Issuing a pair ends with writing it. -/
theorem exists_write_of_issue {authority : Authority} {now : Moment} {outcome : Outcome}
    (hrun : runWith h (r.issue id authority now) w = (.ok outcome, w')) :
    ∃ pair w₁, r.IssuesFrom h authority now w pair ∧
      runWith h (onStore (Writer.write id pair.1 pair.2)) w₁ = (.ok outcome, w') := by
  obtain ⟨notAfter, hend, hrun⟩ := runWith_ofExcept_bind_eq_ok.mp hrun
  obtain ⟨pair, w₁, hissue, hwrite⟩ := runWith_bind_eq_ok.mp hrun
  refine ⟨pair, w₁, ⟨notAfter, w₁, hend, ?_⟩, hwrite⟩
  rw [runWith_onSigning] at hissue ⊢
  exact runWith_mapFailure_eq_ok.mp hissue

/-- Dealing with a record ends with writing the pair that is stored. -/
theorem exists_write_of_settle {now : Option Moment} {decision : Decision} {outcome : Outcome}
    (hrun : runWith h (r.settle id now) w = (.ok (decision, outcome), w')) :
    ∃ pair w₁ o, r.StoresInPass h id now w decision pair ∧
      runWith h (onStore (Writer.write id pair.1 pair.2)) w₁ = (.ok o, w') := by
  cases r.settles_of_runWith hrun with
  | @done m w₀ w₁ _ data authority decision outcome hclock hjudge hcarry =>
  cases decision with
  | issue reason lifetime =>
    obtain ⟨pair, w₂, hfrom, hwrite⟩ := exists_write_of_issue hcarry
    exact ⟨pair, w₂, outcome, ⟨m, w₀, data, authority, w₁, hclock, hjudge, hfrom⟩, hwrite⟩
  | invalidate reason lifetime =>
    obtain ⟨first, w₂, hclear, hcarry⟩ := runWith_bind_eq_ok.mp hcarry
    obtain ⟨second, w₃, hissue, hcarry⟩ := runWith_bind_eq_ok.mp hcarry
    cases hcarry
    obtain ⟨pair, w₄, hfrom, hwrite⟩ := exists_write_of_issue hissue
    exact ⟨pair, w₄, second,
      ⟨m, w₀, data, authority, w₁, hclock, hjudge, first, w₂, hclear, hfrom⟩, hwrite⟩
  | keep remaining =>
    exact ⟨_, w₁, outcome, ⟨m, w₀, data, authority, w₁, hclock, hjudge, rfl⟩, hcarry⟩

end Reconciler

namespace Serves

variable {r : Reconciler} {σ : Type} {h : Handler World σ} {view : σ → MemoryStore}
  {w w₁ w₂ w' : σ} {id : Identity}

/-- Looking keeps the pair. -/
theorem keepsPair_judge (hs : Serves h view (KeepsPair id)) (hr : ReadsOnly r.resolve)
    (m : Moment) (w : σ) : KeepsPair id (view w) (view (runWith h (r.judge id m) w).2) :=
  keepsPair_runWith hs ((r.asks_judge hr id m).mono (World.StoreOnly.mono fun _ hq =>
    hq.not_isUpsert)) w

/-- An action of an authority keeps the pair. -/
theorem keepsPair_onSigning (hs : Serves h view (KeepsPair id)) {α : Type} (a : Action Signing α)
    (w : σ) : KeepsPair id (view w) (view (runWith h (onSigning a) w).2) :=
  keepsPair_runWith hs (asks_onSigning a) w

/-- What a change does to a pair does not depend on what keeps the pair before it. -/
theorem Leaves.of_keepsPair {pair : Option Bytes × Option Bytes} {o : Outcome}
    (hk : KeepsPair id (view w) (view w₁)) (hl : Leaves view id pair o w₁ w') :
    Leaves view id pair o w w' :=
  ⟨hl.left, fun ho => hk ▸ hl.unchanged ho, hk ▸ hl.created⟩

/-- Removing a pair and then writing one leaves that one, and is reported as a change of a record
that was there. -/
theorem Leaves.merge {certificate key : Bytes} {o₁ o₂ : Outcome}
    (h₁ : Leaves view id (none, none) o₁ w w₁)
    (h₂ : Leaves view id (some certificate, some key) o₂ w₁ w') :
    Leaves view id (some certificate, some key) (o₁.merge o₂) w w' := by
  have hne : o₂ ≠ .created := by
    rw [ne_eq, h₂.created, h₁.left]
    simp
  have hchanged : o₂ ≠ .unchanged := by
    intro ho
    have hp := h₁.left.symm.trans (h₂.unchanged ho)
    simp at hp
  obtain rfl : o₂ = .updated := by
    cases o₂ with
    | created => exact absurd rfl hne
    | updated => rfl
    | unchanged => exact absurd rfl hchanged
  refine ⟨h₂.left, ?_, ?_⟩
  · intro ho
    cases o₁ <;> cases ho
  · rw [← h₁.created]
    cases o₁ <;> simp [Outcome.merge]

/-- Issuing a pair. -/
theorem runWith_issue (hs : Serves h view (KeepsPair id)) {authority : Authority} {now : Moment}
    {res : Except Failure Outcome} (hrun : runWith h (r.issue id authority now) w = (res, w')) :
    (∃ e, res = .error e ∧ KeepsPair id (view w) (view w')) ∨
      ∃ o pair, res = .ok o ∧ r.IssuesFrom h authority now w pair ∧
        Leaves view id (some pair.1, some pair.2) o w w' := by
  rw [Reconciler.issue, runWith_bind, runWith_ofExcept] at hrun
  cases hend : now.add? r.lifetime with
  | error e =>
    rw [hend] at hrun
    cases hrun
    exact .inl ⟨_, rfl, rfl⟩
  | ok notAfter =>
    rw [hend] at hrun
    simp only [mapError_ok] at hrun
    rw [runWith_bind, runWith_onSigning, runWith_mapFailure] at hrun
    have hkeep := hs.keepsPair_onSigning (authority.issue ⟨notAfter, r.dnsName⟩ (some now)) w
    rcases hissue : runWith h (onSigning (authority.issue ⟨notAfter, r.dnsName⟩ (some now))) w with
      ⟨e | pair, w₁⟩
    · rw [hissue] at hkeep
      rw [runWith_onSigning] at hissue
      rw [hissue] at hrun
      cases hrun
      exact .inl ⟨_, rfl, hkeep⟩
    · rw [hissue] at hkeep
      have hfrom : r.IssuesFrom h authority now w pair := ⟨notAfter, w₁, hend, hissue⟩
      rw [runWith_onSigning] at hissue
      rw [hissue] at hrun
      obtain ⟨e, rfl, hk⟩ | ⟨o, rfl, hl⟩ := hs.runWith_write hrun
      · exact .inl ⟨_, rfl, hk.trans hkeep⟩
      · exact .inr ⟨o, pair, rfl, hfrom, hl.of_keepsPair hkeep⟩

/-- Carrying out a decision leaves a whole pair; if it fails, the pair is as before, or it was of no
use and has been removed. -/
theorem runWith_carryOut (hs : Serves h view (KeepsPair id)) {data : Fields}
    {authority : Authority} {now : Moment} {decision : Decision} {res : Except Failure Outcome}
    (hrun : runWith h (r.carryOut id data authority now decision) w = (res, w')) :
    (∃ e, res = .error e ∧
      (KeepsPair id (view w) (view w') ∨ (view w').managed? id = some (none, none))) ∨
      ∃ o pair, res = .ok o ∧ r.Stores h id data authority now w pair decision ∧
        Leaves view id (some pair.1, some pair.2) o w w' := by
  cases decision with
  | issue reason lifetime =>
    obtain ⟨e, rfl, hk⟩ | hok := hs.runWith_issue hrun
    · exact .inl ⟨e, rfl, .inl hk⟩
    · exact .inr hok
  | keep remaining =>
    obtain ⟨e, rfl, hk⟩ | ⟨o, rfl, hl⟩ := hs.runWith_write hrun
    · exact .inl ⟨_, rfl, .inl hk⟩
    · exact .inr ⟨o, _, rfl, rfl, hl⟩
  | invalidate reason lifetime =>
    rw [carryOut, runWith_bind] at hrun
    rcases hclear : runWith h (onStore (Writer.clear id)) w with ⟨e | o₁, w₁⟩
    · rw [hclear] at hrun
      cases hrun
      obtain ⟨e', he, hk⟩ | ⟨o, ho, _⟩ := hs.runWith_clear hclear
      · exact .inl ⟨_, rfl, .inl hk⟩
      · cases ho
    rw [hclear] at hrun
    dsimp only at hrun
    obtain ⟨e', he, _⟩ | ⟨o, ho, hremoved⟩ := hs.runWith_clear hclear
    · cases he
    cases ho
    rw [runWith_bind] at hrun
    rcases hissue : runWith h (r.issue id authority now) w₁ with ⟨e | o₂, w₂⟩
    · rw [hissue] at hrun
      cases hrun
      obtain ⟨_, _, hk⟩ | ⟨_, _, he, _⟩ := hs.runWith_issue hissue
      · exact .inl ⟨_, rfl, .inr (hk.trans hremoved.left)⟩
      · cases he
    · rw [hissue] at hrun
      cases hrun
      obtain ⟨_, he, _⟩ | ⟨o, pair, ho, hfrom, hl⟩ := hs.runWith_issue hissue
      · cases he
      · cases ho
        exact .inr ⟨_, pair, rfl, ⟨_, w₁, hclear, hfrom⟩, hremoved.merge hl⟩

/-- Reading the clock keeps the pair. -/
theorem keepsPair_clock (hs : Serves h view (KeepsPair id)) {now : Option Moment} {m : Moment}
    (hclock : runWith h (onSigning (Signing.momentOr now)) w = (.ok m, w')) :
    KeepsPair id (view w) (view w') := by
  have hk := hs.keepsPair_onSigning (Signing.momentOr now) w
  rwa [hclock] at hk

/-- Dealing with a record leaves a whole pair; if it fails, the pair is as before, or it was of no
use and has been removed. -/
theorem runWith_settle (hs : Serves h view (KeepsPair id)) (hr : ReadsOnly r.resolve)
    {now : Option Moment} {res : Except Failure (Decision × Outcome)}
    (hrun : runWith h (r.settle id now) w = (res, w')) :
    (∃ e, res = .error e ∧
      (KeepsPair id (view w) (view w') ∨ (view w').managed? id = some (none, none))) ∨
      ∃ decision o pair, res = .ok (decision, o) ∧ r.StoresInPass h id now w decision pair ∧
        Leaves view id (some pair.1, some pair.2) o w w' := by
  cases r.settles_of_runWith hrun with
  | @judgeFails m w₀ _ e hclock hjudge =>
    have hk := hs.keepsPair_judge hr m w₀
    rw [hjudge] at hk
    exact .inl ⟨e, rfl, .inl (hk.trans (hs.keepsPair_clock hclock))⟩
  | @carryOutFails m w₀ w₁ _ data authority decision e hclock hjudge hcarry =>
    have hk := hs.keepsPair_judge hr m w₀
    rw [hjudge] at hk
    obtain ⟨_, _, hsame | hremoved⟩ | ⟨_, _, ho, _⟩ := hs.runWith_carryOut hcarry
    · exact .inl ⟨e, rfl, .inl (hsame.trans (hk.trans (hs.keepsPair_clock hclock)))⟩
    · exact .inl ⟨e, rfl, .inr hremoved⟩
    · cases ho
  | @done m w₀ w₁ _ data authority decision outcome hclock hjudge hcarry =>
    have hk := hs.keepsPair_judge hr m w₀
    rw [hjudge] at hk
    obtain ⟨_, he, _⟩ | ⟨o, pair, ho, hstores, hleaves⟩ := hs.runWith_carryOut hcarry
    · cases he
    cases ho
    exact .inr ⟨decision, outcome, pair, rfl,
      ⟨m, w₀, data, authority, w₁, hclock, hjudge, hstores⟩,
      hleaves.of_keepsPair (hk.trans (hs.keepsPair_clock hclock))⟩

end Serves

end CertKeeper
