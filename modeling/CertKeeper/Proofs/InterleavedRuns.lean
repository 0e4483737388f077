import CertKeeper.Proofs.Running

/-!
# Programs that run at the same time

Two programs share a state, and each has a memory of its own beside it. Their questions are answered
one by one, in some order of turns (`Program.interleave`). If the answers that a program gets depend
on a part of the shared state only, and the other program leaves that part alone, then each of the
two runs as it does alone, whatever the order of turns is (`Program.asAlone_interleave`).
-/

namespace CertKeeper

/-- One of two programs. -/
inductive Side where
  | first
  | second
  deriving DecidableEq, Repr

variable {I J : Interface} {α β σ τ υ S A B : Type}

/-- What is answered to questions of a kind, and what becomes of a part of the shared state, depends
on that part only. -/
def Handler.Local (h : Handler I (S × τ)) (P : I.Question → Prop) (own : S → A) : Prop :=
  ∀ (q : I.Question) (s s' : S) (t : τ), P q → own s = own s' →
    (h q (s, t)).1 = (h q (s', t)).1 ∧ own (h q (s, t)).2.1 = own (h q (s', t)).2.1 ∧
      (h q (s, t)).2.2 = (h q (s', t)).2.2

/-- The answering of questions of a kind leaves a part of the shared state as it is. -/
def Handler.Spares (h : Handler I (S × τ)) (P : I.Question → Prop) (part : S → A) : Prop :=
  ∀ (q : I.Question) (w : S × τ), P q → part (h q w).2.1 = part w.1

namespace Program

/-! ## Single steps -/

/-- The next question of a program is answered; a program that is done stays so. -/
def step (h : Handler I σ) : Program I α → σ → Program I α × σ
  | .done a, w => (.done a, w)
  | .ask q resume, w => (resume (h q w).1, (h q w).2)

/-- A run goes on after a step as it does without it. -/
theorem run_step (h : Handler I σ) (p : Program I α) (w : σ) :
    (p.step h w).1.run h (p.step h w).2 = p.run h w := by
  cases p <;> rfl

/-- A program still asks only certain questions after its next one is answered. -/
theorem Asks.step {P : I.Question → Prop} {p : Program I α} (hp : p.Asks P) (h : Handler I σ)
    (w : σ) : (p.step h w).1.Asks P := by
  cases p with
  | done a => trivial
  | ask q resume => exact hp.2 _

section Parts

variable {h : Handler I (S × τ)} {P : I.Question → Prop} {own : S → A} {part : S → B}
  {p : Program I α}

/-- A step is the same in states that agree on the part that it depends on. -/
theorem step_agree (hlocal : h.Local P own) (hp : p.Asks P) {s s' : S} (hs : own s = own s')
    (t : τ) :
    (p.step h (s, t)).1 = (p.step h (s', t)).1 ∧
      own (p.step h (s, t)).2.1 = own (p.step h (s', t)).2.1 ∧
      (p.step h (s, t)).2.2 = (p.step h (s', t)).2.2 := by
  cases p with
  | done a => exact ⟨rfl, hs, rfl⟩
  | ask q resume =>
    obtain ⟨hanswer, hown, hmemory⟩ := hlocal q s s' t hp.1 hs
    exact ⟨congrArg resume hanswer, hown, hmemory⟩

private theorem step_spares (hspares : h.Spares P part) (hp : p.Asks P) (w : S × τ) :
    part (p.step h w).2.1 = part w.1 := by
  cases p with
  | done a => rfl
  | ask q resume => exact hspares q w hp.1

/-- The whole run of a program with local questions depends on its own part of the state only. -/
theorem run_agree (hlocal : h.Local P own) (hp : p.Asks P) {s s' : S} (hs : own s = own s')
    (t : τ) :
    (p.run h (s, t)).1 = (p.run h (s', t)).1 ∧
      own (p.run h (s, t)).2.1 = own (p.run h (s', t)).2.1 ∧
      (p.run h (s, t)).2.2 = (p.run h (s', t)).2.2 := by
  induction p generalizing s s' t with
  | done a => exact ⟨rfl, hs, rfl⟩
  | ask q resume ih =>
    obtain ⟨hanswer, hown, hmemory⟩ := hlocal q s s' t hp.1 hs
    have hrest := ih (h q (s, t)).1 (hp.2 _) hown (h q (s, t)).2.2
    have hstate : (h q (s', t)).2 = ((h q (s', t)).2.1, (h q (s, t)).2.2) :=
      Prod.ext rfl hmemory.symm
    rw [run, run, ← hanswer, hstate]
    exact hrest

private theorem run_spares (hspares : h.Spares P part) (hp : p.Asks P) (w : S × τ) :
    part (p.run h w).2.1 = part w.1 :=
  run_induction (R := fun u v : S × τ => part v.1 = part u.1) (fun _ => rfl)
    (fun _ _ _ h₁ h₂ => h₂.trans h₁) (fun q w hq => hspares q w hq) hp w

end Parts

/-! ## Turns -/

/-- Two programs run in an order of turns; a turn of a program that is done passes. After the last
turn the first program is run to its end and then the second one. -/
def interleave (h : Handler I (S × τ)) (g : Handler J (S × υ)) :
    List Side → Program I α → Program J β → S × τ × υ → (α × β) × (S × τ × υ)
  | [], p, q, (s, t, u) =>
    let (a, s₁, t₁) := p.run h (s, t)
    let (b, s₂, u₁) := q.run g (s₁, u)
    ((a, b), s₂, t₁, u₁)
  | .first :: turns, p, q, (s, t, u) =>
    let (p₁, s₁, t₁) := p.step h (s, t)
    interleave h g turns p₁ q (s₁, t₁, u)
  | .second :: turns, p, q, (s, t, u) =>
    let (q₁, s₁, u₁) := q.step g (s, u)
    interleave h g turns p q₁ (s₁, t, u₁)

/-- What has come of two programs is what comes of each of them alone: their results, their parts of
the shared state, and their memories. -/
structure AsAlone (own : S → A) (own' : S → B) (one : α × S × τ) (other : β × S × υ)
    (both : (α × β) × (S × τ × υ)) : Prop where
  results : both.1 = (one.1, other.1)
  first : own both.2.1 = own one.2.1
  second : own' both.2.1 = own' other.2.1
  memories : both.2.2 = (one.2.2, other.2.2)

section Turns

variable {h : Handler I (S × τ)} {g : Handler J (S × υ)} {P : I.Question → Prop}
  {Q : J.Question → Prop} {own : S → A} {own' : S → B} {p : Program I α} {q : Program J β}

/-- Each of two programs runs as it does alone if it depends on a part of the shared state only that
the other one leaves as it is. The state in which one is alone may be another one if it agrees on
the program's part. -/
theorem asAlone_interleave (hlocal : h.Local P own) (glocal : g.Local Q own')
    (hspares : h.Spares P own') (gspares : g.Spares Q own) (hp : p.Asks P) (hq : q.Asks Q)
    (turns : List Side) {s s₁ s₂ : S} (h₁ : own s = own s₁) (h₂ : own' s = own' s₂) (t : τ)
    (u : υ) :
    AsAlone own own' (p.run h (s₁, t)) (q.run g (s₂, u)) (interleave h g turns p q (s, t, u)) := by
  -- A turn of one program takes the state where it is alone along; the other program's part and
  -- the state where that one is alone stay.
  induction turns generalizing p q s s₁ s₂ t u with
  | nil =>
    obtain ⟨hresult, hown, hmemory⟩ := run_agree hlocal hp h₁ t
    have hmid : own' (p.run h (s, t)).2.1 = own' s₂ := (run_spares hspares hp _).trans h₂
    obtain ⟨gresult, gown, gmemory⟩ := run_agree glocal hq hmid u
    have hkeep : own (q.run g ((p.run h (s, t)).2.1, u)).2.1 = own (p.run h (s, t)).2.1 :=
      run_spares gspares hq _
    exact ⟨Prod.ext hresult gresult, hkeep.trans hown, gown, Prod.ext hmemory gmemory⟩
  | cons side turns ih =>
    cases side with
    | first =>
      obtain ⟨hprogram, hown, hmemory⟩ := step_agree hlocal hp h₁ t
      have hkeep : own' (p.step h (s, t)).2.1 = own' s₂ := (step_spares hspares hp _).trans h₂
      have hrest := ih (hp.step h (s, t)) hq hown hkeep (p.step h (s, t)).2.2 u
      have halone : (p.step h (s, t)).1.run h ((p.step h (s₁, t)).2.1, (p.step h (s, t)).2.2) =
          p.run h (s₁, t) := by
        rw [hprogram, hmemory]
        exact run_step h p (s₁, t)
      rw [halone] at hrest
      exact hrest
    | second =>
      obtain ⟨gprogram, gown, gmemory⟩ := step_agree glocal hq h₂ u
      have hkeep : own (q.step g (s, u)).2.1 = own s₁ := (step_spares gspares hq _).trans h₁
      have hrest := ih hp (hq.step g (s, u)) hkeep gown t (q.step g (s, u)).2.2
      have halone : (q.step g (s, u)).1.run g ((q.step g (s₂, u)).2.1, (q.step g (s, u)).2.2) =
          q.run g (s₂, u) := by
        rw [gprogram, gmemory]
        exact run_step g q (s₂, u)
      rw [halone] at hrest
      exact hrest

/-- What both programs leave as it is stays so. -/
theorem interleave_spares {part : S → A} (hspares : h.Spares P part) (gspares : g.Spares Q part)
    (hp : p.Asks P) (hq : q.Asks Q) (turns : List Side) (s : S) (t : τ) (u : υ) :
    part (interleave h g turns p q (s, t, u)).2.1 = part s := by
  induction turns generalizing p q s t u with
  | nil =>
    exact (run_spares gspares hq ((p.run h (s, t)).2.1, u)).trans (run_spares hspares hp (s, t))
  | cons side turns ih =>
    cases side with
    | first =>
      exact (ih (hp.step h (s, t)) hq _ _ u).trans (step_spares hspares hp (s, t))
    | second =>
      exact (ih hp (hq.step g (s, u)) _ t _).trans (step_spares gspares hq (s, u))

end Turns

end Program

end CertKeeper
