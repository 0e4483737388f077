import CertKeeper.Proofs.Running

/-!
# Runs that may be cut short

Where surroundings may break down, a question has several possible answers, and a run may stop
before any of its questions. `Program.Runs` is a run that has got somewhere; `Program.Always` says
what holds at every moment of all of them and what holds at the end. The rules for
`Action.Always` follow the ways to build an action, and `Program.Always.of_runs` takes a claim from
there to a run.
-/

namespace CertKeeper

variable {I : Interface} {α β σ : Type}

/-- What may become of a question in a state: an answer and the next state. -/
abbrev Service (I : Interface) (σ : Type) := (q : I.Question) → σ → I.Answer q → σ → Prop

namespace Program

/-- A run from a state to another one, with the result if it has come to its end. -/
inductive Runs (A : Service I σ) : Program I α → σ → Option α → σ → Prop where
  | done (a : α) (w : σ) : Runs A (.done a) w (some a) w
  | stopped (p : Program I α) (w : σ) : Runs A p w none w
  | asked {q : I.Question} {resume : I.Answer q → Program I α} {w w₁ w₂ : σ} {r : I.Answer q}
      {x : Option α} (answer : A q w r w₁) (later : Runs A (resume r) w₁ x w₂) :
      Runs A (.ask q resume) w x w₂

/-- In every run from a state `C` holds at every moment, and `Q` holds at the end. -/
def Always (A : Service I σ) (C : σ → Prop) (Q : α → σ → Prop) : Program I α → σ → Prop
  | .done a, w => C w ∧ Q a w
  | .ask q resume, w => C w ∧ ∀ r w', A q w r w' → (resume r).Always A C Q w'

variable {A : Service I σ} {C : σ → Prop} {Q : α → σ → Prop} {p : Program I α} {w w' : σ}

/-- A run that stops before its questions exceed a number. -/
def runFor (h : Handler I σ) : Nat → Program I α → σ → Option α × σ
  | _, .done a, w => (some a, w)
  | 0, .ask _ _, w => (none, w)
  | n + 1, .ask q resume, w => (resume (h q w).1).runFor h n (h q w).2

/-- A way to answer questions gives runs of all lengths. -/
theorem runs_runFor {h : Handler I σ} (hA : ∀ q w, A q w (h q w).1 (h q w).2) (n : Nat)
    (p : Program I α) (w : σ) : p.Runs A w (p.runFor h n w).1 (p.runFor h n w).2 := by
  induction p generalizing n w with
  | done a => cases n <;> exact .done a w
  | ask q resume ih =>
    cases n with
    | zero => exact .stopped _ w
    | succ n => exact .asked (hA q w) (ih _ n _)

/-- What always holds, holds now. -/
theorem Always.now (hp : p.Always A C Q w) : C w := by
  cases p with
  | done a => exact hp.1
  | ask q resume => exact hp.1

/-- What always holds, holds wherever a run has got to, and its result is as promised. -/
theorem Always.of_runs {x : Option α} (hp : p.Always A C Q w) (hrun : p.Runs A w x w') :
    C w' ∧ ∀ a, x = some a → Q a w' := by
  induction hrun with
  | done a w =>
    refine ⟨hp.1, ?_⟩
    intro b hb
    cases hb
    exact hp.2
  | stopped p w => exact ⟨hp.now, by simp⟩
  | asked answer _ ih => exact ih (hp.2 _ _ answer)

/-- A program that always keeps one thing and ends in one way also keeps and ends in what follows
from these. -/
theorem Always.mono {C' : σ → Prop} {Q' : α → σ → Prop} (hp : p.Always A C Q w)
    (hC : ∀ w, C w → C' w) (hQ : ∀ a w, C w → Q a w → Q' a w) : p.Always A C' Q' w := by
  induction p generalizing w with
  | done a => exact ⟨hC _ hp.1, hQ _ _ hp.1 hp.2⟩
  | ask q resume ih => exact ⟨hC _ hp.1, fun r w' h => ih r (hp.2 r w' h)⟩

/-- A program followed by another one keeps what both keep. -/
theorem Always.bind {f : α → Program I β} {Q : β → σ → Prop}
    (hp : p.Always A C (fun a w => (f a).Always A C Q w) w) : (p.bind f).Always A C Q w := by
  induction p generalizing w with
  | done a => exact hp.2
  | ask q resume ih => exact ⟨hp.1, fun r w' h => ih r (hp.2 r w' h)⟩

/-- A program whose questions change nothing leaves the state alone, whatever comes of it. -/
theorem always_of_asks {P : I.Question → Prop} (hp : p.Asks P)
    (keeps : ∀ q r w', P q → A q w r w' → w' = w) (hw : C w) :
    p.Always A C (fun _ w' => w' = w) w := by
  induction p with
  | done a => exact ⟨hw, rfl⟩
  | ask q resume ih =>
    refine ⟨hw, ?_⟩
    intro r w' h
    obtain rfl := keeps q r w' hp.1 h
    exact ih r (hp.2 r)

end Program

namespace Action

/-- A condition on results and one on failures as one condition. -/
def Ends (Q : α → σ → Prop) (E : Failure → σ → Prop) : Except Failure α → σ → Prop
  | .ok x => Q x
  | .error e => E e

/-- In every run from a state `C` holds at every moment, `Q` holds at the end if there is a result,
and `E` if there is a failure. -/
structure Always (A : Service I σ) (C : σ → Prop) (a : Action I α) (Q : α → σ → Prop)
    (E : Failure → σ → Prop) (w : σ) : Prop where
  run : Program.Always A C (Ends Q E) a.run w

variable {A : Service I σ} {C C' : σ → Prop} {Q Q' : α → σ → Prop} {E E' : Failure → σ → Prop}
variable {a : Action I α} {w : σ}

/-- An action that always keeps one thing and ends in one way also keeps and ends in what follows
from these. -/
theorem Always.mono (ha : Always A C a Q E w) (hC : ∀ w, C w → C' w)
    (hQ : ∀ x w, C w → Q x w → Q' x w) (hE : ∀ e w, C w → E e w → E' e w) :
    Always A C' a Q' E' w := by
  refine ⟨ha.run.mono hC ?_⟩
  intro r w hw hr
  cases r with
  | ok x => exact hQ x w hw hr
  | error e => exact hE e w hw hr

/-! ## Rules -/

/-- A value that is there already is an end. -/
theorem Always.pure {x : α} (hC : C w) (hQ : Q x w) :
    Always A C (Pure.pure x : Action I α) Q E w := ⟨hC, hQ⟩

/-- A failure is an end. -/
theorem Always.throw {e : Failure} (hC : C w) (hE : E e w) :
    Always A C (MonadExcept.throw e : Action I α) Q E w := ⟨hC, hE⟩

/-- An action followed by another one keeps what both keep, and ends where the first fails or where
the second ends. -/
theorem Always.bind {f : α → Action I β} {Q : β → σ → Prop}
    (ha : Always A C a (fun x w => Always A C (f x) Q E w) E w) :
    Always A C (a >>= f) Q E w := by
  refine ⟨Program.Always.bind (ha.run.mono (fun _ h => h) ?_)⟩
  intro r w hw hr
  cases r with
  | ok x => exact hr.run
  | error e => exact ⟨hw, hr⟩

/-- An action whose failure is made a result keeps what it keeps, and never fails. -/
theorem Always.outcome {E' : Failure → σ → Prop} {Q : Except Failure α → σ → Prop}
    (ha : Always A C a (fun x => Q (.ok x)) (fun e => Q (.error e)) w) :
    Always A C (Action.outcome a) Q E' w := by
  refine ⟨Program.Always.bind (ha.run.mono (fun _ h => h) ?_)⟩
  intro r w hw hr
  cases r with
  | ok x => exact ⟨hw, hr⟩
  | error e => exact ⟨hw, hr⟩

/-- A result or failure that is there already is an end. -/
theorem Always.ofExcept {ε : Type} {wrap : ε → Failure} {r : Except ε α} (hC : C w)
    (hr : Ends Q E (r.mapError wrap) w) : Always A C (Action.ofExcept wrap r : Action I α) Q E w :=
  ⟨hC, hr⟩

/-- One action for each member of a list in turn: `Inv` relates what has been done and what is
left. -/
theorem Always.forM {l : List β} {f : β → Action I PUnit} (Inv : List β → List β → σ → Prop)
    (now : ∀ w, Inv l [] w → C w)
    (step : ∀ before x after w, l = before ++ x :: after → Inv before (x :: after) w →
      Always A C (f x) (fun _ => Inv (before ++ [x]) after) E w)
    (hw : Inv [] l w) : Always A C (l.forM f) (fun _ => Inv l []) E w := by
  suffices h : ∀ after before w, l = before ++ after → Inv before after w →
      Always A C (after.forM f) (fun _ => Inv l []) E w from h l [] w rfl hw
  intro after
  induction after with
  | nil =>
    intro before w hl hw
    obtain rfl : l = before := by simpa using hl
    exact Always.pure (now w hw) hw
  | cons x after ih =>
    intro before w hl hw
    refine Always.bind ((step before x after w hl hw).mono (fun _ h => h) ?_ fun _ _ _ h => h)
    intro _ w _ hw
    exact ih (before ++ [x]) w (by simp [hl]) hw

/-- Actions that give known results and change nothing, for each member of a list in turn. -/
theorem Always.mapM {γ : Type} {l : List β} {f : β → Action I γ} {g : β → γ} (hC : C w)
    (step : ∀ x ∈ l, Always A C (f x) (fun y w' => y = g x ∧ w' = w) E w) :
    Always A C (l.mapM f) (fun ys w' => ys = l.map g ∧ w' = w) E w := by
  induction l with
  | nil => exact Always.pure hC ⟨rfl, rfl⟩
  | cons x l ih =>
    rw [List.mapM_cons]
    refine Always.bind ((step x (by simp)).mono (fun _ h => h) ?_ fun _ _ _ h => h)
    rintro _ _ - ⟨rfl, rfl⟩
    refine Always.bind ((ih fun x hx => step x (by simp [hx])).mono (fun _ h => h) ?_
      fun _ _ _ h => h)
    rintro _ _ - ⟨rfl, rfl⟩
    exact Always.pure hC ⟨rfl, rfl⟩

/-- An action whose questions change nothing leaves the state alone, whatever comes of it. -/
theorem always_of_asks {P : I.Question → Prop} (ha : Asks P a)
    (keeps : ∀ q r w', P q → A q w r w' → w' = w) (hw : C w) :
    Always A C a (fun _ w' => w' = w) (fun _ w' => w' = w) w := by
  refine ⟨(Program.always_of_asks ha keeps hw).mono (fun _ h => h) ?_⟩
  intro r w' _ hw'
  cases r with
  | ok x => exact hw'
  | error e => exact hw'

end Action

end CertKeeper
