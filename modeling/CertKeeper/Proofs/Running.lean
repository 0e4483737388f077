import CertKeeper.Pass

/-!
# Running actions

An action that is run to its end gives a result or a failure, and leaves the surroundings in some
state. The lemmas say how each way to build an action runs; `Action.runWith_bind_eq_ok` and
`Action.runWith_bind_eq_error` take a finished sequence apart.
-/

namespace CertKeeper

variable {I J : Interface} {α β σ τ : Type}

namespace Handler

/-- Two handlers side by side, each with a memory of its own. -/
def sum (h : Handler I σ) (g : Handler J τ) : Handler (I.sum J) (σ × τ)
  | .inl q, w => ((h q w.1).1, (h q w.1).2, w.2)
  | .inr q, w => ((g q w.2).1, w.1, (g q w.2).2)

/-- A handler of two kinds of questions as one of the first kind. -/
def ofLeft (h : Handler (I.sum J) σ) : Handler I σ := fun q w => h (.inl q) w

/-- A handler of two kinds of questions as one of the second kind. -/
def ofRight (h : Handler (I.sum J) σ) : Handler J σ := fun q w => h (.inr q) w

/-- A handler that also writes down the questions in the order in which they are asked. -/
def logged (h : Handler I σ) : Handler I (σ × List I.Question) :=
  fun q w => ((h q w.1).1, (h q w.1).2, w.2 ++ [q])

/-- A handler that also writes down the questions with what was answered. -/
def traced (h : Handler I σ) : Handler I (σ × List (Sigma I.Answer)) :=
  fun q w => ((h q w.1).1, (h q w.1).2, w.2 ++ [⟨q, (h q w.1).1⟩])

end Handler

namespace Program

/-- A program that is run as one among further questions asks the handler its own ones. -/
private theorem run_left (h : Handler (I.sum J) σ) (p : Program I α) (w : σ) :
    (left p : Program (I.sum J) α).run h w = p.run (Handler.ofLeft h) w := by
  rw [left, run_expand]
  rfl

/-- A program that asks the second of two interfaces runs as it does alone. -/
private theorem run_right (h : Handler (I.sum J) σ) (p : Program J α) (w : σ) :
    (right p : Program (I.sum J) α).run h w = p.run (Handler.ofRight h) w := by
  rw [right, run_expand]
  rfl

/-- A program whose questions are answered from a part of what the answering has in mind leaves the
rest of it alone. -/
theorem run_part (part : σ → τ) (put : σ → τ → σ) (part_put : ∀ w x, part (put w x) = x)
    (put_put : ∀ w x y, put (put w x) y = put w y) (put_part : ∀ w, put w (part w) = w)
    (h : Handler I τ) (p : Program I α) (w : σ) :
    p.run (fun q w => ((h q (part w)).1, put w (h q (part w)).2)) w =
      ((p.run h (part w)).1, put w (p.run h (part w)).2) := by
  induction p generalizing w with
  | done a => rw [run, run, put_part]
  | ask q resume ih => rw [run, run, ih, part_put, put_put]

/-- Beside another handler a program leaves the other one's memory alone. -/
theorem run_ofLeft_sum (h : Handler I σ) (g : Handler J τ) (p : Program I α) (w : σ × τ) :
    p.run (Handler.ofLeft (Handler.sum h g)) w =
      ((p.run h w.1).1, (p.run h w.1).2, w.2) :=
  run_part Prod.fst (fun w x => (x, w.2)) (fun _ _ => rfl) (fun _ _ _ => rfl) (fun _ => rfl) h p w

/-- A program that asks the second of two interfaces leaves the first one's state alone. -/
theorem run_ofRight_sum (h : Handler I σ) (g : Handler J τ) (p : Program J α) (w : σ × τ) :
    p.run (Handler.ofRight (Handler.sum h g)) w =
      ((p.run g w.2).1, w.1, (p.run g w.2).2) :=
  run_part Prod.snd (fun w x => (w.1, x)) (fun _ _ => rfl) (fun _ _ _ => rfl) (fun _ => rfl) g p w

/-- All questions that a program may come to ask are of a kind, whatever the answers are. -/
def Asks (P : I.Question → Prop) : Program I α → Prop
  | .done _ => True
  | .ask q resume => P q ∧ ∀ r, (resume r).Asks P

/-- A program that asks only some questions asks only what more general conditions allow. -/
theorem Asks.mono {P Q : I.Question → Prop} (hPQ : ∀ q, P q → Q q) {p : Program I α}
    (hp : p.Asks P) : p.Asks Q := by
  induction p with
  | done a => trivial
  | ask q resume ih => exact ⟨hPQ q hp.1, fun r => ih r (hp.2 r)⟩

/-- A program followed by another one asks only what both ask. -/
theorem Asks.bind {P : I.Question → Prop} {p : Program I α} {f : α → Program I β}
    (hp : p.Asks P) (hf : ∀ a, (f a).Asks P) : (p.bind f).Asks P := by
  induction p with
  | done a => exact hf a
  | ask q resume ih => exact ⟨hp.1, fun r => ih r (hp.2 r)⟩

/-- A program with its questions replaced asks what the replacements ask. -/
theorem Asks.expand {P : J.Question → Prop} {Q : I.Question → Prop}
    {t : (q : I.Question) → Program J (I.Answer q)} {p : Program I α} (hp : p.Asks Q)
    (ht : ∀ q, Q q → (t q).Asks P) : (p.expand t).Asks P := by
  induction p with
  | done a => trivial
  | ask q resume ih => exact (ht q hp.1).bind fun r => ih r (hp.2 r)

/-- A program with the first of two interfaces asks there what it asks alone. -/
theorem Asks.left {P : (I.sum J).Question → Prop} {p : Program I α}
    (hp : p.Asks fun q => P (.inl q)) : (left p : Program (I.sum J) α).Asks P :=
  hp.expand fun _ hq => ⟨hq, fun _ => trivial⟩

/-- A program with the second of two interfaces asks there what it asks alone. -/
theorem Asks.right {P : (I.sum J).Question → Prop} {p : Program J α}
    (hp : p.Asks fun q => P (.inr q)) : (right p : Program (I.sum J) α).Asks P :=
  hp.expand fun _ hq => ⟨hq, fun _ => trivial⟩

/-- Any program asks some questions. -/
theorem asks_of_forall {P : I.Question → Prop} (hP : ∀ q, P q) (p : Program I α) : p.Asks P := by
  induction p with
  | done a => trivial
  | ask q resume ih => exact ⟨hP q, ih⟩

/-- What the answering of every question of a kind keeps is kept by the run of a program that asks
questions of that kind only. -/
theorem run_induction {h : Handler I σ} {P : I.Question → Prop} {R : σ → σ → Prop}
    (refl : ∀ w, R w w) (trans : ∀ u v w, R u v → R v w → R u w)
    (step : ∀ q w, P q → R w (h q w).2) {p : Program I α} (hp : p.Asks P) (w : σ) :
    R w (p.run h w).2 := by
  induction p generalizing w with
  | done a => exact refl w
  | ask q resume ih => exact trans _ _ _ (step q w hp.1) (ih _ (hp.2 _) _)

/-- Handlers that answer the questions of a program alike run it alike. -/
theorem run_congr {h g : Handler I σ} {P : I.Question → Prop} (hP : ∀ q, P q → h q = g q)
    {p : Program I α} (hp : p.Asks P) (w : σ) : p.run h w = p.run g w := by
  induction p generalizing w with
  | done a => rfl
  | ask q resume ih =>
    rw [run, run, hP q hp.1]
    exact ih _ (hp.2 _) _

/-- Writing down the questions changes neither the result nor the state, and what is written down
are questions that the program may ask. -/
private theorem run_logged (h : Handler I σ) {P : I.Question → Prop} {p : Program I α}
    (hp : p.Asks P)
    (w : σ) :
    ∃ asked, (∀ q ∈ asked, P q) ∧ ∀ log,
      p.run (Handler.logged h) (w, log) = ((p.run h w).1, (p.run h w).2, log ++ asked) := by
  induction p generalizing w with
  | done a => exact ⟨[], by simp, fun log => by simp [run]⟩
  | ask q resume ih =>
    obtain ⟨asked, hasked, hrun⟩ := ih (h q w).1 (hp.2 _) (h q w).2
    refine ⟨q :: asked, ?_, fun log => by simpa [run, Handler.logged] using hrun (log ++ [q])⟩
    intro q' hq'
    rcases List.mem_cons.mp hq' with rfl | hq'
    · exact hp.1
    · exact hasked q' hq'

end Program

namespace Action

/-- What an action ends with and the state in which it leaves its surroundings. -/
def runWith (h : Handler I σ) (a : Action I α) (w : σ) : Except Failure α × σ :=
  Program.run h a.run w

variable {h : Handler I σ} {w w' : σ}

@[simp] theorem runWith_pure (h : Handler I σ) (x : α) (w : σ) :
    runWith h (pure x : Action I α) w = (.ok x, w) := rfl

@[simp] theorem runWith_throw (h : Handler I σ) (e : Failure) (w : σ) :
    runWith h (throw e : Action I α) w = (.error e, w) := rfl

/-- The second of two actions starts where the first one ended, unless that failed. -/
theorem runWith_bind (h : Handler I σ) (a : Action I α) (f : α → Action I β) (w : σ) :
    runWith h (a >>= f) w =
      match runWith h a w with
      | (.ok x, w₁) => runWith h (f x) w₁
      | (.error e, w₁) => (.error e, w₁) := by
  have hrun : runWith h (a >>= f) w =
      ((ExceptT.bindCont f (runWith h a w).1).run h (runWith h a w).2) :=
    Program.run_bind h a.run (ExceptT.bindCont f) w
  rw [hrun]
  rcases runWith h a w with ⟨_ | _, w₁⟩ <;> rfl

/-- An action whose result is mapped runs as the action does, to the mapped result. -/
theorem runWith_map (h : Handler I σ) (f : α → β) (a : Action I α) (w : σ) :
    runWith h (f <$> a) w = ((runWith h a w).1.map f, (runWith h a w).2) := by
  rw [map_eq_pure_bind, runWith_bind]
  rcases runWith h a w with ⟨_ | _, w₁⟩ <;> rfl

/-- A mapped result comes from a result of the action. -/
theorem runWith_map_eq_ok {f : α → β} {a : Action I α} {y : β} :
    runWith h (f <$> a) w = (.ok y, w') ↔ ∃ x, runWith h a w = (.ok x, w') ∧ f x = y := by
  rw [runWith_map]
  rcases runWith h a w with ⟨e | x, w₁⟩
  · constructor
    · rintro ⟨⟩
    · rintro ⟨_, ⟨⟩, _⟩
  · constructor
    · rintro ⟨⟩
      exact ⟨x, rfl, rfl⟩
    · rintro ⟨_, ⟨⟩, rfl⟩
      rfl

@[simp] theorem runWith_ofExcept {ε : Type} (h : Handler I σ) (wrap : ε → Failure)
    (r : Except ε α) (w : σ) : runWith h (ofExcept wrap r : Action I α) w = (r.mapError wrap, w) :=
  rfl

@[simp] theorem runWith_mapFailure (h : Handler I σ) (f : Failure → Failure) (a : Action I α)
    (w : σ) : runWith h (mapFailure f a) w = ((runWith h a w).1.mapError f, (runWith h a w).2) :=
  Program.run_bind h a.run _ w

/-- A change of the failure keeps the result. -/
theorem runWith_mapFailure_eq_ok {f : Failure → Failure} {a : Action I α} {x : α} :
    runWith h (mapFailure f a) w = (.ok x, w') ↔ runWith h a w = (.ok x, w') := by
  rw [runWith_mapFailure]
  rcases runWith h a w with ⟨e | y, w₁⟩ <;> simp

/-- A changed failure comes from a failure. -/
theorem runWith_mapFailure_eq_error {f : Failure → Failure} {a : Action I α} {e : Failure} :
    runWith h (mapFailure f a) w = (.error e, w') ↔
      ∃ e₀, runWith h a w = (.error e₀, w') ∧ f e₀ = e := by
  rw [runWith_mapFailure]
  rcases runWith h a w with ⟨e₀ | y, w₁⟩
  · constructor
    · rintro ⟨⟩
      exact ⟨e₀, rfl, rfl⟩
    · rintro ⟨_, ⟨⟩, rfl⟩
      rfl
  · simp

@[simp] theorem runWith_outcome (h : Handler I σ) (a : Action I α) (w : σ) :
    runWith h (outcome a) w = (.ok (runWith h a w).1, (runWith h a w).2) :=
  Program.run_bind h a.run _ w

@[simp] theorem runWith_left (h : Handler (I.sum J) σ) (a : Action I α) (w : σ) :
    runWith h (left a : Action (I.sum J) α) w = runWith (Handler.ofLeft h) a w :=
  Program.run_left h a.run w

@[simp] theorem runWith_right (h : Handler (I.sum J) σ) (a : Action J α) (w : σ) :
    runWith h (right a : Action (I.sum J) α) w = runWith (Handler.ofRight h) a w :=
  Program.run_right h a.run w

/-- A sequence gives a result if and only if both actions do. -/
theorem runWith_bind_eq_ok {a : Action I α} {f : α → Action I β} {y : β} :
    runWith h (a >>= f) w = (.ok y, w') ↔
      ∃ x w₁, runWith h a w = (.ok x, w₁) ∧ runWith h (f x) w₁ = (.ok y, w') := by
  rw [runWith_bind]
  rcases runWith h a w with ⟨e | x, w₁⟩
  · simp
  · constructor
    · intro hf
      exact ⟨x, w₁, rfl, hf⟩
    · rintro ⟨_, _, hx, hf⟩
      cases hx
      exact hf

/-- What follows a result that is there already starts with it. -/
theorem runWith_ofExcept_bind_eq_ok {ε : Type} {wrap : ε → Failure} {r : Except ε α}
    {f : α → Action I β} {y : β} :
    runWith h (ofExcept wrap r >>= f) w = (.ok y, w') ↔
      ∃ x, r = .ok x ∧ runWith h (f x) w = (.ok y, w') := by
  rw [runWith_bind, runWith_ofExcept]
  cases r with
  | error e => simp
  | ok x => simp

/-- A sequence fails if and only if one of the two actions does. -/
theorem runWith_bind_eq_error {a : Action I α} {f : α → Action I β} {e : Failure} :
    runWith h (a >>= f) w = (.error e, w') ↔
      runWith h a w = (.error e, w') ∨
        ∃ x w₁, runWith h a w = (.ok x, w₁) ∧ runWith h (f x) w₁ = (.error e, w') := by
  rw [runWith_bind]
  rcases runWith h a w with ⟨e' | x, w₁⟩
  · simp
  · constructor
    · intro hf
      exact .inr ⟨x, w₁, rfl, hf⟩
    · rintro (hx | ⟨_, _, hx, hf⟩)
      · cases hx
      · cases hx
        exact hf

/-- What follows a computation without questions fails if and only if this does or what follows its
result. -/
theorem runWith_ofExcept_bind_eq_error {ε : Type} {wrap : ε → Failure} {r : Except ε α}
    {f : α → Action I β} {e : Failure} :
    runWith h (ofExcept wrap r >>= f) w = (.error e, w') ↔
      (∃ cause, r = .error cause ∧ wrap cause = e ∧ w = w') ∨
        ∃ x, r = .ok x ∧ runWith h (f x) w = (.error e, w') := by
  rw [runWith_bind, runWith_ofExcept]
  cases r with
  | error cause => simp
  | ok x => simp

/-- All questions that an action may come to ask are of a kind. -/
def Asks (P : I.Question → Prop) (a : Action I α) : Prop := Program.Asks P a.run

section Asks

variable {P : I.Question → Prop}

/-- An action that asks only some questions asks only what more general conditions allow. -/
theorem Asks.mono {Q : I.Question → Prop} {a : Action I α} (ha : Asks P a)
    (hPQ : ∀ q, P q → Q q) : Asks Q a := Program.Asks.mono hPQ ha

/-- A value that is there already asks nothing. -/
theorem asks_pure (x : α) : Asks P (pure x : Action I α) := trivial

/-- A failure that is there already asks nothing. -/
theorem asks_throw (e : Failure) : Asks P (throw e : Action I α) := trivial

/-- A result or failure that is there already asks nothing. -/
theorem asks_ofExcept {ε : Type} (wrap : ε → Failure) (r : Except ε α) :
    Asks P (ofExcept wrap r : Action I α) := trivial

/-- An action followed by another one asks only what both ask. -/
theorem Asks.bind {a : Action I α} {f : α → Action I β} (ha : Asks P a)
    (hf : ∀ x, Asks P (f x)) : Asks P (a >>= f) :=
  Program.Asks.bind ha fun r =>
    match r with
    | .ok x => hf x
    | .error _ => trivial

/-- An action whose result is mapped asks what the action asks. -/
theorem Asks.map {a : Action I α} (f : α → β) (ha : Asks P a) : Asks P (f <$> a) := by
  rw [map_eq_pure_bind]
  exact ha.bind fun x => asks_pure (f x)

/-- An action whose failure is mapped asks what the action asks. -/
theorem Asks.mapFailure {a : Action I α} (f : Failure → Failure) (ha : Asks P a) :
    Asks P (Action.mapFailure f a) := Program.Asks.bind ha fun _ => trivial

/-- An action whose failure is made a result asks what the action asks. -/
theorem Asks.outcome {a : Action I α} (ha : Asks P a) : Asks P (Action.outcome a) :=
  Program.Asks.bind ha fun _ => trivial

/-- What an action has asked is of the kind that it may ask, whatever was asked before. -/
theorem exists_log {a : Action I α} (ha : Asks P a) {w w' : σ × List I.Question}
    {res : Except Failure α} (hrun : runWith (Handler.logged h) a w = (res, w')) :
    ∃ asked, w'.2 = w.2 ++ asked ∧ (∀ q ∈ asked, P q) ∧
      runWith (Handler.logged h) a (w.1, []) = (res, w'.1, asked) := by
  obtain ⟨asked, hasked, hlog⟩ := Program.run_logged h ha w.1
  have hw' := hrun.symm.trans (hlog w.2)
  cases hw'
  exact ⟨asked, rfl, hasked, hlog []⟩

end Asks

/-- What the first of two actions has asked stands in front of what the second one asks. -/
theorem exists_log_bind (a : Action I α) (f : α → Action I β) (w : σ × List I.Question) :
    ∃ asked, (runWith (Handler.logged h) (a >>= f) w).2.2 =
      (runWith (Handler.logged h) a w).2.2 ++ asked := by
  rw [runWith_bind]
  rcases runWith (Handler.logged h) a w with ⟨e | x, w₁⟩
  · exact ⟨[], (List.append_nil _).symm⟩
  · obtain ⟨asked, hlog, _⟩ :=
      exists_log (P := fun _ => True) (Program.asks_of_forall (fun _ => trivial) (f x).run) rfl
    exact ⟨asked, hlog⟩

end Action

end CertKeeper
