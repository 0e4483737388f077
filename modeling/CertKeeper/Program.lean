/-!
# Programs that ask

A computation that needs answers from its surroundings is a tree: it is done, or it asks a question
and goes on with whatever the answer is. Every way to answer the questions, step by step, is then a
fold over the tree (`Program.run`). The questions of a program can be replaced by programs that ask
others (`Program.expand`); what this does to a run says `Program.run_expand`.
-/

namespace CertKeeper

/-- The questions that a program may ask and the kind of answer to each. -/
structure Interface where
  Question : Type
  Answer : Question → Type

/-- The questions of two interfaces. -/
def Interface.sum (I J : Interface) : Interface where
  Question := I.Question ⊕ J.Question
  Answer
    | .inl q => I.Answer q
    | .inr q => J.Answer q

/-- A computation with questions. -/
inductive Program (I : Interface) (α : Type) : Type where
  | done (a : α)
  | ask (q : I.Question) (resume : I.Answer q → Program I α)

/-- A way to answer questions that may keep something in mind. -/
abbrev Handler (I : Interface) (σ : Type) := (q : I.Question) → σ → I.Answer q × σ

namespace Program

variable {I J : Interface} {α β σ : Type}

/-- One program after another. -/
def bind : Program I α → (α → Program I β) → Program I β
  | .done a, f => f a
  | .ask q resume, f => .ask q fun r => (resume r).bind f

instance : Monad (Program I) where
  pure := .done
  bind := bind

/-- A question as a program. -/
def question (q : I.Question) : Program I (I.Answer q) := .ask q .done

/-- The result of a program whose questions are answered in turn, and what the answering has in mind
at the end. -/
def run (h : Handler I σ) : Program I α → σ → α × σ
  | .done a, s => (a, s)
  | .ask q resume, s => (resume (h q s).1).run h (h q s).2

/-- The effect of a program whose questions are answered by effects. -/
def perform {m : Type → Type} [Monad m] (h : (q : I.Question) → m (I.Answer q)) :
    Program I α → m α
  | .done a => pure a
  | .ask q resume => do (resume (← h q)).perform h

/-- A program with its questions replaced by programs. -/
def expand (t : (q : I.Question) → Program J (I.Answer q)) : Program I α → Program J α
  | .done a => .done a
  | .ask q resume => (t q).bind fun r => (resume r).expand t

/-- A program among further questions, its own being the first ones. -/
def left (p : Program I α) : Program (I.sum J) α := p.expand fun q => .ask (.inl q) .done

/-- A program among further questions, its own being the second ones. -/
def right (p : Program J α) : Program (I.sum J) α := p.expand fun q => .ask (.inr q) .done

/-- Being done is neutral on the right of a sequence of programs. -/
theorem bind_done (p : Program I α) : p.bind .done = p := by
  induction p with
  | done a => rfl
  | ask q resume ih => simp [bind, ih]

/-- A sequence of programs does not depend on how it is grouped. -/
theorem bind_assoc {γ : Type} (p : Program I α) (f : α → Program I β) (g : β → Program I γ) :
    (p.bind f).bind g = p.bind fun a => (f a).bind g := by
  induction p with
  | done a => rfl
  | ask q resume ih => simp [bind, ih]

instance : LawfulMonad (Program I) :=
  LawfulMonad.mk' (Program I)
    (fun p => bind_done p)
    (fun _ _ => rfl)
    (fun p f g => bind_assoc p f g)

/-- A sequence of programs is run in sequence. -/
theorem run_bind (h : Handler I σ) (p : Program I α) (f : α → Program I β) (s : σ) :
    (p.bind f).run h s = (f (p.run h s).1).run h (p.run h s).2 := by
  induction p generalizing s with
  | done a => rfl
  | ask q resume ih => simp [bind, run, ih]

/-- An expanded program runs like the program itself with the replacements run as answers. -/
theorem run_expand (t : (q : I.Question) → Program J (I.Answer q)) (h : Handler J σ)
    (p : Program I α) (s : σ) :
    (p.expand t).run h s = p.run (fun q s => (t q).run h s) s := by
  induction p generalizing s with
  | done a => rfl
  | ask q resume ih => simp [expand, run, run_bind, ih]

end Program

end CertKeeper
