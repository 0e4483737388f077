/-!
# Similar texts

What two texts have in common is their longest common run, and then what is common to the parts
before it and to the parts after it. Two texts are similar if this is at least three fifths of
their mean length.
-/

namespace CertKeeper.Text

/-- The length of the common beginning of two texts. -/
def commonLength : List Char → List Char → Nat
  | a :: as, b :: bs => if a = b then commonLength as bs + 1 else 0
  | _, _ => 0

/-- A common run of two texts: where it starts in each, and its length. -/
structure CommonRun where
  first : Nat
  second : Nat
  length : Nat

/-- The longest common run of two texts; of several the first in the first text and then in the
second one. -/
def longestRun (a b : List Char) : CommonRun :=
  let starts := (List.range a.length).flatMap fun i => (List.range b.length).map fun j => (i, j)
  starts.foldl
    (fun best s =>
      let n := commonLength (a.drop s.1) (b.drop s.2)
      if best.length < n then ⟨s.1, s.2, n⟩ else best)
    ⟨0, 0, 0⟩

/-- The number of characters that two texts have in common. -/
def commonCount (a b : List Char) : Nat :=
  let run := longestRun a b
  if _h : 0 < run.length ∧ run.first < a.length then
    commonCount (a.take run.first) (b.take run.second) + run.length +
      commonCount (a.drop (run.first + run.length)) (b.drop (run.second + run.length))
  else 0
termination_by a.length
decreasing_by
  · simp +zetaDelta only [List.length_take] at _h ⊢
    omega
  · simp +zetaDelta only [List.length_drop] at _h ⊢
    omega

/-- A text with the characters that it has in common with another one, and the length of both. -/
structure Candidate where
  text : String
  common : Nat
  total : Nat

namespace Candidate

/-- A text as a candidate for what a word may mean. -/
def of (word text : String) : Candidate :=
  ⟨text, commonCount text.toList word.toList, text.length + word.length⟩

/-- Whether a candidate is similar to its word. -/
def isSimilar (c : Candidate) : Bool := 3 * c.total ≤ 10 * c.common

/-- Whether a candidate is to be named before another one. -/
def precedes (a b : Candidate) : Bool :=
  b.common * a.total < a.common * b.total ||
    (a.common * b.total == b.common * a.total && b.text ≤ a.text)

end Candidate

/-- The most suggestions for one word. -/
def maxSuggestions : Nat := 3

/-- The texts most similar to a word, in ascending order. -/
def suggestions (word : String) (texts : List String) : List String :=
  let similar := (texts.map (Candidate.of word)).filter Candidate.isSimilar
  let best := (similar.mergeSort Candidate.precedes).take maxSuggestions
  (best.map Candidate.text).mergeSort fun a b => a ≤ b

end CertKeeper.Text
