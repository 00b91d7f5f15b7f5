/-!
# Words — the one addition that can fail

Sizes, offsets and line numbers are natural numbers throughout the library,
but they are stored in machine words of 64 bits, which hold the numbers below
`UInt64.size`. An addition whose result no word holds is not an answer: it is
an `Overflow`, and what was being computed is given up. `Word.add` is the only
place that decides this.
-/

namespace ByteLexer

/-- A sum that no machine word holds. -/
inductive Overflow where
  | addition
  deriving DecidableEq, Repr

/-- What is reported when a sum does not fit. -/
def Overflow.message : Overflow → String
  | .addition => "attempt to add with overflow"

/-- The sum of two words, if a word holds it. -/
def Word.add (a b : Nat) : Except Overflow Nat :=
  if a + b < UInt64.size then .ok (a + b) else .error .addition

/-- A sum below the bound is the sum of the numbers. -/
theorem Word.add_eq_ok {a b : Nat} (h : a + b < UInt64.size) : Word.add a b = .ok (a + b) :=
  if_pos h

/-- A sum is refused exactly when it reaches the bound. -/
theorem Word.add_eq_error_iff {a b : Nat} :
    Word.add a b = .error .addition ↔ UInt64.size ≤ a + b := by
  unfold Word.add
  split <;> simp <;> omega

end ByteLexer
