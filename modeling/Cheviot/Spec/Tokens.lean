import Cheviot.Spec.Script

/-!
# Calls of the tokenizer

`s_tokenize` on a line in an array of any size: first of the line, then with NULL,
and what the calls are to return and leave. The other way round, which lists of
strings are the tokens of a line (`Expressible`), and a line that has them
(`quoted`).
-/

namespace Cheviot.Spec

open Framework Cheviot.Sysinit

/-- The tokens of a line that is at index `p` of an array, in their places. -/
def spans (p : Nat) (line : Str) : List (Span Char) := spansBy ' ' '"' p line

/-- Call `j` of `s_tokenize` on the line at `p`, where call 0 gets the line and the
others get NULL: what it returns and leaves. It is none if that call, or one before
it, reads or writes outside the array. -/
def tokenizeCall {n : Nat} (m : Scanner n) (p : Nat) : Nat → Option (Option Nat × Scanner n)
  | 0 => m.tokenize (some p)
  | j + 1 => (tokenizeCall m p j).bind fun r => r.2.tokenize none

/-- The calls of `s_tokenize` on the line at `p` return the strings `ts` in order, and
then NULL. -/
def Produces {n : Nat} (m : Scanner n) (p : Nat) (ts : List Str) : Prop :=
  ∀ j, ∃ tok m', tokenizeCall m p j = some (tok, m') ∧ tok.map (cstr m'.buf) = ts[j]?

/-- What a line can hold. -/
def IsText (s : Str) : Prop := ∀ c ∈ s, c ≠ NUL ∧ ¬ isEol c

instance (s : Str) : Decidable (IsText s) :=
  decidable_of_iff (s.all fun c => c ≠ NUL && !isEol c) (by simp [IsText])

/-- A string that can be a token of a line. -/
def Expressible (tok : Str) : Prop := '"' ∉ tok ∨ (tok ≠ [] ∧ ' ' ∉ tok ∧ tok.head? ≠ some '"')

/-- Strings on a line: each of them in double quotes, and single spaces between them. -/
def quoted (ts : List Str) : Str := [' '].intercalate (ts.map fun tok => '"' :: (tok ++ ['"']))

end Cheviot.Spec
