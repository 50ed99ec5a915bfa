import Cheviot.Framework.Frame
import Cheviot.Spec.Script

/-!
# Calls of the line reader

The lines of a script as `s_readline` returns them, with each of them tokenized in
place before the next call (`readLines`), and the calls of `s_readline` that
`process_bootstrap_script` makes on a script (`CallsReadline`), of which each is to
stay inside `linebuf` (`ReadsSafely`).
-/

namespace Cheviot.Spec

open Framework Cheviot.Sysinit

/-- `k` calls of `s_tokenize`, the first of the line and the others with NULL. -/
def tokenizeTimes : Nat → Option Nat → Sys Unit
  | 0, _ => pure ()
  | k + 1, line => do
    let _ ← sTokenize line
    tokenizeTimes k none

/-- Calls of `s_readline` until it returns NULL, at most `n` of them: the strings of
the lines it returns. Line `i` is given to `uses i` calls of `s_tokenize` before the
next one is read. -/
def readLines (uses : Nat → Nat) : Nat → Nat → Sys (List Str)
  | 0, _ => Proc.timeout
  | n + 1, i => do
    let line ← sReadline
    match line with
    | none => pure []
    | some line => do
      let g ← Proc.get
      tokenizeTimes (uses i) (some line)
      let rest ← readLines uses n (i + 1)
      pure (cstr g.linebuf line :: rest)

/-- `process_bootstrap_script` calls `s_readline` in `g`, in a run of it on `buf`
that it enters in `g₀`: at the start of each round of its loop. -/
def CallsReadline (buf : List Char) (g₀ g : Globals) : Prop :=
  ∃ fuel t, Proc.Rounds (fun _ : Unit => processLine fuel) () { g₀ with src := ⟨buf, 0⟩ } t () g

/-- `s_readline`, called in `g`, writes inside `linebuf` only, and what it returns is
a string there, with its NUL. -/
def LineFits (g : Globals) : Prop :=
  ∃ line g', sReadline g = .ret (.ok line, g') ∧
    ∀ p ∈ line, ∃ s r, charsFrom g'.linebuf p = s ++ NUL :: r

/-- No call of `s_readline` that `process_bootstrap_script` makes on the script leaves
`linebuf`, whatever follows the NUL of the script. -/
def ReadsSafely (script : Str) : Prop :=
  ∀ r g₀ g, CallsReadline (script ++ NUL :: r) g₀ g → LineFits g

/-- The lines that are read: up to the first bare `waitfor`, at which the process
exits. -/
def linesRead : List Str → List Str
  | [] => []
  | l :: ls => l :: if IsBareWaitfor l then [] else linesRead ls

end Cheviot.Spec
