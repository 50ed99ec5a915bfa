import Mathlib.Data.List.Infix
import Cheviot.Spec.Machine

/-!
# Loading a script

What the load of a file leaves in the outputs, and which descriptors it opens and
closes. What `malloc` left in a block counts: `read` need not write all of it.
-/

namespace Cheviot.Spec

open Framework Cheviot.Sysinit

/-- The size that is kept with a script. -/
def scriptSize (g : Globals) : Slot → Nat
  | .startup => g.sStartupScriptSize
  | .shutdown => g.sShutdownScriptSize

/-- The descriptors that have been opened, in order. -/
def opened (t : List (Event sys)) : List Int :=
  t.filterMap fun e =>
    match e with
    | ⟨.open _, (fd, _)⟩ => if fd < 0 then none else some fd
    | _ => none

/-- The descriptors that have been closed, in order. -/
def closed (t : List (Event sys)) : List Int :=
  t.filterMap fun e =>
    match e.call with
    | .close fd => some fd
    | _ => none

/-- The blocks that have been allocated for scripts, as `malloc` left them. -/
def scriptBlocks (t : List (Event sys)) : List (List Char) :=
  t.filterMap fun e =>
    match e with
    | ⟨.malloc (.script _) _, (block, _)⟩ => block.map Vector.toList
    | _ => none

/-- What each `read` has put into its buffer: nothing if it failed. -/
def bytesRead (t : List (Event sys)) : List (List Char) :=
  t.filterMap fun e =>
    match e with
    | ⟨.read .., (data, _)⟩ => some (data.getD [])
    | _ => none

/-- The answer is that of a file that holds `content`: `fstat` tells its size, and
`read` fails or delivers its first bytes, no more than it is asked for. -/
def AnswersOf (content : List Char) : Event sys → Prop
  | ⟨.fstat _, (st, _)⟩ => st.1 = 0 → st.2 = content.length
  | ⟨.read _ _ size, (data, _)⟩ => ∀ s, data = some s → s <+: content ∧ s.length ≤ size
  | _ => True

/-- The load that ends as `x` from `g`, with the calls `t`, succeeds with the file and
its size, or fails and leaves the outputs alone, and closes what it has opened. -/
structure LoadsFile (content : List Char) (slot : Slot) (g : Globals) (t : List (Event sys))
    (x : Out Int × Globals) : Prop where
  ok : x.1 = .ok 0 →
    script x.2 slot = some (content ++ [NUL]) ∧ scriptSize x.2 slot = content.length
  failed : x.1 ≠ .ok 0 → x.1 = .ok (-1) ∧ script x.2 slot = script g slot ∧
    scriptSize x.2 slot = scriptSize g slot
  closed : closed t = opened t

/-- What was not read of the file was in the block anyhow. -/
def HeldBefore (content : List Char) (t : List (Event sys)) : Prop :=
  ∀ block ∈ scriptBlocks t, ∀ data ∈ bytesRead t,
    (block.take content.length).drop data.length = content.drop data.length

instance (content : List Char) (t : List (Event sys)) : Decidable (HeldBefore content t) :=
  inferInstanceAs (Decidable (∀ block ∈ scriptBlocks t, ∀ data ∈ bytesRead t,
    (block.take content.length).drop data.length = content.drop data.length))

end Cheviot.Spec
