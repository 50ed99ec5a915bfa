import Cheviot.Framework.Numeral
import Cheviot.Spec.Tokens

/-!
# The program of an s script

An s script without its text: the commands that it has, each with the operands that it reads as
values, and whether a `waitfor` without an operand ends them (`Program`). `program` reads the one
of a script, `Program.run` runs it, and `Program.text` writes a script that has it. C does not say
what `atoi` makes of a number that fits no `int`: `NumbersFit` excludes it.
-/

namespace Cheviot.Spec

open Framework Cheviot.Sysinit

/-! ## Commands -/

/-- A command with its operands. The mode of a node includes its kind. -/
inductive Instr where
  | start (path : Str) (args : List Str)
  | waitfor (path : Str)
  | mknod (path : Str) (mode : BitVec 32)
  | sleep (seconds : Int)
  | chdir (path : Str)
  | pivot (newRoot oldRoot : Str)
  | renamemount (newPath oldPath : Str)
  | createport
  deriving DecidableEq, Repr

/-- What a command does. -/
def Instr.run (fuel : Nat) : Instr → Effect
  | .start path args => perform (.fork (.start false (path :: args)))
  | .waitfor path => poll fuel path
  | .mknod path mode => perform (.mknod2 path 0
      { stSize := some 0, stUid := some 0, stGid := some 0, stMode := some mode })
  | .sleep seconds => perform (.sleep (BitVec.ofInt 32 seconds))
  | .chdir path => perform (.chdir path)
  | .pivot newRoot oldRoot => perform (.pivotroot newRoot oldRoot)
  | .renamemount newPath oldPath => perform (.renamemount newPath oldPath)
  | .createport => Spec.createport

/-- The command of a name and its operands, if there is one of the name and they are enough. -/
def Instr.read (cmd : Str) (ops : List Str) : Option Instr :=
  if cmd = "start".toList then
    match ops with
    | path :: args => some (.start path args)
    | [] => none
  else if cmd = "waitfor".toList then
    ops.head?.map .waitfor
  else if cmd = "mknod".toList then
    match ops with
    | path :: mode :: type :: _ => (nodeMode mode type).map (.mknod path)
    | _ => none
  else if cmd = "sleep".toList then
    ops.head?.map fun seconds => .sleep (atoi seconds)
  else if cmd = "chdir".toList then
    ops.head?.map .chdir
  else if cmd = "pivot".toList then
    match ops with
    | newRoot :: oldRoot :: _ => some (.pivot newRoot oldRoot)
    | _ => none
  else if cmd = "renamemount".toList then
    match ops with
    | newPath :: oldPath :: _ => some (.renamemount newPath oldPath)
    | _ => none
  else if cmd = "createport".toList then some .createport
  else none

/-- The command of a line, from its tokens, if it has one. -/
def instr : List Str → Option Instr
  | [] => none
  | cmd :: ops => Instr.read cmd ops

/-! ## Numbers -/

/-- The number is an `int`. -/
def FitsInt (n : Int) : Prop := -2 ^ 31 ≤ n ∧ n < 2 ^ 31

instance (n : Int) : Decidable (FitsInt n) := inferInstanceAs (Decidable (_ ∧ _))

/-- The operand of a line that is read as a number, from its tokens, if there is one. -/
def numeral : List Str → Option Str
  | [] => none
  | cmd :: ops =>
    if cmd = "sleep".toList then ops.head?
    else if cmd = "mknod".toList ∧ 3 ≤ ops.length then ops[1]?
    else none

/-- Each number on a line that is run is an `int`: on each line up to a `waitfor` without an operand. -/
def NumbersFit (script : Str) : Prop :=
  ∀ ts ∈ ((lines script).map tokens).takeWhile (· ≠ ["waitfor".toList]), ∀ n ∈ numeral ts, FitsInt (atoi n)

instance (script : Str) : Decidable (NumbersFit script) :=
  inferInstanceAs (Decidable (∀ ts ∈ ((lines script).map tokens).takeWhile (· ≠ ["waitfor".toList]),
    ∀ n ∈ numeral ts, FitsInt (atoi n)))

/-! ## Programs -/

/-- Commands, and whether a `waitfor` without an operand comes after them. -/
structure Program where
  instrs : List Instr
  stops : Bool
  deriving DecidableEq, Repr

/-- The commands in order, and the end of the process if the program stops. -/
def Program.run (fuel : Nat) (P : Program) : Effect := do
  P.instrs.forM (Instr.run fuel)
  if P.stops then Proc.exit (-1) else skip

/-- The program of lines, from their tokens. -/
def programOf : List (List Str) → Program
  | [] => ⟨[], false⟩
  | ts :: lines =>
    if ts = ["waitfor".toList] then ⟨[], true⟩
    else { programOf lines with instrs := (instr ts).toList ++ (programOf lines).instrs }

/-- The program of a script. -/
def program (script : Str) : Program := programOf ((lines script).map tokens)

/-! ## Writing a program -/

/-- A number as `atoi` reads it. -/
def decimal (i : Int) : Str :=
  if i < 0 then '-' :: Nat.toDigits 10 i.natAbs else Nat.toDigits 10 i.natAbs

/-- The tokens of a line that has the command. A node whose mode has the bits of a device has
those of a character device, so that `c` writes any of them. -/
def Instr.words : Instr → List Str
  | .start path args => "start".toList :: path :: args
  | .waitfor path => ["waitfor".toList, path]
  | .mknod path mode => ["mknod".toList, path, decimal mode.toInt, ['c']]
  | .sleep seconds => ["sleep".toList, decimal seconds]
  | .chdir path => ["chdir".toList, path]
  | .pivot newRoot oldRoot => ["pivot".toList, newRoot, oldRoot]
  | .renamemount newPath oldPath => ["renamemount".toList, newPath, oldPath]
  | .createport => ["createport".toList]

/-- The tokens of the lines of a program. -/
def Program.words (P : Program) : List (List Str) :=
  P.instrs.map Instr.words ++ if P.stops then [["waitfor".toList]] else []

/-- The lines of a program. -/
def Program.lines (P : Program) : List Str := P.words.map (writeTokens ' ' '"')

/-- A script that has the program. -/
def Program.text (P : Program) : Str := P.lines.flatMap (· ++ ['\n'])

/-- The time that a `sleep` takes is an `int`. -/
def Instr.Fits : Instr → Prop
  | .sleep seconds => FitsInt seconds
  | _ => True

/-- The strings can be on a line, a node is a device, and a number is an `int`. -/
def Instr.Writable (i : Instr) : Prop :=
  (∀ tok ∈ i.words, IsText tok ∧ Expressible tok) ∧
    (∀ path mode, i = .mknod path mode → mode &&& IFCHR = IFCHR) ∧ i.Fits

/-- Each command can be written. -/
def Program.Writable (P : Program) : Prop := ∀ i ∈ P.instrs, i.Writable

end Cheviot.Spec
