import Cheviot.Framework.Tokens
import Cheviot.Impl.Sysinit.RunS

/-!
# What an s script means

A script is its lines, a line its tokens, and a line whose first token names a
command runs that command on the other tokens. Stated on strings, without the
buffers and cursors of `run_s.c`: the only memory is the port and the queue
that `createport` leaves.

`interpret fuel bare` runs a script, where `bare` is what a `waitfor` without
an operand does. The reference is `interpret fuel skip`, in which it does
nothing, as any other command with too few operands.
-/

namespace Cheviot.Spec

open Framework Cheviot.Sysinit

/-- A line ends at every `\r` and every `\n`. -/
def isEol (c : Char) : Bool := c = '\r' ∨ c = '\n'

/-- The lines of a script. -/
def lines (script : Str) : List Str := pieces isEol script

/-- The tokens of a line: runs of spaces separate them, and a token that
starts with `"` runs to the next `"` or the end of the line. -/
def tokens (line : Str) : List Str := tokensBy ' ' '"' line

/-- The lines of a script fit `linebuf`. -/
def LinesFit (script : Str) : Prop := ∀ l ∈ lines script, l.length ≤ 255

instance (script : Str) : Decidable (LinesFit script) :=
  inferInstanceAs (Decidable (∀ l ∈ lines script, l.length ≤ 255))

/-- What scripts leave for the message loop. -/
structure Ports where
  portid : Int
  kq : Int

/-- What a script does. -/
abbrev Effect := Proc sys Ports Unit

/-- Nothing. -/
def skip : Effect := pure ()

/-- Make a call. -/
def issue (c : Call) : Proc sys Ports c.Result := do
  let r ← Proc.call (S := sys) c
  pure r.1

/-- Make a call, whatever it returns. -/
def perform (c : Call) : Effect := do
  let _ ← issue c

@[simp] theorem issue_apply (c : Call) (p : Ports) :
    issue c p = .call c fun r => .ret (.ok r.1, p) := rfl

@[simp] theorem perform_apply (c : Call) (p : Ports) :
    perform c p = .call c fun _ => .ret (.ok (), p) := rfl

/-- Poll a path every 25 ms until it is mounted. -/
def poll (fuel : Nat) (path : Str) : Effect :=
  Proc.iter (fun _ => do
    let sc ← issue (.ismount path)
    if sc = 1 then
      pure (.done ())
    else
      let _ ← issue (.nanosleep 25000000)
      pure (.again ())) fuel ()

/-- The mode of the node a `mknod` makes, if its type is one it knows. -/
def nodeMode (mode type : Str) : Option (BitVec 32) :=
  if type.head? = some 'c' then some (BitVec.ofInt 32 (atoi mode) ||| IFCHR)
  else if type.head? = some 'b' then some (BitVec.ofInt 32 (atoi mode) ||| IFBLK)
  else none

/-- Create the port, and the queue if there is a port. -/
def createport : Effect := do
  let portid ← issue (.createmsgport 0
    { stDev := some 0, stIno := some 0, stMode := some (0o777#32 ||| IFCHR), stUid := some 0,
      stGid := some 0, stBlksize := some 0, stSize := some 0, stBlocks := some 0 })
  Proc.modify fun p => { p with portid := portid }
  if portid < 0 then
    pure ()
  else
    let kq ← issue .kqueue
    Proc.modify fun p => { p with kq := kq }

/-- A command on its operands. One it does not know, and one with too few
operands, does nothing; operands beyond those it reads are ignored. -/
def command (fuel : Nat) (bare : Effect) (cmd : Str) (ops : List Str) : Effect :=
  if cmd = "start".toList then
    match ops with
    | [] => skip
    | _ :: _ => perform (.fork (.start false ops))
  else if cmd = "waitfor".toList then
    match ops with
    | [] => bare
    | path :: _ => poll fuel path
  else if cmd = "mknod".toList then
    match ops with
    | path :: mode :: type :: _ =>
      match nodeMode mode type with
      | some mode => perform (.mknod2 path 0
          { stSize := some 0, stUid := some 0, stGid := some 0, stMode := some mode })
      | none => skip
    | _ => skip
  else if cmd = "sleep".toList then
    match ops with
    | seconds :: _ => perform (.sleep (BitVec.ofInt 32 (atoi seconds)))
    | [] => skip
  else if cmd = "chdir".toList then
    match ops with
    | path :: _ => perform (.chdir path)
    | [] => skip
  else if cmd = "pivot".toList then
    match ops with
    | newRoot :: oldRoot :: _ => perform (.pivotroot newRoot oldRoot)
    | _ => skip
  else if cmd = "renamemount".toList then
    match ops with
    | newPath :: oldPath :: _ => perform (.renamemount newPath oldPath)
    | _ => skip
  else if cmd = "createport".toList then createport
  else skip

/-- A line: nothing if its first token is missing, empty or starts with `#`. -/
def runTokens (fuel : Nat) (bare : Effect) : List Str → Effect
  | [] => skip
  | cmd :: ops =>
    if cmd = [] ∨ cmd.head? = some '#' then skip
    else command fuel bare cmd ops

/-- Lines in order, none of which decides whether the next runs. -/
def interpretLines (fuel : Nat) (bare : Effect) (ls : List Str) : Effect :=
  ls.forM fun l => runTokens fuel bare (tokens l)

/-- A script: its lines in order. -/
def interpret (fuel : Nat) (bare : Effect) (script : Str) : Effect :=
  interpretLines fuel bare (lines script)

/-! ## Nodes -/

/-- The type bits of a mode. -/
def S_IFMT : BitVec 32 := 0o170000#32

/-- The type bits of the kind of node that a type names, if it names one. -/
def nodeKind (type : Str) : Option (BitVec 32) :=
  if type.head? = some 'c' then some IFCHR
  else if type.head? = some 'b' then some IFBLK
  else none

/-- `s_cmd_mknod`, entered in `g`, makes no node but of the kind that `type` names,
with the other bits those of `mode`. -/
def MakesKind (mode type : Str) (g : Globals) : Prop :=
  ∀ t q path flags st ret, (sCmdMknod g).Steps t q → ⟨.mknod2 path flags st, ret⟩ ∈ t →
    ∃ m, st.stMode = some m ∧ nodeKind type = some (m &&& S_IFMT) ∧
      m &&& ~~~S_IFMT = BitVec.ofInt 32 (atoi mode) &&& ~~~S_IFMT

/-! ## Kinds of lines -/

/-- The line is a `waitfor` without an operand. -/
def IsBareWaitfor (line : Str) : Prop := tokens line = ["waitfor".toList]

instance (line : Str) : Decidable (IsBareWaitfor line) :=
  inferInstanceAs (Decidable (tokens line = ["waitfor".toList]))

/-- The tokens name a command that takes operands, with too few of them, or
are a `mknod` of a type that starts with neither `c` nor `b`. -/
def IsMalformed : List Str → Prop
  | [] => False
  | cmd :: ops =>
    (cmd ∈ ["start".toList, "waitfor".toList, "sleep".toList, "chdir".toList] ∧ ops = []) ∨
      (cmd ∈ ["pivot".toList, "renamemount".toList] ∧ ops.length < 2) ∨
      (cmd = "mknod".toList ∧
        (ops.length < 3 ∨ ∃ type ∈ ops[2]?, type.head? ≠ some 'c' ∧ type.head? ≠ some 'b'))

instance (ts : List Str) : Decidable (IsMalformed ts) :=
  match ts with
  | [] => .isFalse id
  | _ :: _ => inferInstanceAs (Decidable (_ ∨ _ ∨ _))

/-- The line runs no command: it is blank, a comment, or its first token is
empty. -/
def IsIdle (line : Str) : Prop :=
  match tokens line with
  | [] => True
  | cmd :: _ => cmd = [] ∨ cmd.head? = some '#'

instance (line : Str) : Decidable (IsIdle line) :=
  match h : tokens line with
  | [] => .isTrue (by simp [IsIdle, h])
  | cmd :: _ => decidable_of_iff (cmd = [] ∨ cmd.head? = some '#') (by simp [IsIdle, h])

/-- The lines of a script that run a command. -/
def activeLines (script : Str) : List Str := (lines script).filter (¬ IsIdle ·)

end Cheviot.Spec
