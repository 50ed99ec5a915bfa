import Cheviot.Framework.Sum
import Cheviot.Impl.Sysinit.Main

/-!
# `init.c` of sysinit

`init_sysinit`, and the whole of `main`: the states of `main` after it. Whether `main` runs the rc
scripts is a parameter, as it is of the states.
-/

namespace Cheviot.Sysinit

open Framework

/-- The streams that `init_sysinit` gives to `close`. -/
inductive Stream where
  | stdin
  | stdout
  | stderr
  deriving DecidableEq, Repr

/-- The calls of `init_sysinit`. -/
inductive InitCall where
  | getuid
  | getpid
  | setsid
  | close (stream : Stream)
  deriving DecidableEq, Repr

abbrev initSys : Sig := ⟨InitCall, fun _ => Int⟩

def EXIT_FAILURE : Int := 1

/-- `init_sysinit` -/
def initSysinit : Proc initSys Unit Unit := do
  let uid ← Proc.call (S := initSys) .getuid
  if uid ≠ 0 then
    Proc.exit EXIT_FAILURE
  else
    let pid ← Proc.call (S := initSys) .getpid
    if pid ≠ 1 then
      Proc.exit EXIT_FAILURE
    else
      let _ ← Proc.call (S := initSys) .setsid
      let _ ← Proc.call (S := initSys) (.close .stdin)
      let _ ← Proc.call (S := initSys) (.close .stdout)
      let _ ← Proc.call (S := initSys) (.close .stderr)

/-- The calls of the whole of sysinit. -/
abbrev wholeSys : Sig := initSys.sum sys

/-- `main`: `init_sysinit`, and then at most `n` states, of which `switch` says what they do. -/
def sysinitMain (switch : InitState → Sys InitState) (n : Nat) (req : List UInt8) (err : Int) :
    Prog wholeSys (Out Unit) :=
  Proc.andThen initSysinit (fun _ => Globals.initial req err) (mainLoop switch n .runSStartup) ()

end Cheviot.Sysinit
