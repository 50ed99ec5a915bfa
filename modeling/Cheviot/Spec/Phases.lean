import Cheviot.Impl.Sysinit.Init
import Cheviot.Spec.Lines
import Cheviot.Spec.Machine

/-!
# The phases of a run of `main`, and where it ends

The states that can follow a state of `main` (`nexts`), the calls each state makes (`callsOf`), and
runs that go through states in this order (`Phases`), with the rc scripts or without.

A run ends in `init_sysinit`, where that refuses to be process 1 (`Refuses`), or at a script that it has
loaded: at a `waitfor` without an operand (`HasBareWaitfor`), or at a line that `linebuf` does not hold
(`HasLongLine`).
-/

namespace Cheviot.Spec

open Framework Cheviot.Sysinit

/-- The switch of `main`, with the rc scripts or without. -/
def switchOf (how : List UInt8 → Int) (fuel : Nat) (rc : Bool) : InitState → Sys InitState :=
  if rc then rcSwitch how fuel else mainSwitch how fuel

/-- The states that can follow a state in a run of `main`. -/
def nexts (rc : Bool) : InitState → List InitState
  | .runSStartup => [.runRcStartup, .failure]
  | .runRcStartup => if rc then [.startSessions, .runRcShutdown] else [.startSessions]
  | .startSessions => [.messageLoop, .runRcShutdown]
  | .messageLoop => [.stopSessions]
  | .stopSessions => [.runRcShutdown]
  | .runRcShutdown => [.runSShutdown]
  | .runSShutdown => [.reaper]
  | .reaper | .failure => [.shutdown]
  | .shutdown => []

/-- How far a state is in a run of `main`. -/
def rank : InitState → Nat
  | .runSStartup => 0
  | .runRcStartup => 1
  | .startSessions => 2
  | .messageLoop => 3
  | .stopSessions => 4
  | .runRcShutdown => 5
  | .runSShutdown => 6
  | .reaper | .failure => 7
  | .shutdown => 8

/-- A call of `do_run_rc`. -/
def isRc : Call → Bool
  | .fork (.rc _) | .fork (.getty ..) | .waitpid true | .waitpidNohang | .kill (some _) .cont | .free _ =>
    true
  | _ => false

/-- A call of the reaper. -/
def isReap : Call → Bool
  | .kill none .hup | .waitpid false | .free _ => true
  | _ => false

/-- The calls a state of `main` makes. -/
def callsOf (rc : Bool) : InitState → Call → Bool
  | .runSStartup, c => isLoad c || isCommand c
  | .runRcStartup, c | .runRcShutdown, c => rc && isRc c
  | .startSessions, c => isSession c
  | .messageLoop, c => isMessage c
  | .runSShutdown, c => isCommand c
  | .reaper, c => isReap c
  | .shutdown, c => isShutdownOs c
  | .stopSessions, _ | .failure, _ => false

/-- The calls `t` are those of the states that `main` has come through from its start, one after
the other, and it is about to enter `s`. -/
inductive Phases (rc : Bool) : List (Event sys) → InitState → Prop where
  | start : Phases rc [] .runSStartup
  | next {t t' : List (Event sys)} {s s' : InitState} : Phases rc t s →
      (∀ e ∈ t', callsOf rc s e.call) → s' ∈ nexts rc s → Phases rc (t ++ t') s'

/-! ## Where process 1 ends -/

/-- `init_sysinit` finds that it is not run as root, or not as process 1, and has made no other call. -/
def Refuses (t : List (Event initSys)) : Prop :=
  (∃ uid : Int, uid ≠ 0 ∧ t = [⟨.getuid, uid⟩]) ∨
    ∃ pid : Int, pid ≠ 1 ∧ t = [⟨.getuid, (0 : Int)⟩, ⟨.getpid, pid⟩]

/-- The script in a buffer: what comes before its first NUL. -/
def scriptText (buf : List Char) : Str := buf.takeWhile (· ≠ NUL)

/-- A script that is loaded has a line with the property, among the lines of it that are read. -/
def HasLine (P : Str → Prop) (g : Globals) : Prop :=
  ∃ slot buf, script g slot = some buf ∧ ∃ l ∈ linesRead (lines (scriptText buf)), P l

/-- A script that is loaded has a `waitfor` without an operand. -/
def HasBareWaitfor (g : Globals) : Prop := HasLine IsBareWaitfor g

/-- A script that is loaded has a line of more than 255 characters, and no `waitfor` without an operand
before it. -/
def HasLongLine (g : Globals) : Prop := HasLine (255 < ·.length) g

end Cheviot.Spec
