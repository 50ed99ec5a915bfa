import Cheviot.Framework.Frame
import Cheviot.Impl.Sysinit.Main

/-!
# Runs of the state machine of `main`

The states a run of `main` comes through (`Visits`), and the calls by what they
are for.
-/

namespace Cheviot.Spec

open Framework Cheviot.Sysinit

/-- A call that loads a script. -/
def isLoad : Call → Bool
  | .open _ | .fstat _ | .malloc (.script _) _ | .read .. | .close _ => true
  | _ => false

/-- A call of `createport`. -/
def isPort : Call → Bool
  | .createmsgport .. | .kqueue => true
  | _ => false

/-- A call of a script's command other than `createport`. -/
def isPlain : Call → Bool
  | .fork (.start ..) | .ismount _ | .nanosleep _ | .mknod2 .. | .sleep _ | .chdir _ => true
  | .pivotroot .. | .renamemount .. => true
  | _ => false

/-- A call of a script's command. -/
def isCommand (c : Call) : Bool := isPlain c || isPort c

/-- A call that reads the ttys or starts a session. -/
def isSession : Call → Bool
  | .endttyent | .setttyent | .getttyent | .asprintf .. | .free _ | .fork (.getty ..) => true
  | .malloc (.session _) _ | .malloc (.argv _) _ => true
  | _ => false

/-- A call of the message loop. -/
def isMessage : Call → Bool
  | .keventAdd .. | .kevent _ | .getmsg _ | .readmsg .. | .replymsg .. => true
  | _ => false

/-- A call that waits for children and ends or restarts their sessions. -/
def isCollect : Call → Bool
  | .kill .. | .waitpid _ | .waitpidNohang | .free _ | .fork (.getty ..) => true
  | _ => false

/-- `free` -/
def isFree : Call → Bool
  | .free _ => true
  | _ => false

/-- The call that ends a run. -/
def isShutdownOs : Call → Bool
  | .shutdownOs _ => true
  | _ => false

/-- What the calls of `createmsgport` returned. -/
def portResults (t : List (Event sys)) : List Int :=
  t.filterMap fun e =>
    match e with
    | ⟨.createmsgport .., r⟩ => some r.1
    | _ => none

/-- What the calls of `kqueue` returned. -/
def queueResults (t : List (Event sys)) : List Int :=
  t.filterMap fun e =>
    match e with
    | ⟨.kqueue, r⟩ => some r.1
    | _ => none

/-- `main` over `switch`, in `state` with globals `g`, has made the calls `t` and
is about to enter `state'` with globals `g'`. -/
abbrev Visits (switch : InitState → Sys InitState) (state : InitState) (g : Globals)
    (t : List (Event sys)) (state' : InitState) (g' : Globals) : Prop :=
  Proc.Rounds (mainRound switch) state g t state' g'

/-- A script that has been loaded, if it has. -/
def script (g : Globals) : Slot → Option (List Char)
  | .startup => g.sStartupScript
  | .shutdown => g.sShutdownScript

/-- From `g`, all of `t` is the load of s.startup that failed, or its load and
that of s.shutdown that failed. -/
def LoadsFail (g : Globals) (t : List (Event sys)) : Prop :=
  (∃ sc g', sc ≠ 0 ∧ (loadBootstrapFile PATH_S_STARTUP .startup g).Runs t (.ok sc, g')) ∨
    ∃ t₁ t₂ g₁ sc g', t = t₁ ++ t₂ ∧ sc ≠ 0 ∧
      (loadBootstrapFile PATH_S_STARTUP .startup g).Runs t₁ (.ok 0, g₁) ∧
      (loadBootstrapFile PATH_S_SHUTDOWN .shutdown g₁).Runs t₂ (.ok sc, g')

/-- From `g`, the calls `t` of `main` end with the s.shutdown script that has been
loaded, processed to its end, and the reaper, which returned. -/
def Reaped (switch : InitState → Sys InitState) (fuel : Nat) (g : Globals) (t : List (Event sys)) :
    Prop :=
  ∃ t₁ t₂ t₃ g₁ g₂ g₃ buf, t = t₁ ++ t₂ ++ t₃ ∧ Visits switch .runSStartup g t₁ .runSShutdown g₁ ∧
    script g₁ .shutdown = some buf ∧
    (processBootstrapScript fuel (some buf) g₁).Runs t₂ (.ok 0, g₂) ∧
    (stateReaper fuel g₂).Runs t₃ (.ok .shutdown, g₃)

end Cheviot.Spec
