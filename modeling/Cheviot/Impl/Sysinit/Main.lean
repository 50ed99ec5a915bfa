import Cheviot.Impl.Sysinit.RunS
import Cheviot.Impl.Sysinit.Sessions

/-!
# `message_loop.c`, `run_rc.c`, `shutdown.c` and `main.c`

`fuel` is the number of rounds granted to each loop, which a run that is cut
off inside a loop has used up. `struct sysinit_req` is declared in a header
that is not in the repository, so the place of its `u.shutdown.how` is a
parameter, `how`, a function of the bytes of the struct.
-/

namespace Cheviot.Sysinit

open Framework

/-! ## `message_loop.c` -/

section

variable (how : List UInt8 → Int)

/-- What `readmsg` leaves in a buffer, of the bytes it had for it. -/
def overlay (buf data : List UInt8) : List UInt8 :=
  data.take buf.length ++ buf.drop data.length

/-- The body of the drain loop, for a message that was taken from the port. -/
def handleMessage (msgid : Int) (req : Iorequest) : Sys Unit := do
  let g ← Proc.get
  match req.cmd with
  | .sendio =>
    match req.subclass with
    | .sysinit =>
      let r ← syscall (.readmsg g.portid msgid g.sysinitReq.length)
      Proc.modify fun g => { g with sysinitReq := overlay g.sysinitReq r.2 }
      Proc.modify fun g => { g with shutdownHow := how g.sysinitReq }
      Proc.modify fun g => { g with shutdown := true }
      let _ ← syscall (.replymsg g.portid msgid 0)
    | .other _ =>
      let _ ← syscall (.replymsg g.portid msgid (-ENOTSUP))
  | .other _ =>
    let _ ← syscall (.replymsg g.portid msgid (-ENOTSUP))

/-- A round of `while ((sc = getmsg(portid, &msgid, &req, sizeof req)) == sizeof req)`. -/
def drainRound : Sys (Proc.Round Unit Unit) := do
  let g ← Proc.get
  let m ← syscall (.getmsg g.portid)
  match m with
  | .none _ => pure (.done ())
  | .got msgid req =>
    handleMessage how msgid req
    pure (.again ())

/-- A round of `while (!shutdown)`. -/
def messageRound (fuel : Nat) : Sys (Proc.Round Unit Unit) := do
  let g ← Proc.get
  if g.shutdown then
    pure (.done ())
  else
    Proc.modify fun g => { g with errno := 0 }
    let ev ← syscall (.kevent g.kq)
    if ev.nevents = 1 ∧ ev.ident = g.portid ∧ ev.msgport then
      Proc.iter (fun _ => drainRound how) fuel ()
      pure (.again ())
    else
      pure (.again ())

/-- `state_message_loop` -/
def stateMessageLoop (fuel : Nat) : Sys InitState := do
  let g ← Proc.get
  let _ ← syscall (.keventAdd g.kq g.portid)
  Proc.iter (fun _ => messageRound how fuel) fuel ()
  pure .stopSessions

end

/-! ## `run_rc.c` -/

/-- `while (waitpid(-1, NULL, WNOHANG) > 0) continue;` -/
def drainChildren (fuel : Nat) : Sys Unit :=
  Proc.iter (fun _ => do
    let r ← syscall .waitpidNohang
    match r with
    | .child _ _ => pure (.again ())
    | _ => pure (.done ())) fuel ()

/-- A round of the wait loop of `do_run_rc`: another round, or the end of the
loop with the status of the script, or with none the return of -1. -/
def rcRound (pid : Pid) : Sys (Proc.Round Unit (Option Status)) := do
  let r ← syscall (.waitpid true)
  match r with
  | none =>
    let g ← Proc.get
    if g.errno = EINTR then pure (.again ()) else pure (.done none)
  | some (wpid, status) =>
    collectProcess wpid status
    if wpid = pid ∧ status.isStopped then
      let _ ← syscall (.kill (some pid) .cont)
      pure (.again ())
    else if wpid = pid then
      pure (.done (some status))
    else
      pure (.again ())

/-- `do_run_rc` -/
def doRunRc (fuel : Nat) (pathRcScript : Str) : Sys Int := do
  let pid ← syscall (.fork (.rc [PATH_SHELL, pathRcScript]))
  match pid with
  | none =>
    drainChildren fuel
    pure (-1)
  | some pid =>
    let status ← Proc.iter (fun _ => rcRound pid) fuel ()
    match status with
    | some (.exited 0) => pure 0
    | _ => pure (-1)

/-- `state_run_rc_startup` -/
def stateRunRcStartup (fuel : Nat) : Sys InitState := do
  let sc ← doRunRc fuel PATH_RC_STARTUP
  if sc ≠ 0 then pure .runRcShutdown else pure .startSessions

/-- `state_run_rc_shutdown` -/
def stateRunRcShutdown (fuel : Nat) : Sys InitState := do
  let _ ← doRunRc fuel PATH_RC_SHUTDOWN
  pure .runSShutdown

/-! ## `shutdown.c` -/

/-- A round of `do { if ((pid = waitpid(-1, &status, 0)) != -1) collect_process(pid, status); }
while (errno != ECHILD);` -/
def reapRound : Sys (Proc.Round Unit Unit) := do
  let r ← syscall (.waitpid false)
  match r with
  | none => pure ()
  | some (pid, status) => collectProcess pid status
  let g ← Proc.get
  if g.errno ≠ ECHILD then pure (.again ()) else pure (.done ())

/-- `death_sigs` -/
def deathSigs : List Signal := [.hup, .term, .kill]

/-- The loop over `death_sigs`, whose body returns in its first round. -/
def sendSigs (fuel : Nat) : List Signal → Sys InitState
  | [] => pure .shutdown
  | sig :: _ => do
    let sent ← syscall (.kill none sig)
    let g ← Proc.get
    if sent = false ∧ g.errno = ESRCH then
      pure .shutdown
    else
      Proc.iter (fun _ => reapRound) fuel ()
      pure .shutdown

/-- `state_reaper` -/
def stateReaper (fuel : Nat) : Sys InitState := do
  Proc.modify fun g => { g with sessionList := g.sessionList.setShutdown }
  sendSigs fuel deathSigs

/-- `state_failure` -/
def stateFailure : Sys InitState := pure .shutdown

/-- `state_shutdown`, which spins once `shutdown_os` has returned. -/
def stateShutdown (fuel : Nat) : Sys Unit := do
  let g ← Proc.get
  let _ ← syscall (.shutdownOs g.shutdownHow)
  Proc.iter (fun _ => pure (.again ())) fuel ()

/-! ## `main.c` -/

section

variable (how : List UInt8 → Int)

/-- The switch of `main`, where the rc scripts are commented out. -/
def mainSwitch (fuel : Nat) : InitState → Sys InitState
  | .runSStartup => stateRunSStartup fuel
  | .runRcStartup => pure .startSessions
  | .startSessions => stateStartSessions fuel
  | .messageLoop => stateMessageLoop how fuel
  | .stopSessions => stateStopSessions
  | .runRcShutdown => pure .runSShutdown
  | .runSShutdown => stateRunSShutdown fuel
  | .reaper => stateReaper fuel
  | .shutdown => do
    stateShutdown fuel
    pure .shutdown
  | .failure => stateFailure

/-- The switch of `main` with the rc scripts run, as its comments have it. -/
def rcSwitch (fuel : Nat) : InitState → Sys InitState
  | .runRcStartup => stateRunRcStartup fuel
  | .runRcShutdown => stateRunRcShutdown fuel
  | s => mainSwitch how fuel s

/-- A round of the loop of `main` over a switch. -/
def mainRound (switch : InitState → Sys InitState) (state : InitState) :
    Sys (Proc.Round InitState Unit) := do
  let state ← switch state
  pure (.again state)

/-- The loop of `main` over a switch, for `n` of its rounds from `state`. -/
def mainLoop (switch : InitState → Sys InitState) (n : Nat) (state : InitState) : Sys Unit :=
  Proc.iter (mainRound switch) n state

end

end Cheviot.Sysinit
