import Cheviot.Framework.Sum
import Cheviot.Impl.Servers.Init
import Cheviot.Impl.Sysinfo.Main

/-!
# The servers: `main.c`

The four servers have the same `main.c`, but for `cmd_sendio`, which replies that it is not
implemented in automount, nettcpip and syslog. `loop` is `main` after `init`, over a
`cmd_sendio` and the globals that it reads (`Vars`); with those of sysinfo it is
`Sysinfo.main`. The calls are the ones of sysinfo. A whole server is `init` and then its
loop, on the port and the queue that `init` leaves (`serverMain`). Messages of the log are
left out, since nothing depends on them.
-/

namespace Cheviot.Servers

open Framework
open Cheviot.Sysinit (Str ENOTSUP)
open Cheviot.Sysinfo (Iorequest EXIT_FAILURE)

/-- The value of `errno` of a server without a `cmd_sendio` of its own. -/
def ENOSYS : Int := 88

/-! ## The loop -/

/-- The globals that `main.c` reads, in the memory of a server, and what `sigterm_handler`
leaves of it, if it has run. -/
structure Vars (σ : Type) where
  portid : σ → Int
  kq : σ → Int
  shutdown : σ → Bool
  sigterm : Bool → σ → σ
  portid_sigterm : ∀ b g, portid (sigterm b g) = portid g
  kq_sigterm : ∀ b g, kq (sigterm b g) = kq g
  shutdown_sigterm : ∀ b g, shutdown (sigterm b g) = (shutdown g || b)

variable {σ : Type} (v : Vars σ)

/-- Make a call; `sigterm_handler` sets `shutdown`. -/
def syscall (c : Sysinfo.Call) : Proc Sysinfo.sys σ c.Result := do
  let r ← Proc.call (S := Sysinfo.sys) c
  Proc.modify (v.sigterm r.2)
  pure r.1

@[simp] theorem syscall_apply (c : Sysinfo.Call) (g : σ) :
    syscall v c g = .call c fun r => .ret (.ok r.1, v.sigterm r.2 g) := rfl

section

variable (cmdSendio : Int → Int → Iorequest → Proc Sysinfo.sys σ Unit)

/-- The switch of the inner loop, for a message that was taken from the port. -/
def serveMessage (portid msgid : Int) (req : Iorequest) : Proc Sysinfo.sys σ Unit := do
  match req.cmd with
  | .sendio => cmdSendio portid msgid req
  | .other _ =>
    let _ ← syscall v (.replymsg portid msgid (-ENOTSUP))

/-- A round of `while ((sc = getmsg(portid, &msgid, &req, sizeof req)) == sizeof req)`: another
round, or the end of the loop with `sc`. -/
def drainRound : Proc Sysinfo.sys σ (Proc.Round Unit Int) := do
  let g ← Proc.get
  let m ← syscall v (.getmsg (v.portid g))
  match m with
  | .none sc => pure (.done sc)
  | .got msgid req =>
    serveMessage v cmdSendio (v.portid g) msgid req
    pure (.again ())

/-- A round of `while (!shutdown)`. -/
def mainRound (fuel : Nat) : Proc Sysinfo.sys σ (Proc.Round Unit Unit) := do
  let g ← Proc.get
  if v.shutdown g then
    pure (.done ())
  else
    let ev ← syscall v (.kevent (v.kq g))
    if ev.nevents = 1 ∧ ev.ident = v.portid g ∧ ev.msgport then
      let sc ← Proc.iter (fun _ => drainRound v cmdSendio) fuel ()
      if sc ≠ 0 then
        Proc.exit EXIT_FAILURE
      else
        pure (.again ())
    else
      pure (.again ())

/-- `main`, after `init`. -/
def loop (fuel : Nat) : Proc Sysinfo.sys σ Unit := do
  let sc ← syscall v .sigaction
  if sc ≠ 0 then
    Proc.exit (-1)
  else
    let g ← Proc.get
    let _ ← syscall v (.keventAdd (v.kq g) (v.portid g))
    Proc.iter (fun _ => mainRound v cmdSendio fuel) fuel ()
    Proc.exit 0

/-- The calls of a whole server. -/
abbrev serverSys : Sig := sys.sum Sysinfo.sys

/-- `main`: `init`, and then the loop, whose memory is `start` of the port and the queue. -/
def serverMain (start : Int → Int → σ) (tgt : Target) (fuel : Nat) (argv : List Str) :
    Prog serverSys (Out Unit) :=
  Proc.andThen (init argv) (fun g => start g.portid g.kq) (loop v cmdSendio fuel)
    (Globals.initial tgt)

end

/-! ## sysinfo -/

/-- The globals of sysinfo. -/
def sysinfoVars (ARG_MAX : Nat) : Vars (Sysinfo.Globals ARG_MAX) where
  portid g := g.portid
  kq g := g.kq
  shutdown g := g.shutdown
  sigterm b g := { g with shutdown := g.shutdown || b }
  portid_sigterm _ _ := rfl
  kq_sigterm _ _ := rfl
  shutdown_sigterm _ _ := rfl

/-- The `main` of sysinfo. -/
def sysinfoMain (ARG_MAX : Nat) (tgt : Target) (fuel : Nat) (argv : List Str) : Prog serverSys (Out Unit) :=
  serverMain (sysinfoVars ARG_MAX) Sysinfo.cmdSendio (Sysinfo.Globals.initial ARG_MAX) tgt fuel argv

/-! ## automount, nettcpip and syslog -/

/-- The globals of a server without buffers. -/
structure Skeleton where
  portid : Int
  kq : Int
  shutdown : Bool

/-- The globals after `init`. -/
def Skeleton.initial (portid kq : Int) : Skeleton := ⟨portid, kq, false⟩

def skeletonVars : Vars Skeleton where
  portid g := g.portid
  kq g := g.kq
  shutdown g := g.shutdown
  sigterm b g := { g with shutdown := g.shutdown || b }
  portid_sigterm _ _ := rfl
  kq_sigterm _ _ := rfl
  shutdown_sigterm _ _ := rfl

/-- `cmd_sendio` of a server that has none of its own. -/
def notImplemented (portid msgid : Int) (_req : Iorequest) : Proc Sysinfo.sys Skeleton Unit := do
  let _ ← syscall skeletonVars (.replymsg portid msgid (-ENOSYS))

/-- `main` of a server that has no `cmd_sendio` of its own. -/
def skeletonMain (tgt : Target) (fuel : Nat) (argv : List Str) : Prog serverSys (Out Unit) :=
  serverMain skeletonVars notImplemented Skeleton.initial tgt fuel argv

def automountMain (tgt : Target) (fuel : Nat) (argv : List Str) : Prog serverSys (Out Unit) :=
  skeletonMain tgt fuel argv

def nettcpipMain (tgt : Target) (fuel : Nat) (argv : List Str) : Prog serverSys (Out Unit) :=
  skeletonMain tgt fuel argv

def syslogMain (tgt : Target) (fuel : Nat) (argv : List Str) : Prog serverSys (Out Unit) :=
  skeletonMain tgt fuel argv

end Cheviot.Servers
