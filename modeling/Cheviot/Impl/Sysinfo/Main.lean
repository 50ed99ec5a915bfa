import Cheviot.Impl.Sysinit.RunS

/-!
# sysinfo: `globals.c` and `main.c`

`ARG_MAX` comes from `limits.h`, which is not in the repository, and is a
parameter. An answer of a call is its result together with whether the handler of
SIGTERM has run until the call returned. `errno` and messages of the log are left
out, since nothing depends on them.
-/

namespace Cheviot.Sysinfo

open Framework
open Cheviot.Sysinit (Str NUL Cmd Kevent ENOTSUP store cstr)

/-- The value of `errno` that sysinfo replies with, besides `ENOTSUP`. -/
def E2BIG : Int := 7

/-- `EXIT_FAILURE` -/
def EXIT_FAILURE : Int := 1

/-- `iorequest_t`: the command, and the sizes of the request and of the response
that the client has room for. -/
structure Iorequest where
  cmd : Cmd
  ssize : Nat
  rsize : Nat
  deriving DecidableEq, Repr

/-- What `getmsg` returns: `sizeof req` with a message, or another number. -/
inductive Getmsg where
  | got (msgid : Int) (req : Iorequest)
  | none (sc : Int)
  deriving DecidableEq, Repr

/-- The calls sysinfo makes. -/
inductive Call where
  | sigaction
  | keventAdd (kq portid : Int)
  | kevent (kq : Int)
  | getmsg (portid : Int)
  | readmsg (portid msgid : Int) (size : Nat)
  | writemsg (portid msgid : Int) (data : List Char)
  | replymsg (portid msgid status : Int)
  deriving DecidableEq, Repr

/-- The result of a call. -/
abbrev Call.Result : Call → Type
  | .kevent _ => Kevent
  | .getmsg _ => Getmsg
  | .readmsg .. => Int × List Char
  | _ => Int

/-- sysinfo's calls; an answer is a result and whether SIGTERM has been handled. -/
abbrev sys : Sig := ⟨Call, fun c => c.Result × Bool⟩

/-- The globals of sysinfo. -/
structure Globals (ARG_MAX : Nat) where
  portid : Int
  kq : Int
  reqBuf : Vector Char ARG_MAX
  respBuf : Vector Char ARG_MAX
  shutdown : Bool

/-- The globals after `init`. -/
def Globals.initial (ARG_MAX : Nat) (portid kq : Int) : Globals ARG_MAX where
  portid := portid
  kq := kq
  reqBuf := Vector.replicate ARG_MAX NUL
  respBuf := Vector.replicate ARG_MAX NUL
  shutdown := false

variable {ARG_MAX : Nat}

/-- Code of sysinfo. -/
abbrev Sys (ARG_MAX : Nat) (α : Type) := Proc sys (Globals ARG_MAX) α

/-- Make a call; `sigterm_handler` sets `shutdown`. -/
def syscall (c : Call) : Sys ARG_MAX c.Result := do
  let r ← Proc.call (S := sys) c
  Proc.modify fun g => { g with shutdown := g.shutdown || r.2 }
  pure r.1

@[simp] theorem syscall_apply (c : Call) (g : Globals ARG_MAX) :
    syscall c g = .call c fun r => .ret (.ok r.1, { g with shutdown := g.shutdown || r.2 }) := rfl

/-! ## Strings -/

/-- What a buffer holds once `data` has been copied to its start. -/
def copied {n : Nat} (buf : Vector Char n) (data : List Char) : Vector Char n :=
  buf.mapIdx fun i c => data.getD i c

/-- `strlcpy(buf, s, sizeof buf)` -/
def strlcpy {n : Nat} (buf : Vector Char n) (s : Str) : Vector Char n :=
  copied buf (s.take (n - 1) ++ [NUL])

/-- `strlen(buf)`, where running past the end is a fault. -/
def strlen {n : Nat} (buf : Vector Char n) : Option Nat :=
  if NUL ∈ buf.toList then some (cstr buf 0).length else none

/-- `strtok(buf, " ")`: the index of the first token, or none for NULL, and the buffer,
where the character after the token is NUL now; running past the end is a fault. -/
def strtok {n : Nat} (buf : Vector Char n) : Option (Option Nat × Vector Char n) :=
  if NUL ∈ buf.toList then
    let spaces := (cstr buf 0).takeWhile (· = ' ')
    let tok := ((cstr buf 0).dropWhile (· = ' ')).takeWhile (· ≠ ' ')
    if tok = [] then some (none, buf)
    else (store buf (spaces.length + tok.length) NUL).map fun buf => (some spaces.length, buf)
  else none

/-! ## `main.c` -/

/-- The text of `subcmd_help`. -/
def helpText : Str := "OK: help\n\nhelp    - get command list\ngetinfo - get system info\n".toList

/-- The text of `subcmd_getinfo`. -/
def getinfoText : Str := "OK: getinfo\n\nBOARD: raspberry pi\nRAM: 2GB\n".toList

/-- The text for a request without a command. -/
def errorText : Str := "ERROR\n".toList

/-- `strlcpy(resp_buf, s, sizeof resp_buf)` -/
def respond (s : Str) : Sys ARG_MAX Unit :=
  Proc.modify fun g => { g with respBuf := strlcpy g.respBuf s }

/-- `subcmd_help` -/
def subcmdHelp : Sys ARG_MAX Unit := respond helpText

/-- `subcmd_getinfo` -/
def subcmdGetinfo : Sys ARG_MAX Unit := respond getinfoText

/-- The part of `cmd_sendio` between `strtok` and `strlen`, for the command at an index of
`req_buf`, or none for NULL. -/
def runCommand (cmd : Option Nat) : Sys ARG_MAX Unit := do
  let g ← Proc.get
  match cmd.map (cstr g.reqBuf) with
  | none | some [] => respond errorText
  | some cmd =>
    if cmd.head? = some '#' then pure ()
    else if cmd = "help".toList then subcmdHelp
    else if cmd = "getinfo".toList then subcmdGetinfo
    else pure ()

/-- The part of `cmd_sendio` after `readmsg`. -/
def answerRequest (portid msgid : Int) (reqSz : Nat) : Sys ARG_MAX Unit := do
  let g ← Proc.get
  let reqBuf ← Proc.orFault (store g.reqBuf reqSz NUL)
  let respBuf ← Proc.orFault (store g.respBuf 0 NUL)
  let (cmd, reqBuf) ← Proc.orFault (strtok reqBuf)
  Proc.modify fun g => { g with reqBuf := reqBuf, respBuf := respBuf }
  runCommand cmd
  let g ← Proc.get
  let respSz ← Proc.orFault (strlen g.respBuf)
  let _ ← syscall (.writemsg portid msgid (g.respBuf.toList.take respSz))
  let _ ← syscall (.replymsg portid msgid respSz)

/-- `cmd_sendio` -/
def cmdSendio (portid msgid : Int) (req : Iorequest) : Sys ARG_MAX Unit := do
  let reqSz := req.ssize
  if reqSz > ARG_MAX then
    let _ ← syscall (.replymsg portid msgid (-E2BIG))
  else
    let r ← syscall (.readmsg portid msgid reqSz)
    Proc.modify fun g => { g with reqBuf := copied g.reqBuf (r.2.take reqSz) }
    answerRequest portid msgid reqSz

/-- The switch of the inner loop, for a message that was taken from the port. -/
def serveMessage (portid msgid : Int) (req : Iorequest) : Sys ARG_MAX Unit := do
  match req.cmd with
  | .sendio => cmdSendio portid msgid req
  | .other _ =>
    let _ ← syscall (.replymsg portid msgid (-ENOTSUP))

/-- A round of `while ((sc = getmsg(portid, &msgid, &req, sizeof req)) == sizeof req)`: another
round, or the end of the loop with `sc`. -/
def drainRound : Sys ARG_MAX (Proc.Round Unit Int) := do
  let g ← Proc.get
  let m ← syscall (.getmsg g.portid)
  match m with
  | .none sc => pure (.done sc)
  | .got msgid req =>
    serveMessage g.portid msgid req
    pure (.again ())

/-- A round of `while (!shutdown)`. -/
def mainRound (fuel : Nat) : Sys ARG_MAX (Proc.Round Unit Unit) := do
  let g ← Proc.get
  if g.shutdown then
    pure (.done ())
  else
    let ev ← syscall (.kevent g.kq)
    if ev.nevents = 1 ∧ ev.ident = g.portid ∧ ev.msgport then
      let sc ← Proc.iter (fun _ => drainRound) fuel ()
      if sc ≠ 0 then
        Proc.exit EXIT_FAILURE
      else
        pure (.again ())
    else
      pure (.again ())

/-- `main`, after `init`. -/
def main (fuel : Nat) : Sys ARG_MAX Unit := do
  let sc ← syscall .sigaction
  if sc ≠ 0 then
    Proc.exit (-1)
  else
    let g ← Proc.get
    let _ ← syscall (.keventAdd g.kq g.portid)
    Proc.iter (fun _ => mainRound fuel) fuel ()
    Proc.exit 0

end Cheviot.Sysinfo
