import Cheviot.Impl.Sysinit.Main

/-!
# What the children of sysinit do

The code of a child, from the `fork` of `start_getty`, `do_run_rc` and `s_cmd_start` to the program
that it runs: `setctty` and `login_tty` of `sessions.c` for a session and for an rc script. A call of
`execve` that succeeds does not return.
-/

namespace Cheviot.Sysinit

open Framework

/-! ## Calls -/

inductive ChildSignal where
  | tstp
  | hup
  deriving DecidableEq, Repr

/-- The calls of the children. `sigprocmask` is with the empty set, `ignore` is `sigaction` with
`SIG_IGN`, and `open` is with `O_RDWR`. -/
inductive ChildCall where
  | sigprocmask
  | ignore (sig : ChildSignal)
  | setsid
  | setpgrp
  | open (name : Str)
  | fcntlDupfd (fd min : Int)
  | close (fd : Int)
  | ioctlTiocsctty (fd : Int)
  | dup2 (fd n : Int)
  | execve (path : Str) (argv : List Str)
  deriving DecidableEq, Repr

abbrev childSys : Sig := ⟨ChildCall, fun _ => Int⟩

/-- Code of a child, which has no globals. -/
abbrev ChildProc := Proc childSys Unit

def PATH_CONSOLE : Str := "/dev/aux".toList
def STDIN_FILENO : Int := 0
def STDOUT_FILENO : Int := 1
def STDERR_FILENO : Int := 2

/-! ## `sessions.c` -/

/-- `login_tty` -/
def loginTty (fd : Int) : ChildProc Int := do
  let _ ← Proc.call (S := childSys) .setsid
  let _ ← Proc.call (S := childSys) .setpgrp
  let sc ← Proc.call (S := childSys) (.ioctlTiocsctty fd)
  if sc = -1 then
    pure (-1)
  else
    let inFd ← Proc.call (S := childSys) (.dup2 fd STDIN_FILENO)
    let outFd ← Proc.call (S := childSys) (.dup2 fd STDOUT_FILENO)
    let errFd ← Proc.call (S := childSys) (.dup2 fd STDERR_FILENO)
    if inFd ≠ STDIN_FILENO ∨ outFd ≠ STDOUT_FILENO ∨ errFd ≠ STDERR_FILENO then
      let _ ← Proc.call (S := childSys) (.close fd)
      pure 0
    else
      pure 0

/-- `setctty` -/
def setctty (name : Str) : ChildProc Unit := do
  let _ ← Proc.call (S := childSys) .setsid
  let fd ← Proc.call (S := childSys) (.open name)
  if fd = -1 then
    Proc.exit 1
  else
    let oldFd := fd
    let fd ← Proc.call (S := childSys) (.fcntlDupfd oldFd 20)
    let _ ← Proc.call (S := childSys) (.close oldFd)
    if fd = -1 then
      Proc.exit 1
    else
      let sc ← loginTty fd
      if sc = -1 then Proc.exit 2 else pure ()

/-- The child of `start_getty`. An argv without a string has no path to run. -/
def gettyChild (device : Str) (argv : List Str) : ChildProc Unit := do
  let _ ← Proc.call (S := childSys) .sigprocmask
  setctty device
  let path ← Proc.orFault argv.head?
  let _ ← Proc.call (S := childSys) (.execve path argv)
  Proc.exit 8

/-! ## `run_rc.c` -/

/-- The child of `do_run_rc`. -/
def rcChild (argv : List Str) : ChildProc Unit := do
  let _ ← Proc.call (S := childSys) (.ignore .tstp)
  let _ ← Proc.call (S := childSys) (.ignore .hup)
  setctty PATH_CONSOLE
  let _ ← Proc.call (S := childSys) .sigprocmask
  let _ ← Proc.call (S := childSys) (.execve PATH_SHELL argv)
  Proc.exit 5

/-! ## `run_s.c` -/

/-- The child of `s_cmd_start`. -/
def startChild (session : Bool) (argv : List Str) : ChildProc Unit := do
  if session then
    let _ ← Proc.call (S := childSys) .setsid
    let _ ← Proc.call (S := childSys) .setpgrp
    let _ ← Proc.call (S := childSys) (.ioctlTiocsctty STDIN_FILENO)
  let path ← Proc.orFault argv.head?
  let _ ← Proc.call (S := childSys) (.execve path argv)
  Proc.exit (-2)

/-- The code of a child. -/
def Child.code : Child → ChildProc Unit
  | .start session argv => startChild session argv
  | .getty _ device argv => gettyChild device argv
  | .rc argv => rcChild argv

end Cheviot.Sysinit
