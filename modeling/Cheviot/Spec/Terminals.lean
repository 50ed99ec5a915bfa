import Cheviot.Framework.Files
import Cheviot.Framework.Pool
import Cheviot.Impl.Sysinit.Children
import Cheviot.Impl.Sysinit.Init
import Cheviot.Spec.Ttys

/-!
# The programs that children run

What a child makes of the descriptors that it has from sysinit (`OnTerminal`), which program it runs
on them (`Executes`), and what its exit status tells where it runs none (`ExitsFor`). sysinit and its
children are a pool that shares nothing (`forkKernel`): each child is a copy of sysinit.
-/

namespace Cheviot.Spec

open Framework Cheviot.Sysinit

/-! ## Descriptors -/

/-- What a call of a child asks about its descriptors. -/
def fileCall : Event childSys → FileCall Str
  | ⟨.setsid, r⟩ => .setsid r
  | ⟨.open name, fd⟩ => .open name fd
  | ⟨.fcntlDupfd fd min, fd'⟩ => .dupFrom fd min fd'
  | ⟨.close fd, _⟩ => .close fd
  | ⟨.ioctlTiocsctty fd, r⟩ => .setTty fd r
  | ⟨.dup2 fd n, r⟩ => .dup2 fd n r
  | ⟨.sigprocmask, _⟩ | ⟨.ignore _, _⟩ | ⟨.setpgrp, _⟩ | ⟨.execve .., _⟩ => .other

/-- stdin, stdout and stderr. -/
def standard : List Int := [STDIN_FILENO, STDOUT_FILENO, STDERR_FILENO]

/-- The call makes `n` the file of another descriptor. -/
def replaces (n : Int) : Event childSys → Bool
  | ⟨.dup2 _ m, r⟩ => m = n ∧ r = n
  | _ => false

/-- One of the calls does. -/
def replaced (t : List (Event childSys)) (n : Int) : Bool := t.any (replaces n)

/-- The calls `t` of a process have made `name` its terminal: each of stdin, stdout and stderr that a
`dup2` has replaced is the terminal, and every other descriptor is what it was, but for one from 20
on, which is the terminal too, or closed if one of the three was not replaced. -/
structure OnTerminal (name : Str) (t : List (Event childSys)) (x y : Files Str) : Prop where
  tty : y.tty = some name
  std : ∀ n ∈ standard, y.fds n = if replaced t n then some name else x.fds n
  rest : ∃ fd ≥ 20, x.fds fd = none ∧ y.fds fd = (if standard.all (replaced t) then some name else none) ∧
    ∀ n ∉ standard, n ≠ fd → y.fds n = x.fds n

/-! ## Children -/

/-- The strings are those of a session of a terminal that is on, of which `getttyent` has told. -/
def FromTtys (t : List (Event Sysinit.sys)) (device : Str) (argv : List Str) : Prop :=
  argv ≠ [] ∧ ∃ typ, some typ ∈ ttys t ∧ isActive typ ∧ device = PATH_DEV ++ typ.tyName.getD [] ∧
    argv = words (commandLine typ)

/-- A child is about to run the program `path` on `argv`, after its own calls `t` and the calls
`calls` of sysinit: a getty of a session on its terminal, the shell on an rc script on the console with
SIGTSTP and SIGHUP ignored, or the program of a `start` on the descriptors of sysinit. -/
def Executes (calls : List (Event Sysinit.sys)) (t : List (Event childSys)) (path : Str) (argv : List Str) :
    Child → Prop
  | .getty _ device argv' => argv = argv' ∧ argv.head? = some path ∧ FromTtys calls device argv ∧
      ∀ x y, Files.Run fileCall x t y → OnTerminal device t x y
  | .rc argv' => argv = argv' ∧ path = PATH_SHELL ∧
      (∃ script ∈ [PATH_RC_STARTUP, PATH_RC_SHUTDOWN], argv = [PATH_SHELL, script]) ∧
      (∀ sig, ∃ r, ⟨.ignore sig, r⟩ ∈ t) ∧ ∀ x y, Files.Run fileCall x t y → OnTerminal PATH_CONSOLE t x y
  | .start session argv' => argv = argv' ∧ argv.head? = some path ∧
      ∀ x y, Files.Run fileCall x t y → y.fds = x.fds ∧ (session = false → y.tty = x.tty)

/-- The command line of the program of a child. -/
def argvOf : Child → List Str
  | .start _ argv | .getty _ _ argv | .rc argv => argv

/-- The exit status of a child tells the call that has failed: of a terminal that it cannot open or
take, or of the program. -/
inductive ExitsFor : Child → Int → ChildCall → Prop where
  | gettyOpen {id : Nat} {device : Str} {argv : List Str} : ExitsFor (.getty id device argv) 1 (.open device)
  | rcOpen {argv : List Str} : ExitsFor (.rc argv) 1 (.open PATH_CONSOLE)
  | dup {child : Child} {fd min : Int} : ExitsFor child 1 (.fcntlDupfd fd min)
  | attach {child : Child} {fd : Int} : ExitsFor child 2 (.ioctlTiocsctty fd)
  | getty {id : Nat} {device path : Str} {argv : List Str} : ExitsFor (.getty id device argv) 8 (.execve path argv)
  | rc {argv : List Str} : ExitsFor (.rc argv) 5 (.execve PATH_SHELL argv)
  | start {session : Bool} {path : Str} {argv : List Str} : ExitsFor (.start session argv) (-2) (.execve path argv)

/-- The call has failed: an `execve` that returns has. -/
def failed : Event childSys → Bool
  | ⟨.execve .., _⟩ => true
  | ⟨_, r⟩ => r = -1

/-- A child exits after the calls `t`, and its status tells the call of them that has failed. -/
def ExitsTold (child : Child) (t : List (Event childSys)) (o : Out Unit) : Prop :=
  ∃ code c r, o = .exited code ∧ ⟨c, r⟩ ∈ t ∧ ExitsFor child code c ∧ failed ⟨c, r⟩

/-! ## Runs -/

/-- The child that a call of sysinit forks. -/
def forkedChild : Event wholeSys → Option Child
  | ⟨.inr (.fork child), (some _, _)⟩ => some child
  | _ => none

/-- sysinit and its children share nothing. -/
def forkKernel : PoolKernel wholeSys childSys Child (Out Unit × Unit) Unit where
  forks := forkedChild
  code child := child.code ()
  parent _ _ _ := True
  child _ _ _ _ := True

/-- The calls of the states of `main`. -/
def stateCall : Event wholeSys → Option (Event Sysinit.sys)
  | ⟨.inr c, r⟩ => some ⟨c, r⟩
  | ⟨.inl _, _⟩ => none

/-- sysinit is the first process, and root's. -/
def IsRoot (t : List (Event wholeSys)) : Prop :=
  ⟨.inl .getuid, (0 : Int)⟩ ∈ t ∧ ⟨.inl .getpid, (1 : Int)⟩ ∈ t

end Cheviot.Spec
