import Cheviot.Framework.Pool
import Cheviot.Impl.Servers.Main
import Cheviot.Spec.Script
import Cheviot.Spec.CommandLine

/-!
# Booting

s.startup starts the servers, and waits for their mounts. sysinit and the servers that it starts
are a pool (`Framework.Pool`) over the mounts (`bootKernel`): a server that has created a port at a
path is mounted there, and `ismount` says 1 only of a path that something is mounted at. A mount
may be renamed by a `pivotroot` or a `renamemount` that succeeds, and may go away. Which program a
command line runs is a parameter, and a program that is none of the servers can make any mount at
any time.
-/

namespace Cheviot.Spec

open Framework Cheviot.Sysinit Cheviot.Servers

/-- The servers of the repository. -/
inductive Server where
  | automount
  | nettcpip
  | syslog
  | sysinfo
  deriving DecidableEq, Repr

/-- The `main` of a server. -/
def Server.main (ARG_MAX : Nat) (tgt : Target) (fuel : Nat) : Server → List Str → Prog serverSys (Out Unit)
  | .automount => automountMain tgt fuel
  | .nettcpip => nettcpipMain tgt fuel
  | .syslog => syslogMain tgt fuel
  | .sysinfo => sysinfoMain ARG_MAX tgt fuel

/-! ## MountTable -/

/-- Who has made a mount: it was there, sysinit, a server by the order of the starts, or another
program that was started. -/
inductive Owner where
  | boot
  | sysinit
  | server (i : Nat)
  | other (argv : List Str)

structure Mount where
  path : Str
  owner : Owner

/-- The mounts, and the programs that are none of the servers. -/
structure MountTable where
  mounts : List Mount
  others : List (List Str)

/-- The mounts of the kernel. -/
def MountTable.initial (paths : List Str) : MountTable := ⟨paths.map fun path => ⟨path, .boot⟩, []⟩

/-! ## Calls -/

/-- The command line that a call starts. -/
def startedArgv : Event Sysinit.sys → Option (List Str)
  | ⟨.fork (.start _ argv), (some _, _)⟩ => some argv
  | _ => none

/-- The server that a call starts, with its command line. -/
def startedServer (program : Str → Option Server) (e : Event Sysinit.sys) : Option (Server × List Str) :=
  (startedArgv e).bind fun argv => (program (argv.headD [])).map fun server => (server, argv)

/-- The other program that a call starts. -/
def startedOther (program : Str → Option Server) (e : Event Sysinit.sys) : Option (List Str) :=
  (startedArgv e).filter fun argv => (program (argv.headD [])).isNone

/-- The call renames mounts. -/
def renames : Event Sysinit.sys → Bool
  | ⟨.pivotroot .., (r, _)⟩ | ⟨.renamemount .., (r, _)⟩ => r = 0
  | _ => false

/-- The call creates the port of sysinit. -/
def createsPort : Event Sysinit.sys → Bool
  | ⟨.createmsgport .., (portid, _)⟩ => 0 ≤ portid
  | _ => false

/-- The call tells that `path` is a mount point. -/
def tellsMounted (path : Str) (e : Event Sysinit.sys) : Prop := ∃ err : Int, e = ⟨.ismount path, (1, err)⟩

/-- The call mounts a server at `path`. -/
def mountsAt (path : Str) (e : Event serverSys) : Prop :=
  ∃ (flags : Nat) (st : Stat) (portid : Int), 0 ≤ portid ∧
    e = ⟨.inl (.createmsgport path flags st), portid⟩

/-- Another program has made the mount. -/
def MountTable.Other (x : MountTable) (m : Mount) : Prop := ∃ argv ∈ x.others, m.owner = .other argv

/-- What sysinit and the servers share: the mounts. -/
def bootKernel (ARG_MAX : Nat) (tgt : Target) (fuel : Nat) (SYSINIT_PATH : Str) (program : Str → Option Server) :
    PoolKernel Sysinit.sys serverSys (Server × List Str) (Out Unit) MountTable where
  forks := startedServer program
  code x := x.1.main ARG_MAX tgt fuel x.2
  parent x e x' := (∀ path, tellsMounted path e → ∃ m ∈ x.mounts, m.path = path) ∧
    (∀ m ∈ x'.mounts, m ∈ x.mounts ∨ x.Other m ∨
      m.owner = .sysinit ∧ m.path = SYSINIT_PATH ∧ createsPort e ∨
        renames e ∧ ∃ m' ∈ x.mounts, m'.owner = m.owner) ∧
    x'.others = x.others ++ (startedOther program e).toList
  child x i e x' := (∀ m ∈ x'.mounts, m ∈ x.mounts ∨ x.Other m ∨
      m.owner = .server i ∧ mountsAt m.path e) ∧ x'.others = x.others

/-- What sysinit and the servers do. -/
abbrev BootLabel := PoolLabel Sysinit.sys serverSys

/-- The servers that have been started, in order. -/
def startedServers (program : Str → Option Server) (l : List BootLabel) : List (Server × List Str) :=
  (parentCalls l).filterMap (startedServer program)

/-! ## Lines -/

/-- The lines of a script, as sysinit runs them. -/
abbrev runLines (fuel : Nat) (ls : List Str) : Effect := interpretLines fuel (Proc.exit (-1)) ls

/-- A line waits for a mount. -/
def WaitsFor (line path : Str) : Prop := ∃ ops, tokens line = "waitfor".toList :: path :: ops

/-- Where a mount that was made at `path` comes from, by its owner, after the calls `l` of sysinit, in
the lines `before`, and of the servers: it was there, or sysinit has created its port, or a server that
a line has started with `path` for its operand has created its port, or it was made by another program
that a line has started. -/
inductive Provided (SYSINIT_PATH : Str) (program : Str → Option Server) (paths before : List Str)
    (l : List BootLabel) (path : Str) : Owner → Prop where
  | boot : path ∈ paths → Provided SYSINIT_PATH program paths before l path .boot
  | sysinit {line : Str} {ops : List Str} {e : Event Sysinit.sys} : line ∈ before →
      tokens line = "createport".toList :: ops → e ∈ parentCalls l → createsPort e → path = SYSINIT_PATH →
      Provided SYSINIT_PATH program paths before l path .sysinit
  | server {line : Str} {server : Server} {argv : List Str} {i : Nat} {e : Event serverSys} :
      line ∈ before → tokens line = "start".toList :: argv → program (argv.headD []) = some server →
      mountPath argv = some path → (startedServers program l)[i]? = some (server, argv) →
      e ∈ childCalls i l → mountsAt path e → Provided SYSINIT_PATH program paths before l path (.server i)
  | other {line : Str} {argv : List Str} {e : Event Sysinit.sys} : line ∈ before →
      tokens line = "start".toList :: argv → program (argv.headD []) = none → e ∈ parentCalls l →
      startedArgv e = some argv → Provided SYSINIT_PATH program paths before l path (.other argv)

/-- `path` is mounted, by one who was there or started before: where mounts have been renamed, the
mount may have been made at another path. -/
def MountedBy (SYSINIT_PATH : Str) (program : Str → Option Server) (paths before : List Str)
    (l : List BootLabel) (x : MountTable) (path : Str) : Prop :=
  ∃ m ∈ x.mounts, m.path = path ∧ ∃ path', Provided SYSINIT_PATH program paths before l path' m.owner ∧
    ((∀ e ∈ parentCalls l, renames e = false) → path' = path)

end Cheviot.Spec
