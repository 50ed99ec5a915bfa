import Cheviot.Framework.Assign
import Cheviot.Impl.Sysinit.Main

/-!
# Sessions and their processes

The processes that `start_getty` has forked, as the answers of `fork` and
`waitpid` tell of them (`Gettys`), what a session table is to say of them
(`Sound`), and the operations on both (`OpRun`).
-/

namespace Cheviot.Spec

open Framework Cheviot.Sysinit

/-! ## Gettys -/

/-- The processes that `start_getty` has forked and that no `waitpid` has reported
as terminated, each with the session it was forked for. -/
abbrev Gettys := Assign Pid Nat

/-- A process that is reported as terminated is reaped, one that is reported as
stopped is not. -/
def reap (k : Gettys) (pid : Pid) (status : Status) : Gettys :=
  if status.isStopped then k else k.release pid

/-- The gettys after a call. -/
def afterCall (k : Gettys) : Event sys → Gettys
  | ⟨.fork (.getty id _ _), (some pid, _)⟩ => k.grant pid id
  | ⟨.waitpid _, (some (pid, status), _)⟩ => reap k pid status
  | ⟨.waitpidNohang, (.child pid status, _)⟩ => reap k pid status
  | _ => k

/-- The gettys after a run. -/
def gettys (k : Gettys) (t : List (Event sys)) : Gettys := t.foldl afterCall k

/-- `fork` returns no process that has not been reaped. -/
def FreshFork (k : Gettys) : Event sys → Prop
  | ⟨.fork _, (some pid, _)⟩ => k pid = none
  | _ => True

/-- What the wait of `do_run_rc` reports. -/
def reports : Event sys → Option (Pid × Status)
  | ⟨.waitpid true, (some x, _)⟩ => some x
  | _ => none

/-- The session that a call forks a getty for, if it forks one. -/
def forksGetty : Call → Option Nat
  | .fork (.getty id _ _) => some id
  | _ => none

/-- A getty is forked for a session only when there is none for it. -/
def Replaces (k : Gettys) (t : List (Event sys)) : Prop :=
  ∀ t₁ e t₂, t = t₁ ++ e :: t₂ → ∀ id, forksGetty e.call = some id →
    ∀ pid, gettys k t₁ pid ≠ some id

/-! ## Blocks -/

/-- The blocks of a session. -/
def blocks (sp : Session) : List Block :=
  .device sp.id :: if sp.seGetty.isSome then [.getty sp.id, .argv sp.id, .session sp.id]
    else [.session sp.id]

/-- The blocks that have been allocated, in order. -/
def allocated (t : List (Event sys)) : List Block :=
  t.filterMap fun e =>
    match e with
    | ⟨.malloc b _, (some _, _)⟩ => some b
    | ⟨.asprintf b _, (true, _)⟩ => some b
    | _ => none

/-- The blocks that have been freed, in order. -/
def freed (t : List (Event sys)) : List Block :=
  t.filterMap fun e =>
    match e.call with
    | .free b => some b
    | _ => none

/-- A `malloc` of an argv, with the block it returns, if it does. -/
def argvMalloc : Event sys → Option Bool
  | ⟨.malloc (.argv _) _, r⟩ => some r.1.isSome
  | _ => none

/-- An `asprintf` of a command line that fails. -/
def lineFails : Event sys → Bool
  | ⟨.asprintf (.getty _) _, r⟩ => !r.1
  | _ => false

/-- The command line of a session. -/
def commandLine (typ : Ttyent) : Str := typ.tyGetty.getD [] ++ [' '] ++ typ.tyName.getD []

/-- The command line of a session cannot be allocated, or its argv cannot be, or
the command line has no word. -/
def SetupFails (typ : Ttyent) (t : List (Event sys)) : Prop :=
  (∃ e ∈ t, lineFails e) ∨ (∃ e ∈ t, argvMalloc e = some false) ∨
    (∃ e ∈ t, argvMalloc e = some true) ∧ strtok (commandLine typ) = none

/-- What `alloc_session` is to do with the table `l`: where it returns none the table
is as it was and each block that was allocated has been freed once, and a session
that it returns has been added to the table. -/
def AllocKeeps (l : SessionTable) (t : List (Event sys)) (l' : SessionTable) : Option Session → Prop
  | none => l'.entries = l.entries ∧ (allocated t).Nodup ∧ (freed t).Perm (allocated t)
  | some sp => l'.entries = l.entries ++ [sp]

/-! ## The session table -/

/-- The processes recorded in the table are gettys of their sessions, no two
sessions record the same one, and it is the session of a recorded process, and
no other, that is found for it. -/
structure Sound (k : Gettys) (l : SessionTable) : Prop where
  live : ∀ sp ∈ l.entries, ∀ pid, sp.seProcess = some pid → k pid = some sp.id
  distinct : ∀ sp ∈ l.entries, ∀ sp' ∈ l.entries, ∀ pid,
    sp.seProcess = some pid → sp'.seProcess = some pid → sp = sp'
  find : ∀ pid sp, findSession l.entries pid = some sp ↔ sp ∈ l.entries ∧ sp.seProcess = some pid

/-- An operation: the start of the session at a place of the table, or the
collection of a process that `waitpid` has reported. -/
inductive Op where
  | start (i : Nat)
  | collect (pid : Pid) (status : Status)

/-- The gettys and the globals. -/
structure World where
  gettys : Gettys
  globals : Globals

/-- The calls and the effect of an operation. -/
inductive OpStep : World → Op → List (Event sys) → World → Prop where
  | start {k : Gettys} {g g' : Globals} {i : Nat} {t : List (Event sys)}
      {r : Proc.Round Nat InitState} : (startSession 0 i g).Runs t (.ok r, g') →
      (∀ e ∈ t, FreshFork k e) → OpStep ⟨k, g⟩ (.start i) t ⟨gettys k t, g'⟩
  | collect {k : Gettys} {g g' : Globals} {pid : Pid} {status : Status} {t : List (Event sys)} :
      (collectProcess pid status g).Runs t (.ok (), g') →
      (∀ e ∈ t, FreshFork (reap k pid status) e) →
      OpStep ⟨k, g⟩ (.collect pid status) t ⟨gettys (reap k pid status) t, g'⟩

/-- Operations, each with its calls. -/
inductive OpRun (w : World) : List (Op × List (Event sys)) → World → Prop where
  | nil : OpRun w [] w
  | snoc {l : List (Op × List (Event sys))} {w₁ w₂ : World} {op : Op} {t : List (Event sys)} :
      OpRun w l w₁ → OpStep w₁ op t w₂ → OpRun w (l ++ [(op, t)]) w₂

/-- The process of a session that is to be restarted has terminated, and the
`fork` of the restart fails. -/
def FailedRestart (l : SessionTable) : Op → List (Event sys) → Prop
  | .collect pid status, t => ¬ status.isStopped ∧
      (∃ sp, findSession l.entries pid = some sp ∧ ¬ sp.isShutdown) ∧
      ∃ child e, ⟨.fork child, (none, e)⟩ ∈ t
  | .start _, _ => False

end Cheviot.Spec
