import Mathlib.Data.Finset.Erase
import Mathlib.Data.Finset.Filter
import Mathlib.Data.Finset.Insert
import Mathlib.Data.Finset.Lattice.Basic
import Cheviot.Spec.Machine
import Cheviot.Spec.Sessions

/-!
# The children of sysinit

What `fork`, `kill` and `waitpid` document of the children of a process. For
`waitpid` alone it is enough which children there are (`children`, `Waits`); for
signals also which of them are alive, and which signal each dies from
(`Kernel`). What has been collected, freed and sent is read off the calls.
-/

namespace Cheviot.Spec

open Framework Cheviot.Sysinit

/-! ## `errno` -/

/-- The value of `errno` after a run. -/
def errnoAfter (errno : Int) (t : List (Event sys)) : Int := t.foldl (fun _ e => e.ret.2) errno

/-- A `kill` or a `waitpid` that succeeds does not change `errno`. -/
def KeepsErrno (errno : Int) : Event sys → Prop
  | ⟨.kill .., (true, e)⟩ => e = errno
  | ⟨.waitpid _, (some _, e)⟩ => e = errno
  | _ => True

/-- So does a `free`. -/
def FreeKeepsErrno (errno : Int) (e : Event sys) : Prop := isFree e.call → e.ret.2 = errno

/-! ## What is read off the calls -/

/-- The signals that have been sent to all processes, in order. -/
def sent (t : List (Event sys)) : List Signal :=
  t.filterMap fun e =>
    match e.call with
    | .kill none sig => some sig
    | _ => none

/-- What a `waitpid` reports of a child. -/
def waited : Event sys → Option (Pid × Status)
  | ⟨.waitpid _, (some x, _)⟩ => some x
  | ⟨.waitpidNohang, (.child pid status, _)⟩ => some (pid, status)
  | _ => none

/-- The processes that `waitpid` has reported, in order. -/
def reported (t : List (Event sys)) : List Pid := t.filterMap fun e => (waited e).map (·.1)

/-- The process of the session has been reported. -/
def Collected (t : List (Event sys)) (sp : Session) : Prop :=
  ∃ pid ∈ reported t, sp.seProcess = some pid

instance (t : List (Event sys)) : DecidablePred (Collected t) := fun sp =>
  inferInstanceAs (Decidable (∃ pid ∈ reported t, sp.seProcess = some pid))

/-- The session, which won't be restarted. -/
def marked (sp : Session) : Session := { sp with seFlags := sp.seFlags ||| SE_SHUTDOWN }

/-! ## The wait for the rc script -/

/-- What `do_run_rc`'s wait reports of process `pid`, in order. -/
def statuses (pid : Pid) (t : List (Event sys)) : List Status :=
  (t.filterMap reports).filterMap fun x => if x.1 = pid then some x.2 else none

/-- The reports that process `pid` has stopped. -/
def stops (pid : Pid) (t : List (Event sys)) : List Status :=
  (statuses pid t).filter fun status => status.isStopped

/-- The reports that process `pid` has terminated. -/
def ends (pid : Pid) (t : List (Event sys)) : List Status :=
  (statuses pid t).filter fun status => ¬ status.isStopped

/-- The values of `errno` of the waits that failed, in order. -/
def failures (t : List (Event sys)) : List Int :=
  t.filterMap fun e =>
    match e with
    | ⟨.waitpid _, (none, errno)⟩ => some errno
    | _ => none

/-- The signals that have been sent, each with the process it was sent to. -/
def kills (t : List (Event sys)) : List (Option Pid × Signal) :=
  t.filterMap fun e =>
    match e.call with
    | .kill target sig => some (target, sig)
    | _ => none

/-- `waitpid` without `WNOHANG` -/
def isWait : Call → Bool
  | .waitpid _ => true
  | _ => false

/-! ## `fork` and `waitpid` -/

/-- The children after a call. -/
def childrenAfter (children : Finset Pid) : Event sys → Finset Pid
  | ⟨.fork _, (some pid, _)⟩ => insert pid children
  | ⟨.waitpid _, (some (pid, status), _)⟩ =>
    if status.isStopped then children else children.erase pid
  | ⟨.waitpidNohang, (.child pid _, _)⟩ => children.erase pid
  | _ => children

/-- The children after a run. -/
def childrenOf (children : Finset Pid) (t : List (Event sys)) : Finset Pid :=
  t.foldl childrenAfter children

/-- `fork` returns a new process; `waitpid` reports one of the children, with
`WUNTRACED` also one that has stopped, and it fails with `ECHILD` exactly if there
is none. -/
def Waits (children : Finset Pid) : Event sys → Prop
  | ⟨.fork _, (some pid, _)⟩ => pid ∉ children
  | ⟨.waitpid untraced, (some (pid, status), _)⟩ => pid ∈ children ∧ (status.isStopped → untraced)
  | ⟨.waitpid _, (none, errno)⟩ => errno = ECHILD ↔ children = ∅
  | ⟨.waitpidNohang, (.child pid status, _)⟩ => pid ∈ children ∧ ¬ status.isStopped
  | ⟨.waitpidNohang, (.none, _)⟩ => children.Nonempty
  | ⟨.waitpidNohang, (.error, errno)⟩ => errno = ECHILD ↔ children = ∅
  | _ => True

/-- The rounds of the loop of `state_reaper`: each child that is reported is passed
to `collect_process`. -/
inductive Reaps : Globals → List (Event sys) → List (Pid × Status) → Globals → Prop where
  | nil (g : Globals) : Reaps g [] [] g
  | failed {g g' : Globals} {errno : Int} {t : List (Event sys)} {l : List (Pid × Status)} :
      Reaps { g with errno := errno } t l g' → Reaps g (⟨.waitpid false, (none, errno)⟩ :: t) l g'
  | child {g g₁ g' : Globals} {pid : Pid} {status : Status} {errno : Int} {t₁ t₂ : List (Event sys)}
      {l : List (Pid × Status)} :
      (collectProcess pid status { g with errno := errno }).Runs t₁ (.ok (), g₁) → Reaps g₁ t₂ l g' →
      Reaps g (⟨.waitpid false, (some (pid, status), errno)⟩ :: t₁ ++ t₂) ((pid, status) :: l) g'

/-- Of the children `C`, none is left after `t`, and each has been passed to
`collect_process`. -/
def AllReaped (C : Finset Pid) (g : Globals) (t : List (Event sys)) (g' : Globals) : Prop :=
  childrenOf C t = ∅ ∧ ∃ l, Reaps g t l g' ∧ ∀ pid ∈ C, ∃ status, (pid, status) ∈ l

/-- A child is reported while another one is left, and once its session has been
freed `errno` is `ECHILD`. -/
def Stale (C : Finset Pid) (t : List (Event sys)) : Prop :=
  ∃ t₁ pid status errno t₂, t = t₁ ++ ⟨.waitpid false, (some (pid, status), errno)⟩ :: t₂ ∧
    (childrenOf C (t₁ ++ [⟨.waitpid false, (some (pid, status), errno)⟩])).Nonempty ∧
    errnoAfter errno (t₂.takeWhile (isFree ·.call)) = ECHILD

/-! ## Signals -/

/-- The children: those that are alive, and those that have terminated and that
no `waitpid` has reported. -/
structure Kernel where
  alive : Finset Pid
  dead : Finset Pid

namespace Kernel

/-- Some children terminate. -/
def terminate (k : Kernel) (p : Pid → Prop) [DecidablePred p] : Kernel where
  alive := k.alive.filter (¬ p ·)
  dead := k.dead ∪ k.alive.filter p

variable (dies : Pid → Signal)

/-- The children after a call, where `dies` gives the first signal that a child dies
from; none survives SIGKILL. -/
def after (k : Kernel) : Event sys → Kernel
  | ⟨.kill none sig, _⟩ => k.terminate fun pid => sig = dies pid ∨ sig = .kill
  | ⟨.fork _, (some pid, _)⟩ => { k with alive := insert pid k.alive }
  | ⟨.waitpid _, (some (pid, status), _)⟩ =>
    if status.isStopped then k else { k with dead := k.dead.erase pid }
  | ⟨.waitpidNohang, (.child pid _, _)⟩ => { k with dead := k.dead.erase pid }
  | _ => k

/-- `waitpid` reports as terminated a child that has terminated, and a signal to
all processes is sent as long as there is one. -/
def Answers (k : Kernel) (e : Event sys) : Prop :=
  Waits (k.alive ∪ k.dead) e ∧
    (∀ pid status, waited e = some (pid, status) → ¬ status.isStopped → pid ∈ k.dead) ∧
    ∀ sig errno, e = ⟨.kill none sig, (false, errno)⟩ → k.alive = ∅

/-- A run of calls, where a child that is alive can exit at any moment. -/
inductive Run : Kernel → List (Event sys) → Kernel → Prop where
  | nil (k : Kernel) : Run k [] k
  | exit {k k' : Kernel} {t : List (Event sys)} (pid : Pid) :
      Run (k.terminate (· = pid)) t k' → Run k t k'
  | call {k k' : Kernel} {e : Event sys} {t : List (Event sys)} : k.Answers e →
      Run (k.after dies e) t k' → Run k (e :: t) k'

/-- A process that is blocked in `waitpid`, with only live children left, or that
has returned while a child is alive. -/
def Leaves {α : Type} (k : Kernel) : Prog sys (Out α × Globals) → Prop
  | .call (.waitpid false) _ => k.dead = ∅ ∧ k.alive.Nonempty
  | .ret (.ok _, _) => k.alive.Nonempty
  | _ => False

end Kernel

end Cheviot.Spec
