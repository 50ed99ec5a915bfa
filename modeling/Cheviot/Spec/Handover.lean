import Mathlib.Data.List.Chain
import Cheviot.Framework.Ghost
import Cheviot.Spec.Children

/-!
# What `do_run_rc` hands to `collect_process`

`do_run_rc` with a note of each call of `collect_process` in a log, and what that log
is to say of the children that have been reported.
-/

namespace Cheviot.Spec

open Framework Cheviot.Sysinit

/-- A call of `collect_process`: the sessions before it, the calls it makes, and the
sessions after it. -/
structure Collection where
  pid : Pid
  status : Status
  before : SessionTable
  calls : List (Event sys)
  after : SessionTable

/-- Each session of the process has been freed, or has another process from a `fork` that has
succeeded. -/
def Collection.Settled (h : Collection) : Prop :=
  ∀ sp ∈ h.before.entries, sp.seProcess = some h.pid →
    (.session sp.id ∈ freed h.calls ∧ ∀ sp' ∈ h.after.entries, sp'.id ≠ sp.id) ∨
      ∃ pid e, ⟨.fork (.getty sp.id sp.seDevice sp.seGettyArgv), (some pid, e)⟩ ∈ h.calls ∧
        { sp with seProcess := some pid } ∈ h.after.entries

/-! ## The code, with its calls of `collect_process` set apart -/

section

variable {σ : Type} (lift : ∀ {α : Type}, Sys α → Proc sys σ α)
  (collect : Pid → Status → Proc sys σ Unit)

/-- A round of the wait of `do_run_rc`, with `collect` for `collect_process`. -/
def rcRoundWith (pid : Pid) : Proc sys σ (Proc.Round Unit (Option Status)) := do
  let r ← lift (syscall (.waitpid true))
  match r with
  | none =>
    let g ← lift Proc.get
    if g.errno = EINTR then pure (.again ()) else pure (.done none)
  | some (wpid, status) =>
    collect wpid status
    if wpid = pid ∧ status.isStopped then
      let _ ← lift (syscall (.kill (some pid) .cont))
      pure (.again ())
    else if wpid = pid then
      pure (.done (some status))
    else
      pure (.again ())

/-- `do_run_rc`, with `collect` for `collect_process`. -/
def doRunRcWith (fuel : Nat) (pathRcScript : Str) : Proc sys σ Int := do
  let pid ← lift (syscall (.fork (.rc [PATH_SHELL, pathRcScript])))
  match pid with
  | none =>
    lift (drainChildren fuel)
    pure (-1)
  | some pid =>
    let status ← Proc.iter (fun _ => rcRoundWith lift collect pid) fuel ()
    match status with
    | some (.exited 0) => pure 0
    | _ => pure (-1)

end

/-- `collect_process`, with a note of the call. -/
def collectNoted (pid : Pid) (status : Status) : Proc sys (Globals × List Collection) Unit :=
  Proc.noted (fun g t g' => ⟨pid, status, g.sessionList, t, g'.sessionList⟩) (collectProcess pid status)

/-- `do_run_rc`, with a log of its calls of `collect_process`. -/
def doRunRcNoted (fuel : Nat) (pathRcScript : Str) : Proc sys (Globals × List Collection) Int :=
  doRunRcWith (fun p => p.besideLog) collectNoted fuel pathRcScript

/-! ## What is to be handed over -/

/-- Each child that `waitpid` has reported has been handed to `collect_process` once, in
the order of the reports, and the sessions of each one that has terminated have been
settled. -/
structure NothingLost (t : List (Event sys)) (log : List Collection) : Prop where
  handed : log.map (fun h => (h.pid, h.status)) = t.filterMap waited
  settled : ∀ h ∈ log, ¬ h.status.isStopped → h.Settled

/-- The call reports a child that has terminated. -/
def Terminates (e : Event sys) : Prop := ∃ pid status, waited e = some (pid, status) ∧ ¬ status.isStopped

/-- The `fork` of a getty fails. -/
def gettyFails : Event sys → Bool
  | ⟨.fork (.getty ..), (none, _)⟩ => true
  | _ => false

/-- No `fork` fails that restarts the session of a child reported as terminated. -/
def Restarts (t : List (Event sys)) : Prop := t.IsChain fun e e' => Terminates e → ¬ gettyFails e'

/-- The sessions after a call: the `fork` of a getty that succeeds gives its session the process,
and a session that is freed is no more. -/
def entriesAfter (es : List Session) : Event sys → List Session
  | ⟨.fork (.getty id _ _), (some pid, _)⟩ =>
    es.map fun sp => if sp.id = id then { sp with seProcess := some pid } else sp
  | ⟨.free (.session id), _⟩ => es.filter fun sp => sp.id ≠ id
  | _ => es

/-- The sessions after a run. -/
def entriesOf (es : List Session) (t : List (Event sys)) : List Session := t.foldl entriesAfter es

/-- If the call reports a child that has terminated, no two of the sessions record it. -/
def FindsOne (es : List Session) (e : Event sys) : Prop :=
  ∀ pid status, waited e = some (pid, status) → ¬ status.isStopped →
    ∀ sp ∈ es, ∀ sp' ∈ es, sp.seProcess = some pid → sp'.seProcess = some pid → sp = sp'

/-- At each report of a child that has terminated, no two sessions record it. -/
def Alone : List Session → List (Event sys) → Prop
  | _, [] => True
  | es, e :: t => FindsOne es e ∧ Alone (entriesAfter es e) t

/-- The `fork` of the rc script succeeds. -/
def RcForked (t : List (Event sys)) : Prop := ∃ argv pid e, ⟨.fork (.rc argv), (some pid, e)⟩ ∈ t

end Cheviot.Spec
