import Cheviot.Spec.Sessions

/-!
# The start of the sessions

What `state_start_sessions` is to do with a list of sessions, given the results
of each `fork`.
-/

namespace Cheviot.Spec

open Framework Cheviot.Sysinit

/-- What `state_start_sessions` does before it starts the first session. -/
def readSessions (fuel : Nat) : Sys Unit := do
  syscall .endttyent
  syscall .setttyent
  readTtys fuel
  syscall .endttyent

/-- The start loop of `state_start_sessions`. -/
def startLoop (fuel : Nat) : Sys InitState := Proc.iter (startSession 0) fuel 0

/-- No session of the list has a process. -/
def Idle (l : List Session) : Prop := ∀ sp ∈ l, sp.seProcess = none

/-- The `fork` of a session's getty, with its answer. -/
def getty (sp : Session) (r : Option Pid × Int) : Event sys :=
  ⟨.fork (.getty sp.id sp.seDevice sp.seGettyArgv), r⟩

/-- The session, with its process. -/
def withProcess (sp : Session) (pid : Pid) : Session := { sp with seProcess := some pid }

/-- What the calls of `fork` returned. -/
def forkResults (t : List (Event sys)) : List (Option Pid) :=
  t.filterMap fun e =>
    match e with
    | ⟨.fork _, r⟩ => some r.1
    | _ => none

/-- The first sessions of the list have been started, one after the other, with the
processes `pids`, and record them; all have been, or the next one could not be. -/
structure Started (l : List Session) (pids : List (Pid × Int)) (t : List (Event sys))
    (l' : List Session) : Prop where
  forks : (pids.length = l.length ∧ t = List.zipWith (fun sp p => getty sp (some p.1, p.2)) l pids) ∨
    ∃ sp errno, l[pids.length]? = some sp ∧
      t = List.zipWith (fun sp p => getty sp (some p.1, p.2)) l pids ++ [getty sp (none, errno)]
  recorded : l' = List.zipWith (fun sp p => withProcess sp p.1) l pids ++ l.drop pids.length

/-- The starts of the sessions of a list, in order, until one fails, where `r` gives
the results of `fork` from the `n`-th on. -/
def attempts (r : Nat → Option Pid × Int) : Nat → List Session → List (Event sys)
  | _, [] => []
  | n, sp :: l => getty sp (r n) :: if (r n).1.isSome then attempts r (n + 1) l else []

/-- The sessions of the list that have a process are still there, as they were. -/
def Unchanged (l l' : List Session) : Prop :=
  ∀ (i : Nat) (sp : Session), l[i]? = some sp → sp.seProcess.isSome → l'[i]? = some sp

end Cheviot.Spec
