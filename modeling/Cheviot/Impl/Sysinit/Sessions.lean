import Cheviot.Impl.Sysinit.Types

/-!
# `sessions.c`: the session table

A pointer to a session is the session it points to, with its `id` for the
address: what is written through the pointer is written to the entry of that
`id`. What the child of `start_getty` does is the `Child.getty` its fork names.
-/

namespace Cheviot.Sysinit

open Framework

/-! ## Words -/

/-- The separators of `construct_argv`. -/
def isSeparator (c : Char) : Bool := c = ' ' ∨ c = '\t'

/-- `strtok` on the characters it has not consumed: the next token and what is
then left, or none for NULL. -/
def strtok (s : Str) : Option (Str × Str) :=
  match s.dropWhile isSeparator with
  | [] => none
  | c :: cs =>
    some ((c :: cs).takeWhile (!isSeparator ·), ((c :: cs).dropWhile (!isSeparator ·)).tail)

/-- `construct_argv`, for session `id`: the words, which the NULL that ends
them follows in the array. The loop goes on from the second word with what
`strtok` has left; storing at index `n` or later is a fault. -/
def constructArgv (id : Nat) (command : Str) : Sys (Option (List Str)) := do
  let n := (command.length + 1) / 2 + 1
  let argv ← syscall (.malloc (.argv id) (.pointers n))
  match argv with
  | none => pure none
  | some _ =>
    match strtok command with
    | none =>
      syscall (.free (.argv id))
      pure none
    | some (tok, rest) =>
      let words ← Proc.iter (fun (words, rest) =>
        if words.length < n then
          match strtok rest with
          | none => pure (.done words)
          | some (tok, rest) => pure (.again (words ++ [tok], rest))
        else Proc.fault) (command.length + 1) ([tok], rest)
      pure (some words)

/-- The stores of `construct_argv` into its array, from entry `argc` on: what `strtok`
returns on the characters it has left, up to a NULL. It is none if one of them is
outside the array. -/
def storeWords {n : Nat} : Nat → Str → Nat → Vector (Option Str) n → Option (Vector (Option Str) n)
  | 0, _, _, _ => none
  | k + 1, rest, argc, argv =>
    if h : argc < n then
      match strtok rest with
      | none => some (argv.set argc none h)
      | some (tok, rest) => storeWords k rest (argc + 1) (argv.set argc (some tok) h)
    else none

/-- `setupargv`: the session with its command line and argv, or, with none for
a result of 0, the session as it is left. -/
def setupargv (sp : Session) (typ : Ttyent) : Sys (Except Session Session) := do
  if sp.seGetty.isSome then
    syscall (.free (.getty sp.id))
    syscall (.free (.argv sp.id))
  let command := typ.tyGetty.getD [] ++ [' '] ++ typ.tyName.getD []
  let ok ← syscall (.asprintf (.getty sp.id) command)
  if ok then
    let argv ← constructArgv sp.id command
    match argv with
    | none =>
      syscall (.free (.getty sp.id))
      pure (.error { sp with seGetty := none })
    | some argv => pure (.ok { sp with seGetty := some command, seGettyArgv := argv })
  else
    pure (.error { sp with seGetty := none })

/-- `free_session` -/
def freeSession (sp : Session) : Sys Unit := do
  Proc.modify fun g => { g with sessionList := g.sessionList.remEntry sp }
  syscall (.free (.device sp.id))
  if sp.seGetty.isSome then
    syscall (.free (.getty sp.id))
    syscall (.free (.argv sp.id))
  syscall (.free (.session sp.id))

/-- `alloc_session` -/
def allocSession (sessionIndex : Nat) (typ : Ttyent) : Sys (Option Session) := do
  if typ.tyOn = false ∨ typ.tyName = none ∨ typ.tyGetty = none then
    pure none
  else
    let g ← Proc.get
    let id := g.sessionList.fresh
    let sp ← syscall (.malloc (.session id) .session)
    match sp with
    | none => pure none
    | some _ =>
      let device := PATH_DEV ++ typ.tyName.getD []
      let sp : Session := ⟨id, sessionIndex, none, SE_PRESENT, device, none, []⟩
      let ok ← syscall (.asprintf (.device id) device)
      if ok then
        let r ← setupargv sp typ
        match r with
        | .error sp =>
          freeSession sp
          pure none
        | .ok sp =>
          Proc.modify fun g => { g with sessionList := g.sessionList.addTail sp }
          pure (some sp)
      else
        syscall (.free (.session id))
        pure none

/-! ## Processes -/

/-- `start_getty`: the id of the child, or none for -1. -/
def startGetty (sp : Session) : Sys (Option Pid) :=
  syscall (.fork (.getty sp.id sp.seDevice sp.seGettyArgv))

/-- `find_session` -/
def findSession (l : List Session) (pid : Pid) : Option Session :=
  l.find? fun sp => sp.seProcess = some pid

/-- `collect_process` -/
def collectProcess (pid : Pid) (_status : Status) : Sys Unit := do
  let g ← Proc.get
  if g.sessionList.entries = [] then
    pure ()
  else
    match findSession g.sessionList.entries pid with
    | none => pure ()
    | some sp =>
      if sp.isShutdown then
        freeSession sp
      else
        let pid ← startGetty sp
        match pid with
        | none => pure ()
        | some pid =>
          Proc.modify fun g => { g with sessionList := g.sessionList.setProcess sp.id pid }

/-! ## Starting and stopping -/

/-- `while ((typ = getttyent()) != NULL) { alloc_session(...); session_index++; }` -/
def readTtys (fuel : Nat) : Sys Unit :=
  Proc.iter (fun sessionIndex => do
    let typ ← syscall .getttyent
    match typ with
    | none => pure (.done ())
    | some typ =>
      let _ ← allocSession sessionIndex typ
      pure (.again (sessionIndex + 1))) fuel 0

/-- A round of the start loop, at entry `sp` of the list: the next entry, or
the state to return. `started_session_cnt` stays what it was. -/
def startSession (startedSessionCnt sp : Nat) : Sys (Proc.Round Nat InitState) := do
  let g ← Proc.get
  match g.sessionList.entries[sp]? with
  | none => pure (.done .messageLoop)
  | some s =>
    if s.seProcess.isSome then
      pure (.again sp)
    else
      let pid ← startGetty s
      match pid with
      | none => pure (.done (if startedSessionCnt = 0 then .runRcShutdown else .messageLoop))
      | some pid =>
        Proc.modify fun g => { g with sessionList := g.sessionList.setProcess s.id pid }
        pure (.again (sp + 1))

/-- `state_start_sessions` -/
def stateStartSessions (fuel : Nat) : Sys InitState := do
  syscall .endttyent
  syscall .setttyent
  readTtys fuel
  syscall .endttyent
  let g ← Proc.get
  if g.sessionList.entries = [] then
    pure .runRcShutdown
  else
    Proc.iter (startSession 0) fuel 0

/-- `state_stop_sessions` -/
def stateStopSessions : Sys InitState := pure .runRcShutdown

end Cheviot.Sysinit
