import Mathlib.Data.PNat.Basic
import Cheviot.Framework.Proc

/-!
# sysinit: its calls and its memory

What `sysinit.h` and `globals.c` declare, and the calls sysinit makes with the
answers each of them can get. An answer is the call's result together with the
value of `errno` after it. Results have the form the calls document: a process
id or none where C has -1, a message or none where `getmsg` returns anything
but `sizeof req`. Messages of the log and the clock (`time`, `gettimeofday`)
are left out, since nothing depends on them.
-/

namespace Cheviot.Sysinit

open Framework

/-- A C string, without its NUL. -/
abbrev Str := List Char

/-- The character that ends a C string. -/
def NUL : Char := '\x00'

/-- The id of a process: what `fork` and `waitpid` return when positive. -/
abbrev Pid := ℕ+

/-- `ARG_SZ` -/
def ARG_SZ : Nat := 256

def PATH_S_STARTUP : Str := "/etc/s.startup".toList
def PATH_S_SHUTDOWN : Str := "/etc/s.shutdown".toList
def PATH_RC_STARTUP : Str := "/etc/rc.startup".toList
def PATH_RC_SHUTDOWN : Str := "/etc/rc.shutdown".toList
def PATH_SHELL : Str := "/bin/ksh".toList
def PATH_DEV : Str := "/dev/".toList

/-- The values of `errno` that sysinit tests or replies with. -/
def ESRCH : Int := 3
def EINTR : Int := 4
def ECHILD : Int := 10
def ENOTSUP : Int := 134

/-- What a shutdown does if no request names another kind. The header that
gives it a value is not in the repository. -/
def SHUTDOWN_HALT : Int := 0

/-- The file type bits of `sys/stat.h`. -/
def IFCHR : BitVec 32 := 0o020000#32
def IFBLK : BitVec 32 := 0o060000#32

/-- `se_flags`: the session won't be restarted; the session is present. -/
def SE_SHUTDOWN : BitVec 32 := 1#32
def SE_PRESENT : BitVec 32 := 2#32

/-- `init_state_t` -/
inductive InitState where
  | runSStartup
  | runRcStartup
  | startSessions
  | messageLoop
  | stopSessions
  | runRcShutdown
  | runSShutdown
  | reaper
  | shutdown
  | failure
  deriving DecidableEq, Repr

/-- `struct stat`, where a field that is left as the stack had it is `none`. -/
structure Stat where
  stDev : Option Nat := none
  stIno : Option Nat := none
  stMode : Option (BitVec 32) := none
  stUid : Option Nat := none
  stGid : Option Nat := none
  stBlksize : Option Nat := none
  stSize : Option Nat := none
  stBlocks : Option Nat := none
  deriving DecidableEq, Repr

/-- What a child does between `fork` and the end of its own code: the `start`
command's `execve` of an argv, a session's `setctty` and `execve`, and the
`execv` of the shell on an rc script. -/
inductive Child where
  | start (session : Bool) (argv : List Str)
  | getty (session : Nat) (device : Str) (argv : List Str)
  | rc (argv : List Str)
  deriving DecidableEq, Repr

/-- How a child changed state, as `waitpid` reports it. -/
inductive Status where
  | exited (code : Nat)
  | signaled (sig : Nat)
  | stopped (sig : Nat)
  deriving DecidableEq, Repr

/-- `WIFSTOPPED` -/
def Status.isStopped : Status → Bool
  | .stopped _ => true
  | _ => false

inductive Signal where
  | hup
  | term
  | kill
  | cont
  deriving DecidableEq, Repr

/-- The blocks of the heap: a script's buffer, and a session's struct, device
path, command line and argv, by the number of the session. -/
inductive Block where
  | script (path : Str)
  | session (id : Nat)
  | device (id : Nat)
  | getty (id : Nat)
  | argv (id : Nat)
  deriving DecidableEq, Repr

/-- What `malloc` is asked for: characters, pointers or a `session_t`. The size of a pointer and
that of a `session_t` are those of the target. -/
inductive Size where
  | chars (n : Nat)
  | pointers (n : Nat)
  | session
  deriving DecidableEq, Repr

/-- The number of characters of a block of the size, as far as it is read as characters. -/
abbrev Size.length : Size → Nat
  | .chars n => n
  | _ => 0

/-- `req.cmd`, of which only `CMD_SENDIO` is told from the others. -/
inductive Cmd where
  | sendio
  | other (n : Nat)
  deriving DecidableEq, Repr

/-- `req.args.sendio.subclass` -/
inductive Subclass where
  | sysinit
  | other (n : Nat)
  deriving DecidableEq, Repr

/-- `iorequest_t` -/
structure Iorequest where
  cmd : Cmd
  subclass : Subclass
  deriving DecidableEq, Repr

/-- What `getmsg` returns: `sizeof req` with a message, or another number. -/
inductive Getmsg where
  | got (msgid : Int) (req : Iorequest)
  | none (sc : Int)
  deriving DecidableEq, Repr

/-- The number of events `kevent` returns, and the first one. -/
structure Kevent where
  nevents : Int
  ident : Int
  msgport : Bool
  deriving DecidableEq, Repr

/-- `struct ttyent`: whether `TTY_ON` is set in `ty_status`, and the strings. -/
structure Ttyent where
  tyOn : Bool
  tyName : Option Str
  tyGetty : Option Str
  deriving DecidableEq, Repr

/-- What `waitpid` with `WNOHANG` returns. -/
inductive Nohang where
  | error
  | none
  | child (pid : Pid) (status : Status)
  deriving DecidableEq, Repr

/-- The calls sysinit makes. -/
inductive Call where
  | open (path : Str)
  | fstat (fd : Int)
  | malloc (block : Block) (size : Size)
  | free (block : Block)
  | asprintf (block : Block) (text : Str)
  | read (fd : Int) (block : Block) (size : Nat)
  | close (fd : Int)
  | fork (child : Child)
  | ismount (path : Str)
  | nanosleep (nsec : Nat)
  | mknod2 (path : Str) (flags : Nat) (st : Stat)
  | sleep (seconds : BitVec 32)
  | chdir (path : Str)
  | pivotroot (newRoot oldRoot : Str)
  | renamemount (newPath oldPath : Str)
  | createmsgport (flags : Nat) (st : Stat)
  | kqueue
  | endttyent
  | setttyent
  | getttyent
  | keventAdd (kq portid : Int)
  | kevent (kq : Int)
  | getmsg (portid : Int)
  | readmsg (portid msgid : Int) (size : Nat)
  | replymsg (portid msgid status : Int)
  | kill (target : Option Pid) (sig : Signal)
  | waitpid (untraced : Bool)
  | waitpidNohang
  | shutdownOs (how : Int)
  deriving DecidableEq, Repr

/-- The result of a call. -/
abbrev Call.Result : Call → Type
  | .fstat _ => Int × Nat
  | .malloc _ size => Option (Vector Char size.length)
  | .free _ => Unit
  | .asprintf .. => Bool
  | .read .. => Option (List Char)
  | .fork _ => Option Pid
  | .endttyent | .setttyent => Unit
  | .getttyent => Option Ttyent
  | .kevent _ => Kevent
  | .getmsg _ => Getmsg
  | .readmsg .. => Int × List UInt8
  | .kill .. => Bool
  | .waitpid _ => Option (Pid × Status)
  | .waitpidNohang => Nohang
  | _ => Int

/-- sysinit's calls; an answer is a result and the value of `errno` after it. -/
abbrev sys : Sig := ⟨Call, fun c => c.Result × Int⟩

/-- `session_t`. `id` is which allocation the session is, so that it stands
for the address of the session. `seGetty` is the command line as it was
written: `strtok` cuts the string at its separators, and nothing reads it after
that, but for whether it is NULL. -/
structure Session where
  id : Nat
  seIndex : Nat
  seProcess : Option Pid
  seFlags : BitVec 32
  seDevice : Str
  seGetty : Option Str
  seGettyArgv : List Str
  deriving DecidableEq, Repr

/-- Whether the session won't be restarted. -/
def Session.isShutdown (sp : Session) : Bool := sp.seFlags &&& SE_SHUTDOWN ≠ 0

/-- `session_list`, from head to tail. No two entries are the same session,
and `fresh` is the next session to be allocated. -/
structure SessionTable where
  entries : List Session
  fresh : Nat
  lt_fresh : ∀ sp ∈ entries, sp.id < fresh
  nodup : (entries.map (·.id)).Nodup

namespace SessionTable

/-- The list before the first session is allocated. -/
def empty : SessionTable := ⟨[], 0, by simp, by simp⟩

/-- `LIST_ADD_TAIL(&session_list, sp, link)` of the session just allocated. -/
def addTail (l : SessionTable) (sp : Session) : SessionTable where
  entries := l.entries ++ [{ sp with id := l.fresh }]
  fresh := l.fresh + 1
  lt_fresh := by
    intro s hs
    rcases List.mem_append.mp hs with hs | hs
    · exact Nat.lt_succ_of_lt (l.lt_fresh s hs)
    · rw [List.mem_singleton.mp hs]; exact Nat.lt_succ_self _
  nodup := by
    rw [List.map_append, List.nodup_append]
    refine ⟨l.nodup, by simp, fun i hi j hj => ?_⟩
    obtain ⟨s, hs, rfl⟩ := List.mem_map.mp hi
    simp only [List.map_cons, List.map_nil, List.mem_singleton] at hj
    exact hj ▸ Nat.ne_of_lt (l.lt_fresh s hs)

/-- `LIST_REM_ENTRY(&session_list, sp, link)`. The links of an entry that was
never added are NULL, and removing it writes them into the head and the tail. -/
def remEntry (l : SessionTable) (sp : Session) : SessionTable where
  entries := if sp.id ∈ l.entries.map (·.id) then l.entries.filter (·.id ≠ sp.id) else []
  fresh := l.fresh
  lt_fresh := by
    intro s hs
    split at hs
    · exact l.lt_fresh s (List.mem_of_mem_filter hs)
    · cases hs
  nodup := by
    split
    · exact l.nodup.sublist (List.filter_sublist.map _)
    · simp

/-- Change the session `id`, which stays the session it is. -/
def update (l : SessionTable) (id : Nat) (f : Session → Session) : SessionTable where
  entries := l.entries.map fun s => if s.id = id then { f s with id := s.id } else s
  fresh := l.fresh
  lt_fresh := by
    intro s hs
    obtain ⟨s', hs', rfl⟩ := List.mem_map.mp hs
    have := l.lt_fresh s' hs'
    split <;> exact this
  nodup := by
    rw [List.map_map, List.map_congr_left (g := (·.id))]
    · exact l.nodup
    · intro s _
      simp only [Function.comp_apply]
      split <;> rfl

/-- `sp->se_process = pid` -/
def setProcess (l : SessionTable) (id : Nat) (pid : Pid) : SessionTable :=
  l.update id fun sp => { sp with seProcess := some pid }

/-- `sp->se_flags |= SE_SHUTDOWN` for every session of the list. -/
def setShutdown (l : SessionTable) : SessionTable where
  entries := l.entries.map fun sp => { sp with seFlags := sp.seFlags ||| SE_SHUTDOWN }
  fresh := l.fresh
  lt_fresh := by
    intro s hs
    obtain ⟨s', hs', rfl⟩ := List.mem_map.mp hs
    exact l.lt_fresh s' hs'
  nodup := by
    rw [List.map_map]
    exact l.nodup

end SessionTable

/-- The characters `src` points into, and where. -/
structure Cursor where
  buf : List Char
  off : Nat

/-- The globals of sysinit, with the static variable of `s_tokenize` (`ch`, an
index of `linebuf`), the local buffer of `state_message_loop` and `errno`. -/
structure Globals where
  startArgv : Vector (Option Nat) ARG_SZ
  linebuf : Vector Char 256
  src : Cursor
  ch : Option Nat
  portid : Int
  kq : Int
  shutdown : Bool
  shutdownHow : Int
  sStartupScript : Option (List Char)
  sStartupScriptSize : Nat
  sShutdownScript : Option (List Char)
  sShutdownScriptSize : Nat
  sessionList : SessionTable
  sysinitReq : List UInt8
  errno : Int

/-- The globals as the program starts, with what the stack and `errno` hold. -/
def Globals.initial (sysinitReq : List UInt8) (errno : Int) : Globals where
  startArgv := Vector.replicate ARG_SZ none
  linebuf := Vector.replicate 256 NUL
  src := ⟨[], 0⟩
  ch := none
  portid := 0
  kq := 0
  shutdown := false
  shutdownHow := SHUTDOWN_HALT
  sStartupScript := none
  sStartupScriptSize := 0
  sShutdownScript := none
  sShutdownScriptSize := 0
  sessionList := .empty
  sysinitReq := sysinitReq
  errno := errno

/-- Code of sysinit. -/
abbrev Sys (α : Type) := Proc sys Globals α

/-- Make a call, and keep the `errno` it leaves. -/
def syscall (c : Call) : Sys c.Result := do
  let r ← Proc.call (S := sys) c
  Proc.modify fun g => { g with errno := r.2 }
  pure r.1

@[simp] theorem syscall_apply (c : Call) (g : Globals) :
    syscall c g = .call c fun r => .ret (.ok r.1, { g with errno := r.2 }) := rfl

end Cheviot.Sysinit
