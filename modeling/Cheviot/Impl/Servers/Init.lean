import Cheviot.Framework.Getopt
import Cheviot.Impl.Sysinit.RunS

/-!
# The servers: `init.c`

sysinfo, automount, nettcpip and syslog have the same `init.c`, but for the header that it
includes, and the same `struct Config`. What it takes from headers that are not in the repository
is a parameter, the `Target`. Messages of the log are left out, since nothing depends on them.
-/

namespace Cheviot.Servers

open Framework
open Cheviot.Sysinit (Str NUL Stat IFCHR isSpace cstr)

/-- What the headers of a target say: `PATH_MAX`, and how many bits an `unsigned long` and the types
of the fields of `Config` have. -/
structure Target where
  PATH_MAX : Nat
  long : Nat
  uid : Nat
  gid : Nat
  mode : Nat
  dev : Nat
  deriving DecidableEq, Repr

/-- The calls of `init.c`. -/
inductive Call where
  | panic (msg : Str)
  | createmsgport (path : Str) (flags : Nat) (st : Stat)
  | kqueue
  deriving DecidableEq, Repr

/-- The result of a call; `panic` does not return. -/
abbrev Call.Result : Call → Type
  | .panic _ => Empty
  | _ => Int

abbrev sys : Sig := ⟨Call, Call.Result⟩

/-- `struct Config` -/
structure Config (tgt : Target) where
  pathname : Vector Char (tgt.PATH_MAX + 1)
  uid : BitVec tgt.uid
  gid : BitVec tgt.gid
  mode : BitVec tgt.mode
  dev : BitVec tgt.dev

/-- The globals, and those of `getopt`. -/
structure Globals (tgt : Target) where
  portid : Int
  kq : Int
  config : Config tgt
  opt : Getopt

/-- The globals as the program starts. -/
def Globals.initial (tgt : Target) : Globals tgt where
  portid := 0
  kq := 0
  config := ⟨Vector.replicate (tgt.PATH_MAX + 1) NUL, 0, 0, 0, 0⟩
  opt := .start

variable {tgt : Target}

/-- Code of a server. -/
abbrev Sys (tgt : Target) (α : Type) := Proc sys (Globals tgt) α

/-- `panic(msg)` -/
def panic (msg : Str) : Sys tgt Unit := do
  let r ← Proc.call (S := sys) (.panic msg)
  Empty.elim r

/-! ## Strings -/

/-- `strncpy(buf, s, sizeof buf)`: NULs fill what the string leaves of the buffer, if it
leaves any. -/
def strncpy {n : Nat} (buf : Vector Char n) (s : Str) : Vector Char n :=
  buf.mapIdx fun i _ => s.getD i NUL

/-- The string in a buffer, for code that reads it to its NUL; running past the end is a
fault. -/
def pathString {n : Nat} (buf : Vector Char n) : Option Str :=
  if NUL ∈ buf.toList then some (cstr buf 0) else none

/-- The value of a digit, or a number that is one in no base. -/
def digitValue (c : Char) : Nat :=
  if '0' ≤ c ∧ c ≤ '9' then c.toNat - '0'.toNat
  else if 'a' ≤ c ∧ c ≤ 'z' then c.toNat - 'a'.toNat + 10
  else if 'A' ≤ c ∧ c ≤ 'Z' then c.toNat - 'A'.toNat + 10
  else 36

/-- The base of a number for `strtoul(s, NULL, 0)`, and where its digits begin. -/
def radix : Str → Nat × Str
  | '0' :: x :: c :: cs =>
    if (x = 'x' ∨ x = 'X') ∧ digitValue c < 16 then (16, c :: cs) else (8, '0' :: x :: c :: cs)
  | '0' :: cs => (8, '0' :: cs)
  | cs => (10, cs)

/-- `strtoul(s, NULL, 0)`, where an `unsigned long` has `w` bits. -/
def strtoul (w : Nat) (s : Str) : BitVec w :=
  let s := s.dropWhile isSpace
  let num := radix (if s.head? = some '-' ∨ s.head? = some '+' then s.tail else s)
  let digits := num.2.takeWhile (digitValue · < num.1)
  let n := digits.foldl (fun n c => num.1 * n + digitValue c) 0
  if 2 ^ w ≤ n then BitVec.allOnes w
  else if s.head? = some '-' then -BitVec.ofNat w n
  else BitVec.ofNat w n

/-! ## `init.c` -/

/-- The option string of `process_args`. -/
def optstring : Str := "u:g:m:d:".toList

/-- The switch of `process_args`. -/
def setOption (config : Config tgt) (c : Char) (optarg : Option Str) : Config tgt :=
  match c, optarg with
  | 'u', some s => { config with uid := (strtoul tgt.long s).setWidth tgt.uid }
  | 'g', some s => { config with gid := (strtoul tgt.long s).setWidth tgt.gid }
  | 'm', some s => { config with mode := (strtoul tgt.long s).setWidth tgt.mode }
  | 'd', some s => { config with dev := (strtoul tgt.long s).setWidth tgt.dev }
  | _, _ => config

/-- `process_args`, where `argc` is the length of `argv`. -/
def processArgs (argv : List Str) : Sys tgt Int := do
  Proc.modify fun g => { g with config := { g.config with
    uid := 0, gid := 0, dev := -1, mode := (0o777#32 ||| IFCHR).setWidth tgt.mode } }
  if argv.length < 1 then
    pure (-1)
  else
    Proc.modify fun g =>
      let scanned := Getopt.scan optstring argv setOption g.config g.opt
      { g with config := scanned.1, opt := scanned.2 }
    let g ← Proc.get
    if g.opt.optind ≥ argv.length then
      panic "missing mount pathname".toList
    let path ← Proc.orFault argv[g.opt.optind]?
    Proc.modify fun g => { g with config := { g.config with pathname := strncpy g.config.pathname path } }
    pure 0

/-- `mnt_stat` in `mount_device`. -/
def mntStat (config : Config tgt) : Stat where
  stDev := some config.dev.toNat
  stIno := some 0
  stMode := some (IFCHR ||| (config.mode.setWidth 32 &&& 0o777#32))
  stUid := some config.uid.toNat
  stGid := some config.gid.toNat
  stBlksize := some 0
  stSize := some 0
  stBlocks := some 0

/-- `mount_device` -/
def mountDevice : Sys tgt Int := do
  let g ← Proc.get
  let path ← Proc.orFault (pathString g.config.pathname)
  let portid ← Proc.call (S := sys) (.createmsgport path 0 (mntStat g.config))
  Proc.modify fun g => { g with portid := portid }
  if portid < 0 then pure (-1) else pure 0

/-- `init` -/
def init (argv : List Str) : Sys tgt Unit := do
  let sc ← processArgs argv
  if sc ≠ 0 then
    panic "failed to process command line arguments".toList
  let sc ← mountDevice
  if sc < 0 then
    panic "mount device failed".toList
  let kq ← Proc.call (S := sys) .kqueue
  Proc.modify fun g => { g with kq := kq }
  if kq < 0 then
    panic "create kqueue failed".toList

end Cheviot.Servers
