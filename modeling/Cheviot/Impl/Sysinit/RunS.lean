import Cheviot.Impl.Sysinit.Types

/-!
# `run_s.c`: the s scripts

The line reader and the tokenizer work in place on `linebuf`: a pointer into it
is an index, and reading or writing at an index past its end is a fault. A loop
over characters is a recursion on the characters from the pointer on, which
returns `none` where it would run past the end.
-/

namespace Cheviot.Sysinit

open Framework

/-- The characters of an array from index `p` on. -/
def charsFrom {n : Nat} (buf : Vector Char n) (p : Nat) : List Char := buf.toList.drop p

/-- The C string at index `p`. -/
def cstr {n : Nat} (buf : Vector Char n) (p : Nat) : Str := (charsFrom buf p).takeWhile (· ≠ NUL)

/-- `*p = c` -/
def store {n : Nat} (buf : Vector Char n) (p : Nat) (c : Char) : Option (Vector Char n) :=
  if h : p < n then some (buf.set p c h) else none

/-- The characters from `*src` on. -/
def Cursor.rest (src : Cursor) : List Char := src.buf.drop src.off

/-! ## Lines -/

/-- `while (*src != '\0' && *src != '\r' && *src != '\n') *dst++ = *src++;`
from the characters at `src`: the new `src`, `dst` and `linebuf`. -/
def copyLine : List Char → Nat → Nat → Vector Char 256 → Option (Nat × Nat × Vector Char 256)
  | [], _, _, _ => none
  | c :: cs, src, dst, buf =>
    if c ≠ NUL ∧ c ≠ '\r' ∧ c ≠ '\n' then
      match store buf dst c with
      | some buf => copyLine cs (src + 1) (dst + 1) buf
      | none => none
    else some (src, dst, buf)

/-- `s_readline`: the index of the line in `linebuf`, which is always 0, or
none for NULL. -/
def sReadline : Sys (Option Nat) := do
  Proc.modify fun g => { g with linebuf := g.linebuf.set 255 NUL }
  let g ← Proc.get
  let c ← Proc.orFault g.src.rest.head?
  if c = NUL then
    pure none
  else
    let (src, dst, buf) ← Proc.orFault (copyLine g.src.rest g.src.off 0 g.linebuf)
    let e ← Proc.orFault g.src.buf[src]?
    let buf ← Proc.orFault (store buf dst NUL)
    Proc.modify fun g =>
      { g with linebuf := buf, src := { g.src with off := if e ≠ NUL then src + 1 else src } }
    pure (some 0)

/-! ## Tokens -/

/-- `while (*ch != '\0') { if (*ch != ' ') break; ch++; }` from the characters
at `ch`: the new `ch`. -/
def skipSpaces : List Char → Nat → Option Nat
  | [], _ => none
  | c :: cs, ch => if c = NUL then some ch else if c ≠ ' ' then some ch else skipSpaces cs (ch + 1)

/-- `while (*ch != '\0') { if (*ch == separator) { *ch = '\0'; ch++; break; } ch++; }`
from the characters at `ch`: the new `ch`, and the index set to NUL if any. -/
def scanToken (separator : Char) : List Char → Nat → Option (Nat × Option Nat)
  | [], _ => none
  | c :: cs, ch =>
    if c = NUL then some (ch, none)
    else if c = separator then some (ch + 1, some ch)
    else scanToken separator cs (ch + 1)

/-- The token that starts at `start`: its index, the new cursor and the new
array. -/
def takeToken {n : Nat} (buf : Vector Char n) (separator : Char) (start : Nat) :
    Option (Option Nat × Nat × Vector Char n) :=
  match scanToken separator (charsFrom buf start) start with
  | none => none
  | some (ch, none) => some (some start, ch, buf)
  | some (ch, some p) => (store buf p NUL).map fun buf => (some start, ch, buf)

/-- The part of `s_tokenize` after its cursor is set: the token's index, or
none for NULL, the new cursor and the new array. -/
def tokenizeFrom {n : Nat} (buf : Vector Char n) (ch : Nat) :
    Option (Option Nat × Nat × Vector Char n) :=
  match skipSpaces (charsFrom buf ch) ch with
  | none => none
  | some ch =>
    match (charsFrom buf ch).head? with
    | none => none
    | some c =>
      if c = NUL then some (none, ch, buf)
      else if c = '"' then takeToken buf '"' (ch + 1)
      else takeToken buf ' ' ch

/-- `s_tokenize` of a line in `linebuf` or, with none, of what is left of the
last one. -/
def sTokenize (line : Option Nat) : Sys (Option Nat) := do
  Proc.modify fun g => { g with ch := line.or g.ch }
  let g ← Proc.get
  let ch ← Proc.orFault g.ch
  let (tok, ch, buf) ← Proc.orFault (tokenizeFrom g.linebuf ch)
  Proc.modify fun g => { g with ch := some ch, linebuf := buf }
  pure tok

/-- What `s_tokenize` works on: the array that its line is in, and its static
variable. -/
structure Scanner (n : Nat) where
  buf : Vector Char n
  ch : Option Nat

/-- `s_tokenize` of a line in any array: the token's index, or none for NULL.
On `linebuf` it is `sTokenize`. -/
def Scanner.tokenize {n : Nat} (m : Scanner n) (line : Option Nat) :
    Option (Option Nat × Scanner n) := do
  let ch ← line.or m.ch
  let (tok, ch, buf) ← tokenizeFrom m.buf ch
  pure (tok, ⟨buf, some ch⟩)

/-! ## Commands -/

/-- The characters `atoi` skips. -/
def isSpace (c : Char) : Bool :=
  c = ' ' ∨ c = '\t' ∨ c = '\n' ∨ c = '\x0b' ∨ c = '\x0c' ∨ c = '\r'

/-- The value of the decimal digits at the start of a string, after `n`. -/
def digits : Str → Nat → Nat
  | [], n => n
  | c :: cs, n => if '0' ≤ c ∧ c ≤ '9' then digits cs (10 * n + (c.toNat - '0'.toNat)) else n

/-- `atoi`. C does not say what it makes of a number that fits no `int`. Here it
is the number, which is cut to 32 bits where it is converted. -/
def atoi (s : Str) : Int :=
  match s.dropWhile isSpace with
  | '-' :: s => -(digits s 0 : Int)
  | '+' :: s => digits s 0
  | s => digits s 0

/-- The loop of `s_cmd_start`, from `start_argv[t]` on: the tokens left on the
line are stored up to the NULL that ends them, or the end of the array. -/
def storeArgs : Nat → Nat → Sys Unit
  | 0, _ => pure ()
  | n + 1, t => do
    let tok ← sTokenize none
    Proc.modify fun g => { g with startArgv := g.startArgv.setIfInBounds t tok }
    match tok with
    | none => pure ()
    | some _ => storeArgs n (t + 1)

/-- The strings of an array of pointers into `buf` up to its NULL, as `execve`
reads them, or none if there is no NULL. -/
def argvStrings (buf : Vector Char 256) : List (Option Nat) → Option (List Str)
  | [] => none
  | none :: _ => some []
  | some p :: ps => (argvStrings buf ps).map (cstr buf p :: ·)

/-- `s_cmd_start` -/
def sCmdStart (session : Bool) : Sys Int := do
  storeArgs ARG_SZ 0
  let g ← Proc.get
  match g.startArgv[0] with
  | none => pure (-1)
  | some _ =>
    let argv ← Proc.orFault (argvStrings g.linebuf g.startArgv.toList)
    let pid ← syscall (.fork (.start session argv))
    match pid with
    | none => pure (-1)
    | some _ => pure 0

/-- `s_cmd_mknod` -/
def sCmdMknod : Sys Int := do
  let fullpath ← sTokenize none
  match fullpath with
  | none => pure (-1)
  | some fullpath =>
    let modestr ← sTokenize none
    match modestr with
    | none => pure (-1)
    | some modestr =>
      let typestr ← sTokenize none
      match typestr with
      | none => pure (-1)
      | some typestr =>
        let g ← Proc.get
        let mode : BitVec 32 := BitVec.ofInt 32 (atoi (cstr g.linebuf modestr))
        let mknod (mode : BitVec 32) : Sys Int :=
          syscall (.mknod2 (cstr g.linebuf fullpath) 0
            { stSize := some 0, stUid := some 0, stGid := some 0, stMode := some mode })
        if (cstr g.linebuf typestr).head? = some 'c' then
          mknod (mode ||| IFCHR)
        else if (cstr g.linebuf typestr).head? = some 'b' then
          mknod (mode ||| IFBLK)
        else
          pure (-1)

/-- `s_cmd_chdir` -/
def sCmdChdir : Sys Int := do
  let fullpath ← sTokenize none
  match fullpath with
  | none => pure (-1)
  | some fullpath => do
    let g ← Proc.get
    syscall (.chdir (cstr g.linebuf fullpath))

/-- `while (1) { if (ismount(fullpath) == 1) break; nanosleep(&ts, NULL); }` -/
def waitMounted (fuel : Nat) (fullpath : Nat) : Sys Unit :=
  Proc.iter (fun _ => do
    let g ← Proc.get
    let sc ← syscall (.ismount (cstr g.linebuf fullpath))
    if sc = 1 then
      pure (.done ())
    else
      let _ ← syscall (.nanosleep 25000000)
      pure (.again ())) fuel ()

/-- `s_cmd_waitfor` -/
def sCmdWaitfor (fuel : Nat) : Sys Int := do
  let fullpath ← sTokenize none
  match fullpath with
  | none => Proc.exit (-1)
  | some fullpath => do
    waitMounted fuel fullpath
    pure 0

/-- `s_cmd_sleep` -/
def sCmdSleep : Sys Int := do
  let tok ← sTokenize none
  match tok with
  | none => pure (-1)
  | some tok => do
    let g ← Proc.get
    let _ ← syscall (.sleep (BitVec.ofInt 32 (atoi (cstr g.linebuf tok))))
    pure 0

/-- The handlers of two operands, which make one call of both. -/
def twoOperands (c : Str → Str → Sys Int) : Sys Int := do
  let first ← sTokenize none
  match first with
  | none => pure (-1)
  | some first => do
    let second ← sTokenize none
    match second with
    | none => pure (-1)
    | some second => do
      let g ← Proc.get
      c (cstr g.linebuf first) (cstr g.linebuf second)

/-- `s_cmd_pivot` -/
def sCmdPivot : Sys Int :=
  twoOperands fun newRoot oldRoot => syscall (.pivotroot newRoot oldRoot)

/-- `s_cmd_renamemount` -/
def sCmdRenamemount : Sys Int :=
  twoOperands fun newPath oldPath => syscall (.renamemount newPath oldPath)

/-- `s_cmd_createport` -/
def sCmdCreateport : Sys Int := do
  let portid ← syscall (.createmsgport 0
    { stDev := some 0, stIno := some 0, stMode := some (0o777#32 ||| IFCHR), stUid := some 0,
      stGid := some 0, stBlksize := some 0, stSize := some 0, stBlocks := some 0 })
  Proc.modify fun g => { g with portid := portid }
  if portid < 0 then
    pure (-1)
  else
    let kq ← syscall .kqueue
    Proc.modify fun g => { g with kq := kq }
    if kq < 0 then pure (-1) else pure 0

/-! ## Scripts -/

/-- The dispatch of a line on its first token. The handler's result is dropped. -/
def dispatch (fuel : Nat) (cmd : Str) : Sys Unit := do
  if cmd = "start".toList then
    let _ ← sCmdStart false
  else if cmd = "waitfor".toList then
    let _ ← sCmdWaitfor fuel
  else if cmd = "mknod".toList then
    let _ ← sCmdMknod
  else if cmd = "sleep".toList then
    let _ ← sCmdSleep
  else if cmd = "chdir".toList then
    let _ ← sCmdChdir
  else if cmd = "pivot".toList then
    let _ ← sCmdPivot
  else if cmd = "renamemount".toList then
    let _ ← sCmdRenamemount
  else if cmd = "createport".toList then
    let _ ← sCmdCreateport

/-- A round of the loop of `process_bootstrap_script`. -/
def processLine (fuel : Nat) : Sys (Proc.Round Unit Unit) := do
  let line ← sReadline
  match line with
  | none => pure (.done ())
  | some line =>
    let cmd ← sTokenize (some line)
    let g ← Proc.get
    match cmd with
    | none => pure (.again ())
    | some cmd =>
      let cmd := cstr g.linebuf cmd
      if cmd = [] then
        pure (.again ())
      else if cmd.head? = some '#' then
        pure (.again ())
      else
        dispatch fuel cmd
        pure (.again ())

/-- `process_bootstrap_script`. Each round takes a character of the script or
is the last, so that the script's length is enough of them. -/
def processBootstrapScript (fuel : Nat) (buf : Option (List Char)) : Sys Int := do
  match buf with
  | none => pure (-1)
  | some buf =>
    Proc.modify fun g => { g with src := ⟨buf, 0⟩ }
    Proc.iter (fun _ => processLine fuel) (buf.length + 1) ()
    pure 0

/-! ## Loading and running the scripts -/

/-- The globals `load_bootstrap_file` is to write. -/
inductive Slot where
  | startup
  | shutdown
  deriving DecidableEq, Repr

/-- `*r_buf = buf; *r_buf_sz = size;` -/
def Globals.setScript (g : Globals) (slot : Slot) (buf : List Char) (size : Nat) : Globals :=
  match slot with
  | .startup => { g with sStartupScript := some buf, sStartupScriptSize := size }
  | .shutdown => { g with sShutdownScript := some buf, sShutdownScriptSize := size }

/-- A block of `size + 1` characters into which `read` has put `data`, which it
was given room for `size` of, with the last character set to NUL. -/
def loaded (size : Nat) (block : List Char) (data : List Char) : List Char :=
  (data.take size ++ block.drop (data.take size).length).take size ++ [NUL]

/-- `load_bootstrap_file`. The result of `read` is not looked at. -/
def loadBootstrapFile (path : Str) (slot : Slot) : Sys Int := do
  let fd ← syscall (.open path)
  if fd < 0 then
    pure (-1)
  else
    let st ← syscall (.fstat fd)
    if st.1 ≠ 0 then
      let _ ← syscall (.close fd)
      pure (-1)
    else
      let block ← syscall (.malloc (.script path) (.chars (st.2 + 1)))
      match block with
      | none =>
        let _ ← syscall (.close fd)
        pure (-1)
      | some block =>
        let data ← syscall (.read fd (.script path) st.2)
        let _ ← syscall (.close fd)
        Proc.modify fun g => g.setScript slot (loaded st.2 block.toList (data.getD [])) st.2
        pure 0

/-- `state_run_s_startup` -/
def stateRunSStartup (fuel : Nat) : Sys InitState := do
  let sc ← loadBootstrapFile PATH_S_STARTUP .startup
  if sc ≠ 0 then
    pure .failure
  else
    let sc ← loadBootstrapFile PATH_S_SHUTDOWN .shutdown
    if sc ≠ 0 then
      pure .failure
    else
      let g ← Proc.get
      let sc ← processBootstrapScript fuel g.sStartupScript
      if sc ≠ 0 then pure .failure else pure .runRcStartup

/-- `state_run_s_shutdown` -/
def stateRunSShutdown (fuel : Nat) : Sys InitState := do
  let g ← Proc.get
  let sc ← processBootstrapScript fuel g.sShutdownScript
  if sc ≠ 0 then pure .failure else pure .reaper

end Cheviot.Sysinit
