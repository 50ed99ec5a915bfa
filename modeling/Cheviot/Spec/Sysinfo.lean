import Cheviot.Framework.Frame
import Cheviot.Framework.Service
import Cheviot.Framework.Text
import Cheviot.Impl.Sysinfo.Main

/-!
# The sysinfo server

What a request is to be answered with (`answer`), the calls for each message that
is taken from the port (`Exchange`) and of the whole server (`Served`). What the
server may remember of earlier requests is the globals after any rounds of its inner
loop (`History`). `WithinBuffer` says where the bytes of a request may go, and `Reports`
what the client is told of its response.
-/

namespace Cheviot.Spec

open Framework Cheviot.Sysinfo
open Cheviot.Sysinit (Str NUL Cmd ENOTSUP)

/-! ## Answers -/

/-- The first word of a string, between spaces. -/
def firstWord (s : Str) : Option Str := (solid (· = ' ') s).head?

/-- The commands that have an answer of their own. -/
def commands : List Str := ["help".toList, "getinfo".toList]

/-- The text for a command, or for a request without one. -/
def textFor : Option Str → Str
  | none => errorText
  | some w => if w = "help".toList then helpText else if w = "getinfo".toList then getinfoText else []

/-- The text that a request is to be answered with. -/
def answer (bytes : List Char) : Str := textFor (firstWord (bytes.takeWhile (· ≠ NUL)))

/-- The answer, as far as a buffer of `ARG_MAX` characters holds it together with a NUL. -/
def response (ARG_MAX : Nat) (bytes : List Char) : Str := (answer bytes).take (ARG_MAX - 1)

/-- The bytes `data` of a request of `size` bytes tell the answer: they are all of it, or
there is a NUL among them, or their first word ends, or it is the start of no command that
would fit. -/
def Tells (data : List Char) (size : Nat) : Prop :=
  data.length = size ∨ NUL ∈ data ∨ ' ' ∈ data.dropWhile (· = ' ') ∨
    data.dropWhile (· = ' ') ≠ [] ∧ ∀ cmd ∈ commands, data.dropWhile (· = ' ') <+: cmd →
      size - data.length < cmd.length - (data.dropWhile (· = ' ')).length

/-! ## The calls -/

/-- The calls for a message: it is taken, and answered. -/
inductive Exchange (ARG_MAX : Nat) (portid : Int) : List (Event sys) → Prop where
  | notSupported {msgid r : Int} {req : Iorequest} {b b' : Bool} : req.cmd ≠ .sendio →
      Exchange ARG_MAX portid [⟨.getmsg portid, (.got msgid req, b)⟩,
        ⟨.replymsg portid msgid (-ENOTSUP), (r, b')⟩]
  | tooBig {msgid r : Int} {req : Iorequest} {b b' : Bool} : req.cmd = .sendio →
      ARG_MAX < req.ssize → Exchange ARG_MAX portid [⟨.getmsg portid, (.got msgid req, b)⟩,
        ⟨.replymsg portid msgid (-E2BIG), (r, b')⟩]
  | answered {msgid r r' r'' : Int} {req : Iorequest} {data : List Char} {b b₁ b₂ b₃ : Bool} :
      req.cmd = .sendio → req.ssize < ARG_MAX → data.length = req.ssize →
      Exchange ARG_MAX portid [⟨.getmsg portid, (.got msgid req, b)⟩,
        ⟨.readmsg portid msgid req.ssize, ((r, data), b₁)⟩,
        ⟨.writemsg portid msgid (answer data), (r', b₂)⟩,
        ⟨.replymsg portid msgid (answer data).length, (r'', b₃)⟩]

/-- A call that takes no message and answers none. -/
def isIdle : Event sys → Bool
  | ⟨.sigaction, _⟩ | ⟨.keventAdd .., _⟩ | ⟨.kevent _, _⟩ | ⟨.getmsg _, (.none _, _)⟩ => true
  | _ => false

/-- Exchanges, one after the other, with calls in between that take no message. -/
inductive Served (ARG_MAX : Nat) (portid : Int) : List (Event sys) → Prop where
  | nil : Served ARG_MAX portid []
  | idle {t : List (Event sys)} {e : Event sys} : Served ARG_MAX portid t → isIdle e →
      Served ARG_MAX portid (t ++ [e])
  | exchange {t u : List (Event sys)} : Served ARG_MAX portid t → Exchange ARG_MAX portid u →
      Served ARG_MAX portid (t ++ u)

/-- `readmsg` delivers all the bytes it is asked for. -/
def readsAll : Event sys → Bool
  | ⟨.readmsg _ _ size, r⟩ => r.1.2.length = size
  | _ => true

/-- The size of a request that is sent is not that of the buffer. -/
def otherSize (ARG_MAX : Nat) : Event sys → Bool
  | ⟨.getmsg _, (.got _ req, _)⟩ => req.cmd ≠ .sendio ∨ req.ssize ≠ ARG_MAX
  | _ => true

/-- The bytes of a message are those that its request announces, and do not just fill the
buffer of sysinfo. -/
def IsWhole (ARG_MAX : Nat) (m : Msg Iorequest Char) : Prop :=
  m.req.cmd = .sendio → m.body.length = m.req.ssize ∧ m.req.ssize ≠ ARG_MAX

/-! ## Earlier requests -/

/-- `readmsg` delivers some of the first bytes it is asked for, or none. -/
def readsPrefix : Event sys → Bool
  | ⟨.readmsg _ _ size, r⟩ => r.1.2.length ≤ size
  | _ => true

/-- A request that is sent is smaller than the buffer. -/
def smaller (ARG_MAX : Nat) : Event sys → Bool
  | ⟨.getmsg _, (.got _ req, _)⟩ => req.cmd ≠ .sendio ∨ req.ssize < ARG_MAX
  | _ => true

/-- The globals after any messages have been served, in rounds of the inner loop. -/
def History (ARG_MAX : Nat) (portid kq : Int) (g : Globals ARG_MAX) : Prop :=
  ∃ t, Proc.Rounds (fun _ => drainRound) () (Globals.initial ARG_MAX portid kq) t () g ∧
    ∀ e ∈ t, readsPrefix e ∧ smaller ARG_MAX e

/-- What `readmsg` delivers of a request is `data`. -/
def delivers (data : List Char) : Event sys → Bool
  | ⟨.readmsg .., r⟩ => r.1.2 = data
  | _ => true

/-- The calls for a message, of which `data` is delivered, are the same after any two
histories. -/
def Independent (ARG_MAX : Nat) (portid kq msgid : Int) (req : Iorequest) (data : List Char) : Prop :=
  ∀ g₁ g₂ : Globals ARG_MAX, History ARG_MAX portid kq g₁ → History ARG_MAX portid kq g₂ →
    ∀ t₁ t₂ x₁ x₂, (serveMessage portid msgid req g₁).Runs t₁ x₁ →
      (serveMessage portid msgid req g₂).Runs t₂ x₂ → (∀ e ∈ t₁, delivers data e) →
      (∀ e ∈ t₂, delivers data e) → t₁.map (·.call) = t₂.map (·.call)

/-! ## The buffers -/

/-- `readmsg` may fill no more than the buffer. -/
def readFits (ARG_MAX : Nat) : Call → Bool
  | .readmsg _ _ size => size ≤ ARG_MAX
  | _ => true

/-- No byte is written outside `req_buf`: not by `readmsg`, and by nothing else, since that is
a fault, as is a string for `strtok` that does not end in the buffer. A request that does not
fit together with its NUL is refused. -/
structure WithinBuffer {ARG_MAX : Nat} (portid msgid : Int) (req : Iorequest)
    (g : Globals ARG_MAX) : Prop where
  reads : ∀ t q, (cmdSendio portid msgid req g).Steps t q → ∀ e ∈ t, readFits ARG_MAX e.call
  noFault : ∀ t g', ¬ (cmdSendio portid msgid req g).Runs t (.fault, g')
  refused : ARG_MAX < req.ssize + 1 → ∀ t o g', (cmdSendio portid msgid req g).Runs t (o, g') →
    t.map (·.call) = [.replymsg portid msgid (-E2BIG)] ∧ g'.reqBuf = g.reqBuf ∧ g'.respBuf = g.respBuf

/-! ## Reports -/

/-- `writemsg` transfers at most `rsize` bytes, or fails. -/
def writesAtMost (rsize : Nat) : Event sys → Bool
  | ⟨.writemsg .., r⟩ => r.1 ≤ rsize
  | _ => true

/-- `writemsg` transfers `size` bytes. -/
def transfers (size : Nat) : Event sys → Bool
  | ⟨.writemsg .., r⟩ => r.1 = size
  | _ => true

/-- The number of bytes that a call transfers to the client. -/
def transferred : Event sys → Nat
  | ⟨.writemsg .., r⟩ => r.1.toNat
  | _ => 0

/-- A `writemsg` that fails. -/
def failsToWrite : Event sys → Bool
  | ⟨.writemsg .., r⟩ => r.1 < 0
  | _ => false

/-- What the client is told: the number of bytes that it got, of the `rsize` bytes that it has
room for, and an error if it got none because `writemsg` failed. -/
def Reports (rsize : Nat) (t : List (Event sys)) : Prop :=
  ∀ (portid msgid status : Int) r, ⟨.replymsg portid msgid status, r⟩ ∈ t →
    (0 ≤ status → status = (t.map transferred).sum ∧ status ≤ rsize) ∧
      ((∃ e ∈ t, failsToWrite e) → status < 0)

end Cheviot.Spec
