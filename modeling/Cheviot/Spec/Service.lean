import Cheviot.Framework.Service
import Cheviot.Impl.Servers.Main
import Cheviot.Spec.CommandLine
import Cheviot.Spec.Sysinfo

/-!
# What the servers are for

Each of the four servers is a service (`Framework.Service`) at the port that it mounts: what it
is to do for a message is `skeletonPlan` or `sysinfoPlan`, and a call says to a port what
`serverView` reads off it. `Obeys` is what the calls of a loop are at any moment, and
`EndsWith` how it ends.
-/

namespace Cheviot.Spec

open Framework Cheviot.Servers
open Cheviot.Sysinit (Str NUL ENOTSUP)
open Cheviot.Sysinfo (Iorequest E2BIG EXIT_FAILURE)

/-! ## Plans -/

/-- What a server does for a message, where `sendio` is what it does for a request. -/
def planOf (sendio : Iorequest → Plan Char) (req : Iorequest) : Plan Char :=
  match req.cmd with
  | .sendio => sendio req
  | .other _ => .reply (-ENOTSUP)

/-- automount, nettcpip and syslog. -/
def skeletonPlan : Iorequest → Plan Char := planOf fun _ => .reply (-ENOSYS)

/-- What a call of the loop says to port `p`. -/
def portView (p : Int) : Event Sysinfo.sys → PortCall Iorequest Char
  | ⟨.getmsg p', (.got msgid req, _)⟩ => if p' = p then .took msgid req else .other
  | ⟨.getmsg p', (.none sc, _)⟩ => if p' = p ∧ sc = 0 then .empty else .other
  | ⟨.readmsg p' msgid size, r⟩ => if p' = p then .read msgid size r.1.2 else .other
  | ⟨.writemsg p' msgid data, _⟩ => if p' = p then .wrote msgid data else .other
  | ⟨.replymsg p' msgid status, _⟩ => if p' = p then .replied msgid status else .other
  | _ => .other

/-- What a call of a server says to port `p`. -/
def serverView (p : Int) : Event serverSys → PortCall Iorequest Char
  | ⟨.inl _, _⟩ => .other
  | ⟨.inr c, r⟩ => portView p ⟨c, r⟩

/-- The call is on port `p` and queue `k`, if it is on any. -/
def usesOnly (p k : Int) : Sysinfo.Call → Bool
  | .sigaction => true
  | .keventAdd k' p' => p' = p ∧ k' = k
  | .kevent k' => k' = k
  | .getmsg p' | .readmsg p' _ _ | .writemsg p' _ _ | .replymsg p' _ _ => p' = p

/-- The call that waits for a message. -/
def waitsForMessage : Sysinfo.Call → Bool
  | .kevent _ => true
  | _ => false

/-- SIGTERM has been handled until these calls returned. -/
def terminated (t : List (Event Sysinfo.sys)) : Bool := t.any fun e => e.ret.2

/-- The calls of a loop: it does for each message what is planned, uses no other port or queue,
and does not wait for a message any more once SIGTERM has been handled. -/
structure Obeys (plan : Iorequest → Plan Char) (p k : Int) (ph : Phase Char)
    (t : List (Event Sysinfo.sys)) : Prop where
  heeds : Heeds plan (t.map (portView p)) ph
  uses : ∀ e ∈ t, usesOnly p k e.call
  waits : ∀ t₁ e t₂, t = t₁ ++ e :: t₂ → waitsForMessage e.call → terminated t₁ = false

/-- The status of a loop that exits, after the calls `t`: it could not set its handler of
SIGTERM, it could not get the next message, or SIGTERM has been handled. -/
inductive EndsWith : List (Event Sysinfo.sys) → Int → Prop where
  | noHandler {r : Int × Bool} : r.1 ≠ 0 → EndsWith [⟨.sigaction, r⟩] (-1)
  | noMessage {t : List (Event Sysinfo.sys)} {p sc : Int} {b : Bool} : sc ≠ 0 →
      EndsWith (t ++ [⟨.getmsg p, (.none sc, b)⟩]) EXIT_FAILURE
  | sigterm {t : List (Event Sysinfo.sys)} : terminated t → EndsWith t 0

/-! ## Whole servers -/

/-- The calls of a server that mounts: it creates a port at its operand and a queue, and the
calls `t` of its loop are about these. -/
inductive Mounts (argv : List Str) (t : List (Event Sysinfo.sys)) : List (Event serverSys) → Prop where
  | intro {path : Str} {st : Sysinit.Stat} {portid kq : Int} : mountPath argv = some path →
      0 ≤ portid → 0 ≤ kq → (∀ e ∈ t, usesOnly portid kq e.call) →
      Mounts argv t (⟨.inl (.createmsgport path 0 st), portid⟩ :: ⟨.inl .kqueue, kq⟩ :: t.map .inr)

/-- What the `main` of a server and its clients come to, where these put messages on its port in
whatever order: a service that answers each message at once, and before it takes the next one. It does
for each message what is planned, and replies to it once; no message is lost, and each that has
been replied to has its own answer. Until `init` has returned it makes no call of its loop; from
then on it serves at its operand, and where it ends it has answered all that it took, and exits. -/
structure IsService (plan : Iorequest → Plan Char) (argv : List Str) (portid : Int)
    (l : List (PortLabel Iorequest Char (Event serverSys))) (k : Port Iorequest Char)
    (r : Prog serverSys (Out Unit)) : Prop where
  service : Service.Run plan ⟨0, []⟩ (putMsgs l) k.service
  heeds : ∃ ph, Heeds plan ((portCalls l).map (serverView portid)) ph
  conserves : k.service.waiting + (k.done.map (·.1) : List (Msg Iorequest Char)) =
    (putMsgs l : Multiset (Msg Iorequest Char))
  answers : ∀ x ∈ k.done, x.2 = x.1.answer plan
  single : k.taken.length ≤ 1
  mounted : (∃ t : List (Event sys), portCalls l = t.map Event.inl ∧ ∀ code, r ≠ .ret (.exited code)) ∨
    ∃ t, Mounts argv t (portCalls l) ∧
      (∀ t₁ e t₂, t = t₁ ++ e :: t₂ → waitsForMessage e.call → terminated t₁ = false) ∧
      ∀ o, r = .ret o → k.taken = [] ∧ (o = .timeout ∨ ∃ code, o = .exited code ∧ EndsWith t code)

end Cheviot.Spec
