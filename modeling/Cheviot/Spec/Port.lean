import Mathlib.Data.Multiset.MapFold
import Cheviot.Spec.Machine

/-!
# The message port

What a message asks for and the reply it is to get, the port as `getmsg`
documents it, with clients that put messages on it at any moment (`PortRun`),
and what a server of the port does (`Settled`, `Orderly`). Of the requests for a
shutdown, the values that they carry (`acknowledged`, `requested`), and the runs that
differ in nothing but bytes that are not to matter (`SameLast`).
-/

namespace Cheviot.Spec

open Framework Cheviot.Sysinit

/-- A message. -/
structure Message where
  msgid : Int
  req : Iorequest
  deriving DecidableEq, Repr

namespace Message

/-- The message asks for a shutdown. -/
def IsShutdown (m : Message) : Prop := m.req.cmd = .sendio ∧ m.req.subclass = .sysinit

instance (m : Message) : Decidable m.IsShutdown :=
  inferInstanceAs (Decidable (_ ∧ _))

/-- The reply to a message: its id, and the status. -/
def reply (m : Message) : Int × Int := (m.msgid, if m.IsShutdown then 0 else -ENOTSUP)

end Message

/-! ## What a trace says of a port -/

/-- The message that a call takes from port `p`, if it takes one. -/
def takes (p : Int) : Event sys → Option Message
  | ⟨.getmsg p', (.got msgid req, _)⟩ => if p' = p then some ⟨msgid, req⟩ else none
  | _ => none

/-- The reply that a call sends on port `p`, if it sends one. -/
def sends (p : Int) : Event sys → Option (Int × Int)
  | ⟨.replymsg p' msgid status, _⟩ => if p' = p then some (msgid, status) else none
  | _ => none

/-- The messages taken from port `p`, in order. -/
def dequeued (p : Int) (t : List (Event sys)) : List Message := t.filterMap (takes p)

/-- The replies sent on port `p`, in order. -/
def replied (p : Int) (t : List (Event sys)) : List (Int × Int) := t.filterMap (sends p)

/-- Each message that has been taken has had its reply, in the order in which
they were taken, and there were no other replies. -/
def Settled (p : Int) (t : List (Event sys)) : Prop := replied p t = (dequeued p t).map Message.reply

/-- The call is on port `p`, if it is about messages. -/
def onPort (p : Int) : Call → Bool
  | .keventAdd _ p' | .getmsg p' | .readmsg p' _ _ | .replymsg p' _ _ => p' = p
  | _ => true

/-- `getmsg` -/
def isGetmsg : Call → Bool
  | .getmsg _ => true
  | _ => false

/-- A call that neither asks for a message nor answers one. -/
def isQuiet : Call → Bool
  | .getmsg _ | .replymsg .. => false
  | _ => true

/-- The call that waits for a message. -/
def isKevent : Call → Bool
  | .kevent _ => true
  | _ => false

/-- What the server of port `p` does, at any moment: it uses no other port, the
replies are those of the messages it has taken, it takes and waits for the next
message only when all of them have been sent, and it does not wait once it has
taken a request for a shutdown. -/
structure Orderly (p : Int) (t : List (Event sys)) : Prop where
  onPort : ∀ e ∈ t, onPort p e.call
  replies : replied p t <+: (dequeued p t).map Message.reply
  settled : ∀ t₁ e t₂, t = t₁ ++ e :: t₂ → isGetmsg e.call ∨ isKevent e.call → Settled p t₁
  waits : ∀ t₁ e t₂, t = t₁ ++ e :: t₂ → isKevent e.call → ∀ m ∈ dequeued p t₁, ¬ m.IsShutdown

/-! ## The clients and the port -/

/-- What can happen next: a client puts a message on the port, or the server
makes a call. -/
inductive Label where
  | put (m : Message)
  | sys (e : Event sys)

/-- The calls of the server. -/
def events (l : List Label) : List (Event sys) :=
  l.filterMap fun
    | .put _ => none
    | .sys e => some e

/-- The messages of the clients. -/
def puts (l : List Label) : List Message :=
  l.filterMap fun
    | .put m => some m
    | .sys _ => none

/-- Port `p`, with the messages that wait on it: `getmsg` takes one of them, in
whatever order, and returns 0 exactly if there are none. -/
inductive PortStep (p : Int) : Multiset Message → Label → Multiset Message → Prop where
  | put (q : Multiset Message) (m : Message) : PortStep p q (.put m) (m ::ₘ q)
  | got (q : Multiset Message) (msgid : Int) (req : Iorequest) (e : Int) :
      PortStep p (⟨msgid, req⟩ ::ₘ q) (.sys ⟨.getmsg p, (.got msgid req, e)⟩) q
  | empty (e : Int) : PortStep p 0 (.sys ⟨.getmsg p, (.none 0, e)⟩) 0
  | other (q : Multiset Message) (e : Event sys) : e.call ≠ .getmsg p → PortStep p q (.sys e) q

/-- The clients and the server, from the messages `q` on port `p` to `q'`. -/
inductive PortRun (p : Int) : Multiset Message → List Label → Multiset Message → Prop where
  | nil (q : Multiset Message) : PortRun p q [] q
  | cons {q q' q'' : Multiset Message} {x : Label} {l : List Label} :
      PortStep p q x q' → PortRun p q' l q'' → PortRun p q (x :: l) q''

/-! ## Requests for a shutdown -/

/-- What has been read of a request that is not answered yet, and the values
that the requests answered with status 0 carried. -/
structure Acks where
  pending : Option (Int × Int)
  values : List Int

/-- A request is read, then answered. -/
def Acks.step (how : List UInt8 → Int) (a : Acks) : Event sys → Acks
  | ⟨.readmsg _ msgid _, r⟩ => { a with pending := some (msgid, how r.1.2) }
  | ⟨.replymsg _ msgid status, _⟩ =>
    match a.pending with
    | some (msgid', value) =>
      if msgid' = msgid then ⟨none, if status = 0 then a.values ++ [value] else a.values⟩ else a
    | none => a
  | _ => a

/-- The values carried by the requests that were answered with status 0. -/
def acknowledged (how : List UInt8 → Int) (t : List (Event sys)) : List Int :=
  (t.foldl (Acks.step how) ⟨none, []⟩).values

/-- The values carried by the requests that were read. -/
def requested (how : List UInt8 → Int) (t : List (Event sys)) : List Int :=
  t.filterMap fun e =>
    match e with
    | ⟨.readmsg .., r⟩ => some (how r.1.2)
    | _ => none

/-- The answer of a `readmsg` is a whole `struct sysinit_req`. -/
def isWhole : Event sys → Bool
  | ⟨.readmsg _ _ size, r⟩ => r.1.2.length = size
  | _ => true

/-- Every request that is read is a whole one, so that it carries a value. -/
def Whole (t : List (Event sys)) : Prop := ∀ e ∈ t, isWhole e

instance (t : List (Event sys)) : Decidable (Whole t) :=
  inferInstanceAs (Decidable (∀ e ∈ t, isWhole e))

/-! ## The bytes of a request -/

/-- The bytes that are delivered of each request that is accepted, in order: all of
them, or fewer, or none. -/
def delivered (t : List (Event sys)) : List (List UInt8) :=
  t.filterMap fun e =>
    match e with
    | ⟨.readmsg .., r⟩ => some r.1.2
    | _ => none

/-- The same call with the same answer, but for the bytes that are delivered of a request. -/
def SameButBytes : Event sys → Event sys → Prop
  | ⟨.readmsg portid msgid size, r⟩, e => ∃ data : List UInt8, data.length = r.1.2.length ∧
      e = ⟨.readmsg portid msgid size, ((r.1.1, data), r.2)⟩
  | e, e' => e' = e

/-- The same messages, but for the bytes that are delivered of the requests before the
last one. -/
def SameLast (t t' : List (Event sys)) : Prop :=
  List.Forall₂ SameButBytes t t' ∧ (delivered t').getLast? = (delivered t).getLast?

end Cheviot.Spec
