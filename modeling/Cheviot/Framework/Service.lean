import Mathlib.Algebra.Order.Group.Multiset
import Mathlib.Data.List.Induction

/-!
# Servers of a message port

Clients put messages on a port; a server takes them, may read their bytes and write bytes
of a reply, and ends each with a status (`Port.Step`). `Plan` is what a server is to do for a
message, and `Heeds` says of the calls of a server that it takes one message after the other
and does for each what its plan says.

`Service` is what such a server is for: it answers each message at once. Whatever the clients
do meanwhile, a server that heeds its plans is one (`heeds_service`), and a service loses and
invents no message and gives each one its own answer (`Service.Run.conserves`,
`Service.Run.answers`).
-/

namespace Framework

variable {Req Byte E : Type}

/-- A message: its id, what is told of it when it is taken, the bytes that can be read of it,
and the number of bytes that its client has room for. -/
structure Msg (Req Byte : Type) where
  msgid : Int
  req : Req
  body : List Byte
  room : Nat

/-- What is done for a message that has been taken: bytes of it are read, bytes are written,
and it is replied to with a status. -/
inductive Plan (Byte : Type) : Type where
  | reply (status : Int)
  | read (size : Nat) (k : List Byte → Plan Byte)
  | write (data : List Byte) (k : Plan Byte)

/-- The status and the bytes of the reply, for a message of which `out` has been written. -/
def Plan.result (body : List Byte) (room : Nat) : Plan Byte → List Byte → Int × List Byte
  | .reply status, out => (status, out)
  | .read size k, out => (k (body.take size)).result body room out
  | .write data k, out => k.result body room ((out ++ data).take room)

/-- What can be left of a plan. -/
inductive Plan.Leaves (plan : Plan Byte) : Plan Byte → Prop where
  | all : Plan.Leaves plan plan
  | read {size : Nat} {k : List Byte → Plan Byte} (data : List Byte) :
      Plan.Leaves plan (.read size k) → Plan.Leaves plan (k data)
  | write {data : List Byte} {k : Plan Byte} : Plan.Leaves plan (.write data k) → Plan.Leaves plan k

/-- The reply to a message. -/
def Msg.answer (plan : Req → Plan Byte) (m : Msg Req Byte) : Int × List Byte :=
  (plan m.req).result m.body m.room []

/-- A message that has been answered, with its reply. -/
abbrev Answered (Req Byte : Type) := Msg Req Byte × Int × List Byte

/-! ## The port -/

/-- What a call of the server says to its port. -/
inductive PortCall (Req Byte : Type) : Type where
  | took (msgid : Int) (req : Req)
  | empty
  | read (msgid : Int) (size : Nat) (data : List Byte)
  | wrote (msgid : Int) (data : List Byte)
  | replied (msgid status : Int)
  | other

/-- The messages that wait on a port, those that have been taken, with what has been written of
their replies, and those that have been replied to. -/
structure Port (Req Byte : Type) where
  waiting : Multiset (Msg Req Byte)
  taken : List (Msg Req Byte × List Byte)
  done : List (Answered Req Byte)

/-- What can happen next: a client puts a message on the port, or the server makes a call. -/
inductive PortLabel (Req Byte E : Type) : Type where
  | put (m : Msg Req Byte)
  | call (e : E)

/-- The messages of the clients. -/
def putMsgs (l : List (PortLabel Req Byte E)) : List (Msg Req Byte) :=
  l.filterMap fun
    | .put m => some m
    | .call _ => none

/-- The calls of the server. -/
def portCalls (l : List (PortLabel Req Byte E)) : List E :=
  l.filterMap fun
    | .put _ => none
    | .call e => some e

section

variable (l l' : List (PortLabel Req Byte E)) (ms : List (Msg Req Byte)) (t : List E) (m : Msg Req Byte) (e : E)

theorem putMsgs_append : putMsgs (l ++ l') = putMsgs l ++ putMsgs l' := List.filterMap_append

theorem portCalls_append : portCalls (l ++ l') = portCalls l ++ portCalls l' := List.filterMap_append

@[simp] theorem putMsgs_put : putMsgs (l ++ [.put m]) = putMsgs l ++ [m] := putMsgs_append ..

@[simp] theorem putMsgs_call : putMsgs (l ++ [.call e]) = putMsgs l :=
  (putMsgs_append ..).trans (List.append_nil _)

@[simp] theorem portCalls_put : portCalls (l ++ [.put m]) = portCalls l :=
  (portCalls_append ..).trans (List.append_nil _)

@[simp] theorem portCalls_call : portCalls (l ++ [.call e]) = portCalls l ++ [e] := portCalls_append ..

theorem portCalls_puts : portCalls (ms.map PortLabel.put : List (PortLabel Req Byte E)) = [] := by
  induction ms with
  | nil => rfl
  | cons m ms ih => exact ih

theorem portCalls_calls : portCalls (t.map PortLabel.call : List (PortLabel Req Byte E)) = t := by
  induction t with
  | nil => rfl
  | cons e t ih => exact congrArg (e :: ·) ih

end

/-- A port hands out its messages in whatever order. The bytes of a message can be read and
those of its reply written from when it is taken until it is replied to. -/
inductive Port.Step : Port Req Byte → PortCall Req Byte → Port Req Byte → Prop where
  | took {w : Multiset (Msg Req Byte)} {ts : List (Msg Req Byte × List Byte)}
      {ds : List (Answered Req Byte)} (m : Msg Req Byte) :
      Port.Step ⟨m ::ₘ w, ts, ds⟩ (.took m.msgid m.req) ⟨w, (m, []) :: ts, ds⟩
  | empty {ts : List (Msg Req Byte × List Byte)} {ds : List (Answered Req Byte)} :
      Port.Step ⟨0, ts, ds⟩ .empty ⟨0, ts, ds⟩
  | read {p : Port Req Byte} {m : Msg Req Byte} {out : List Byte} (size : Nat) :
      (m, out) ∈ p.taken → Port.Step p (.read m.msgid size (m.body.take size)) p
  | wrote {w : Multiset (Msg Req Byte)} {ts us : List (Msg Req Byte × List Byte)}
      {ds : List (Answered Req Byte)} {m : Msg Req Byte} {out : List Byte} (data : List Byte) :
      Port.Step ⟨w, ts ++ (m, out) :: us, ds⟩ (.wrote m.msgid data)
        ⟨w, ts ++ (m, (out ++ data).take m.room) :: us, ds⟩
  | replied {w : Multiset (Msg Req Byte)} {ts us : List (Msg Req Byte × List Byte)}
      {ds : List (Answered Req Byte)} {m : Msg Req Byte} {out : List Byte} (status : Int) :
      Port.Step ⟨w, ts ++ (m, out) :: us, ds⟩ (.replied m.msgid status)
        ⟨w, ts ++ us, ds ++ [(m, status, out)]⟩
  | other (p : Port Req Byte) : Port.Step p .other p

/-- The clients and the server, from a port on, where `view` says what a call of the server
says to the port. -/
inductive Port.Run (view : E → PortCall Req Byte) (p : Port Req Byte) :
    List (PortLabel Req Byte E) → Port Req Byte → Prop where
  | nil : Port.Run view p [] p
  | put {l : List (PortLabel Req Byte E)} {p₁ : Port Req Byte} (m : Msg Req Byte) :
      Port.Run view p l p₁ → Port.Run view p (l ++ [.put m]) { p₁ with waiting := m ::ₘ p₁.waiting }
  | call {l : List (PortLabel Req Byte E)} {e : E} {p₁ p₂ : Port Req Byte} :
      Port.Run view p l p₁ → Port.Step p₁ (view e) p₂ → Port.Run view p (l ++ [.call e]) p₂

/-- Any messages can be put. -/
theorem Port.Run.puts {view : E → PortCall Req Byte} {p : Port Req Byte}
    {l : List (PortLabel Req Byte E)} {w : Multiset (Msg Req Byte)}
    {ts : List (Msg Req Byte × List Byte)} {ds : List (Answered Req Byte)} (ms : List (Msg Req Byte))
    (h : Port.Run view p l ⟨w, ts, ds⟩) : Port.Run view p (l ++ ms.map .put) ⟨ms + w, ts, ds⟩ := by
  induction ms generalizing l w with
  | nil => rwa [List.map_nil, List.append_nil, Multiset.coe_nil, zero_add]
  | cons m ms ih =>
    have hrest := ih (h.put m)
    rwa [List.append_assoc, List.singleton_append, Multiset.add_cons, ← Multiset.cons_add, Multiset.cons_coe] at hrest

/-- Calls that are not about the port. -/
theorem Port.Run.others {view : E → PortCall Req Byte} {p k : Port Req Byte}
    {l : List (PortLabel Req Byte E)} {t : List E} (h : Port.Run view p l k) (ht : ∀ e ∈ t, view e = .other) :
    Port.Run view p (l ++ t.map .call) k := by
  induction t generalizing l with
  | nil => rwa [List.map_nil, List.append_nil]
  | cons e t ih =>
    obtain ⟨he, ht⟩ := List.forall_mem_cons.mp ht
    have hcall := ih (h.call (e := e) (by rw [he]; exact .other k)) ht
    rwa [List.append_assoc] at hcall

/-- What holds of all messages that are put holds of those that wait or have been taken. -/
theorem Port.Run.held {view : E → PortCall Req Byte} {P : Msg Req Byte → Prop}
    {l : List (PortLabel Req Byte E)} {p : Port Req Byte} (h : Port.Run view ⟨0, [], []⟩ l p)
    (hput : ∀ m ∈ putMsgs l, P m) : (∀ m ∈ p.waiting, P m) ∧ ∀ x ∈ p.taken, P x.1 := by
  induction h with
  | nil => simp
  | put m _ ih =>
    rw [putMsgs_put] at hput
    obtain ⟨hl, hm⟩ := List.forall_mem_append.mp hput
    obtain ⟨hw, ht⟩ := ih hl
    exact ⟨Multiset.forall_mem_cons.mpr ⟨hm m (List.mem_singleton_self m), hw⟩, ht⟩
  | call _ hstep ih =>
    rw [putMsgs_call] at hput
    obtain ⟨hw, ht⟩ := ih hput
    generalize view _ = c at hstep
    cases hstep with
    | took m =>
      obtain ⟨hm, hw'⟩ := Multiset.forall_mem_cons.mp hw
      exact ⟨hw', List.forall_mem_cons.mpr ⟨hm, ht⟩⟩
    | wrote data =>
      obtain ⟨hts, hus⟩ := List.forall_mem_append.mp ht
      obtain ⟨hm, hus'⟩ := List.forall_mem_cons.mp hus
      exact ⟨hw, List.forall_mem_append.mpr ⟨hts, List.forall_mem_cons.mpr ⟨hm, hus'⟩⟩⟩
    | replied status =>
      obtain ⟨hts, hus⟩ := List.forall_mem_append.mp ht
      exact ⟨hw, List.forall_mem_append.mpr ⟨hts, (List.forall_mem_cons.mp hus).2⟩⟩
    | _ => exact ⟨hw, ht⟩

/-! ## The server -/

/-- Where a server is: at no message, or at one, with what is left of its plan. -/
inductive Phase (Byte : Type) : Type where
  | idle
  | busy (msgid : Int) (plan : Plan Byte)

section

variable (plan : Req → Plan Byte)

/-- The next call of a server that heeds its plans. -/
inductive Phase.Step : Phase Byte → PortCall Req Byte → Phase Byte → Prop where
  | took (msgid : Int) (req : Req) : Phase.Step .idle (.took msgid req) (.busy msgid (plan req))
  | empty : Phase.Step .idle .empty .idle
  | read {msgid : Int} {size : Nat} {k : List Byte → Plan Byte} (data : List Byte) :
      Phase.Step (.busy msgid (.read size k)) (.read msgid size data) (.busy msgid (k data))
  | wrote {msgid : Int} {data : List Byte} {k : Plan Byte} :
      Phase.Step (.busy msgid (.write data k)) (.wrote msgid data) (.busy msgid k)
  | replied {msgid status : Int} :
      Phase.Step (.busy msgid (.reply status)) (.replied msgid status) .idle
  | other (ph : Phase Byte) : Phase.Step ph .other ph

/-- The calls are those of a server that heeds its plans, and leave it where it is. -/
inductive Heeds : List (PortCall Req Byte) → Phase Byte → Prop where
  | nil : Heeds [] .idle
  | snoc {cs : List (PortCall Req Byte)} {c : PortCall Req Byte} {ph ph' : Phase Byte} :
      Heeds cs ph → Phase.Step plan ph c ph' → Heeds (cs ++ [c]) ph'

/-! ## The service -/

/-- The messages that have not been answered, and those that have, in order. -/
structure Service (Req Byte : Type) where
  waiting : Multiset (Msg Req Byte)
  done : List (Answered Req Byte)

/-- Messages are put, and answered at once, from a service on. -/
inductive Service.Run (s : Service Req Byte) : List (Msg Req Byte) → Service Req Byte → Prop where
  | nil : Service.Run s [] s
  | put {ms : List (Msg Req Byte)} {w : Multiset (Msg Req Byte)} {ds : List (Answered Req Byte)}
      (m : Msg Req Byte) : Service.Run s ms ⟨w, ds⟩ → Service.Run s (ms ++ [m]) ⟨m ::ₘ w, ds⟩
  | serve {ms : List (Msg Req Byte)} {w : Multiset (Msg Req Byte)} {ds : List (Answered Req Byte)}
      {m : Msg Req Byte} : Service.Run s ms ⟨m ::ₘ w, ds⟩ →
      Service.Run s ms ⟨w, ds ++ [(m, m.answer plan)]⟩

end

/-- What a port is, as a service: a message that has been taken waits for its reply. -/
def Port.service (p : Port Req Byte) : Service Req Byte where
  waiting := p.waiting + (p.taken.map (·.1) : List (Msg Req Byte))
  done := p.done

variable {plan : Req → Plan Byte} {s s' : Service Req Byte} {ms : List (Msg Req Byte)}

theorem add_one_msg (w : Multiset (Msg Req Byte)) (m : Msg Req Byte) :
    w + (([m] : List (Msg Req Byte)) : Multiset (Msg Req Byte)) = m ::ₘ w := by
  rw [Multiset.coe_singleton, add_comm, Multiset.singleton_add]

/-- No message is lost, and none invented. -/
theorem Service.Run.conserves (h : Service.Run plan s ms s') :
    s'.waiting + (s'.done.map (·.1) : List (Msg Req Byte)) =
      s.waiting + (s.done.map (·.1) : List (Msg Req Byte)) + (ms : Multiset (Msg Req Byte)) := by
  induction h with
  | nil => simp
  | put m _ ih => rw [Multiset.cons_add, ih, ← Multiset.coe_add, ← add_assoc, add_one_msg]
  | serve _ ih =>
    rw [← ih, List.map_append, ← Multiset.coe_add, List.map_singleton, ← add_assoc, add_one_msg,
      Multiset.cons_add]

/-- Each message gets its own answer. -/
theorem Service.Run.answers (h : Service.Run plan s ms s') :
    ∃ xs : List (Msg Req Byte), s'.done = s.done ++ xs.map fun m => (m, m.answer plan) := by
  induction h with
  | nil => exact ⟨[], by simp⟩
  | put m _ ih => exact ih
  | serve _ ih =>
    rename_i m _
    obtain ⟨xs, hxs⟩ := ih
    refine ⟨xs ++ [m], ?_⟩
    dsimp only at hxs ⊢
    rw [hxs, List.map_append, List.append_assoc, List.map_singleton]

/-! ## What is left of a plan -/

/-- What a port holds while its server is in a phase: nothing has been taken, or only the message
that the server is at, and what is left of the plan gives its answer. -/
def Port.At (plan : Req → Plan Byte) (p : Port Req Byte) : Phase Byte → Prop
  | .idle => p.taken = []
  | .busy msgid left => ∃ m out, p.taken = [(m, out)] ∧ m.msgid = msgid ∧ (plan m.req).Leaves left ∧
      left.result m.body m.room out = m.answer plan

theorem heeds_nil {ph : Phase Byte} (h : Heeds plan ([] : List (PortCall Req Byte)) ph) : ph = .idle := by
  generalize hcs : ([] : List (PortCall Req Byte)) = cs at h
  cases h with
  | nil => rfl
  | snoc => simp at hcs

theorem heeds_snoc {cs : List (PortCall Req Byte)} {c : PortCall Req Byte} {ph : Phase Byte}
    (h : Heeds plan (cs ++ [c]) ph) : ∃ ph₀, Heeds plan cs ph₀ ∧ Phase.Step plan ph₀ c ph := by
  generalize hcs : cs ++ [c] = cs' at h
  cases h with
  | nil => simp at hcs
  | snoc hk hstep =>
    obtain ⟨rfl, he⟩ := List.append_inj' hcs rfl
    cases he
    exact ⟨_, hk, hstep⟩

theorem Heeds.append {cs cs' : List (PortCall Req Byte)} {ph : Phase Byte} (h : Heeds plan cs .idle)
    (h' : Heeds plan cs' ph) : Heeds plan (cs ++ cs') ph := by
  induction h' with
  | nil => rwa [List.append_nil]
  | snoc _ hstep ih =>
    rw [← List.append_assoc]
    exact ih.snoc hstep

/-- Calls that are not about the port. -/
theorem heeds_other {cs : List (PortCall Req Byte)} (h : ∀ c ∈ cs, c = .other) : Heeds plan cs .idle := by
  induction cs using List.reverseRecOn with
  | nil => exact .nil
  | append_singleton cs c ih =>
    obtain rfl := h c (List.mem_append_right _ (List.mem_singleton_self c))
    exact (ih fun c' hc' => h c' (List.mem_append_left _ hc')).snoc (.other _)

/-- At most one message has been taken. -/
theorem Port.At.single {p : Port Req Byte} {ph : Phase Byte} (h : p.At plan ph) : p.taken.length ≤ 1 := by
  cases ph with
  | idle => exact (congrArg List.length h).le.trans (Nat.zero_le 1)
  | busy msgid left =>
    obtain ⟨m, out, htaken, -⟩ := h
    exact (congrArg List.length htaken).le

/-- The message that a server is at is the only one that it can have a call about. -/
theorem taken_eq {m m' : Msg Req Byte} {out out' : List Byte} {ts us : List (Msg Req Byte × List Byte)}
    (h : ts ++ (m, out) :: us = [(m', out')]) : ts = [] ∧ us = [] ∧ m = m' ∧ out = out' := by
  rcases List.append_eq_singleton_iff.mp h with ⟨rfl, h⟩ | ⟨rfl, h⟩
  · obtain ⟨hm, rfl⟩ := List.cons.inj h
    cases hm
    exact ⟨rfl, rfl, rfl, rfl⟩
  · cases h

/-- One call, of a server that heeds its plans. -/
theorem port_step {p p' : Port Req Byte} {c : PortCall Req Byte} {ph ph' : Phase Byte}
    (hp : Port.Step p c p') (hph : Phase.Step plan ph c ph') (hat : p.At plan ph)
    (hrun : Service.Run plan s ms p.service) : p'.At plan ph' ∧ Service.Run plan s ms p'.service := by
  cases hph with
  | took msgid req =>
    cases hp with
    | took m =>
      obtain rfl : _ = [] := hat
      refine ⟨⟨m, [], rfl, rfl, .all, rfl⟩, ?_⟩
      simpa only [Port.service, List.map_nil, List.map_singleton, Multiset.coe_nil, add_zero,
        add_one_msg] using hrun
  | empty =>
    cases hp with
    | empty => exact ⟨hat, hrun⟩
  | read data =>
    obtain ⟨m, out, htaken, hid, hleaves, hleft⟩ := hat
    cases hp with
    | @read _ m' out' size hmem =>
      rw [htaken, List.mem_singleton] at hmem
      cases hmem
      exact ⟨⟨m, out, htaken, hid, hleaves.read _, hleft⟩, hrun⟩
  | wrote =>
    obtain ⟨m, out, htaken, hid, hleaves, hleft⟩ := hat
    cases hp with
    | wrote data =>
      obtain ⟨rfl, rfl, rfl, rfl⟩ := taken_eq htaken
      exact ⟨⟨_, _, rfl, hid, hleaves.write, hleft⟩, hrun⟩
  | replied =>
    obtain ⟨m, out, htaken, hid, -, hleft⟩ := hat
    cases hp with
    | @replied w ts us ds m' out' status =>
      obtain ⟨rfl, rfl, rfl, rfl⟩ := taken_eq htaken
      refine ⟨rfl, ?_⟩
      have hwaits : Service.Run plan s ms ⟨m' ::ₘ w, ds⟩ := by
        simpa only [Port.service, List.nil_append, List.map_singleton, add_one_msg] using hrun
      have hdone := hwaits.serve
      rw [← hleft] at hdone
      simpa only [Port.service, List.append_nil, List.map_nil, Multiset.coe_nil, add_zero,
        Plan.result] using hdone
  | other =>
    cases hp with
    | other => exact ⟨hat, hrun⟩

/-- A server that heeds its plans is a service that answers each message at once: that of the
same messages, and with the same answers. -/
theorem heeds_service {view : E → PortCall Req Byte} {q : Multiset (Msg Req Byte)}
    {l : List (PortLabel Req Byte E)} {p : Port Req Byte} {ph : Phase Byte}
    (hp : Port.Run view ⟨q, [], []⟩ l p) (hk : Heeds plan ((portCalls l).map view) ph) :
    p.At plan ph ∧ Service.Run plan ⟨q, []⟩ (putMsgs l) p.service := by
  induction hp generalizing ph with
  | nil =>
    obtain rfl := heeds_nil hk
    refine ⟨rfl, ?_⟩
    show Service.Run plan _ [] _
    simpa only [Port.service, List.map_nil, Multiset.coe_nil, add_zero] using Service.Run.nil
  | put m _ ih =>
    rw [portCalls_put] at hk
    obtain ⟨hat, hserv⟩ := ih hk
    refine ⟨by cases ph <;> exact hat, ?_⟩
    rw [putMsgs_put]
    simpa only [Port.service, Multiset.cons_add] using hserv.put m
  | call _ hstep ih =>
    rw [portCalls_call, List.map_append, List.map_singleton] at hk
    obtain ⟨ph₀, hk₀, hph⟩ := heeds_snoc hk
    obtain ⟨hat, hserv⟩ := ih hk₀
    rw [putMsgs_call]
    exact port_step hstep hph hat hserv

end Framework
