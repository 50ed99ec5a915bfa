import Cheviot.Proof.MessageLoop
import Cheviot.Proof.Script

/-!
# The value of a shutdown

Over any run of the state machine, the requests that are answered with status 0
are those that are read, and `shutdown_how` is the value of the last of them
(`Carries`). `mainLoop_acknowledged`: the shutdown is the one that each of them
asked for exactly if they all asked for the same.
-/

namespace Cheviot.Proof

open Framework Cheviot.Sysinit Cheviot.Spec

variable {how : List UInt8 → Int} {fuel : Nat} {g g' g₀ : Globals} {s s₀ : InitState}
  {t : List (Event sys)}

/-- Each request that is read is answered with status 0, and `shutdown_how` is
the value of the last one. -/
def Carries (how : List UInt8 → Int) (g : Globals) (t : List (Event sys)) (g' : Globals) : Prop :=
  Whole t → (∀ l, t.foldl (Acks.step how) ⟨none, l⟩ = ⟨none, l ++ requested how t⟩) ∧
    g'.shutdownHow = (requested how t).getLast?.getD g.shutdownHow

theorem requested_append (how : List UInt8 → Int) (t t' : List (Event sys)) :
    requested how (t ++ t') = requested how t ++ requested how t' := List.filterMap_append

theorem carries_chains : Proc.Chains (Carries how) where
  nil _ _ := ⟨fun l => by simp [requested], rfl⟩
  append h h' hw := by
    obtain ⟨hw₁, hw₂⟩ := List.forall_mem_append.mp hw
    obtain ⟨h₁, e₁⟩ := h hw₁
    obtain ⟨h₂, e₂⟩ := h' hw₂
    refine ⟨fun l => ?_, ?_⟩
    · rw [List.foldl_append, h₁, h₂, requested_append, List.append_assoc]
    · rw [e₂, e₁, requested_append, List.getLast?_append]
      cases (requested how _).getLast? <;> rfl

/-- A call that reads no request and answers none. -/
def isSilent : Call → Bool
  | .readmsg .. | .replymsg .. => false
  | _ => true

/-- Code that reads no request and answers none. -/
theorem carries_of_frame {α : Type} {c : Sys α} (hc : Proc.Frame (isSilent ·) (·.shutdownHow) c) :
    Proc.Leads (Carries how) c := hc.leads fun g t g' hq hk hw => by
  have hstep : ∀ e ∈ t, ∀ a, Acks.step how a e = a := fun e he a => by
    have := hq e he
    obtain ⟨c, r⟩ := e
    cases c <;> first | rfl | cases this
  have hrequested : requested how t = [] := List.filterMap_eq_nil_iff.mpr fun e he => by
    have := hq e he
    obtain ⟨c, r⟩ := e
    cases c <;> first | rfl | cases this
  refine ⟨fun l => ?_, by rw [hrequested, hk]; rfl⟩
  rw [hrequested, List.append_nil]
  clear hk hrequested hq hw
  induction t with
  | nil => rfl
  | cons e t ih =>
    rw [List.foldl_cons, hstep e List.mem_cons_self]
    exact ih fun e he => hstep e (List.mem_cons_of_mem _ he)

theorem overlay_whole {buf data : List UInt8} (h : data.length = buf.length) :
    overlay buf data = data := by
  rw [overlay, ← h, List.take_length, h, List.drop_length, List.append_nil]

theorem handleMessage_carries (msgid : Int) (req : Iorequest) :
    Proc.Leads (Carries how) (handleMessage how msgid req) := fun g t o g' hr hw => by
  rcases handleMessage_cases (m := ⟨msgid, req⟩) hr with ⟨-, r₁, r₂, rfl, rfl⟩ | ⟨-, r, rfl, rfl⟩
  · have hlen : r₁.1.2.length = g.sysinitReq.length := of_decide_eq_true (hw _ List.mem_cons_self)
    refine ⟨fun l => ?_, ?_⟩
    · simp [Acks.step, requested]
    · rw [overlay_whole hlen]
      rfl
  · exact ⟨fun l => (List.append_nil l).symm ▸ rfl, rfl⟩

theorem stateMessageLoop_carries : Proc.Leads (Carries how) (stateMessageLoop how fuel) := by
  have silent : ∀ {c : Call}, isSilent c → Proc.Leads (Carries how) (syscall c) := fun h =>
    carries_of_frame (syscall_frame h fun _ _ => rfl)
  exact stateMessageLoop_leads carries_chains (fun _ _ => silent rfl)
    (carries_of_frame (.modify fun _ => rfl)) (fun _ => silent rfl)
    (drainRound_leads carries_chains (fun _ => silent rfl) handleMessage_carries)

theorem mainSwitch_carries (s : InitState) : Proc.Leads (Carries how) (mainSwitch how fuel s) := by
  have silent : ∀ {P : Call → Bool} {c : Call}, (∀ p m n, P (.readmsg p m n) = false) →
      (∀ p m r, P (.replymsg p m r) = false) → P c → isSilent c := by
    intro P c hread hreply hc
    cases c <;> first | rfl | simp [hread, hreply] at hc
  refine mainSwitch_leads carries_chains (fun path slot => ?_) (fun buf => ?_) ?_
    stateMessageLoop_carries ?_ (stateShutdown_leads fun g r _ => ⟨fun l => ?_, rfl⟩) s
  · exact carries_of_frame (((loadBootstrapFile_frame path slot).part (·.2.2.2.2)).mono fun _ =>
      silent (fun _ _ _ => rfl) fun _ _ _ => rfl)
  · exact carries_of_frame (((processBootstrapScript_frame buf).part (·.2.2.2.2)).mono fun _ =>
      silent (fun _ _ _ => rfl) fun _ _ _ => rfl)
  · exact carries_of_frame ((stateStartSessions_frame.part (·.2.2.2.1)).mono fun _ =>
      silent (fun _ _ _ => rfl) fun _ _ _ => rfl)
  · exact carries_of_frame ((stateReaper_frame.part (·.2.2.2.1)).mono fun _ =>
      silent (fun _ _ _ => rfl) fun _ _ _ => rfl)
  · exact (List.append_nil l).symm ▸ rfl

theorem visits_carries (hv : Visits (mainSwitch how fuel) s₀ g₀ t s g) : Carries how g₀ t g :=
  visits_leads carries_chains mainSwitch_carries hv

/-- In a run in which the requests that are read are whole, `shutdown_os` is
called with the value of every request that was acknowledged exactly if the
requests that were read all carry the same one. -/
theorem mainLoop_acknowledged (how : List UInt8 → Int) (fuel n : Nat) {H : Int} {r : Int × Int}
    {q : Prog sys (Out Unit × Globals)}
    (h : (mainLoop (mainSwitch how fuel) n s₀ g₀).Steps (t ++ [⟨.shutdownOs H, r⟩]) q)
    (hw : Whole t) :
    (∀ value ∈ acknowledged how t, value = H) ↔
      ∀ value ∈ requested how t, ∀ value' ∈ requested how t, value = value' := by
  obtain ⟨t', g, r', ht, hv⟩ := mainLoop_shutdown h (List.mem_append_right _ List.mem_cons_self) rfl
  obtain ⟨rfl, he⟩ := List.append_inj' ht rfl
  obtain ⟨hacks, hH⟩ := visits_carries hv hw
  have hsame : acknowledged how t = requested how t := by
    rw [acknowledged, hacks, List.nil_append]
  have hvalue : H = (requested how t).getLast?.getD g₀.shutdownHow := by
    rw [← hH]
    cases he
    rfl
  rw [hsame]
  constructor
  · exact fun hall v hv v' hv' => (hall v hv).trans (hall v' hv').symm
  · intro hall v hv
    rw [hvalue, List.getLast?_eq_some_getLast (List.ne_nil_of_mem hv), Option.getD_some]
    exact hall v hv _ (List.getLast_mem _)

/-- The globals where the message loop is entered, with an empty s.shutdown. -/
def entered : Globals := { Globals.initial [0] 0 with sShutdownScript := some [NUL] }

/-- The calls of a run that is sent the requests `a` and `b` for one wake-up. -/
def twoRequests (a b : UInt8) : List (Event sys) :=
  [⟨.keventAdd 0 0, (0, 0)⟩, ⟨.kevent 0, (⟨1, 0, true⟩, 0)⟩,
    ⟨.getmsg 0, (.got 1 ⟨.sendio, .sysinit⟩, 0)⟩, ⟨.readmsg 0 1 1, ((1, [a]), 0)⟩,
    ⟨.replymsg 0 1 0, (0, 0)⟩,
    ⟨.getmsg 0, (.got 2 ⟨.sendio, .sysinit⟩, 0)⟩, ⟨.readmsg 0 2 1, ((1, [b]), 0)⟩,
    ⟨.replymsg 0 2 0, (0, 0)⟩,
    ⟨.getmsg 0, (.none 0, 0)⟩, ⟨.kill none .hup, (false, ESRCH)⟩]

/-- With an empty s.shutdown and no process to kill, the system is shut down as
`shutdown_how` has it. -/
theorem visits_of_noProcess (how : List UInt8 → Int) (fuel : Nat)
    (hg : g.sShutdownScript = some [NUL]) :
    ∃ g', Visits (mainSwitch how fuel) .runSShutdown g [⟨.kill none .hup, (false, ESRCH)⟩]
      .shutdown g' ∧ g'.shutdownHow = g.shutdownHow := by
  have hempty : (interpret fuel (Proc.exit (-1)) [] ⟨g.portid, g.kq⟩).Runs [] (.ok (), ⟨g.portid, g.kq⟩) := by
    rw [interpret_nil]; exact .nil _
  obtain ⟨g₁, h₁, -⟩ := processBootstrapScript_runs fuel [] (by decide : NUL ∉ ([] : Str)) (by decide)
    (⟨rfl, rfl⟩ : SamePorts g ⟨g.portid, g.kq⟩) hempty
  have hkeeps : g₁.shutdownHow = g.shutdownHow :=
    congrArg (·.2.2.2.2) ((processBootstrapScript_frame _).keeps h₁)
  have hscript : (stateRunSShutdown fuel g).Runs [] (.ok .reaper, g₁) := by
    rw [stateRunSShutdown, Proc.runs_get_bind, hg]
    exact Proc.runs_bind_ok.mpr ⟨[], [], 0, g₁, rfl, h₁, .nil _⟩
  have hreaper : (stateReaper fuel g₁).Runs [⟨.kill none .hup, (false, ESRCH)⟩] (.ok .shutdown,
      { g₁ with sessionList := g₁.sessionList.setShutdown, errno := ESRCH }) := .cons (.nil _)
  have hv : Visits (mainSwitch how fuel) .runSShutdown g
      ([] ++ [⟨.kill none .hup, (false, ESRCH)⟩]) .shutdown _ :=
    .snoc (.one (runs_mainRound.mpr hscript)) (runs_mainRound.mpr hreaper)
  exact ⟨_, hv, hkeeps⟩

theorem twoRequests_steps (a b : UInt8) : ∃ n q,
    (mainLoop (mainSwitch firstByte 4) n .messageLoop entered).Steps
      (twoRequests a b ++ [⟨.shutdownOs b.toNat, (0, 0)⟩]) q := by
  have hloop : (stateMessageLoop firstByte 4 entered).Runs (twoRequests a b).dropLast
      (.ok .stopSessions,
        { entered with shutdown := true, shutdownHow := b.toNat, sysinitReq := [b] }) :=
    .cons (.cons (.cons (.cons (.cons (.cons (.cons (.cons (.cons (.nil _)))))))))
  obtain ⟨g, hv, hhow⟩ := visits_of_noProcess firstByte 4
    (g := { entered with shutdown := true, shutdownHow := b.toNat, sysinitReq := [b] }) rfl
  have hstop : Visits (mainSwitch firstByte 4) .messageLoop entered (twoRequests a b).dropLast
      .stopSessions _ := .one (runs_mainRound.mpr hloop)
  have hrc : Visits (mainSwitch firstByte 4) .messageLoop entered ((twoRequests a b).dropLast ++ [])
      .runRcShutdown _ := .snoc hstop (runs_mainRound.mpr (.nil _))
  have hs : Visits (mainSwitch firstByte 4) .messageLoop entered
      ((twoRequests a b).dropLast ++ [] ++ []) .runSShutdown _ :=
    .snoc hrc (runs_mainRound.mpr (.nil _))
  have hoff : (mainLoop (mainSwitch firstByte 4) 1 .shutdown g).Steps
      [⟨.shutdownOs g.shutdownHow, (0, 0)⟩] (.ret (.timeout, { g with errno := 0 })) := .cons (.nil _)
  obtain ⟨n, h⟩ := (hs.trans hv).steps hoff
  rw [hhow] at h
  exact ⟨n, _, h⟩

/-- Two requests for the same kind of shutdown. -/
theorem mainLoop_acknowledged_same :
    (∀ value ∈ acknowledged firstByte (twoRequests 2 2), value = 2) ↔
      ∀ value ∈ requested firstByte (twoRequests 2 2),
        ∀ value' ∈ requested firstByte (twoRequests 2 2), value = value' := by
  obtain ⟨n, q, h⟩ := twoRequests_steps 2 2
  exact mainLoop_acknowledged firstByte 4 n h (by decide)

/-- Two requests for kinds 1 and 2 in one wake-up: both are acknowledged, and the
shutdown is of kind 2. -/
theorem acknowledged_overwritten :
    acknowledged firstByte (twoRequests 1 2) = [1, 2] ∧ ∃ n q,
      (mainLoop (mainSwitch firstByte 4) n .messageLoop entered).Steps
        (twoRequests 1 2 ++ [⟨.shutdownOs 2, (0, 0)⟩]) q :=
  ⟨rfl, twoRequests_steps 1 2⟩

end Cheviot.Proof
