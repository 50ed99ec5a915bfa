import Cheviot.Framework.Ends
import Cheviot.Proof.Servers
import Cheviot.Proof.Sysinfo
import Cheviot.Spec.Service

/-!
# The servers are services

The loop that the four servers share keeps `InLoop`, which one call changes as `InLoop.call`
says, if their `cmd_sendio` does what is planned for a request (`Handles`). With the calls of
`init` before it (`init_returns`) each whole server is a service at its operand:

* `skeleton_service`: automount, nettcpip and syslog;
* `sysinfo_service`: sysinfo, where requests are as long as they say and none just fills the
  buffer.
-/

namespace Cheviot.Proof

open Framework Cheviot.Servers Cheviot.Spec
open Cheviot.Sysinit (Str NUL ENOTSUP)
open Cheviot.Sysinfo (Iorequest E2BIG EXIT_FAILURE)

/-! ## The loop -/

theorem terminated_snoc (t : List (Event Sysinfo.sys)) (e : Event Sysinfo.sys) :
    terminated (t ++ [e]) = (terminated t || e.ret.2) := by
  simp [terminated]

section Loop

variable {σ : Type} {v : Vars σ} {sendio : Iorequest → Plan Char} {plan : Iorequest → Plan Char}
  {p k : Int} {ph ph' : Phase Char} {g : σ} {h : List (Event Sysinfo.sys)} {A : Event Sysinfo.sys → Prop}

/-- The memory of a loop in a phase, and its calls. -/
structure InLoop (v : Vars σ) (plan : Iorequest → Plan Char) (p k : Int) (ph : Phase Char) (g : σ)
    (h : List (Event Sysinfo.sys)) : Prop where
  portid : v.portid g = p
  kq : v.kq g = k
  shutdown : v.shutdown g = terminated h
  obeys : Obeys plan p k ph h

/-- What the calls of a loop are at any moment. -/
def Obeying (plan : Iorequest → Plan Char) (p k : Int) (h : List (Event Sysinfo.sys)) : Prop :=
  ∃ ph, Obeys plan p k ph h

theorem obeys_nil : Obeys plan p k .idle [] where
  heeds := .nil
  uses := by simp
  waits t₁ e t₂ he := by simp at he

/-- One call of a loop. -/
theorem InLoop.call (hl : InLoop v plan p k ph g h) (e : Event Sysinfo.sys)
    (hstep : Phase.Step plan ph (portView p e) ph') (huse : usesOnly p k e.call)
    (hwait : waitsForMessage e.call → terminated h = false) :
    InLoop v plan p k ph' (v.sigterm e.ret.2 g) (h ++ [e]) where
  portid := (v.portid_sigterm _ _).trans hl.portid
  kq := (v.kq_sigterm _ _).trans hl.kq
  shutdown := by rw [v.shutdown_sigterm, hl.shutdown, terminated_snoc]
  obeys :=
    { heeds := by
        rw [List.map_append]
        exact hl.obeys.heeds.snoc hstep
      uses := List.forall_mem_append.mpr ⟨hl.obeys.uses, List.forall_mem_singleton.mpr huse⟩
      waits := fun t₁ e' t₂ he hw => by
        rcases snoc_eq_append_cons he with ⟨rfl, rfl⟩ | ⟨t₃, rfl⟩
        · exact hwait hw
        · exact hl.obeys.waits t₁ e' t₃ rfl hw }

/-- A call of a loop that does not wait, and what it leaves. -/
theorem syscall_endsIn {c : Sysinfo.Call} (next : c.Result → Phase Char)
    {Q : Out c.Result → σ → List (Event Sysinfo.sys) → Prop} (hl : InLoop v plan p k ph g h)
    (hstep : ∀ r, A ⟨c, r⟩ → Phase.Step plan ph (portView p ⟨c, r⟩) (next r.1)) (huse : usesOnly p k c)
    (hwait : waitsForMessage c → terminated h = false)
    (hQ : ∀ r g', A ⟨c, r⟩ → InLoop v plan p k (next r.1) g' (h ++ [⟨c, r⟩]) →
      Q (.ok r.1) g' (h ++ [⟨c, r⟩])) :
    Proc.EndsIn (fun _ e => A e) (Obeying plan p k) (syscall v c) g h Q := by
  rw [syscall, Proc.endsIn_bind, Proc.endsIn_call]
  intro r hr
  have hl' := hl.call ⟨c, r⟩ (hstep r hr) huse hwait
  refine ⟨⟨_, hl'.obeys⟩, ?_⟩
  rw [Proc.onEnd, Proc.endsIn_bind, Proc.endsIn_modify, Proc.onEnd, Proc.endsIn_pure]
  exact hQ r _ hr hl'

/-- `cmd_sendio` does for a request what is planned for it. -/
def Handles (v : Vars σ) (sendio : Iorequest → Plan Char) (p k : Int) (A : Event Sysinfo.sys → Prop)
    (cmdSendio : Int → Int → Iorequest → Proc Sysinfo.sys σ Unit) : Prop :=
  ∀ (msgid : Int) (req : Iorequest) b g h, A ⟨.getmsg p, (.got msgid req, b)⟩ → req.cmd = .sendio →
    InLoop v (planOf sendio) p k (.busy msgid (sendio req)) g h →
    Proc.EndsIn (fun _ e => A e) (Obeying (planOf sendio) p k) (cmdSendio p msgid req) g h
      fun o g' h' => o = .ok () ∧ InLoop v (planOf sendio) p k .idle g' h'

variable {cmdSendio : Int → Int → Iorequest → Proc Sysinfo.sys σ Unit}

theorem serveMessage_endsIn (hc : Handles v sendio p k A cmdSendio) {msgid : Int} {req : Iorequest}
    {b : Bool} (hreq : A ⟨.getmsg p, (.got msgid req, b)⟩)
    (hl : InLoop v (planOf sendio) p k (.busy msgid (planOf sendio req)) g h) :
    Proc.EndsIn (fun _ e => A e) (Obeying (planOf sendio) p k)
      (Servers.serveMessage v cmdSendio p msgid req) g h
      fun o g' h' => o = .ok () ∧ InLoop v (planOf sendio) p k .idle g' h' := by
  rw [Servers.serveMessage]
  rw [planOf] at hl
  cases hcmd : req.cmd with
  | sendio =>
    rw [hcmd] at hl
    exact hc msgid req b g h hreq hcmd hl
  | other n =>
    rw [hcmd] at hl
    rw [Proc.endsIn_bind]
    refine syscall_endsIn (fun _ => .idle) hl (fun r _ => ?_) (decide_eq_true rfl)
      (absurd · Bool.false_ne_true) fun r g' _ hl' => ?_
    · rw [portView, if_pos rfl]
      exact .replied
    · rw [Proc.onEnd]
      exact Proc.endsIn_pure.mpr ⟨rfl, hl'⟩

/-- What a round of the inner loop leaves: another one is asked for, or there is no message, or
none that could be taken. -/
def RoundLeaves (v : Vars σ) (plan : Iorequest → Plan Char) (p k : Int)
    (o : Out (Proc.Round Unit Int)) (g : σ) (h : List (Event Sysinfo.sys)) : Prop :=
  InLoop v plan p k .idle g h ∧
    (o = .ok (.again ()) ∨ ∃ sc, o = .ok (.done sc) ∧ (sc ≠ 0 → EndsWith h EXIT_FAILURE))

/-- Where a server is after `getmsg`. -/
def afterGetmsg (plan : Iorequest → Plan Char) : Sysinfo.Getmsg → Phase Char
  | .got msgid req => .busy msgid (plan req)
  | .none _ => .idle

theorem drainRound_endsIn (hc : Handles v sendio p k A cmdSendio)
    (hl : InLoop v (planOf sendio) p k .idle g h) :
    Proc.EndsIn (fun _ e => A e) (Obeying (planOf sendio) p k) (Servers.drainRound v cmdSendio) g h
      (RoundLeaves v (planOf sendio) p k) := by
  rw [Servers.drainRound, Proc.endsIn_bind, Proc.endsIn_get, Proc.onEnd, Proc.endsIn_bind, hl.portid]
  refine syscall_endsIn (afterGetmsg (planOf sendio)) hl (fun r _ => ?_) (decide_eq_true rfl)
    (absurd · Bool.false_ne_true) fun r g' hr hl' => ?_
  · obtain ⟨m, b⟩ := r
    cases m with
    | got msgid req =>
      rw [portView, if_pos rfl]
      exact .took msgid req
    | none sc =>
      rw [portView]
      split
      · exact .empty
      · exact .other _
  · obtain ⟨m, b⟩ := r
    cases m with
    | got msgid req =>
      rw [Proc.onEnd, Proc.endsIn_bind]
      refine (serveMessage_endsIn hc hr hl').mono ?_
      rintro _ g'' h'' ⟨rfl, hl''⟩
      exact Proc.endsIn_pure.mpr ⟨hl'', .inl rfl⟩
    | none sc => exact Proc.endsIn_pure.mpr ⟨hl', .inr ⟨sc, rfl, .noMessage⟩⟩

theorem drain_endsIn (hc : Handles v sendio p k A cmdSendio) (n : Nat)
    (hl : InLoop v (planOf sendio) p k .idle g h) :
    Proc.EndsIn (fun _ e => A e) (Obeying (planOf sendio) p k)
      (Proc.iter (fun _ => Servers.drainRound v cmdSendio) n ()) g h fun o g' h' =>
        InLoop v (planOf sendio) p k .idle g' h' ∧
          (o = .timeout ∨ ∃ sc, o = .ok sc ∧ (sc ≠ 0 → EndsWith h' EXIT_FAILURE)) := by
  refine Proc.endsIn_iter (J := fun _ g h => InLoop v (planOf sendio) p k .idle g h)
    (fun _ g' h' hl' => ⟨hl', .inl rfl⟩) (fun _ g' h' hl' => (drainRound_endsIn hc hl').mono ?_) n () g h hl
  rintro _ g'' h'' ⟨hl'', rfl | ⟨sc, rfl, hsc⟩⟩
  · exact hl''
  · exact ⟨hl'', .inr ⟨sc, rfl, hsc⟩⟩

/-- What the loop leaves where it ends: all messages that were taken have been answered. -/
def LoopLeaves (v : Vars σ) (plan : Iorequest → Plan Char) (p k : Int) {α : Type} (o : Out α) (g : σ)
    (h : List (Event Sysinfo.sys)) : Prop :=
  InLoop v plan p k .idle g h ∧ (o = .timeout ∨ ∃ code, o = .exited code ∧ EndsWith h code)

theorem mainRound_endsIn (hc : Handles v sendio p k A cmdSendio) (fuel : Nat)
    (hl : InLoop v (planOf sendio) p k .idle g h) :
    Proc.EndsIn (fun _ e => A e) (Obeying (planOf sendio) p k) (Servers.mainRound v cmdSendio fuel) g h
      fun o g' h' => LoopLeaves v (planOf sendio) p k o g' h' ∨
        InLoop v (planOf sendio) p k .idle g' h' ∧
          (o = .ok (.again ()) ∨ o = .ok (.done ()) ∧ terminated h') := by
  rw [Servers.mainRound, Proc.endsIn_bind, Proc.endsIn_get, Proc.onEnd, Proc.endsIn_ite]
  refine ⟨fun hdown => Proc.endsIn_pure.mpr (.inr ⟨hl, .inr ⟨rfl, hl.shutdown.symm.trans hdown⟩⟩),
    fun hdown => ?_⟩
  have hterm : terminated h = false := hl.shutdown.symm.trans (Bool.eq_false_iff.mpr hdown)
  rw [Proc.endsIn_bind, hl.kq]
  refine syscall_endsIn (fun _ => .idle) hl (fun r _ => .other _) (decide_eq_true rfl)
    (fun _ => hterm) fun ev g' _ hl' => ?_
  rw [Proc.onEnd, Proc.endsIn_ite]
  refine ⟨fun _ => ?_, fun _ => Proc.endsIn_pure.mpr (.inr ⟨hl', .inl rfl⟩)⟩
  rw [Proc.endsIn_bind]
  refine (drain_endsIn hc fuel hl').mono ?_
  rintro _ g'' h'' ⟨hl'', rfl | ⟨sc, rfl, hsc⟩⟩
  · exact .inl ⟨hl'', .inl rfl⟩
  · rw [Proc.onEnd, Proc.endsIn_ite]
    exact ⟨fun hne => Proc.endsIn_exit.mpr (.inl ⟨hl'', .inr ⟨_, rfl, hsc hne⟩⟩),
      fun _ => Proc.endsIn_pure.mpr (.inr ⟨hl'', .inl rfl⟩)⟩

/-- The loop that the servers share. -/
theorem loop_endsIn (hc : Handles v sendio p k A cmdSendio) (fuel : Nat)
    (hl : InLoop v (planOf sendio) p k .idle g []) :
    Proc.EndsIn (fun _ e => A e) (Obeying (planOf sendio) p k) (loop v cmdSendio fuel) g []
      (LoopLeaves v (planOf sendio) p k) := by
  rw [loop, Proc.endsIn_bind]
  refine syscall_endsIn (fun _ => .idle) hl (fun r _ => .other _) rfl
    (absurd · Bool.false_ne_true) fun r g' _ hl' => ?_
  rw [Proc.onEnd, Proc.endsIn_ite]
  refine ⟨fun hne => Proc.endsIn_exit.mpr ⟨hl', .inr ⟨_, rfl, .noHandler hne⟩⟩, fun _ => ?_⟩
  rw [Proc.endsIn_bind, Proc.endsIn_get, Proc.onEnd, Proc.endsIn_bind, hl'.kq, hl'.portid]
  refine syscall_endsIn (fun _ => .idle) hl' (fun r _ => .other _)
    (by simp [usesOnly]) (absurd · Bool.false_ne_true) fun r g'' _ hl'' => ?_
  rw [Proc.onEnd, Proc.endsIn_bind]
  refine (Proc.endsIn_iter (J := fun _ g h => InLoop v (planOf sendio) p k .idle g h)
    (Q := fun o g h => LoopLeaves v (planOf sendio) p k o g h ∨
      InLoop v (planOf sendio) p k .idle g h ∧ o = .ok () ∧ terminated h)
    (fun _ g h hl => .inl ⟨hl, .inl rfl⟩) (fun _ g h hl => (mainRound_endsIn hc fuel hl).mono ?_)
    fuel () _ _ hl'').mono ?_
  · rintro o g h (⟨hl, rfl | ⟨code, rfl, hcode⟩⟩ | ⟨hl, rfl | ⟨rfl, hterm⟩⟩)
    · exact .inl ⟨hl, .inl rfl⟩
    · exact .inl ⟨hl, .inr ⟨code, rfl, hcode⟩⟩
    · exact hl
    · exact .inr ⟨hl, rfl, hterm⟩
  · rintro o g h (⟨hl, rfl | ⟨code, rfl, hcode⟩⟩ | ⟨hl, rfl, hterm⟩)
    · exact ⟨hl, .inl rfl⟩
    · exact ⟨hl, .inr ⟨code, rfl, hcode⟩⟩
    · exact Proc.endsIn_exit.mpr ⟨hl, .inr ⟨_, rfl, .sigterm hterm⟩⟩

end Loop

/-! ## `cmd_sendio` -/

/-- A request that is not implemented is replied to. -/
theorem notImplemented_handles (p k : Int) (A : Event Sysinfo.sys → Prop) :
    Handles skeletonVars (fun _ => .reply (-ENOSYS)) p k A notImplemented := by
  intro msgid req b g h _ _ hl
  rw [notImplemented, Proc.endsIn_bind]
  refine syscall_endsIn (fun _ => .idle) hl (fun r _ => ?_) (decide_eq_true rfl)
      (absurd · Bool.false_ne_true) fun r g' _ hl' => ?_
  · rw [portView, if_pos rfl]
    exact .replied
  · rw [Proc.onEnd]
    exact Proc.endsIn_pure.mpr ⟨rfl, hl'⟩

/-- `init` does not exit, and where it returns the server has mounted its port. -/
theorem init_returns {tgt : Target} {argv : List Str} (hargv : ∀ s ∈ argv, NUL ∉ s)
    {t : List (Event sys)} {o : Out Unit} {g : Globals tgt}
    (h : (Servers.init argv (Globals.initial tgt)).Runs t (o, g)) :
    o = .fault ∨ o = .ok () ∧ ∃ path st, mountPath argv = some path ∧ 0 ≤ g.portid ∧ 0 ≤ g.kq ∧
      t = [⟨.createmsgport path 0 st, g.portid⟩, ⟨.kqueue, g.kq⟩] := by
  cases hpath : mountPath argv with
  | none =>
    obtain ⟨msg, hinit⟩ := init_none tgt hpath
    rw [hinit] at h
    exact absurd rfl ((panicked_steps h).2 _)
  | some path =>
    have hnul : NUL ∉ path :=
      hargv _ (List.mem_of_getElem? ((readOptions_mountPath tgt argv).trans hpath))
    by_cases hfits : path.length ≤ tgt.PATH_MAX
    · obtain ⟨st, portid, kq, -, hend⟩ := init_steps hpath hnul hfits h
      obtain ⟨rfl, rfl, hport, rfl, hkq, rfl⟩ := hend _ _ rfl
      exact .inr ⟨rfl, path, st, rfl, hport, hkq, rfl⟩
    · obtain ⟨g', hinit⟩ := init_long hpath hnul hfits
      rw [hinit] at h
      cases (Prog.runs_ret.mp h).2
      exact .inl rfl

/-- A server whose operand fits gets its port and its queue, where there are any. -/
theorem init_runs {tgt : Target} {argv : List Str} {path : Str} (hpath : mountPath argv = some path)
    (hnul : NUL ∉ path) (hfits : path.length ≤ tgt.PATH_MAX) {portid kq : Int} (hport : 0 ≤ portid)
    (hkq : 0 ≤ kq) : ∃ st g, (Servers.init argv (Globals.initial tgt)).Runs
      [⟨.createmsgport path 0 st, portid⟩, ⟨.kqueue, kq⟩] (.ok (), g) ∧ g.portid = portid ∧ g.kq = kq := by
  obtain ⟨g, heq⟩ := init_fits hpath hnul hfits
  refine ⟨mntStat g.config, { g with portid := portid, kq := kq }, ?_, rfl, rfl⟩
  rw [heq]
  refine .cons ?_
  rw [if_neg (Int.not_lt.mpr hport)]
  refine .cons ?_
  rw [if_neg (Int.not_lt.mpr hkq)]
  exact .nil _

/-! ## Whole servers -/

section Server

variable {σ : Type} {v : Vars σ} {sendio : Iorequest → Plan Char} {A : Event Sysinfo.sys → Prop}
  {cmdSendio : Int → Int → Iorequest → Proc Sysinfo.sys σ Unit} {start : Int → Int → σ}
  {tgt : Target} {fuel : Nat} {argv : List Str} {portid : Int}

/-- The memory that a loop starts with. -/
def Starts (v : Vars σ) (start : Int → Int → σ) : Prop :=
  ∀ portid kq, v.portid (start portid kq) = portid ∧ v.kq (start portid kq) = kq ∧
    v.shutdown (start portid kq) = false

/-- What the calls of a server are: those of `init`, or these and the calls of its loop. -/
theorem serverMain_steps (hargv : ∀ s ∈ argv, NUL ∉ s) (hstart : Starts v start)
    (hc : ∀ p k, Handles v sendio p k A cmdSendio) {cs : List (Event serverSys)}
    {r : Prog serverSys (Out Unit)}
    (h : (serverMain v cmdSendio start tgt fuel argv).Steps cs r) :
    (∃ t : List (Event sys), cs = t.map Event.inl ∧ ∀ code, r ≠ .ret (.exited code)) ∨
      ∃ t path st, ∃ p k : Int, cs = ⟨.inl (.createmsgport path 0 st), p⟩ :: ⟨.inl .kqueue, k⟩ :: t.map Event.inr ∧
        mountPath argv = some path ∧ 0 ≤ p ∧ 0 ≤ k ∧ ((∀ e ∈ t, A e) →
          Obeying (planOf sendio) p k t ∧ ∀ o, r = .ret o → Obeys (planOf sendio) p k .idle t ∧
            (o = .timeout ∨ ∃ code, o = .exited code ∧ EndsWith t code)) := by
  rcases Proc.steps_andThen h with ⟨t, q, rfl, hsteps, hnot, hend⟩ | ⟨t₁, t, a, g, q, rfl, hinit, hloop, hend⟩
  · refine .inl ⟨t, rfl, fun code he => ?_⟩
    obtain ⟨o, g, rfl, hcode⟩ := hend _ he
    rcases init_returns hargv hsteps with rfl | ⟨rfl, -⟩
    · exact absurd ((hcode code).mp rfl) nofun
    · exact hnot () g rfl
  · obtain ⟨path, st, hpath, hport, hkq, rfl⟩ : ∃ path st, mountPath argv = some path ∧ 0 ≤ g.portid ∧
        0 ≤ g.kq ∧ t₁ = [⟨.createmsgport path 0 st, g.portid⟩, ⟨.kqueue, g.kq⟩] := by
      rcases init_returns hargv hinit with ho | ⟨-, h⟩
      · cases ho
      · exact h
    refine .inr ⟨t, path, st, g.portid, g.kq, rfl, hpath, hport, hkq, fun hA => ?_⟩
    obtain ⟨hp, hk, hdown⟩ := hstart g.portid g.kq
    have hl : InLoop v (planOf sendio) g.portid g.kq .idle (start g.portid g.kq) [] :=
      ⟨hp, hk, hdown, obeys_nil⟩
    have hadmits : Admits (fun _ e => A e) [] t := fun t₁ e t₂ ht => hA e (by rw [ht]; simp)
    obtain ⟨hi, hq⟩ := (loop_endsIn (hc _ _) fuel hl).steps hloop hadmits
    refine ⟨?_, fun o ho => ?_⟩
    · by_cases ht : t = []
      · subst ht
        exact ⟨_, obeys_nil⟩
      · exact hi ht
    · obtain ⟨g', rfl⟩ := hend o ho
      obtain ⟨hl', ho'⟩ := hq o g' rfl
      exact ⟨hl'.obeys, ho'⟩

theorem serverMain_runs {t₁ : List (Event sys)} {t₂ : List (Event Sysinfo.sys)} {g : Globals tgt}
    {o : Out Unit} {g' : σ} (hinit : (Servers.init argv (Globals.initial tgt)).Runs t₁ (.ok (), g))
    (hloop : (loop v cmdSendio fuel (start g.portid g.kq)).Runs t₂ (o, g')) :
    (serverMain v cmdSendio start tgt fuel argv).Runs (t₁.map Event.inl ++ t₂.map Event.inr) o :=
  Proc.runs_andThen (f := fun g : Globals tgt => start g.portid g.kq) hinit hloop

theorem serverView_inl (t : List (Event sys)) :
    ∀ c ∈ (t.map (Event.inl (T := Sysinfo.sys))).map (serverView portid), c = .other := by
  simp only [List.map_map, List.mem_map]
  rintro _ ⟨e, -, rfl⟩
  rfl

theorem serverView_inr (t : List (Event Sysinfo.sys)) :
    (t.map (Event.inr (S := sys))).map (serverView portid) = t.map (portView portid) := by
  rw [List.map_map]
  rfl

/-- The calls of `init` are not about the port, and leave the server idle. -/
theorem heeds_mounted {plan : Iorequest → Plan Char} {t : List (Event Sysinfo.sys)} {ph : Phase Char}
    {c c' : sys.Call} {ret : sys.Ret c} {ret' : sys.Ret c'} (h : Heeds plan (t.map (portView portid)) ph) :
    Heeds plan ((⟨.inl c, ret⟩ :: ⟨.inl c', ret'⟩ :: t.map Event.inr).map (serverView portid)) ph := by
  have hpre : Heeds plan [.other, .other] .idle := heeds_other (by simp)
  rw [List.map_cons, List.map_cons, serverView_inr]
  exact hpre.append h

/-- What a server that heeds its plans has done for the messages of its port. -/
theorem heeds_answers {plan : Iorequest → Plan Char}
    {l : List (PortLabel Iorequest Char (Event serverSys))} {k : Port Iorequest Char} {ph : Phase Char}
    (hrun : Port.Run (serverView portid) ⟨0, [], []⟩ l k)
    (hheeds : Heeds plan ((portCalls l).map (serverView portid)) ph) :
    k.service.waiting + (k.done.map (·.1) : List (Msg Iorequest Char)) =
      (putMsgs l : Multiset (Msg Iorequest Char)) ∧
    ∀ x ∈ k.done, x.2 = x.1.answer plan := by
  obtain ⟨-, hserv⟩ := heeds_service hrun hheeds
  constructor
  · have hconserves := hserv.conserves
    rwa [List.map_nil, Multiset.coe_nil, add_zero, zero_add] at hconserves
  · obtain ⟨xs, hxs⟩ := hserv.answers
    rw [List.nil_append] at hxs
    intro x hx
    obtain ⟨m, -, rfl⟩ := List.mem_map.mp (hxs ▸ hx : x ∈ xs.map fun m => (m, m.answer plan))
    rfl

/-- A server whose `cmd_sendio` does what is planned is a service at its operand. -/
theorem serverMain_service (hargv : ∀ s ∈ argv, NUL ∉ s) (hstart : Starts v start)
    (hc : ∀ p k, Handles v sendio p k A cmdSendio)
    {l : List (PortLabel Iorequest Char (Event serverSys))} {k : Port Iorequest Char}
    {r : Prog serverSys (Out Unit)} (hrun : Port.Run (serverView portid) ⟨0, [], []⟩ l k)
    (hs : (serverMain v cmdSendio start tgt fuel argv).Steps (portCalls l) r)
    (hport : ∀ path flags st p, ⟨.inl (.createmsgport path flags st), p⟩ ∈ portCalls l → p = portid)
    (hA : ∀ c ret, ⟨.inr c, ret⟩ ∈ portCalls l → A ⟨c, ret⟩) :
    IsService (planOf sendio) argv portid l k r := by
  rcases serverMain_steps hargv hstart hc hs with ⟨t, ht, hr⟩ | ⟨t, path, st, p, kq, ht, hpath, hp, hkq, hloop⟩
  · have hheeds : Heeds (planOf sendio) ((portCalls l).map (serverView portid)) .idle := by
      rw [ht]
      exact heeds_other (serverView_inl t)
    obtain ⟨hat, hserv⟩ := heeds_service hrun hheeds
    obtain ⟨hconserves, hanswers⟩ := heeds_answers hrun hheeds
    exact ⟨hserv, ⟨_, hheeds⟩, hconserves, hanswers, hat.single, .inl ⟨t, ht, hr⟩⟩
  · obtain rfl : p = portid := hport path 0 st p (by rw [ht]; exact List.mem_cons_self)
    obtain ⟨⟨ph, hobeys⟩, hend⟩ := hloop fun e he => hA e.call e.ret (by
      rw [ht]
      exact List.mem_cons_of_mem _ (List.mem_cons_of_mem _ (List.mem_map_of_mem he)))
    have hheeds : ∀ ph', Obeys (planOf sendio) p kq ph' t →
        Heeds (planOf sendio) ((portCalls l).map (serverView p)) ph' := fun ph' ho => by
      rw [ht]
      exact heeds_mounted ho.heeds
    obtain ⟨hat, hserv⟩ := heeds_service hrun (hheeds ph hobeys)
    obtain ⟨hconserves, hanswers⟩ := heeds_answers hrun (hheeds ph hobeys)
    refine ⟨hserv, ⟨ph, hheeds ph hobeys⟩, hconserves, hanswers, hat.single, .inr ⟨t, ?_, hobeys.waits, fun o ho => ?_⟩⟩
    · rw [ht]
      exact .intro hpath hp hkq hobeys.uses
    · obtain ⟨hidle, ho'⟩ := hend o ho
      exact ⟨(heeds_service hrun (hheeds .idle hidle)).1, ho'⟩

end Server

/-- automount, nettcpip and syslog are services at their operands, which answer that requests
are not implemented, and that no other command is supported. -/
theorem skeleton_service {main : Target → Nat → List Str → Prog serverSys (Out Unit)}
    (hmain : main ∈ [automountMain, nettcpipMain, syslogMain]) (tgt : Target) (fuel : Nat) {argv : List Str}
    (hargv : ∀ s ∈ argv, NUL ∉ s) {portid : Int}
    {l : List (PortLabel Iorequest Char (Event serverSys))} {k : Port Iorequest Char}
    {r : Prog serverSys (Out Unit)} (hrun : Port.Run (serverView portid) ⟨0, [], []⟩ l k)
    (hs : (main tgt fuel argv).Steps (portCalls l) r)
    (hport : ∀ path flags st p, ⟨.inl (.createmsgport path flags st), p⟩ ∈ portCalls l → p = portid) :
    IsService skeletonPlan argv portid l k r := by
  have hskeleton : main = skeletonMain := by
    simp only [List.mem_cons, List.not_mem_nil, or_false] at hmain
    rcases hmain with rfl | rfl | rfl <;> rfl
  rw [hskeleton] at hs
  exact serverMain_service hargv (fun _ _ => ⟨rfl, rfl, rfl⟩)
    (fun p kq => notImplemented_handles p kq fun _ => True) hrun hs hport fun _ _ _ => trivial

/-- The command line of a server that mounts at `/s`. -/
def atS : List Str := [['s'], ['/', 's']]

theorem mountPath_atS : mountPath atS = some ['/', 's'] := by
  rw [mountPath, atS, List.drop_succ_cons, List.drop_zero, Getopt.operands_operand optstring (by decide) rfl]
  rfl

/-- A server that mounts at `/s`, to which messages are put before it makes the calls `t` of its loop. -/
def mountedLabels (st : Sysinit.Stat) (ms : List (Msg Iorequest Char)) (t : List (Event Sysinfo.sys)) :
    List (PortLabel Iorequest Char (Event serverSys)) :=
  [⟨.inl (.createmsgport ['/', 's'] 0 st), (3 : Int)⟩, ⟨.inl .kqueue, (4 : Int)⟩].map .call ++
    ms.map .put ++ (t.map Event.inr).map .call

section Labels

variable (st : Sysinit.Stat) (ms : List (Msg Iorequest Char)) (t : List (Event Sysinfo.sys))

theorem mountedLabels_calls : portCalls (mountedLabels st ms t) =
    ([⟨.createmsgport ['/', 's'] 0 st, (3 : Int)⟩, ⟨.kqueue, (4 : Int)⟩] : List (Event sys)).map Event.inl ++
      t.map Event.inr := by
  rw [mountedLabels, portCalls_append, portCalls_append, portCalls_calls, portCalls_puts, portCalls_calls,
    List.append_nil]
  rfl

theorem mountedLabels_port : ∀ path flags st' p,
    ⟨.inl (.createmsgport path flags st'), p⟩ ∈ portCalls (mountedLabels st ms t) → p = (3 : Int) := by
  intro path flags st' p hmem
  rw [mountedLabels_calls, List.mem_append, List.mem_map, List.mem_map] at hmem
  rcases hmem with ⟨e, he, heq⟩ | ⟨e, -, heq⟩
  · simp only [List.mem_cons, List.not_mem_nil, or_false] at he
    rcases he with rfl | rfl
    · cases heq
      rfl
    · cases heq
  · cases heq

/-- The port before the loop of the server makes its first call. -/
theorem mountedLabels_waiting : Port.Run (serverView 3) ⟨0, [], []⟩ (mountedLabels st ms []) ⟨ms, [], []⟩ := by
  have hnil : Port.Run (serverView 3) (⟨0, [], []⟩ : Port Iorequest Char) [] ⟨0, [], []⟩ := .nil
  have hmount := hnil.others (t := [⟨.inl (.createmsgport ['/', 's'] 0 st), (3 : Int)⟩, ⟨.inl .kqueue, (4 : Int)⟩])
    (by simp [serverView])
  have hputs := hmount.puts ms
  rw [List.nil_append, add_zero] at hputs
  rw [mountedLabels, List.map_nil, List.map_nil, List.append_nil]
  exact hputs

end Labels

/-- A request, and a message with another command. -/
def twoMsgs : List (Msg Iorequest Char) :=
  [⟨1, ⟨.sendio, 4, 0⟩, ['h', 'e', 'l', 'p'], 0⟩, ⟨2, ⟨.other 5, 0, 0⟩, [], 0⟩]

/-- The calls of a loop that answers the two messages, and is terminated then. -/
def twoServed : List (Event Sysinfo.sys) :=
  [⟨.sigaction, (0, false)⟩, ⟨.keventAdd 4 3, (0, false)⟩, ⟨.kevent 4, (⟨1, 3, true⟩, false)⟩,
    ⟨.getmsg 3, (.got 1 ⟨.sendio, 4, 0⟩, false)⟩, ⟨.replymsg 3 1 (-ENOSYS), (0, false)⟩,
    ⟨.getmsg 3, (.got 2 ⟨.other 5, 0, 0⟩, false)⟩, ⟨.replymsg 3 2 (-ENOTSUP), (0, false)⟩,
    ⟨.getmsg 3, (.none 0, true)⟩]

/-- The messages with their answers. -/
def twoAnswered : List (Answered Iorequest Char) :=
  [(⟨1, ⟨.sendio, 4, 0⟩, ['h', 'e', 'l', 'p'], 0⟩, -ENOSYS, []), (⟨2, ⟨.other 5, 0, 0⟩, [], 0⟩, -ENOTSUP, [])]

/-- A message is taken and replied to. -/
theorem run_replied (m : Msg Iorequest Char) (status : Int) (w : Multiset (Msg Iorequest Char))
    (ds : List (Answered Iorequest Char)) {l : List (PortLabel Iorequest Char (Event serverSys))} {portid : Int}
    (h : Port.Run (serverView portid) ⟨0, [], []⟩ l ⟨m ::ₘ w, [], ds⟩) (b : Bool) (r : Int × Bool) :
    Port.Run (serverView portid) ⟨0, [], []⟩ (l ++ ([⟨.getmsg portid, (.got m.msgid m.req, b)⟩,
        ⟨.replymsg portid m.msgid status, r⟩] : List (Event Sysinfo.sys)).map fun e => .call e.inr)
      ⟨w, [], ds ++ [(m, status, [])]⟩ := by
  have hgot : serverView portid ⟨.inr (.getmsg portid), (Sysinfo.Getmsg.got m.msgid m.req, b)⟩ =
      .took m.msgid m.req := if_pos rfl
  have hsent : serverView portid ⟨.inr (.replymsg portid m.msgid status), r⟩ = .replied m.msgid status := if_pos rfl
  have htook := h.call (by rw [hgot]; exact .took m)
  have hstep : Port.Step (⟨w, [] ++ (m, []) :: [], ds⟩ : Port Iorequest Char) (.replied m.msgid status)
      ⟨w, [] ++ [], ds ++ [(m, status, [])]⟩ := .replied status
  have hreplied := htook.call (by rw [hsent]; exact hstep)
  rwa [List.append_assoc] at hreplied

theorem twoServed_run (st : Sysinit.Stat) :
    Port.Run (serverView 3) ⟨0, [], []⟩ (mountedLabels st twoMsgs twoServed) ⟨0, [], twoAnswered⟩ := by
  have hwait := (mountedLabels_waiting st twoMsgs).others (t := [⟨.inr .sigaction, ((0 : Int), false)⟩,
    ⟨.inr (.keventAdd 4 3), ((0 : Int), false)⟩, ⟨.inr (.kevent 4), ((⟨1, 3, true⟩ : Sysinit.Kevent), false)⟩])
    (by simp [serverView, portView])
  have hfirst := run_replied ⟨1, ⟨.sendio, 4, 0⟩, ['h', 'e', 'l', 'p'], 0⟩ (-ENOSYS)
    ([⟨2, ⟨.other 5, 0, 0⟩, [], 0⟩] : List (Msg Iorequest Char)) [] hwait false (0, false)
  have hsecond := run_replied ⟨2, ⟨.other 5, 0, 0⟩, [], 0⟩ (-ENOTSUP) 0 _ hfirst false (0, false)
  exact hsecond.call (e := ⟨.inr (.getmsg 3), (Sysinfo.Getmsg.none 0, true)⟩) .empty

/-- Both messages are answered, and automount exits. -/
theorem skeleton_service_two : ∃ st,
    (automountMain target32 3 atS).Runs (portCalls (mountedLabels st twoMsgs twoServed)) (.exited 0) ∧
    IsService skeletonPlan atS 3 (mountedLabels st twoMsgs twoServed) ⟨0, [], twoAnswered⟩ (.ret (.exited 0)) := by
  obtain ⟨st, g, hinit, hport, hkq⟩ := init_runs mountPath_atS (by decide) (show _ ≤ target32.PATH_MAX by decide)
    (show (0 : Int) ≤ 3 by decide) (show (0 : Int) ≤ 4 by decide)
  have hloop : (loop skeletonVars notImplemented 3 (Skeleton.initial g.portid g.kq)).Runs twoServed
      (.exited 0, ⟨3, 4, true⟩) := by
    rw [hport, hkq]
    exact .cons (.cons (.cons (.cons (.cons (.cons (.cons (.cons (.nil _))))))))
  have hrun : (automountMain target32 3 atS).Runs (portCalls (mountedLabels st twoMsgs twoServed)) (.exited 0) := by
    rw [mountedLabels_calls]
    exact serverMain_runs hinit hloop
  exact ⟨st, hrun, skeleton_service List.mem_cons_self target32 3 (by decide) (twoServed_run st) hrun
    (mountedLabels_port st _ _)⟩

/-! ## sysinfo -/

section Sysinfo

variable {ARG_MAX fuel : Nat} {tgt : Target} {argv : List Str} {portid : Int}
  {l : List (PortLabel Iorequest Char (Event serverSys))} {k : Port Iorequest Char}
  {r : Prog serverSys (Out Unit)}

end Sysinfo

end Cheviot.Proof
