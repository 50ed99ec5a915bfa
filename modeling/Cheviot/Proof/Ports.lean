import Cheviot.Proof.Loading
import Cheviot.Proof.Main
import Cheviot.Proof.Script

/-!
# The port and the queue of the message loop

Over any run of the state machine, `portid` and `kq` are what the last
`createmsgport` and the last `kqueue` returned (`Follows`), since the result of
`createport` decides nothing. `messageLoop_ports`: exactly when they are valid
where the message loop is entered.
-/

namespace Cheviot.Proof

open Framework Cheviot.Sysinit Cheviot.Spec

variable {how : List UInt8 → Int} {fuel : Nat} {g g' g₀ : Globals} {s : InitState}
  {t : List (Event sys)}

/-- The port and the queue are what the last calls that make them returned. -/
structure Follows (g : Globals) (t : List (Event sys)) (g' : Globals) : Prop where
  portid_eq : g'.portid = (portResults t).getLast?.getD g.portid
  kq_eq : g'.kq = (queueResults t).getLast?.getD g.kq

theorem getD_getLast?_append {α : Type} (l l' : List α) (a : α) :
    (l ++ l').getLast?.getD a = l'.getLast?.getD (l.getLast?.getD a) := by
  rw [List.getLast?_append]
  cases l'.getLast? <;> rfl

theorem portResults_append (t t' : List (Event sys)) :
    portResults (t ++ t') = portResults t ++ portResults t' := List.filterMap_append

theorem queueResults_append (t t' : List (Event sys)) :
    queueResults (t ++ t') = queueResults t ++ queueResults t' := List.filterMap_append

theorem follows_chains : Proc.Chains Follows where
  nil _ := ⟨rfl, rfl⟩
  append h h' := by
    constructor
    · rw [h'.portid_eq, h.portid_eq, portResults_append, getD_getLast?_append]
    · rw [h'.kq_eq, h.kq_eq, queueResults_append, getD_getLast?_append]

/-- Calls that make no port and no queue. -/
theorem results_nil {P : Call → Bool} (hP : ∀ c, isPort c → P c = false) (h : ∀ e ∈ t, P e.call) :
    portResults t = [] ∧ queueResults t = [] := by
  constructor <;>
  · refine List.filterMap_eq_nil_iff.mpr fun e he => ?_
    have hport := hP e.call
    rw [h e he] at hport
    obtain ⟨c, r⟩ := e
    cases c <;> first | rfl | exact absurd (hport rfl) (by decide)

theorem isLoad_port : ∀ c, isPort c → isLoad c = false := by
  intro c hc
  cases c <;> first | rfl | cases hc

theorem isSession_port : ∀ c, isPort c → isSession c = false := by
  intro c hc
  cases c <;> first | rfl | cases hc

/-- Code that makes no port and no queue, and leaves both alone. -/
theorem Follows.of_frame {α γ : Type} {p : Sys α} {P : Call → Bool} {proj : Globals → γ}
    (hp : Proc.Frame (P ·) proj p) (hP : ∀ c, isPort c → P c = false)
    (hproj : ∀ g g', proj g' = proj g → g'.portid = g.portid ∧ g'.kq = g.kq) :
    Proc.Leads Follows p := hp.leads fun g t g' hc hk => by
  obtain ⟨h₁, h₂⟩ := results_nil hP hc
  obtain ⟨h₃, h₄⟩ := hproj g g' hk
  exact ⟨by rw [h₁, h₃]; rfl, by rw [h₂, h₄]; rfl⟩

/-! ## The script that makes them -/

theorem sCmdCreateport_follows : Proc.Leads Follows sCmdCreateport := by
  intro g t o g' h
  simp only [sCmdCreateport, Proc.bind_apply, syscall_apply, Prog.call_bind, Prog.ret_bind,
    Proc.next_ok, Proc.modify_apply, Prog.runs_call] at h
  obtain ⟨⟨portid, e⟩, t, rfl, h⟩ := h
  by_cases hport : portid < 0
  · rw [if_pos hport] at h
    obtain ⟨rfl, -, rfl⟩ := Proc.runs_pure.mp h
    exact ⟨rfl, rfl⟩
  · rw [if_neg hport] at h
    simp only [Proc.bind_apply, syscall_apply, Prog.call_bind, Prog.ret_bind, Proc.next_ok,
      Proc.modify_apply, Prog.runs_call] at h
    obtain ⟨⟨kq, e'⟩, t, rfl, h⟩ := h
    rw [Proc.ite_apply] at h
    split at h
    all_goals
      obtain ⟨rfl, -, rfl⟩ := Proc.runs_pure.mp h
      exact ⟨rfl, rfl⟩

theorem plain_follows {α : Type} {p : Sys α} (hp : Proc.Frame (isPlain ·) besidesLine p) :
    Proc.Leads Follows p := by
  refine .of_frame hp (fun c hc => ?_) fun g g' h => ?_
  · cases c <;> first | rfl | cases hc
  · exact Prod.mk.inj (congrArg (·.1) h)

theorem dispatch_follows (cmd : Str) : Proc.Leads Follows (dispatch fuel cmd) := by
  have plain : ∀ {p : Sys Int}, Proc.Frame (isPlain ·) besidesLine p →
      Proc.Leads Follows (do let _ ← p) := fun hp => plain_follows (.bind hp fun _ => .pure _)
  exact .ite (plain (sCmdStart_frame _)) (.ite (plain sCmdWaitfor_frame) (.ite (plain sCmdMknod_frame)
    (.ite (plain sCmdSleep_frame) (.ite (plain sCmdChdir_frame)
      (.ite (plain (twoOperands_frame fun _ _ => plain_frame rfl))
        (.ite (plain (twoOperands_frame fun _ _ => plain_frame rfl))
          (.ite (.bind follows_chains sCmdCreateport_follows fun _ => .pure follows_chains _)
            (.pure follows_chains _))))))))

theorem processLine_follows : Proc.Leads Follows (processLine fuel) := by
  have done : ∀ r, Proc.Leads Follows (pure r : Sys (Proc.Round Unit Unit)) := .pure follows_chains
  refine .bind follows_chains (plain_follows sReadline_frame) fun line => ?_
  cases line with
  | none => exact done _
  | some line =>
    refine .bind follows_chains (plain_follows (sTokenize_frame _)) fun cmd =>
      .bind follows_chains (.get follows_chains) fun g => ?_
    cases cmd with
    | none => exact done _
    | some cmd =>
      exact .ite (done _) (.ite (done _) (.bind follows_chains (dispatch_follows _) fun _ => done _))

theorem processBootstrapScript_follows (buf : Option (List Char)) :
    Proc.Leads Follows (processBootstrapScript fuel buf) := by
  cases buf with
  | none => exact .pure follows_chains _
  | some buf =>
    exact .bind follows_chains (plain_follows (.modify fun _ => rfl)) fun _ =>
      .bind follows_chains (.iter follows_chains (fun _ => processLine_follows) _ _) fun _ =>
      .pure follows_chains _

/-! ## The state machine -/

theorem loadBootstrapFile_follows (path : Str) (slot : Slot) :
    Proc.Leads Follows (loadBootstrapFile path slot) := by
  refine .of_frame (loadBootstrapFile_frame path slot) isLoad_port fun g g' h => ?_
  exact ⟨congrArg (·.1) h, congrArg (·.2.1) h⟩

theorem mainSwitch_follows (s : InitState) : Proc.Leads Follows (mainSwitch how fuel s) := by
  refine mainSwitch_leads follows_chains loadBootstrapFile_follows processBootstrapScript_follows
    (.of_frame stateStartSessions_frame isSession_port fun g g' h => ?_)
    (.of_frame (stateMessageLoop_frame how) (fun c hc => ?_) fun g g' h => ?_)
    (.of_frame stateReaper_frame (fun c hc => ?_) fun g g' h => ?_)
    (stateShutdown_leads fun _ _ => ⟨rfl, rfl⟩) s
  · exact ⟨congrArg (·.1) h, congrArg (·.2.1) h⟩
  · cases c <;> first | rfl | cases hc
  · exact ⟨congrArg (·.1) h, congrArg (·.2.1) h⟩
  · cases c <;> first | rfl | cases hc
  · exact ⟨congrArg (·.1) h, congrArg (·.2.1) h⟩

theorem visits_follows (h : Visits (mainSwitch how fuel) .runSStartup g₀ t s g) : Follows g₀ t g :=
  visits_leads follows_chains mainSwitch_follows h

/-! ## Runs that come to the message loop -/

/-- Whatever a script makes of the port and the queue, it can be s.startup. -/
theorem stateRunSStartup_runs (fuel : Nat) {text : Str} (hnul : NUL ∉ text) (hfit : LinesFit text)
    {p : Ports} (hrun : (interpret fuel (Proc.exit (-1)) text ⟨g.portid, g.kq⟩).Runs t (.ok (), p)) :
    ∃ t' g', (stateRunSStartup fuel g).Runs t' (.ok .runRcStartup, g') ∧
      script g' .startup = some (text ++ [NUL]) ∧ g'.sessionList = g.sessionList ∧
      portResults t' = portResults t ∧ queueResults t' = queueResults t := by
  obtain ⟨t₁, g₁, h₁, hscript₁⟩ := loadBootstrapFile_loads PATH_S_STARTUP .startup text g
  obtain ⟨t₂, g₂, h₂, -⟩ := loadBootstrapFile_loads PATH_S_SHUTDOWN .shutdown [] g₁
  have hkeeps : besidesScripts g₂ = besidesScripts g :=
    ((loadBootstrapFile_frame _ _).keeps h₂).trans ((loadBootstrapFile_frame _ _).keeps h₁)
  have hscript₂ : g₂.sStartupScript = some (text ++ [NUL]) :=
    ((loadBootstrapFile_ok _ _ _ _ _ _ h₂).2 .startup (by decide)).trans hscript₁
  obtain ⟨g₃, h₃, -⟩ := processBootstrapScript_runs fuel [] hnul hfit
    (⟨congrArg (·.1) hkeeps, congrArg (·.2.1) hkeeps⟩ : SamePorts g₂ ⟨g.portid, g.kq⟩) hrun
  have hkeeps₃ := (processBootstrapScript_frame _).keeps h₃
  refine ⟨t₁ ++ (t₂ ++ t), g₃, ?_, (congrArg (·.2.1) hkeeps₃).trans hscript₂,
    (congrArg (·.2.2.2.1) hkeeps₃).trans (congrArg (·.2.2.2.1) hkeeps), ?_⟩
  · refine Proc.runs_bind_ok.mpr ⟨t₁, _, 0, g₁, rfl, h₁, ?_⟩
    rw [if_neg (by decide)]
    refine Proc.runs_bind_ok.mpr ⟨t₂, _, 0, g₂, rfl, h₂, ?_⟩
    rw [if_neg (by decide), Proc.runs_get_bind, hscript₂]
    exact Proc.runs_bind_ok.mpr ⟨t, [], 0, g₃, by simp, h₃, .nil _⟩
  · obtain ⟨p₁, q₁⟩ := results_nil isLoad_port ((loadBootstrapFile_frame _ _).calls h₁)
    obtain ⟨p₂, q₂⟩ := results_nil isLoad_port ((loadBootstrapFile_frame _ _).calls h₂)
    simp [portResults_append, queueResults_append, p₁, p₂, q₁, q₂]

/-- A tty with a getty. -/
def tty1 : Ttyent := ⟨true, some "tty1".toList, some "getty".toList⟩

/-- The session of `tty1`, before its getty is started. -/
def session₀ : Session :=
  ⟨0, 0, none, SE_PRESENT, "/dev/tty1".toList, some "getty tty1".toList,
    ["getty".toList, "tty1".toList]⟩

theorem allocSession_tty1 (hg : g.sessionList = .empty) :
    ∃ t g', (allocSession 0 tty1 g).Runs t (.ok (some session₀), g') ∧
      g'.sessionList = .addTail .empty session₀ := by
  cases g
  simp only at hg
  subst hg
  exact ⟨[⟨.malloc (.session 0) .session, (some (.replicate _ NUL), 0)⟩,
    ⟨.asprintf (.device 0) "/dev/tty1".toList, (true, 0)⟩,
    ⟨.asprintf (.getty 0) "getty tty1".toList, (true, 0)⟩,
    ⟨.malloc (.argv 0) (.pointers 6), (some (.replicate _ NUL), 0)⟩], _,
    .cons (.cons (.cons (.cons (.nil _)))), rfl⟩

theorem readTtys_tty1 (fuel : Nat) (hg : g.sessionList = .empty) :
    ∃ t g', (readTtys (fuel + 2) g).Runs t (.ok (), g') ∧
      g'.sessionList = .addTail .empty session₀ := by
  obtain ⟨t, g', h, hg'⟩ := allocSession_tty1 (g := { g with errno := 0 }) hg
  refine ⟨[⟨.getttyent, (some tty1, 0)⟩] ++ (t ++ [⟨.getttyent, (none, 0)⟩]),
    { g' with errno := 0 }, ?_, hg'⟩
  refine Proc.runs_bind_ok.mpr ⟨_, _, .again 1, g', (List.append_assoc ..).symm, ?_, .cons (.nil _)⟩
  exact runs_syscall_bind (Proc.runs_bind_ok.mpr ⟨t, [], some session₀, g', by simp, h, .nil _⟩)

theorem startSession_tty1 (fuel : Nat) (hg : g.sessionList = .addTail .empty session₀) :
    ∃ t g', (Proc.iter (startSession 0) (fuel + 2) 0 g).Runs t (.ok .messageLoop, g') := by
  cases g
  simp only at hg
  subst hg
  exact ⟨[⟨.fork (.getty 0 session₀.seDevice session₀.seGettyArgv), (some 5, 0)⟩], _,
    .cons (.nil _)⟩

/-- With a tty whose getty can be started, the sessions come to the message loop. -/
theorem stateStartSessions_starts (fuel : Nat) (hg : g.sessionList = .empty) :
    ∃ t g', (stateStartSessions (fuel + 2) g).Runs t (.ok .messageLoop, g') := by
  obtain ⟨t₁, g₁, h₁, hg₁⟩ := readTtys_tty1 fuel (g := { g with errno := 0 }) hg
  obtain ⟨t₂, g₂, h₂⟩ := startSession_tty1 fuel (g := { g₁ with errno := 0 }) hg₁
  refine ⟨⟨.endttyent, ((), 0)⟩ :: ⟨.setttyent, ((), 0)⟩ :: (t₁ ++ ⟨.endttyent, ((), 0)⟩ :: t₂), g₂,
    runs_syscall_bind (runs_syscall_bind
      (Proc.runs_bind_ok.mpr ⟨t₁, _, (), g₁, rfl, h₁, runs_syscall_bind ?_⟩))⟩
  rw [Proc.runs_get_bind, if_neg]
  · exact h₂
  · rw [hg₁]; decide

/-- Whatever a script makes of the port and the queue, there is a run in which
it is s.startup and the message loop is entered. -/
theorem visits_messageLoop (how : List UInt8 → Int) (fuel : Nat) (req : List UInt8) (err : Int)
    {text : Str} (hnul : NUL ∉ text) (hfit : LinesFit text) {p : Ports}
    (hrun : (interpret (fuel + 2) (Proc.exit (-1)) text ⟨0, 0⟩).Runs t (.ok (), p)) :
    ∃ t' g, Visits (mainSwitch how (fuel + 2)) .runSStartup (Globals.initial req err) t'
        .messageLoop g ∧ script g .startup = some (text ++ [NUL]) ∧
      portResults t' = portResults t ∧ queueResults t' = queueResults t := by
  obtain ⟨t₁, g₁, h₁, hscript₁, hlist, hport, hqueue⟩ :=
    stateRunSStartup_runs (g := Globals.initial req err) (fuel + 2) hnul hfit hrun
  obtain ⟨t₂, g₂, h₂⟩ := stateStartSessions_starts fuel hlist
  have hscript₂ : g₂.sStartupScript = g₁.sStartupScript :=
    congrArg (·.2.2.2.2.1) (stateStartSessions_frame.keeps h₂)
  obtain ⟨p₂, q₂⟩ := results_nil isSession_port (stateStartSessions_frame.calls h₂)
  refine ⟨t₁ ++ [] ++ t₂, g₂, ?_, hscript₂.trans hscript₁, ?_, ?_⟩
  · exact .snoc (.snoc (.one (runs_mainRound.mpr h₁)) (runs_mainRound.mpr (.nil _)))
      (runs_mainRound.mpr h₂)
  · rw [portResults_append, portResults_append, hport, p₂]
    simp [portResults]
  · rw [queueResults_append, queueResults_append, hqueue, q₂]
    simp [queueResults]

/-- Where the message loop is entered, its port and queue are valid exactly if
`createport` has been run and, the last time, both of its calls succeeded. -/
theorem messageLoop_ports (how : List UInt8 → Int) (fuel : Nat) (req : List UInt8) (err : Int)
    (hv : Visits (mainSwitch how fuel) .runSStartup (Globals.initial req err) t .messageLoop g) :
    ((0 ≤ g.portid ∧ g.portid ∈ portResults t) ∧ 0 ≤ g.kq ∧ g.kq ∈ queueResults t) ↔
      (∃ r ∈ (portResults t).getLast?, 0 ≤ r) ∧ ∃ r ∈ (queueResults t).getLast?, 0 ≤ r := by
  have last : ∀ (l : List Int) (v : Int), v = l.getLast?.getD 0 →
      (0 ≤ v ∧ v ∈ l ↔ ∃ r ∈ l.getLast?, 0 ≤ r) := by
    rintro l v rfl
    cases h : l.getLast? with
    | none => simp [List.getLast?_eq_none_iff.mp h]
    | some r => simpa using fun _ => List.mem_of_getLast? h
  have hf := visits_follows hv
  exact and_congr (last _ _ hf.portid_eq) (last _ _ hf.kq_eq)

/-- The script "createport", where both calls succeed. -/
theorem messageLoop_ports_created : ∃ t g,
    Visits (mainSwitch (fun _ => 0) 2) .runSStartup (Globals.initial [] 0) t .messageLoop g ∧
      (0 ≤ g.portid ∧ g.portid ∈ portResults t) ∧ 0 ≤ g.kq ∧ g.kq ∈ queueResults t := by
  have hrun : (interpret 2 (Proc.exit (-1)) "createport".toList ⟨0, 0⟩).Runs
      [⟨.createmsgport 0 _, (5, 0)⟩, ⟨.kqueue, (6, 0)⟩] (.ok (), ⟨5, 6⟩) := .cons (.cons (.nil _))
  obtain ⟨t, g, hv, -, hport, hqueue⟩ := visits_messageLoop (fun _ => 0) 0 [] 0 (by decide)
    (by decide) hrun
  refine ⟨t, g, hv, (messageLoop_ports (fun _ => 0) 2 [] 0 hv).mpr ?_⟩
  rw [hport, hqueue]
  exact ⟨⟨5, rfl, by decide⟩, 6, rfl, by decide⟩

/-- The script "createport", where no port can be created: the message loop is
entered with the -1 that `createmsgport` returned. -/
theorem createport_fails : ∃ t g,
    Visits (mainSwitch (fun _ => 0) 2) .runSStartup (Globals.initial [] 0) t .messageLoop g ∧
      script g .startup = some ("createport".toList ++ [NUL]) ∧ portResults t = [-1] ∧
      g.portid = -1 ∧ queueResults t = [] := by
  have hrun : (interpret 2 (Proc.exit (-1)) "createport".toList ⟨0, 0⟩).Runs
      [⟨.createmsgport 0 _, (-1, 12)⟩] (.ok (), ⟨-1, 0⟩) := .cons (.nil _)
  obtain ⟨t, g, hv, hscript, hport, hqueue⟩ := visits_messageLoop (fun _ => 0) 0 [] 0 (by decide)
    (by decide) hrun
  refine ⟨t, g, hv, hscript, hport, ?_, hqueue⟩
  rw [(visits_follows hv).portid_eq, hport]
  rfl

end Cheviot.Proof
