import Cheviot.Impl.Sysinit.Init
import Cheviot.Proof.Frames

/-!
# The runs of `main`

What each state leaves for the next (`AtState`, `visits_atState`), by one lemma
for each function of the states. `mainLoop_reaps`: the system is shut down only
after s.shutdown has run and the reaper has returned, or where nothing has been
started at all.
-/

namespace Cheviot.Proof

open Framework Cheviot.Sysinit Cheviot.Spec

variable {how : List UInt8 → Int} {fuel : Nat} {g g' g₀ : Globals} {s s' : InitState}
  {t : List (Event sys)}

/-! ## The functions of the states -/

/-- A load that succeeds leaves its script, and no load changes the other one. -/
theorem loadBootstrapFile_ok (path : Str) (slot : Slot) (g : Globals) :
    Proc.Returns (loadBootstrapFile path slot) g fun sc g' => (sc = 0 → (script g' slot).isSome) ∧
      ∀ slot', slot' ≠ slot → script g' slot' = script g slot' := by
  have fails : ∀ g' : Globals, (∀ slot', script g' slot' = script g slot') →
      Proc.Returns (pure (-1) : Sys Int) g' fun sc g' => (sc = 0 → (script g' slot).isSome) ∧
        ∀ slot', slot' ≠ slot → script g' slot' = script g slot' :=
    fun g' h => Proc.returns_pure.mpr ⟨fun h => absurd h (by decide), fun slot' _ => h slot'⟩
  have same : ∀ (g : Globals) (e : Int) slot', script { g with errno := e } slot' = script g slot' :=
    fun g e slot' => by cases slot' <;> rfl
  refine returns_syscall fun fd e₁ => Proc.returns_ite (fun _ => fails _ (same g e₁)) fun _ => ?_
  refine returns_syscall fun st e₂ => Proc.returns_ite (fun _ => returns_syscall fun _ e₃ =>
    fails _ (same g e₃)) fun _ => returns_syscall fun block e₃ => ?_
  cases block with
  | none => exact returns_syscall fun _ e₄ => fails _ (same g e₄)
  | some block =>
    refine returns_syscall fun data e₄ => returns_syscall fun _ e₅ => ?_
    refine Proc.returns_bind.mpr (Proc.returns_modify.mpr (Proc.returns_pure.mpr ⟨fun _ => ?_, ?_⟩))
    · cases slot <;> rfl
    · intro slot' h
      cases slot <;> cases slot' <;> first | exact absurd rfl h | rfl

theorem processBootstrapScript_zero (buf : List Char) (g : Globals) :
    Proc.Returns (processBootstrapScript fuel (some buf)) g fun sc _ => sc = 0 := by
  refine Proc.returns_bind.mpr (Proc.returns_modify.mpr (Proc.returns_bind.mpr fun _ _ g' _ => ?_))
  exact Proc.returns_pure.mpr rfl

/-- `state_run_s_startup` fails only where a script could not be loaded, and has
then run no command. -/
theorem stateRunSStartup_ok (h : (stateRunSStartup fuel g).Runs t (.ok s, g')) :
    (s = .failure ∧ LoadsFail g t) ∨
      (s = .runRcStartup ∧ (script g' .startup).isSome ∧ (script g' .shutdown).isSome) := by
  obtain ⟨t₁, t₂, sc₁, g₁, rfl, h₁, h⟩ := Proc.runs_bind_ok.mp h
  have hload₁ := loadBootstrapFile_ok _ _ _ _ _ _ h₁
  by_cases hsc₁ : sc₁ = 0
  · rw [if_neg (not_not.mpr hsc₁)] at h
    obtain ⟨t₂, t₃, sc₂, g₂, rfl, h₂, h⟩ := Proc.runs_bind_ok.mp h
    have hload₂ := loadBootstrapFile_ok _ _ _ _ _ _ h₂
    subst hsc₁
    by_cases hsc₂ : sc₂ = 0
    · rw [if_neg (not_not.mpr hsc₂)] at h
      subst hsc₂
      rw [Proc.runs_get_bind] at h
      obtain ⟨buf, hbuf⟩ := Option.isSome_iff_exists.mp (hload₁.1 rfl)
      have hbuf₂ : g₂.sStartupScript = some buf := (hload₂.2 .startup (by decide)).trans hbuf
      rw [hbuf₂] at h
      obtain ⟨t₃, t₄, sc₃, g₃, rfl, h₃, h⟩ := Proc.runs_bind_ok.mp h
      obtain rfl : sc₃ = 0 := processBootstrapScript_zero buf g₂ _ _ _ h₃
      rw [if_neg (by decide)] at h
      obtain ⟨rfl, rfl, rfl⟩ := Proc.runs_pure_ok.mp h
      have hkeeps := (processBootstrapScript_frame (some buf)).keeps h₃
      have hstartup : g'.sStartupScript = g₂.sStartupScript := congrArg (·.2.1) hkeeps
      have hshutdown : g'.sShutdownScript = g₂.sShutdownScript := congrArg (·.2.2.1) hkeeps
      refine .inr ⟨rfl, ?_, ?_⟩
      · rw [script, hstartup, hbuf₂]; rfl
      · rw [script, hshutdown]; exact hload₂.1 rfl
    · rw [if_pos hsc₂] at h
      obtain ⟨rfl, rfl, rfl⟩ := Proc.runs_pure_ok.mp h
      exact .inl ⟨rfl, .inr ⟨t₁, t₂, g₁, sc₂, g', by simp, hsc₂, h₁, h₂⟩⟩
  · rw [if_pos hsc₁] at h
    obtain ⟨rfl, rfl, rfl⟩ := Proc.runs_pure_ok.mp h
    exact .inl ⟨rfl, .inl ⟨sc₁, g', hsc₁, by simpa using h₁⟩⟩

theorem stateStartSessions_ok (g : Globals) : Proc.Returns (stateStartSessions fuel) g fun s _ =>
    s = .runRcShutdown ∨ s = .messageLoop := by
  refine returns_syscall fun _ _ => returns_syscall fun _ _ => ?_
  refine Proc.returns_bind.mpr fun _ _ g₁ _ => returns_syscall fun _ e => ?_
  refine Proc.returns_bind.mpr (Proc.returns_get.mpr (Proc.returns_ite
    (fun _ => Proc.returns_pure.mpr (.inl rfl)) fun _ => ?_))
  refine Proc.returns_iter (J := fun _ _ => True) (fun i g _ => ?_) fuel trivial
  refine Proc.returns_bind.mpr (Proc.returns_get.mpr ?_)
  cases g.sessionList.entries[i]? with
  | none => exact Proc.returns_pure.mpr (.inr rfl)
  | some sp =>
    refine Proc.returns_ite (fun _ => Proc.returns_pure.mpr trivial) fun _ => returns_syscall fun pid e => ?_
    cases pid with
    | none => exact Proc.returns_pure.mpr (.inl rfl)
    | some pid =>
      exact Proc.returns_bind.mpr (Proc.returns_modify.mpr (Proc.returns_pure.mpr trivial))

theorem stateMessageLoop_ok (g : Globals) :
    Proc.Returns (stateMessageLoop how fuel) g fun s _ => s = .stopSessions :=
  Proc.returns_bind.mpr (Proc.returns_get.mpr (returns_syscall fun _ _ =>
    Proc.returns_bind.mpr fun _ _ _ _ => Proc.returns_pure.mpr rfl))

theorem stateReaper_ok (g : Globals) :
    Proc.Returns (stateReaper fuel) g fun s _ => s = .shutdown :=
  Proc.returns_bind.mpr (Proc.returns_modify.mpr (returns_syscall fun _ _ =>
    Proc.returns_bind.mpr (Proc.returns_get.mpr (Proc.returns_ite
      (fun _ => Proc.returns_pure.mpr rfl)
      fun _ => Proc.returns_bind.mpr fun _ _ _ _ => Proc.returns_pure.mpr rfl))))

/-- `state_run_s_shutdown` with a script that has been loaded. -/
theorem stateRunSShutdown_ok {buf : List Char} (hbuf : script g .shutdown = some buf)
    (h : (stateRunSShutdown fuel g).Runs t (.ok s, g')) :
    s = .reaper ∧ (processBootstrapScript fuel (some buf) g).Runs t (.ok 0, g') := by
  rw [stateRunSShutdown, Proc.runs_get_bind, show g.sShutdownScript = some buf from hbuf] at h
  obtain ⟨t₁, t₂, sc, g₁, rfl, h₁, h⟩ := Proc.runs_bind_ok.mp h
  obtain rfl : sc = 0 := processBootstrapScript_zero buf g _ _ _ h₁
  rw [if_neg (by decide)] at h
  obtain ⟨rfl, rfl, rfl⟩ := Proc.runs_pure_ok.mp h
  exact ⟨rfl, by simpa using h₁⟩

theorem stateRunSShutdown_next (g : Globals) :
    Proc.Returns (stateRunSShutdown fuel) g fun s _ => s = .failure ∨ s = .reaper :=
  Proc.returns_bind.mpr (Proc.returns_get.mpr (Proc.returns_bind.mpr fun _ _ _ _ =>
    Proc.returns_ite (fun _ => Proc.returns_pure.mpr (.inl rfl))
      fun _ => Proc.returns_pure.mpr (.inr rfl)))

/-- `state_shutdown` calls `shutdown_os`, and then spins. -/
theorem stateShutdown_apply (g : Globals) :
    stateShutdown fuel g = .call (.shutdownOs g.shutdownHow) fun r =>
      .ret (.timeout, { g with errno := r.2 }) := by
  simp only [stateShutdown, Proc.bind_apply, Proc.get_apply, Prog.ret_bind, Proc.next_ok,
    syscall_apply, Prog.call_bind]
  exact congrArg _ (funext fun r => Proc.iter_spin fuel () _)

theorem stateShutdown_never (g : Globals) :
    Proc.Returns (stateShutdown fuel) g fun _ _ => False := by
  intro t a g' hr
  rw [stateShutdown_apply, Prog.runs_call] at hr
  obtain ⟨r, t', rfl, hr⟩ := hr
  obtain ⟨-, h⟩ := Prog.runs_ret.mp hr
  cases h

/-! ## From state to state -/

/-- What holds where `main` is about to enter a state, after the calls `t`. -/
def AtState (switch : InitState → Sys InitState) (fuel : Nat) (g₀ : Globals) :
    InitState → Globals → List (Event sys) → Prop
  | .runSStartup, g, t => g = g₀ ∧ t = []
  | .failure, _, t => LoadsFail g₀ t
  | .shutdown, _, t => Reaped switch fuel g₀ t ∨ LoadsFail g₀ t
  | .reaper, g, t => ∃ t₁ t₂ g₁ buf, t = t₁ ++ t₂ ∧
      Visits switch .runSStartup g₀ t₁ .runSShutdown g₁ ∧ script g₁ .shutdown = some buf ∧
      (processBootstrapScript fuel (some buf) g₁).Runs t₂ (.ok 0, g)
  | _, g, _ => (script g .shutdown).isSome

theorem runs_mainRound {switch : InitState → Sys InitState} :
    (mainRound switch s g).Runs t (.ok (.again s'), g') ↔ (switch s g).Runs t (.ok s', g') := by
  rw [mainRound, Proc.runs_bind_ok]
  constructor
  · rintro ⟨t₁, t₂, s₁, g₁, rfl, h₁, h₂⟩
    obtain ⟨rfl, e, rfl⟩ := Proc.runs_pure_ok.mp h₂
    cases e
    simpa using h₁
  · exact fun h => ⟨t, [], s', g', by simp, h, .nil _⟩

/-- A state of `main` leaves what the next one needs. -/
theorem atState_step {t₂ : List (Event sys)} {g₁ g₂ : Globals} {s₁ s₂ : InitState}
    (hv : Visits (mainSwitch how fuel) .runSStartup g₀ t s₁ g₁)
    (h : AtState (mainSwitch how fuel) fuel g₀ s₁ g₁ t)
    (hr : (mainSwitch how fuel s₁ g₁).Runs t₂ (.ok s₂, g₂)) :
    AtState (mainSwitch how fuel) fuel g₀ s₂ g₂ (t ++ t₂) := by
  cases s₁ with
  | runSStartup =>
    obtain ⟨rfl, rfl⟩ := h
    rcases stateRunSStartup_ok hr with ⟨rfl, hfail⟩ | ⟨rfl, -, hscript⟩
    · exact hfail
    · exact hscript
  | runRcStartup | stopSessions | runRcShutdown =>
    obtain ⟨rfl, rfl, rfl⟩ := Proc.runs_pure_ok.mp hr
    exact h
  | startSessions =>
    have hkeeps : g₂.sShutdownScript = g₁.sShutdownScript :=
      congrArg (·.2.2.2.2.2) (stateStartSessions_frame.keeps hr)
    have hscript : (script g₂ .shutdown).isSome := by
      rw [script, hkeeps]; exact h
    rcases stateStartSessions_ok _ _ _ _ hr with rfl | rfl <;> exact hscript
  | messageLoop =>
    have hkeeps : g₂.sShutdownScript = g₁.sShutdownScript :=
      congrArg (·.2.2.2.1) ((stateMessageLoop_frame how).keeps hr)
    obtain rfl := stateMessageLoop_ok _ _ _ _ hr
    show (g₂.sShutdownScript).isSome
    rw [hkeeps]
    exact h
  | runSShutdown =>
    obtain ⟨buf, hbuf⟩ := Option.isSome_iff_exists.mp h
    obtain ⟨rfl, hscript⟩ := stateRunSShutdown_ok hbuf hr
    exact ⟨t, t₂, g₁, buf, rfl, hv, hbuf, hscript⟩
  | reaper =>
    obtain ⟨u₁, u₂, g₃, buf, rfl, hv', hbuf, hscript⟩ := h
    obtain rfl := stateReaper_ok _ _ _ _ hr
    exact .inl ⟨u₁, u₂, t₂, g₃, g₁, g₂, buf, rfl, hv', hbuf, hscript, hr⟩
  | shutdown =>
    obtain ⟨_, _, _, _, _, hs, _⟩ := Proc.runs_bind_ok.mp hr
    exact (stateShutdown_never _ _ _ _ hs).elim
  | failure =>
    obtain ⟨rfl, rfl, rfl⟩ := Proc.runs_pure_ok.mp hr
    exact .inr (by rw [List.append_nil]; exact h)

/-- What holds at every state that a run of `main` comes to. -/
theorem visits_atState (h : Visits (mainSwitch how fuel) .runSStartup g₀ t s g) :
    AtState (mainSwitch how fuel) fuel g₀ s g t := by
  induction h with
  | nil => exact ⟨rfl, rfl⟩
  | snoc hv hr ih => exact atState_step hv ih (runs_mainRound.mp hr)

/-! ## What every state does -/

/-- What the functions of the states do, each state does. -/
theorem mainSwitch_leads {R : Globals → List (Event sys) → Globals → Prop} (hR : Proc.Chains R)
    (hload : ∀ path slot, Proc.Leads R (loadBootstrapFile path slot))
    (hscript : ∀ buf, Proc.Leads R (processBootstrapScript fuel buf))
    (hstart : Proc.Leads R (stateStartSessions fuel))
    (hmessages : Proc.Leads R (stateMessageLoop how fuel))
    (hreaper : Proc.Leads R (stateReaper fuel)) (hoff : Proc.Leads R (stateShutdown fuel))
    (s : InitState) : Proc.Leads R (mainSwitch how fuel s) := by
  have pure : ∀ s, Proc.Leads R (pure s : Sys InitState) := .pure hR
  cases s with
  | runSStartup =>
    exact .bind hR (hload _ _) fun _ => .ite (pure _) (.bind hR (hload _ _) fun _ => .ite (pure _)
      (.bind hR (.get hR) fun _ => .bind hR (hscript _) fun _ => .ite (pure _) (pure _)))
  | startSessions => exact hstart
  | messageLoop => exact hmessages
  | runSShutdown =>
    exact .bind hR (.get hR) fun _ => .bind hR (hscript _) fun _ => .ite (pure _) (pure _)
  | reaper => exact hreaper
  | shutdown => exact .bind hR hoff fun _ => pure _
  | runRcStartup | stopSessions | runRcShutdown | failure => exact pure _

/-- What each state does, a run of states does. -/
theorem visits_leads {R : Globals → List (Event sys) → Globals → Prop} (hR : Proc.Chains R)
    {switch : InitState → Sys InitState} (hswitch : ∀ s, Proc.Leads R (switch s)) {s₀ : InitState}
    (hv : Visits switch s₀ g₀ t s g) : R g₀ t g := by
  induction hv with
  | nil => exact hR.nil _
  | snoc _ hr ih => exact hR.append ih (hswitch _ _ _ _ _ (runs_mainRound.mp hr))

theorem stateShutdown_leads {R : Globals → List (Event sys) → Globals → Prop}
    (h : ∀ g r, R g [⟨.shutdownOs g.shutdownHow, r⟩] { g with errno := r.2 }) :
    Proc.Leads R (stateShutdown fuel) := fun g t o g' hr => by
  rw [stateShutdown_apply, Prog.runs_call] at hr
  obtain ⟨r, t', rfl, hr⟩ := hr
  obtain ⟨rfl, e⟩ := Prog.runs_ret.mp hr
  cases e
  exact h g r

/-! ## The call that ends a run -/

/-- No other state calls `shutdown_os`. -/
theorem mainSwitch_calls (hs : s ≠ .shutdown) :
    Proc.Frame (fun c => ¬ isShutdownOs c) (fun _ => ()) (mainSwitch how fuel s) := by
  have other : ∀ {P : Call → Bool}, (∀ code, P (.shutdownOs code) = false) →
      ∀ c, P c → ¬ isShutdownOs c := by
    intro P hP c hc hoff
    cases c with
    | shutdownOs code => rw [hP] at hc; cases hc
    | _ => cases hoff
  have hload : ∀ path slot, Proc.Frame (fun c => ¬ isShutdownOs c) (fun _ => ())
      (loadBootstrapFile path slot) := fun path slot =>
    ((loadBootstrapFile_frame path slot).part fun _ => ()).mono (other fun _ => rfl)
  have hscript : ∀ buf, Proc.Frame (fun c => ¬ isShutdownOs c) (fun _ => ())
      (processBootstrapScript fuel buf) := fun buf =>
    ((processBootstrapScript_frame buf).part fun _ => ()).mono (other fun _ => rfl)
  cases s with
  | runSStartup =>
    exact .bind (hload _ _) fun _ => .ite (.pure _) (.bind (hload _ _) fun _ => .ite (.pure _)
      (.bind .get fun _ => .bind (hscript _) fun _ => .ite (.pure _) (.pure _)))
  | startSessions => exact (stateStartSessions_frame.part fun _ => ()).mono (other fun _ => rfl)
  | messageLoop => exact ((stateMessageLoop_frame how).part fun _ => ()).mono (other fun _ => rfl)
  | runSShutdown =>
    exact .bind .get fun _ => .bind (hscript _) fun _ => .ite (.pure _) (.pure _)
  | reaper => exact (stateReaper_frame.part fun _ => ()).mono (other fun _ => rfl)
  | shutdown => exact absurd rfl hs
  | runRcStartup | stopSessions | runRcShutdown | failure => exact .pure _

theorem loadsFail_calls (h : LoadsFail g t) : ∀ e ∈ t, isLoad e.call := by
  rcases h with ⟨sc, g', -, h⟩ | ⟨t₁, t₂, g₁, sc, g', rfl, -, h₁, h₂⟩
  · exact (loadBootstrapFile_frame _ _).calls h
  · exact List.forall_mem_append.mpr
      ⟨(loadBootstrapFile_frame _ _).calls h₁, (loadBootstrapFile_frame _ _).calls h₂⟩

/-- The rounds that `main` has finished made no call of `shutdown_os`. -/
theorem visits_calls {s₀ : InitState} (h : Visits (mainSwitch how fuel) s₀ g₀ t s g) :
    ∀ e ∈ t, ¬ isShutdownOs e.call := by
  induction h with
  | nil => simp
  | @snoc s₁ s₂ g₁ g₂ t₁ t₂ hv hr ih =>
    have hrun := runs_mainRound.mp hr
    have hs : s₁ ≠ .shutdown := by
      rintro rfl
      obtain ⟨_, _, _, _, _, hs, _⟩ := Proc.runs_bind_ok.mp hrun
      exact stateShutdown_never _ _ _ _ hs
    exact List.forall_mem_append.mpr ⟨ih, (mainSwitch_calls hs).calls hrun⟩

/-- Where a run of `main` calls `shutdown_os`, that call is its last, and `main`
is in the state of that name. -/
theorem mainLoop_shutdown {n : Nat} {s₀ : InitState} {q : Prog sys (Out Unit × Globals)}
    {e : Event sys} (h : (mainLoop (mainSwitch how fuel) n s₀ g₀).Steps t q) (he : e ∈ t)
    (hoff : isShutdownOs e.call) : ∃ t' g r, t = t' ++ [⟨.shutdownOs g.shutdownHow, r⟩] ∧
      Visits (mainSwitch how fuel) s₀ g₀ t' .shutdown g := by
  obtain ⟨t₁, t₂, s, g, q', rfl, hv, hlast⟩ := Proc.steps_iter h
  have he₂ : e ∈ t₂ := (List.mem_append.mp he).resolve_left fun he => visits_calls hv e he hoff
  rw [mainRound] at hlast
  by_cases hs : s = .shutdown
  · subst hs
    simp only [mainSwitch, Proc.bind_apply, stateShutdown_apply, Prog.call_bind, Prog.ret_bind,
      Proc.next_timeout, Prog.steps_call] at hlast
    rcases hlast with ⟨rfl, -⟩ | ⟨r, t₃, rfl, hlast⟩
    · cases he₂
    · obtain ⟨rfl, -⟩ := Prog.steps_ret.mp hlast
      exact ⟨t₁, g, r, rfl, hv⟩
  · exact absurd hoff ((Proc.Frame.bind (mainSwitch_calls hs) fun _ => .pure _).calls hlast e he₂)

/-! ## Reaping before shutdown -/

/-- Where a run of `main` shuts the system down, s.shutdown has been processed to
its end and the reaper has run and returned; or all that the run did is to fail
to load a script. `STATE_FAILURE` is entered only in the latter case, and the
scripts that are processed are there. -/
theorem mainLoop_reaps (how : List UInt8 → Int) (fuel : Nat) (req : List UInt8) (err : Int) :
    (∀ n t q, (mainLoop (mainSwitch how fuel) n .runSStartup (Globals.initial req err)).Steps t q →
      ∀ e ∈ t, isShutdownOs e.call → ∃ t', t = t' ++ [e] ∧
        (Reaped (mainSwitch how fuel) fuel (Globals.initial req err) t' ∨
          LoadsFail (Globals.initial req err) t' ∧ ∀ e ∈ t', isLoad e.call)) ∧
    (∀ t g, Visits (mainSwitch how fuel) .runSStartup (Globals.initial req err) t .failure g →
      LoadsFail (Globals.initial req err) t ∧ ∀ e ∈ t, isLoad e.call) ∧
    (∀ t g, Visits (mainSwitch how fuel) .runSStartup (Globals.initial req err) t .runSStartup g →
      ∀ t₁ g₁ t₂ g₂, (loadBootstrapFile PATH_S_STARTUP .startup g).Runs t₁ (.ok 0, g₁) →
      (loadBootstrapFile PATH_S_SHUTDOWN .shutdown g₁).Runs t₂ (.ok 0, g₂) →
      (script g₂ .startup).isSome) ∧
    ∀ t g, Visits (mainSwitch how fuel) .runSStartup (Globals.initial req err) t .runSShutdown g →
      (script g .shutdown).isSome := by
  refine ⟨fun n t q h e he hoff => ?_, fun t g hv => ?_, fun t g _ t₁ g₁ t₂ g₂ h₁ h₂ => ?_,
    fun t g hv => visits_atState hv⟩
  · obtain ⟨t', g, r, rfl, hv⟩ := mainLoop_shutdown h he hoff
    have he' : e = ⟨.shutdownOs g.shutdownHow, r⟩ := by
      rcases List.mem_append.mp he with he | he
      · exact absurd hoff (visits_calls hv e he)
      · simpa using he
    refine ⟨t', by rw [he'], ?_⟩
    rcases visits_atState hv with hreaped | hfail
    · exact .inl hreaped
    · exact .inr ⟨hfail, loadsFail_calls hfail⟩
  · have hfail : LoadsFail _ t := visits_atState hv
    exact ⟨hfail, loadsFail_calls hfail⟩
  · rw [(loadBootstrapFile_ok _ _ _ _ _ _ h₂).2 .startup (by decide)]
    exact (loadBootstrapFile_ok _ _ _ _ _ _ h₁).1 rfl

/-- The calls of `init_sysinit` as process 1. -/
def initCalls : List (Event initSys) :=
  [⟨.getuid, (0 : Int)⟩, ⟨.getpid, (1 : Int)⟩, ⟨.setsid, (1 : Int)⟩, ⟨.close .stdin, (-1 : Int)⟩,
    ⟨.close .stdout, (-1 : Int)⟩, ⟨.close .stderr, (-1 : Int)⟩]

/-- The calls that load a script. -/
def loadsScript (path script : Str) : List (Event sys) :=
  [⟨.open path, (3, 0)⟩, ⟨.fstat 3, ((0, script.length), 0)⟩,
    ⟨.malloc (.script path) (.chars (script.length + 1)), (some (Vector.replicate (script.length + 1) NUL), 0)⟩,
    ⟨.read 3 (.script path) script.length, (some script, 0)⟩, ⟨.close 3, (0, 0)⟩]

/-- The calls of an rc script that succeeds, where the rc scripts are run. -/
def runsRc (rc : Bool) (path : Str) : List (Event sys) :=
  if rc then [⟨.fork (.rc [PATH_SHELL, path]), (some 52, 0)⟩, ⟨.waitpid true, (some (52, .exited 0), 0)⟩] else []

/-- The calls that find one terminal and start its session. -/
def startsSession : List (Event sys) :=
  [⟨.endttyent, ((), 0)⟩, ⟨.setttyent, ((), 0)⟩, ⟨.getttyent, (some ⟨true, some ['a'], some ['g']⟩, 0)⟩,
    ⟨.malloc (.session 0) .session, (some (Vector.replicate 0 NUL), 0)⟩,
    ⟨.asprintf (.device 0) (PATH_DEV ++ ['a']), (true, 0)⟩, ⟨.asprintf (.getty 0) ['g', ' ', 'a'], (true, 0)⟩,
    ⟨.malloc (.argv 0) (.pointers 3), (some (Vector.replicate 0 NUL), 0)⟩, ⟨.getttyent, (none, 0)⟩,
    ⟨.endttyent, ((), 0)⟩, ⟨.fork (.getty 0 (PATH_DEV ++ ['a']) [['g'], ['a']]), (some 51, 0)⟩]

/-- The calls that take a request to shut down, of one byte, from the port 4. -/
def takesRequest : List (Event sys) :=
  [⟨.keventAdd 5 4, (0, 0)⟩, ⟨.kevent 5, (⟨1, 4, true⟩, 0)⟩, ⟨.getmsg 4, (.got 9 ⟨.sendio, .sysinit⟩, 0)⟩,
    ⟨.readmsg 4 9 1, ((1, [2]), 0)⟩, ⟨.replymsg 4 9 0, (0, 0)⟩, ⟨.getmsg 4, (.none 0, 0)⟩]

/-- The calls that reap the session and free it. -/
def reapsSession : List (Event sys) :=
  [⟨.kill none .hup, (true, 0)⟩, ⟨.waitpid false, (some (51, .signaled 1), 0)⟩, ⟨.free (.device 0), ((), 0)⟩,
    ⟨.free (.getty 0), ((), 0)⟩, ⟨.free (.argv 0), ((), 0)⟩, ⟨.free (.session 0), ((), 0)⟩,
    ⟨.waitpid false, (none, ECHILD)⟩]

/-- A run up to the end of the reaper: s.startup is `createport`, s.shutdown is `sleep 1`, one session
is started, and one request arrives. -/
def untilReaped (rc : Bool) : List (Event sys) :=
  loadsScript PATH_S_STARTUP "createport".toList ++ loadsScript PATH_S_SHUTDOWN "sleep 1".toList ++
    [⟨.createmsgport 0 ⟨some 0, some 0, some (0o777#32 ||| IFCHR), some 0, some 0, some 0, some 0, some 0⟩, (4, 0)⟩,
      ⟨.kqueue, (5, 0)⟩] ++ runsRc rc PATH_RC_STARTUP ++ startsSession ++ takesRequest ++
    runsRc rc PATH_RC_SHUTDOWN ++ [⟨.sleep 1#32, (0, 0)⟩] ++ reapsSession

/-- That run, with the shutdown that the request asks for. -/
def wholeRun (rc : Bool) : List (Event sys) := untilReaped rc ++ [⟨.shutdownOs 2, (0, 0)⟩]

/-- The kind of shutdown in the first byte of a request. -/
def firstByte (req : List UInt8) : Int := (req.headD 0).toNat

/-- The whole run, and the run in which s.startup cannot be opened. -/
theorem mainLoop_reaps_wholeRun :
    (∃ q, (mainLoop (mainSwitch firstByte 3) 9 .runSStartup (Globals.initial [0] 0)).Steps (wholeRun false) q) ∧
    Reaped (mainSwitch firstByte 3) 3 (Globals.initial [0] 0) (untilReaped false) ∧
    (Reaped (mainSwitch firstByte 3) 3 (Globals.initial [0] 0) [⟨.open PATH_S_STARTUP, (-1, 2)⟩] ∨
      LoadsFail (Globals.initial [0] 0) [⟨.open PATH_S_STARTUP, (-1, 2)⟩] ∧
        ∀ e ∈ [(⟨.open PATH_S_STARTUP, (-1, 2)⟩ : Event sys)], isLoad e.call) := by
  have hrun : ∃ q, (mainLoop (mainSwitch firstByte 3) 9 .runSStartup (Globals.initial [0] 0)).Steps
      (wholeRun false) q := by decide +kernel
  have hfail : ∃ q, (mainLoop (mainSwitch firstByte 3) 9 .runSStartup (Globals.initial [0] 0)).Steps
      [⟨.open PATH_S_STARTUP, (-1, 2)⟩, ⟨.shutdownOs SHUTDOWN_HALT, (0, 2)⟩] q := by decide +kernel
  refine ⟨hrun, ?_, ?_⟩
  · obtain ⟨q, hrun⟩ := hrun
    obtain ⟨t', ht, h⟩ := (mainLoop_reaps firstByte 3 [0] 0).1 9 _ q hrun ⟨.shutdownOs 2, (0, 0)⟩
      (List.mem_append_right _ (List.mem_singleton.mpr rfl)) rfl
    obtain rfl : t' = untilReaped false := (List.append_cancel_right ht).symm
    rcases h with h | ⟨-, h⟩
    · exact h
    · exact absurd (h ⟨.waitpid false, (none, ECHILD)⟩ (by simp [untilReaped, reapsSession])) (by decide)
  · obtain ⟨q, hfail⟩ := hfail
    obtain ⟨t', ht, h⟩ := (mainLoop_reaps firstByte 3 [0] 0).1 9 _ q hfail ⟨.shutdownOs SHUTDOWN_HALT, (0, 2)⟩
      (by simp) rfl
    have hlast : [(⟨.open PATH_S_STARTUP, (-1, 2)⟩ : Event sys)] ++ [⟨.shutdownOs SHUTDOWN_HALT, (0, 2)⟩] =
      t' ++ [⟨.shutdownOs SHUTDOWN_HALT, (0, 2)⟩] := ht
    obtain rfl := List.append_cancel_right hlast
    exact h

end Cheviot.Proof
