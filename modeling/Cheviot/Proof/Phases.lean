import Cheviot.Proof.Reaper
import Cheviot.Spec.Phases

/-!
# `main` goes through its states in order

The state that follows a state (`switch_next`) and the calls of a state (`switch_calls`), whatever
the answers, with the rc scripts or without. Since each state has a higher rank than the one before
it, `main` comes to no state twice, and its loop ends up in `STATE_SHUTDOWN` after at most nine
rounds: `mainLoop_phases`.
-/

namespace Cheviot.Proof

open Framework Cheviot.Sysinit Cheviot.Spec

variable {how : List UInt8 → Int} {fuel : Nat} {rc : Bool} {g g' : Globals} {s s' : InitState}
  {t : List (Event sys)}

theorem switchOf_eq (hs : s ≠ .runRcStartup) (hs' : s ≠ .runRcShutdown) :
    switchOf how fuel rc s = mainSwitch how fuel s := by
  cases rc with
  | false => rfl
  | true => cases s <;> first | rfl | exact absurd rfl hs | exact absurd rfl hs'

/-! ## The rc scripts -/

/-- A call of `do_run_rc` on the script `path`. -/
def IsRcOf (path : Str) (c : Call) : Prop := isRc c ∧ ∀ argv, c = .fork (.rc argv) → argv = [PATH_SHELL, path]

theorem rc_syscall {path : Str} {c : Call} (h : isRc c) (hfork : ∀ argv, c ≠ .fork (.rc argv)) :
    Proc.Frame (IsRcOf path) besidesSessions (syscall c) :=
  besidesSessions_syscall ⟨h, fun argv he => absurd he (hfork argv)⟩

theorem rcRound_calls (path : Str) (pid : Pid) : Proc.Frame (IsRcOf path) besidesSessions (rcRound pid) := by
  refine .bind (rc_syscall rfl (by simp)) fun r => ?_
  cases r with
  | none => exact .bind .get fun g => .ite (.pure _) (.pure _)
  | some x =>
    have hcollect : Proc.Frame (IsRcOf path) besidesSessions (collectProcess x.1 x.2) :=
      collectProcess_frame (fun _ => ⟨rfl, by simp⟩) (fun _ _ _ => ⟨rfl, by simp⟩) x.1 x.2
    exact .bind hcollect fun _ => .ite (.bind (rc_syscall rfl (by simp)) fun _ => .pure _)
      (.ite (.pure _) (.pure _))

/-- The shell that `do_run_rc` forks is to run the script. -/
theorem doRunRc_calls (path : Str) : Proc.Frame (IsRcOf path) besidesSessions (doRunRc fuel path) := by
  refine .bind (besidesSessions_syscall ⟨rfl, by simp⟩) fun pid => ?_
  cases pid with
  | none =>
    refine .bind (.iter (fun _ => .bind (rc_syscall rfl (by simp)) fun r => ?_) _ _) fun _ => .pure _
    cases r <;> exact .pure _
  | some pid =>
    refine .bind (.iter (fun _ => rcRound_calls path pid) _ _) fun status => ?_
    split <;> exact .pure _

theorem doRunRc_frame (path : Str) : Proc.Frame (isRc ·) besidesSessions (doRunRc fuel path) :=
  (doRunRc_calls path).mono fun _ hc => hc.1

/-! ## The start of the sessions -/

/-- `J`, of the table and the history, is kept by what `state_start_sessions` does: by its calls that
are about the ttys file, by the allocation of a session for each record of it, and by each fork. -/
structure StartInvariant (A : List (Event sys) → Event sys → Prop) (I : List (Event sys) → Prop)
    (J : SessionTable → List (Event sys) → Prop) : Prop where
  holds : ∀ l h, J l h → I h
  ttys : ∀ l h e, J l h → e.call = .endttyent ∨ e.call = .setttyent ∨ e.call = .getttyent → J l (h ++ [e])
  alloc : ∀ (g : Globals) h i typ e, J g.sessionList (h ++ [⟨.getttyent, (some typ, e)⟩]) →
    Proc.Wp A I (allocSession i typ) g (h ++ [⟨.getttyent, (some typ, e)⟩]) fun _ g' h' => J g'.sessionList h'
  fork : ∀ l h sp pid e, J l h → sp ∈ l.entries →
    J (restarted l sp.id pid) (h ++ [⟨.fork (.getty sp.id sp.seDevice sp.seGettyArgv), (pid, e)⟩])

section

variable {A : List (Event sys) → Event sys → Prop} {I : List (Event sys) → Prop}
  {J : SessionTable → List (Event sys) → Prop} {h : List (Event sys)}

theorem startSession_wp (hJ : StartInvariant A I J) (n i : Nat) (h₀ : J g.sessionList h) :
    Proc.Wp A I (startSession n i) g h fun _ g' h' => J g'.sessionList h' := by
  refine Proc.wp_bind.mpr (Proc.wp_get.mpr ?_)
  cases hs : g.sessionList.entries[i]? with
  | none => exact Proc.wp_pure.mpr h₀
  | some sp =>
    refine Proc.wp_ite.mpr ⟨fun _ => Proc.wp_pure.mpr h₀, fun _ => Proc.wp_bind.mpr (wp_syscall.mpr fun pid e _ => ?_)⟩
    have hfork := hJ.fork g.sessionList h sp
    cases pid with
    | none =>
      have h₁ := hfork none e h₀ (List.mem_of_getElem? hs)
      exact ⟨hJ.holds _ _ h₁, Proc.wp_pure.mpr h₁⟩
    | some pid =>
      have h₁ := hfork (some pid) e h₀ (List.mem_of_getElem? hs)
      exact ⟨hJ.holds _ _ h₁, Proc.wp_bind.mpr (Proc.wp_modify.mpr (Proc.wp_pure.mpr h₁))⟩

/-- `state_start_sessions` keeps what each of its allocations and forks keeps. -/
theorem stateStartSessions_wp (hJ : StartInvariant A I J) (h₀ : J g.sessionList h) :
    Proc.Wp A I (stateStartSessions fuel) g h fun _ g' h' => J g'.sessionList h' := by
  have hcall : ∀ {c : Call} {g : Globals} {h : List (Event sys)}, c = .endttyent ∨ c = .setttyent ∨ c = .getttyent →
      J g.sessionList h → Proc.Wp A I (syscall c) g h fun r g' h' => J g'.sessionList h' ∧
        ∃ e, h' = h ++ [⟨c, (r, e)⟩] := fun hc h₀ => wp_syscall.mpr fun r e _ =>
    have h₁ := hJ.ttys _ _ ⟨_, (r, e)⟩ h₀ hc
    ⟨hJ.holds _ _ h₁, h₁, e, rfl⟩
  refine Proc.wp_bind.mpr ((hcall (.inl rfl) h₀).mono fun _ g h hpost => ?_)
  refine Proc.wp_bind.mpr ((hcall (.inr (.inl rfl)) hpost.1).mono fun _ g h hpost => ?_)
  have hread : Proc.Wp A I (readTtys fuel) g h fun _ g' h' => J g'.sessionList h' := by
    refine Proc.wp_iter (J := fun _ g h => J g.sessionList h) (fun i g h h₀ => ?_) fuel 0 g h hpost.1
    refine Proc.wp_bind.mpr ((hcall (.inr (.inr rfl)) h₀).mono fun typ g' h' hpost => ?_)
    obtain ⟨h₁, e, rfl⟩ := hpost
    cases typ with
    | none => exact Proc.wp_pure.mpr h₁
    | some typ => exact Proc.wp_bind.mpr ((hJ.alloc g' h i typ e h₁).mono fun _ g' h' h₂ => Proc.wp_pure.mpr h₂)
  refine Proc.wp_bind.mpr (hread.mono fun _ g h h₁ => ?_)
  refine Proc.wp_bind.mpr ((hcall (.inl rfl) h₁).mono fun _ g h hpost => ?_)
  refine Proc.wp_bind.mpr (Proc.wp_get.mpr (Proc.wp_ite.mpr ⟨fun _ => Proc.wp_pure.mpr hpost.1, fun _ => ?_⟩))
  refine Proc.wp_iter (J := fun _ g h => J g.sessionList h) (fun i g h h₀ => ?_) fuel 0 g h hpost.1
  refine (startSession_wp hJ 0 i h₀).mono fun x g' h' h₁ => ?_
  cases x <;> exact h₁

end

/-! ## The state that follows -/

/-- A state that is entered only with s.shutdown loaded. -/
def Ready (s : InitState) (g : Globals) : Prop :=
  s = .runSStartup ∨ s = .failure ∨ s = .shutdown ∨ (script g .shutdown).isSome

theorem switch_next (hr : (switchOf how fuel rc s g).Runs t (.ok s', g')) :
    (s' ∈ nexts rc s ∨ s = .runSShutdown ∧ s' = .failure ∧ (script g .shutdown).isNone) ∧
      (Ready s g → Ready s' g') := by
  have keeps : ∀ {P : Call → Prop} {p : Sys InitState}, Proc.Frame P besidesSessions p →
      (p g).Runs t (.ok s', g') → g'.sShutdownScript = g.sShutdownScript := fun hp hr =>
    congrArg (·.2.2.2.2.2) (hp.keeps hr)
  have same : g'.sShutdownScript = g.sShutdownScript → s ≠ .runSStartup → s ≠ .failure →
      s ≠ .shutdown → Ready s g → Ready s' g' := by
    intro hg h₁ h₂ h₃ hready
    rcases hready with h | h | h | h
    · exact absurd h h₁
    · exact absurd h h₂
    · exact absurd h h₃
    · exact .inr (.inr (.inr (by rw [script, hg]; exact h)))
  cases s with
  | runSStartup =>
    rw [switchOf_eq (by decide) (by decide)] at hr
    rcases stateRunSStartup_ok hr with ⟨rfl, -⟩ | ⟨rfl, -, hscript⟩
    · exact ⟨.inl (by simp [nexts]), fun _ => .inr (.inl rfl)⟩
    · exact ⟨.inl (by simp [nexts]), fun _ => .inr (.inr (.inr hscript))⟩
  | runRcStartup =>
    cases rc with
    | false =>
      obtain ⟨rfl, rfl, rfl⟩ := Proc.runs_pure_ok.mp hr
      exact ⟨.inl (by simp [nexts]), same rfl (by decide) (by decide) (by decide)⟩
    | true =>
      have hframe : Proc.Frame (isRc ·) besidesSessions (stateRunRcStartup fuel) :=
        .bind (doRunRc_frame _) fun _ => .ite (.pure _) (.pure _)
      refine ⟨.inl ?_, same (keeps hframe hr) (by decide) (by decide) (by decide)⟩
      have hnext : Proc.Returns (stateRunRcStartup fuel) g fun s _ => s ∈ nexts true .runRcStartup :=
        Proc.returns_bind.mpr fun _ _ _ _ => Proc.returns_ite
          (fun _ => Proc.returns_pure.mpr (by simp [nexts])) fun _ => Proc.returns_pure.mpr (by simp [nexts])
      exact hnext _ _ _ hr
  | startSessions =>
    rw [switchOf_eq (by decide) (by decide)] at hr
    refine ⟨.inl ?_, same (keeps stateStartSessions_frame hr) (by decide) (by decide) (by decide)⟩
    rcases stateStartSessions_ok _ _ _ _ hr with rfl | rfl <;> simp [nexts]
  | messageLoop =>
    rw [switchOf_eq (by decide) (by decide)] at hr
    have hg : g'.sShutdownScript = g.sShutdownScript :=
      congrArg (·.2.2.2.1) ((stateMessageLoop_frame how).keeps hr)
    obtain rfl := stateMessageLoop_ok _ _ _ _ hr
    exact ⟨.inl (by simp [nexts]), same hg (by decide) (by decide) (by decide)⟩
  | stopSessions =>
    rw [switchOf_eq (by decide) (by decide)] at hr
    obtain ⟨rfl, rfl, rfl⟩ := Proc.runs_pure_ok.mp hr
    exact ⟨.inl (by simp [nexts]), same rfl (by decide) (by decide) (by decide)⟩
  | runRcShutdown =>
    cases rc with
    | false =>
      obtain ⟨rfl, rfl, rfl⟩ := Proc.runs_pure_ok.mp hr
      exact ⟨.inl (by simp [nexts]), same rfl (by decide) (by decide) (by decide)⟩
    | true =>
      have hframe : Proc.Frame (isRc ·) besidesSessions (stateRunRcShutdown fuel) :=
        .bind (doRunRc_frame _) fun _ => .pure _
      refine ⟨.inl ?_, same (keeps hframe hr) (by decide) (by decide) (by decide)⟩
      have hnext : Proc.Returns (stateRunRcShutdown fuel) g fun s _ => s ∈ nexts true .runRcShutdown :=
        Proc.returns_bind.mpr fun _ _ _ _ => Proc.returns_pure.mpr (by simp [nexts])
      exact hnext _ _ _ hr
  | runSShutdown =>
    rw [switchOf_eq (by decide) (by decide)] at hr
    cases hbuf : script g .shutdown with
    | some buf =>
      obtain ⟨rfl, hrun⟩ := stateRunSShutdown_ok hbuf hr
      have hg : g'.sShutdownScript = g.sShutdownScript :=
        congrArg (·.2.2.1) ((processBootstrapScript_frame (some buf)).keeps hrun)
      exact ⟨.inl (by simp [nexts]), same hg (by decide) (by decide) (by decide)⟩
    | none =>
      rw [mainSwitch, stateRunSShutdown, Proc.runs_get_bind, show g.sShutdownScript = none from hbuf] at hr
      obtain ⟨t₁, t₂, sc, g₁, -, h₁, h₂⟩ := Proc.runs_bind_ok.mp hr
      obtain ⟨-, rfl, -⟩ := Proc.runs_pure_ok.mp h₁
      rw [if_pos (by decide)] at h₂
      obtain ⟨-, rfl, -⟩ := Proc.runs_pure_ok.mp h₂
      exact ⟨.inr ⟨rfl, rfl, rfl⟩, fun _ => .inr (.inl rfl)⟩
  | reaper =>
    rw [switchOf_eq (by decide) (by decide)] at hr
    obtain rfl := stateReaper_ok _ _ _ _ hr
    exact ⟨.inl (by simp [nexts]), fun _ => .inr (.inr (.inl rfl))⟩
  | failure =>
    rw [switchOf_eq (by decide) (by decide)] at hr
    obtain ⟨rfl, rfl, rfl⟩ := Proc.runs_pure_ok.mp hr
    exact ⟨.inl (by simp [nexts]), fun _ => .inr (.inr (.inl rfl))⟩
  | shutdown =>
    rw [switchOf_eq (by decide) (by decide)] at hr
    obtain ⟨_, _, _, _, _, hs, _⟩ := Proc.runs_bind_ok.mp hr
    exact (stateShutdown_never _ _ _ _ hs).elim

theorem rank_nexts (h : s' ∈ nexts rc s) : rank s < rank s' := by
  cases s <;> cases rc <;> simp_all [nexts] <;> rcases h with rfl | rfl <;> decide

/-- No state is followed by one of its rank, or a lower one. -/
theorem switch_rank (hr : (switchOf how fuel rc s g).Runs t (.ok s', g')) : rank s < rank s' := by
  rcases (switch_next hr).1 with h | ⟨rfl, rfl, -⟩
  · exact rank_nexts h
  · decide

/-! ## The calls of a state -/

/-- The reaper waits, frees, and sends the first of its signals. -/
theorem stateReaper_calls {q : Prog sys (Out InitState × Globals)} (hs : (stateReaper fuel g).Steps t q) :
    ∀ e ∈ t, isReap e.call := by
  have call : ∀ {c : Call}, isReap c → Proc.Frame (fun c : Call => isReap c ∨ ∃ child, c = .fork child)
      besidesSessions (syscall c) := fun h => besidesSessions_syscall (.inl h)
  have hround : Proc.Frame (fun c : Call => isReap c ∨ ∃ child, c = .fork child) besidesSessions reapRound := by
    refine .bind (call rfl) fun r => ?_
    cases r with
    | none => exact .bind .get fun g => .ite (.pure _) (.pure _)
    | some x =>
      exact .bind (collectProcess_frame (fun _ => .inl rfl) (fun _ _ _ => .inr ⟨_, rfl⟩) x.1 x.2) fun _ =>
        .bind .get fun _ => .ite (.pure _) (.pure _)
  have hframe : Proc.Frame (fun c : Call => isReap c ∨ ∃ child, c = .fork child) besidesSessions
      (stateReaper fuel) :=
    .bind (.modify fun _ => rfl) fun _ => .bind (call rfl) fun _ => .bind .get fun _ =>
      .ite (.pure _) (.bind (.iter (fun _ => hround) _ _) fun _ => .pure _)
  exact fun e he => (hframe.calls hs e he).resolve_right fun ⟨child, hc⟩ => stateReaper_noFork hs e he child hc

theorem switch_calls {q : Prog sys (Out InitState × Globals)}
    (hs : (switchOf how fuel rc s g).Steps t q) : ∀ e ∈ t, callsOf rc s e.call := by
  have hscript : ∀ buf, Proc.Frame (isCommand ·) (fun _ => ()) (processBootstrapScript fuel buf) :=
    fun buf => (processBootstrapScript_frame buf).part fun _ => ()
  cases s with
  | runSStartup =>
    rw [switchOf_eq (by decide) (by decide)] at hs
    have load : ∀ path slot, Proc.Frame (fun c => callsOf rc .runSStartup c) (fun _ => ())
        (loadBootstrapFile path slot) := fun path slot =>
      ((loadBootstrapFile_frame path slot).part fun _ => ()).mono fun c hc => by simp [callsOf, hc]
    have hframe : Proc.Frame (fun c => callsOf rc .runSStartup c) (fun _ => ()) (stateRunSStartup fuel) :=
      .bind (load _ _) fun _ => .ite (.pure _) (.bind (load _ _) fun _ => .ite (.pure _)
        (.bind .get fun _ => .bind ((hscript _).mono fun c hc => by simp [callsOf, hc]) fun _ =>
          .ite (.pure _) (.pure _)))
    exact hframe.calls hs
  | runRcStartup =>
    cases rc with
    | false =>
      obtain ⟨rfl, -⟩ := Prog.steps_ret.mp hs
      simp
    | true =>
      have hframe : Proc.Frame (isRc ·) besidesSessions (stateRunRcStartup fuel) :=
        .bind (doRunRc_frame _) fun _ => .ite (.pure _) (.pure _)
      exact hframe.calls hs
  | startSessions =>
    rw [switchOf_eq (by decide) (by decide)] at hs
    exact stateStartSessions_frame.calls hs
  | messageLoop =>
    rw [switchOf_eq (by decide) (by decide)] at hs
    exact (stateMessageLoop_frame how).calls hs
  | stopSessions | failure =>
    rw [switchOf_eq (by decide) (by decide)] at hs
    obtain ⟨rfl, -⟩ := Prog.steps_ret.mp hs
    simp
  | runRcShutdown =>
    cases rc with
    | false =>
      obtain ⟨rfl, -⟩ := Prog.steps_ret.mp hs
      simp
    | true =>
      have hframe : Proc.Frame (isRc ·) besidesSessions (stateRunRcShutdown fuel) :=
        .bind (doRunRc_frame _) fun _ => .pure _
      exact hframe.calls hs
  | runSShutdown =>
    rw [switchOf_eq (by decide) (by decide)] at hs
    have hframe : Proc.Frame (isCommand ·) (fun _ => ()) (stateRunSShutdown fuel) :=
      .bind .get fun _ => .bind (hscript _) fun _ => .ite (.pure _) (.pure _)
    exact hframe.calls hs
  | reaper =>
    rw [switchOf_eq (by decide) (by decide)] at hs
    exact stateReaper_calls hs
  | shutdown =>
    rw [switchOf_eq (by decide) (by decide)] at hs
    have hframe : Proc.Frame (isShutdownOs ·) (fun _ => ()) (stateShutdown fuel) :=
      .bind .get fun _ => .bind (syscall_frame rfl fun _ _ => rfl) fun _ => .iter (fun _ => .pure _) _ _
    exact (Proc.Frame.bind hframe fun _ => .pure _).calls hs

/-! ## Runs -/

theorem visits_phases {g₀ : Globals} (h : Visits (switchOf how fuel rc) .runSStartup g₀ t s g) :
    Phases rc t s ∧ Ready s g := by
  induction h with
  | nil => exact ⟨.start, .inl rfl⟩
  | @snoc s₁ s₂ g₁ g₂ t₁ t₂ _ hr ih =>
    have hrun := runs_mainRound.mp hr
    obtain ⟨hnext, hready⟩ := switch_next hrun
    refine ⟨.next ih.1 (switch_calls hrun) (hnext.resolve_right ?_), hready ih.2⟩
    rintro ⟨rfl, -, hnone⟩
    rcases ih.2 with h | h | h | h
    · cases h
    · cases h
    · cases h
    · rw [Option.isNone_iff_eq_none] at hnone
      rw [hnone] at h
      cases h

/-- What a round of `main` has done is what its state has done. -/
theorem steps_mainRound {switch : InitState → Sys InitState}
    {q : Prog sys (Out (Proc.Round InitState Unit) × Globals)} (h : (mainRound switch s g).Steps t q) :
    ∃ q', (switch s g).Steps t q' := by
  rw [mainRound, Proc.bind_apply, Prog.steps_bind] at h
  rcases h with ⟨p, hp, -⟩ | ⟨t₁, t₂, ⟨o, g'⟩, rfl, hp, hf⟩
  · exact ⟨p, hp⟩
  · cases o <;> (obtain ⟨rfl, -⟩ := Prog.steps_ret.mp hf; exact ⟨_, by rw [List.append_nil]; exact hp⟩)

theorem shutdown_once {q : Prog sys (Out InitState × Globals)}
    (h : (switchOf how fuel rc .shutdown g).Steps t q) : t.length ≤ 1 := by
  rw [switchOf_eq (by decide) (by decide), mainSwitch, Proc.bind_apply, stateShutdown_apply, Prog.call_bind,
    Prog.steps_call] at h
  rcases h with ⟨rfl, -⟩ | ⟨r, t', rfl, h⟩
  · exact Nat.zero_le 1
  · rw [Prog.ret_bind, Proc.next_timeout] at h
    obtain ⟨rfl, -⟩ := Prog.steps_ret.mp h
    exact Nat.le_refl 1

/-- From any state, the loop of `main` is the same for all numbers of rounds with which it can come to
the highest rank. -/
theorem mainLoop_rounds {n m : Nat} (hn : 9 ≤ rank s + n) (hm : 9 ≤ rank s + m) (g : Globals) :
    mainLoop (switchOf how fuel rc) n s g = mainLoop (switchOf how fuel rc) m s g := by
  have hle : rank s ≤ 8 := by cases s <;> decide
  induction n generalizing s g m with
  | zero => omega
  | succ n ih =>
    obtain ⟨m, rfl⟩ : ∃ k, m = k + 1 := ⟨m - 1, by omega⟩
    rw [mainLoop, mainLoop, Proc.iter, Proc.iter, Proc.bind_apply, Proc.bind_apply]
    refine Prog.bind_congr fun t x hx => ?_
    obtain ⟨o, g'⟩ := x
    cases o with
    | ok next =>
      cases next with
      | again s' =>
        have hrank := switch_rank (runs_mainRound.mp hx)
        exact ih (by omega) (by omega) g' (by cases s' <;> decide)
      | done _ => rfl
    | _ => rfl

/-- Whatever the answers, with the rc scripts or without, a run of `main` goes through its states in
order, each with its own calls and no state twice; it shuts the system down at most once, and does
nothing after that. Its loop has then made no more than nine rounds. -/
theorem mainLoop_phases (how : List UInt8 → Int) (fuel : Nat) (rc : Bool) (req : List UInt8) (err : Int) :
    (∀ n t q, (mainLoop (switchOf how fuel rc) n .runSStartup (Globals.initial req err)).Steps t q →
      ∃ t₁ t₂ s, t = t₁ ++ t₂ ∧ Phases rc t₁ s ∧ (∀ e ∈ t₂, callsOf rc s e.call) ∧
        (s = .shutdown → t₂.length ≤ 1)) ∧
    ∀ n, 9 ≤ n → mainLoop (switchOf how fuel rc) n .runSStartup (Globals.initial req err) =
      mainLoop (switchOf how fuel rc) 9 .runSStartup (Globals.initial req err) := by
  refine ⟨fun n t q hs => ?_, fun n hn => mainLoop_rounds (by simpa [rank] using hn) (by decide) _⟩
  obtain ⟨t₁, t₂, s, g, q', rfl, hv, hlast⟩ := Proc.steps_iter hs
  obtain ⟨q'', hlast⟩ := steps_mainRound hlast
  exact ⟨t₁, t₂, s, rfl, (visits_phases hv).1, switch_calls hlast, fun hs => shutdown_once (hs ▸ hlast)⟩

/-- The whole run with the rc scripts. -/
theorem mainLoop_phases_wholeRun : ∃ q,
    (mainLoop (switchOf firstByte 3 true) 9 .runSStartup (Globals.initial [0] 0)).Steps (wholeRun true) q ∧
    ∃ t₁ t₂ s, wholeRun true = t₁ ++ t₂ ∧ Phases true t₁ s ∧ (∀ e ∈ t₂, callsOf true s e.call) ∧
      (s = .shutdown → t₂.length ≤ 1) := by
  have hs : ∃ q, (mainLoop (switchOf firstByte 3 true) 9 .runSStartup (Globals.initial [0] 0)).Steps
      (wholeRun true) q := by decide +kernel
  obtain ⟨q, hs⟩ := hs
  exact ⟨q, hs, (mainLoop_phases firstByte 3 true [0] 0).1 9 _ q hs⟩

end Cheviot.Proof
