import Cheviot.Proof.Sessions
import Cheviot.Proof.Main

/-!
# Waiting for the rc script

`do_run_rc` keeps what each of its collections keeps (`doRunRc_wp`). From this:

* `mainLoop_stopped`: once the sessions are being stopped, no getty is started
  unless `do_run_rc` is told of a process of theirs;
* `doRunRc_exclusive`: no session has two gettys unless `do_run_rc` is told that
  one of them has stopped.
-/

namespace Cheviot.Proof

open Framework Cheviot.Sysinit Cheviot.Spec

variable {how : List UInt8 → Int} {fuel : Nat} {g g' : Globals} {k : Gettys} {sp : Session}
  {t h : List (Event sys)} {e : Event sys}

/-! ## The rule of `do_run_rc` -/

/-- A call of `do_run_rc` that collects nothing. -/
def isIdleRc : Event sys → Bool
  | ⟨.fork (.rc _), _⟩ | ⟨.waitpidNohang, _⟩ | ⟨.kill .., _⟩ | ⟨.waitpid true, (none, _)⟩ => true
  | _ => false

/-- `J`, of the table and the history, is kept by the calls that collect nothing
and by each collection. -/
structure RcInvariant (A : List (Event sys) → Event sys → Prop) (I : List (Event sys) → Prop)
    (J : SessionTable → List (Event sys) → Prop) : Prop where
  holds : ∀ l h, J l h → I h
  idle : ∀ l h e, J l h → A h e → isIdleRc e → J l (h ++ [e])
  collect : ∀ (g : Globals) h pid status e, J g.sessionList h →
    A h ⟨.waitpid true, (some (pid, status), e)⟩ →
    I (h ++ [⟨.waitpid true, (some (pid, status), e)⟩]) ∧
      Proc.Wp A I (collectProcess pid status) g (h ++ [⟨.waitpid true, (some (pid, status), e)⟩])
        fun _ g' h' => J g'.sessionList h'

section

variable {A : List (Event sys) → Event sys → Prop} {I : List (Event sys) → Prop}
  {J : SessionTable → List (Event sys) → Prop}

theorem drainChildren_wp (hJ : RcInvariant A I J) (h₀ : J g.sessionList h) :
    Proc.Wp A I (drainChildren fuel) g h fun _ g' h' => J g'.sessionList h' := by
  refine Proc.wp_iter (J := fun _ g h => J g.sessionList h) (fun _ g h h₀ => ?_) fuel () g h h₀
  refine Proc.wp_bind.mpr (wp_syscall.mpr fun r e ha => ?_)
  have h₁ := hJ.idle _ _ _ h₀ ha rfl
  refine ⟨hJ.holds _ _ h₁, ?_⟩
  cases r <;> exact Proc.wp_pure.mpr h₁

theorem rcRound_wp (pid : Pid) (hJ : RcInvariant A I J) (h₀ : J g.sessionList h) :
    Proc.Wp A I (rcRound pid) g h fun _ g' h' => J g'.sessionList h' := by
  refine Proc.wp_bind.mpr (wp_syscall.mpr fun r e ha => ?_)
  cases r with
  | none =>
    have h₁ := hJ.idle _ _ _ h₀ ha rfl
    exact ⟨hJ.holds _ _ h₁, Proc.wp_bind.mpr (Proc.wp_get.mpr (Proc.wp_ite.mpr
      ⟨fun _ => Proc.wp_pure.mpr h₁, fun _ => Proc.wp_pure.mpr h₁⟩))⟩
  | some x =>
    obtain ⟨wpid, status⟩ := x
    obtain ⟨hI, hw⟩ := hJ.collect { g with errno := e } h wpid status e h₀ ha
    refine ⟨hI, Proc.wp_bind.mpr (hw.mono fun _ g' h' h₁ => Proc.wp_ite.mpr ⟨fun _ => ?_, fun _ => ?_⟩)⟩
    · refine Proc.wp_bind.mpr (wp_syscall.mpr fun r e ha => ?_)
      have h₂ := hJ.idle _ _ _ h₁ ha rfl
      exact ⟨hJ.holds _ _ h₂, Proc.wp_pure.mpr h₂⟩
    · exact Proc.wp_ite.mpr ⟨fun _ => Proc.wp_pure.mpr h₁, fun _ => Proc.wp_pure.mpr h₁⟩

/-- `do_run_rc` keeps what each of its collections keeps. -/
theorem doRunRc_wp (fuel : Nat) (path : Str) (hJ : RcInvariant A I J) (h₀ : J g.sessionList h) :
    Proc.Wp A I (doRunRc fuel path) g h fun _ g' h' => J g'.sessionList h' := by
  refine Proc.wp_bind.mpr (wp_syscall.mpr fun pid e ha => ?_)
  have h₁ := hJ.idle _ _ _ h₀ ha rfl
  refine ⟨hJ.holds _ _ h₁, ?_⟩
  cases pid with
  | none =>
    refine Proc.wp_bind.mpr ((drainChildren_wp (g := { g with errno := e }) hJ h₁).mono
      fun _ _ _ h₂ => Proc.wp_pure.mpr h₂)
  | some pid =>
    refine Proc.wp_bind.mpr (Proc.wp_iter (J := fun _ g h => J g.sessionList h) (fun _ g h h₀ => ?_)
      fuel () _ _ h₁)
    refine (rcRound_wp pid hJ h₀).mono fun x g' h' h₁ => ?_
    cases x with
    | again _ => exact h₁
    | done status =>
      dsimp only
      split <;> exact Proc.wp_pure.mpr h₁

end

/-! ## Calls that fork no getty -/

theorem forksGetty_free {c : Call} (hc : isFree c) : forksGetty c = none := by
  cases c <;> first | rfl | cases hc

theorem forksGetty_command {c : Call} (hc : isCommand c) : forksGetty c = none := by
  cases c with
  | fork child => cases child <;> first | rfl | cases hc
  | _ => rfl

theorem forksGetty_idleRc (he : isIdleRc e) : forksGetty e.call = none := by
  obtain ⟨c, r⟩ := e
  cases c with
  | fork child => cases child <;> first | rfl | cases he
  | _ => rfl

/-! ## No getty once the sessions are being stopped -/

/-- No getty has been forked. -/
def NoGetty (h : List (Event sys)) : Prop := ∀ e ∈ h, forksGetty e.call = none

theorem noGetty_snoc (hh : NoGetty h) (he : forksGetty e.call = none) : NoGetty (h ++ [e]) :=
  List.forall_mem_append.mpr ⟨hh, List.forall_mem_singleton.mpr he⟩

/-- A report of a process names no session of the table that is to be restarted. -/
def SparesSessions (l : SessionTable) (e : Event sys) : Prop :=
  ∀ pid status, reports e = some (pid, status) →
    ∀ sp ∈ l.entries, sp.seProcess = some pid → sp.isShutdown

/-- Sessions only go from the table, and no getty is forked. -/
def Dwindles (l₀ l : SessionTable) (h : List (Event sys)) : Prop :=
  (∀ sp ∈ l.entries, sp ∈ l₀.entries) ∧ NoGetty h

/-- A collection that restarts no session. -/
theorem collectProcess_noGetty {A : List (Event sys) → Event sys → Prop} {pid : Pid} {status : Status}
    (hh : NoGetty h) (hsp : ∀ sp ∈ g.sessionList.entries, sp.seProcess = some pid → sp.isShutdown) :
    Proc.Wp A NoGetty (collectProcess pid status) g h fun _ g' h' =>
      (∀ sp ∈ g'.sessionList.entries, sp ∈ g.sessionList.entries) ∧ NoGetty h' := by
  refine collectProcess_wp (fun h e hh he => noGetty_snoc hh ?_) (fun _ hh => hh) hh
    (fun _ => ⟨fun _ hsp => hsp, hh⟩) (fun sp _ _ g' h' hg hh' => ⟨fun sp' hsp' => ?_, hh'⟩)
    fun sp hfind hshut => ?_
  · exact forksGetty_free he
  · rw [hg] at hsp'
    exact (mem_remEntry hsp').1
  · obtain ⟨hmem, hpid⟩ := findSession_some hfind
    rw [hsp sp hmem hpid] at hshut
    cases hshut

theorem dwindles_rc (l₀ : SessionTable) :
    RcInvariant (fun _ => SparesSessions l₀) NoGetty (Dwindles l₀) where
  holds _ _ hJ := hJ.2
  idle l h e hJ _ he := ⟨hJ.1, noGetty_snoc hJ.2 (forksGetty_idleRc he)⟩
  collect g h pid status e hJ ha := by
    have hh : NoGetty (h ++ [⟨.waitpid true, (some (pid, status), e)⟩]) := noGetty_snoc hJ.2 rfl
    refine ⟨hh, (collectProcess_noGetty hh fun sp hsp hpid =>
      ha pid status rfl sp (hJ.1 sp hsp) hpid).mono fun _ g' h' hpost => ?_⟩
    exact ⟨fun sp hsp => hJ.1 sp (hpost.1 sp hsp), hpost.2⟩

theorem isShutdown_setShutdown {l : SessionTable} (hsp : sp ∈ l.setShutdown.entries) :
    sp.isShutdown := by
  obtain ⟨sp, -, rfl⟩ := List.mem_map.mp hsp
  have hflag : (sp.seFlags ||| SE_SHUTDOWN) &&& SE_SHUTDOWN = SE_SHUTDOWN := by
    ext i hi
    simp only [BitVec.getElem_and, BitVec.getElem_or]
    cases SE_SHUTDOWN[i] <;> simp
  simp only [Session.isShutdown, hflag]
  decide

/-- No session is to be restarted, and no getty has been forked. -/
def Marked (l : SessionTable) (h : List (Event sys)) : Prop :=
  (∀ sp ∈ l.entries, sp.isShutdown) ∧ NoGetty h

theorem reapRound_marked {A : List (Event sys) → Event sys → Prop} (hJ : Marked g.sessionList h) :
    Proc.Wp A NoGetty reapRound g h fun _ g' h' => Marked g'.sessionList h' := by
  refine Proc.wp_bind.mpr (wp_syscall.mpr fun r e _ => ?_)
  have hh : NoGetty (h ++ [⟨.waitpid false, (r, e)⟩]) := noGetty_snoc hJ.2 rfl
  refine ⟨hh, ?_⟩
  cases r with
  | none =>
    exact Proc.wp_bind.mpr (Proc.wp_get.mpr (Proc.wp_ite.mpr
      ⟨fun _ => Proc.wp_pure.mpr ⟨hJ.1, hh⟩, fun _ => Proc.wp_pure.mpr ⟨hJ.1, hh⟩⟩))
  | some x =>
    refine Proc.wp_bind.mpr ((collectProcess_noGetty (g := { g with errno := e }) hh
      fun sp hsp _ => hJ.1 sp hsp).mono fun _ g' h' hpost => ?_)
    have hJ' : Marked g'.sessionList h' := ⟨fun sp hsp => hJ.1 sp (hpost.1 sp hsp), hpost.2⟩
    exact Proc.wp_bind.mpr (Proc.wp_get.mpr (Proc.wp_ite.mpr
      ⟨fun _ => Proc.wp_pure.mpr hJ', fun _ => Proc.wp_pure.mpr hJ'⟩))

/-- The reaper restarts no session, since it marks them all first. -/
theorem stateReaper_noGetty {A : List (Event sys) → Event sys → Prop} (hh : NoGetty h) :
    Proc.Wp A NoGetty (stateReaper fuel) g h fun s _ h' => s = .shutdown ∧ NoGetty h' := by
  refine Proc.wp_bind.mpr (Proc.wp_modify.mpr (Proc.wp_bind.mpr (wp_syscall.mpr fun sent e _ => ?_)))
  have h₁ : NoGetty (h ++ [⟨.kill none .hup, (sent, e)⟩]) := noGetty_snoc hh rfl
  refine ⟨h₁, Proc.wp_bind.mpr (Proc.wp_get.mpr (Proc.wp_ite.mpr
    ⟨fun _ => Proc.wp_pure.mpr ⟨rfl, h₁⟩, fun _ => Proc.wp_bind.mpr ?_⟩))⟩
  refine Proc.wp_iter (J := fun _ g h => Marked g.sessionList h) (fun _ g h hJ => ?_) fuel () _ _
    ⟨fun sp hsp => isShutdown_setShutdown hsp, h₁⟩
  refine (reapRound_marked hJ).mono fun x g' h' hJ => ?_
  cases x with
  | again _ => exact hJ
  | done _ => exact Proc.wp_pure.mpr ⟨rfl, hJ.2⟩

/-- What holds where `main` enters a state, once the sessions are being stopped. -/
def Stopping (l₀ : SessionTable) (s : InitState) (g : Globals) (h : List (Event sys)) : Prop :=
  match s with
  | .stopSessions | .runRcShutdown | .runSShutdown | .reaper => Dwindles l₀ g.sessionList h
  | .shutdown | .failure => NoGetty h
  | _ => False

theorem stopping_step (l₀ : SessionTable) {s : InitState} (hJ : Stopping l₀ s g h) :
    Proc.Wp (fun _ => SparesSessions l₀) NoGetty (rcSwitch how fuel s) g h fun s' g' h' =>
      Stopping l₀ s' g' h' := by
  cases s with
  | stopSessions => exact Proc.wp_pure.mpr hJ
  | runRcShutdown =>
    exact Proc.wp_bind.mpr ((doRunRc_wp _ _ (dwindles_rc l₀) hJ).mono fun _ _ _ hJ => Proc.wp_pure.mpr hJ)
  | runSShutdown =>
    refine Proc.wp_bind.mpr (Proc.wp_get.mpr (Proc.wp_bind.mpr ?_))
    refine ((processBootstrapScript_frame g.sShutdownScript).wp (J := NoGetty)
      (fun h e hh he => noGetty_snoc hh (forksGetty_command he)) (fun _ hh => hh) hJ.2).mono
      fun sc g' h' hpost => ?_
    obtain ⟨hkeeps, hh'⟩ := hpost
    have hlist : g'.sessionList = g.sessionList := congrArg (·.2.2.2.1) hkeeps
    have hJ' : Dwindles l₀ g'.sessionList h' := ⟨by rw [hlist]; exact hJ.1, hh'⟩
    exact Proc.wp_ite.mpr ⟨fun _ => Proc.wp_pure.mpr hh', fun _ => Proc.wp_pure.mpr hJ'⟩
  | reaper =>
    refine (stateReaper_noGetty hJ.2).mono fun s g' h' hpost => ?_
    rw [hpost.1]
    exact hpost.2
  | failure => exact Proc.wp_pure.mpr hJ
  | shutdown =>
    refine Proc.wp_bind.mpr (Proc.wp_bind.mpr (Proc.wp_get.mpr (Proc.wp_bind.mpr
      (wp_syscall.mpr fun r e _ => ?_))))
    have hh : NoGetty (h ++ [⟨.shutdownOs g.shutdownHow, (r, e)⟩]) := noGetty_snoc hJ rfl
    refine ⟨hh, Proc.wp_iter (J := fun _ _ h => NoGetty h) (fun _ _ _ hh => Proc.wp_pure.mpr hh) _ _ _ _ hh⟩
  | runSStartup | runRcStartup | startSessions | messageLoop => exact hJ.elim

/-- From where the sessions are being stopped, with the rc scripts run, no getty
is started in a run in which `do_run_rc` is told of no process of a session that
is to be restarted. -/
theorem mainLoop_stopped (how : List UInt8 → Int) (fuel n : Nat) {q : Prog sys (Out Unit × Globals)}
    (hs : (mainLoop (rcSwitch how fuel) n .stopSessions g).Steps t q)
    (hspares : ∀ e ∈ t, SparesSessions g.sessionList e) : ∀ e ∈ t, forksGetty e.call = none := by
  have hw : Proc.Wp (fun _ => SparesSessions g.sessionList) NoGetty
      (mainLoop (rcSwitch how fuel) n .stopSessions) g [] fun _ _ _ => True :=
    Proc.wp_iter (J := fun s g' h => Stopping g.sessionList s g' h)
      (fun s g' h hJ => Proc.wp_bind.mpr ((stopping_step _ hJ).mono fun _ _ _ hJ => Proc.wp_pure.mpr hJ))
      n _ _ _ ⟨fun _ hsp => hsp, by simp [NoGetty]⟩
  refine hw.invariant hs (fun t₁ e t₂ ht => hspares e ?_) (by simp [NoGetty])
  rw [ht]
  simp

/-- One session, whose getty is process 7. -/
def oneGetty : Globals :=
  { Globals.initial [] 0 with sessionList := .addTail .empty ⟨0, 0, some 7, SE_PRESENT,
    "/dev/tty1".toList, some "getty tty1".toList, ["getty".toList, "tty1".toList]⟩ }

/-- While rc.shutdown runs as process 9, process `pid` exits. -/
def exitsFirst (pid : Pid) : List (Event sys) :=
  [⟨.fork (.rc [PATH_SHELL, PATH_RC_SHUTDOWN]), (some 9, 0)⟩,
    ⟨.waitpid true, (some (pid, .exited 0), 0)⟩]

/-- rc.shutdown exits before the getty. -/
theorem mainLoop_stopped_exited : ∃ q,
    (mainLoop (rcSwitch (fun _ => 0) 2) 2 .stopSessions oneGetty).Steps (exitsFirst 9) q ∧
      ∀ e ∈ exitsFirst 9, forksGetty e.call = none := by
  have hs : (mainLoop (rcSwitch (fun _ => 0) 2) 2 .stopSessions oneGetty).Steps (exitsFirst 9) _ :=
    .cons (.cons (.nil _))
  refine ⟨_, hs, mainLoop_stopped (fun _ => 0) 2 2 hs fun e he pid status hr sp hsp hpid => ?_⟩
  obtain rfl := List.mem_singleton.mp hsp
  simp only [exitsFirst, List.mem_cons, List.not_mem_nil, or_false] at he
  rcases he with rfl | rfl
  · cases hr
  · cases hr
    cases hpid

/-- The getty exits before rc.shutdown, and is started again. -/
theorem getty_restarted : ∃ q,
    (mainLoop (rcSwitch (fun _ => 0) 2) 2 .stopSessions oneGetty).Steps (exitsFirst 7 ++
      [⟨.fork (.getty 0 "/dev/tty1".toList ["getty".toList, "tty1".toList]), (some 6, 0)⟩]) q :=
  ⟨_, .cons (.cons (.cons (.nil _)))⟩

/-! ## One getty for each session -/

/-- What holds of the table and the gettys along `do_run_rc`: no session has two
gettys, or ever had; a session that records a process has no getty but that;
and the sessions are still marked as they were. -/
structure OneEach (k : Gettys) (l₀ l : SessionTable) (h : List (Event sys)) : Prop where
  exclusive : (gettys k h).Exclusive
  replaces : Replaces k h
  recorded : ∀ sp ∈ l.entries, ∀ pid, sp.seProcess = some pid →
    ∀ pid', gettys k h pid' = some sp.id → pid' = pid
  marked : ∀ sp ∈ l.entries, ∃ sp₀ ∈ l₀.entries, sp₀.id = sp.id ∧ sp₀.isShutdown = sp.isShutdown

/-- A report of a stopped process is of no getty of a session that is to be
restarted. -/
def SparesStopped (k : Gettys) (l : SessionTable) (e : Event sys) : Prop :=
  ∀ pid status, reports e = some (pid, status) → status.isStopped →
    ∀ sp ∈ l.entries, k pid = some sp.id → sp.isShutdown

theorem gettys_snoc (k : Gettys) (h : List (Event sys)) (e : Event sys) :
    gettys k (h ++ [e]) = afterCall (gettys k h) e := by
  rw [gettys_append]; rfl

theorem replaces_snoc (hr : Replaces k h)
    (he : ∀ id, forksGetty e.call = some id → ∀ pid, gettys k h pid ≠ some id) :
    Replaces k (h ++ [e]) := by
  intro t₁ e' t₂ ht
  rcases snoc_eq_append_cons ht with ⟨rfl, rfl⟩ | ⟨t₃, ht⟩
  · exact he
  · exact hr t₁ e' t₃ ht

theorem reap_some {pid pid' : Pid} {status : Status} {id : Nat}
    (h : reap k pid status pid' = some id) : k pid' = some id := by
  rw [reap] at h
  split at h
  · exact h
  · exact (Assign.release_eq_some.mp h).2

/-- A call that forks no getty can only reap some. -/
theorem afterCall_some (he : forksGetty e.call = none) {pid : Pid} {id : Nat}
    (h : afterCall k e pid = some id) : k pid = some id := by
  obtain ⟨c, r⟩ := e
  cases c with
  | fork child =>
    cases child with
    | getty => cases he
    | _ => exact h
  | waitpid untraced =>
    obtain ⟨x, e⟩ := r
    cases x with
    | none => exact h
    | some x => exact reap_some h
  | waitpidNohang =>
    obtain ⟨x, e⟩ := r
    cases x with
    | child pid status => exact reap_some h
    | _ => exact h
  | _ => exact h

/-- After a call that forks no getty, there are no more than before. -/
theorem OneEach.snoc {l₀ l : SessionTable} (hJ : OneEach k l₀ l h) (he : forksGetty e.call = none) :
    OneEach k l₀ l (h ++ [e]) where
  exclusive pid pid' id h₁ h₂ := by
    rw [gettys_snoc] at h₁ h₂
    exact hJ.exclusive pid pid' id (afterCall_some he h₁) (afterCall_some he h₂)
  replaces := replaces_snoc hJ.replaces fun id hid => by rw [he] at hid; cases hid
  recorded sp hsp pid hpid pid' h' := by
    rw [gettys_snoc] at h'
    exact hJ.recorded sp hsp pid hpid pid' (afterCall_some he h')
  marked := hJ.marked

/-- A session that has no getty is given one, or the `fork` fails. -/
theorem OneEach.restart {l₀ l : SessionTable} {id : Nat} (hJ : OneEach k l₀ l h) (device : Str)
    (argv : List Str) (hnone : ∀ pid, gettys k h pid ≠ some id) (r : Option Pid) (e : Int) :
    OneEach k l₀ (restarted l id r) (h ++ [⟨.fork (.getty id device argv), (r, e)⟩]) := by
  have hreplaces : Replaces k (h ++ [⟨.fork (.getty id device argv), (r, e)⟩]) :=
    replaces_snoc hJ.replaces fun id' hid => by
      obtain rfl : id = id' := Option.some.inj hid
      exact hnone
  cases r with
  | none =>
    have hk : gettys k (h ++ [⟨.fork (.getty id device argv), (none, e)⟩]) = gettys k h :=
      gettys_snoc ..
    refine ⟨?_, hreplaces, ?_, hJ.marked⟩
    · rw [hk]; exact hJ.exclusive
    · rw [hk]; exact hJ.recorded
  | some pid =>
    have hk : gettys k (h ++ [⟨.fork (.getty id device argv), (some pid, e)⟩]) =
        (gettys k h).grant pid id := gettys_snoc ..
    refine ⟨?_, hreplaces, fun sp hsp pid₁ hpid₁ pid₂ hpid₂ => ?_, fun sp hsp => ?_⟩
    · rw [hk]; exact hJ.exclusive.grant hnone pid
    · rw [hk, Assign.grant_eq_some] at hpid₂
      rcases mem_setProcess hsp with ⟨hsp, hne⟩ | ⟨sp, hsp, rfl, rfl⟩
      · rcases hpid₂ with ⟨-, hid⟩ | ⟨-, hpid₂⟩
        · exact absurd hid.symm hne
        · exact hJ.recorded sp hsp pid₁ hpid₁ pid₂ hpid₂
      · rcases hpid₂ with ⟨rfl, -⟩ | ⟨-, hpid₂⟩
        · exact Option.some.inj hpid₁
        · exact absurd hpid₂ (hnone pid₂)
    · rcases mem_setProcess hsp with ⟨hsp', -⟩ | ⟨sp', hsp', rfl, rfl⟩
      · exact hJ.marked sp hsp'
      · exact hJ.marked sp' hsp'

/-- Each collection keeps it, as long as no getty that is to be restarted is
reported as stopped. -/
theorem oneEach_rc (k : Gettys) (l₀ : SessionTable) :
    RcInvariant (fun h => SparesStopped (gettys k h) l₀)
      (fun h => (gettys k h).Exclusive ∧ Replaces k h) (OneEach k l₀) where
  holds _ _ hJ := ⟨hJ.exclusive, hJ.replaces⟩
  idle l h e hJ _ he := hJ.snoc (forksGetty_idleRc he)
  collect g h pid status e hJ ha := by
    have h₁ : OneEach k l₀ g.sessionList (h ++ [⟨.waitpid true, (some (pid, status), e)⟩]) :=
      hJ.snoc rfl
    refine ⟨⟨h₁.exclusive, h₁.replaces⟩, ?_⟩
    refine collectProcess_wp (J := OneEach k l₀ g.sessionList)
      (fun h e hJ he => hJ.snoc (forksGetty_free he)) (fun _ hJ => ⟨hJ.exclusive, hJ.replaces⟩) h₁
      (fun _ => h₁) (fun sp _ _ g' h' hg hJ' => ?_) fun sp hfind hshut r e' _ => ?_
    · rw [hg]
      exact ⟨hJ'.exclusive, hJ'.replaces, fun sp' hsp' => hJ'.recorded sp' (mem_remEntry hsp').1,
        fun sp' hsp' => hJ'.marked sp' (mem_remEntry hsp').1⟩
    · obtain ⟨hsp, hpid⟩ := findSession_some hfind
      -- the process that is replaced has terminated: were it stopped, it would be no getty of `sp`
      have hnone : ∀ pid', gettys k (h ++ [⟨.waitpid true, (some (pid, status), e)⟩]) pid' ≠
          some sp.id := by
        intro pid' h'
        rw [gettys_snoc, afterCall] at h'
        obtain rfl := hJ.recorded sp hsp pid hpid pid' (reap_some h')
        by_cases hstop : status.isStopped
        · rw [reap, if_pos hstop] at h'
          obtain ⟨sp₀, hsp₀, hid, hmark⟩ := hJ.marked sp hsp
          have := ha _ _ rfl hstop sp₀ hsp₀ (hid ▸ h')
          rw [hmark, hshut] at this
          cases this
        · rw [reap, if_neg hstop, Assign.release_same] at h'
          cases h'
      have hJ' := h₁.restart sp.seDevice sp.seGettyArgv hnone r e'
      exact ⟨⟨hJ'.exclusive, hJ'.replaces⟩, fun g' hg => hg ▸ hJ'⟩

/-- From a table whose processes are gettys of their sessions, along any run of
`do_run_rc` in which no getty of a session that is to be restarted is reported as
stopped, no session ever has two gettys, and one is forked only where there is
none. -/
theorem doRunRc_exclusive (fuel : Nat) (path : Str) (hone : k.Exclusive)
    (hlive : ∀ sp ∈ g.sessionList.entries, ∀ pid, sp.seProcess = some pid → k pid = some sp.id)
    {q : Prog sys (Out Int × Globals)} (hs : (doRunRc fuel path g).Steps t q)
    (hspares : ∀ t₁ e t₂, t = t₁ ++ e :: t₂ → SparesStopped (gettys k t₁) g.sessionList e) :
    (gettys k t).Exclusive ∧ Replaces k t := by
  have h₀ : OneEach k g.sessionList g.sessionList [] := {
    exclusive := hone
    replaces := by simp [Replaces]
    recorded := fun sp hsp pid hpid pid' h' => hone _ _ _ h' (hlive sp hsp pid hpid)
    marked := fun sp hsp => ⟨sp, hsp, rfl, rfl⟩ }
  have hw := doRunRc_wp fuel path (oneEach_rc k g.sessionList) h₀
  refine hw.invariant hs (fun t₁ e t₂ ht => ?_) ⟨hone, h₀.replaces⟩
  exact hspares t₁ e t₂ ht

/-- The getty of session 0 is process 7. -/
def seven : Gettys := fun pid => if pid = 7 then some 0 else none

/-- While rc.shutdown runs, process 7 changes state and process 6 is forked. -/
def sevenChanges (status : Status) : List (Event sys) :=
  [⟨.fork (.rc [PATH_SHELL, PATH_RC_SHUTDOWN]), (some 9, 0)⟩,
    ⟨.waitpid true, (some (7, status), 0)⟩,
    ⟨.fork (.getty 0 "/dev/tty1".toList ["getty".toList, "tty1".toList]), (some 6, 0)⟩]

/-- The getty terminates and is replaced. -/
theorem doRunRc_exclusive_exited :
    (gettys seven (sevenChanges (.exited 0))).Exclusive ∧ Replaces seven (sevenChanges (.exited 0)) := by
  have hs : (doRunRc 2 PATH_RC_SHUTDOWN oneGetty).Steps (sevenChanges (.exited 0)) _ :=
    .cons (.cons (.cons (.nil _)))
  refine doRunRc_exclusive 2 PATH_RC_SHUTDOWN (fun pid pid' id h h' => ?_) (fun sp hsp pid hpid => ?_)
    hs fun t₁ e t₂ ht pid status hr hstop => ?_
  · simp only [seven, Option.ite_none_right_eq_some] at h h'
    rw [h.1, h'.1]
  · obtain rfl := List.mem_singleton.mp hsp
    obtain rfl : 7 = pid := Option.some.inj hpid
    rfl
  · have he : e ∈ sevenChanges (.exited 0) := by rw [ht]; simp
    simp only [sevenChanges, List.mem_cons, List.not_mem_nil, or_false] at he
    rcases he with rfl | rfl | rfl
    · cases hr
    · cases hr
      cases hstop
    · cases hr

/-- The getty is stopped and replaced all the same: session 0 has two gettys. -/
theorem stopped_replaced :
    (∃ q, (doRunRc 2 PATH_RC_SHUTDOWN oneGetty).Steps (sevenChanges (.stopped 19)) q) ∧
      gettys seven (sevenChanges (.stopped 19)) 7 = some 0 ∧
      gettys seven (sevenChanges (.stopped 19)) 6 = some 0 :=
  ⟨⟨_, .cons (.cons (.cons (.nil _)))⟩, rfl, rfl⟩

end Cheviot.Proof
