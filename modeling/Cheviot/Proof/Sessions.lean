import Mathlib.Data.List.Nodup
import Cheviot.Proof.Frames
import Cheviot.Spec.Sessions

/-!
# The session table

`collect_process` by one rule (`collectProcess_wp`), from which every property
of it is proved. `sessions_sound`: over any run of starts and collections the
table is sound exactly if no restart of a terminated process fails.
-/

namespace Cheviot.Proof

open Framework Cheviot.Sysinit Cheviot.Spec

variable {g g' : Globals} {k : Gettys} {l : SessionTable} {sp sp' : Session} {pid pid' : Pid}
  {status : Status} {t : List (Event sys)}

/-! ## The table -/

theorem eq_of_id (h : sp ∈ l.entries) (h' : sp' ∈ l.entries) (he : sp.id = sp'.id) : sp = sp' :=
  List.inj_on_of_nodup_map l.nodup h h' he

theorem findSession_some (h : findSession l.entries pid = some sp) :
    sp ∈ l.entries ∧ sp.seProcess = some pid :=
  ⟨List.mem_of_find?_eq_some h, by simpa using List.find?_some h⟩

theorem findSession_none (h : findSession l.entries pid = none) :
    ∀ sp ∈ l.entries, sp.seProcess ≠ some pid := by
  simpa [findSession] using h

theorem mem_remEntry (h : sp' ∈ (l.remEntry sp).entries) : sp' ∈ l.entries ∧ sp'.id ≠ sp.id := by
  rw [SessionTable.remEntry] at h
  dsimp only at h
  split at h
  · simpa using h
  · cases h

/-- The session whose process has been set, or another one. -/
theorem mem_setProcess {id : Nat} (h : sp' ∈ (l.setProcess id pid).entries) :
    (sp' ∈ l.entries ∧ sp'.id ≠ id) ∨
      ∃ sp ∈ l.entries, sp.id = id ∧ sp' = { sp with seProcess := some pid } := by
  obtain ⟨sp, hsp, rfl⟩ := List.mem_map.mp h
  by_cases hid : sp.id = id
  · rw [if_pos hid]
    exact .inr ⟨sp, hsp, hid, rfl⟩
  · rw [if_neg hid]
    exact .inl ⟨hsp, hid⟩

/-- A table is sound if what it records are gettys of its sessions. -/
theorem sound_of_live (hlive : ∀ sp ∈ l.entries, ∀ pid, sp.seProcess = some pid → k pid = some sp.id) :
    Sound k l := by
  have hdistinct : ∀ sp ∈ l.entries, ∀ sp' ∈ l.entries, ∀ pid,
      sp.seProcess = some pid → sp'.seProcess = some pid → sp = sp' := by
    intro sp hsp sp' hsp' pid h h'
    refine eq_of_id hsp hsp' (Option.some.inj ?_)
    rw [← hlive sp hsp pid h, hlive sp' hsp' pid h']
  refine ⟨hlive, hdistinct, fun pid sp => ⟨findSession_some, fun ⟨hsp, hpid⟩ => ?_⟩⟩
  cases hfind : findSession l.entries pid with
  | none => exact absurd hpid (findSession_none hfind sp hsp)
  | some sp' =>
    obtain ⟨hsp', hpid'⟩ := findSession_some hfind
    rw [hdistinct sp hsp sp' hsp' pid hpid hpid']

/-! ## Collecting a process -/

/-- The table after the `fork` of a session's restart. -/
def restarted (l : SessionTable) (id : Nat) : Option Pid → SessionTable
  | none => l
  | some pid => l.setProcess id pid

/-- The rule of `collect_process`: it does nothing for a process that no session
records, frees a session that is not to be restarted, and forks a getty for
any other. -/
theorem collectProcess_wp {A : List (Event sys) → Event sys → Prop} {I J : List (Event sys) → Prop}
    {h : List (Event sys)} {Q : Unit → Globals → List (Event sys) → Prop}
    (hfree : ∀ h e, J h → isFree e.call → J (h ++ [e])) (hJI : ∀ h, J h → I h) (h₀ : J h)
    (hnone : findSession g.sessionList.entries pid = none → Q () g h)
    (hshutdown : ∀ sp, findSession g.sessionList.entries pid = some sp → sp.isShutdown → ∀ g' h',
      g'.sessionList = g.sessionList.remEntry sp → J h' → Q () g' h')
    (hfork : ∀ sp, findSession g.sessionList.entries pid = some sp → sp.isShutdown = false → ∀ r e,
      A h ⟨.fork (.getty sp.id sp.seDevice sp.seGettyArgv), (r, e)⟩ →
      I (h ++ [⟨.fork (.getty sp.id sp.seDevice sp.seGettyArgv), (r, e)⟩]) ∧
      ∀ g', g'.sessionList = restarted g.sessionList sp.id r →
        Q () g' (h ++ [⟨.fork (.getty sp.id sp.seDevice sp.seGettyArgv), (r, e)⟩])) :
    Proc.Wp A I (collectProcess pid status) g h Q := by
  refine Proc.wp_bind.mpr (Proc.wp_get.mpr (Proc.wp_ite.mpr ⟨fun hnil => ?_, fun _ => ?_⟩))
  · exact Proc.wp_pure.mpr (hnone (by rw [hnil]; rfl))
  · cases hfind : findSession g.sessionList.entries pid with
    | none => exact Proc.wp_pure.mpr (hnone hfind)
    | some sp =>
      refine Proc.wp_ite.mpr ⟨fun hshut => ?_, fun hshut => ?_⟩
      · have free : ∀ b, Proc.Frame (isFree ·) (·.sessionList) (syscall (.free b)) :=
          fun b => syscall_frame rfl fun _ _ => rfl
        refine Proc.wp_bind.mpr (Proc.wp_modify.mpr ((Proc.Frame.wp (.bind (free _) fun _ =>
          .ite (.bind (free _) fun _ => .bind (free _) fun _ => free _) (free _)) hfree hJI h₀).mono
          fun _ g' h' hpost => ?_))
        exact hshutdown sp hfind hshut g' h' hpost.1 hpost.2
      · refine Proc.wp_bind.mpr (wp_syscall.mpr fun r e ha => ?_)
        obtain ⟨hI, hQ⟩ := hfork sp hfind (by simpa using hshut) r e ha
        refine ⟨hI, ?_⟩
        cases r with
        | none => exact Proc.wp_pure.mpr (hQ _ rfl)
        | some pid' => exact Proc.wp_modify.mpr (hQ _ rfl)

/-- What the collection of a process does with the table `l`: nothing, or the end
of its session, or a `fork` for its session. -/
def Collects (l : SessionTable) (pid : Pid) (t : List (Event sys)) (l' : SessionTable) : Prop :=
  (findSession l.entries pid = none ∧ t = [] ∧ l' = l) ∨
  (∃ sp, findSession l.entries pid = some sp ∧ sp.isShutdown ∧ (∀ e ∈ t, isFree e.call) ∧
    l' = l.remEntry sp) ∨
  ∃ sp r e, findSession l.entries pid = some sp ∧ sp.isShutdown = false ∧
    t = [⟨.fork (.getty sp.id sp.seDevice sp.seGettyArgv), (r, e)⟩] ∧ l' = restarted l sp.id r

theorem collectProcess_cases (h : (collectProcess pid status g).Runs t (.ok (), g')) :
    Collects g.sessionList pid t g'.sessionList := by
  have hw : Proc.Wp (fun _ _ => True) (fun _ => True) (collectProcess pid status) g [] fun _ g' t =>
      Collects g.sessionList pid t g'.sessionList := by
    refine collectProcess_wp (J := fun t => ∀ e ∈ t, isFree e.call) (fun t e ht he => ?_)
      (fun _ _ => trivial) (by simp) (fun hfind => .inl ⟨hfind, rfl, rfl⟩)
      (fun sp hfind hshut g' t hg ht => .inr (.inl ⟨sp, hfind, hshut, ht, hg⟩))
      fun sp hfind hshut r e _ => ⟨trivial, fun g' hg => .inr (.inr ⟨sp, r, e, hfind, hshut, rfl, hg⟩)⟩
    exact List.forall_mem_append.mpr ⟨ht, List.forall_mem_singleton.mpr he⟩
  exact hw.runs h fun _ _ _ _ => trivial

/-- What a run of a round of the start loop is. -/
theorem startSession_cases {n i : Nat} {r : Proc.Round Nat InitState}
    (h : (startSession n i g).Runs t (.ok r, g')) :
    (t = [] ∧ g'.sessionList = g.sessionList) ∨
    ∃ sp pid e, sp ∈ g.sessionList.entries ∧ sp.seProcess = none ∧
      t = [⟨.fork (.getty sp.id sp.seDevice sp.seGettyArgv), (pid, e)⟩] ∧
      g'.sessionList = restarted g.sessionList sp.id pid := by
  rw [startSession, Proc.runs_get_bind] at h
  cases hsp : g.sessionList.entries[i]? with
  | none =>
    rw [hsp] at h
    obtain ⟨rfl, -, rfl⟩ := Proc.runs_pure.mp h
    exact .inl ⟨rfl, rfl⟩
  | some sp =>
    rw [hsp] at h
    dsimp only at h
    by_cases hpid : sp.seProcess.isSome
    · rw [if_pos hpid] at h
      obtain ⟨rfl, -, rfl⟩ := Proc.runs_pure.mp h
      exact .inl ⟨rfl, rfl⟩
    · rw [if_neg hpid] at h
      obtain ⟨t₁, t₂, pid, g₁, rfl, h₁, h⟩ := Proc.runs_bind_ok.mp h
      obtain ⟨e, rfl, rfl⟩ := runs_syscall.mp h₁
      refine .inr ⟨sp, pid, e, List.mem_of_getElem? hsp, by simpa using hpid, ?_⟩
      cases pid with
      | none =>
        obtain ⟨rfl, -, rfl⟩ := Proc.runs_pure.mp h
        exact ⟨rfl, rfl⟩
      | some pid =>
        rw [Proc.runs_modify_bind] at h
        obtain ⟨rfl, -, rfl⟩ := Proc.runs_pure.mp h
        exact ⟨rfl, rfl⟩

/-! ## The invariant -/

theorem gettys_append (k : Gettys) (t t' : List (Event sys)) :
    gettys k (t ++ t') = gettys (gettys k t) t' := List.foldl_append

/-- Calls that neither fork nor wait. -/
theorem gettys_free (h : ∀ e ∈ t, isFree e.call) : gettys k t = k := by
  induction t with
  | nil => rfl
  | cons e t ih =>
    have he := h e List.mem_cons_self
    obtain ⟨c, r⟩ := e
    cases c with
    | free b => exact ih fun e he => h e (List.mem_cons_of_mem _ he)
    | _ => cases he

/-- A session's process is replaced by one that has just been forked for it. -/
theorem sound_setProcess {id : Nat} (hlive : ∀ sp ∈ l.entries, sp.id ≠ id → ∀ pid,
      sp.seProcess = some pid → k pid = some sp.id) (hfresh : k pid' = none) :
    Sound (k.grant pid' id) (l.setProcess id pid') := by
  refine sound_of_live fun sp hsp pid hpid => ?_
  rcases mem_setProcess hsp with ⟨hsp, hid⟩ | ⟨sp, hsp, rfl, rfl⟩
  · have hk := hlive sp hsp hid pid hpid
    rw [Assign.grant_ne (fun e => by rw [e, hfresh] at hk; cases hk), hk]
  · obtain rfl : pid' = pid := by simpa using hpid
    exact Assign.grant_same

theorem reap_of_ne (h : pid' ≠ pid) : reap k pid status pid' = k pid' := by
  rw [reap]
  split
  · rfl
  · exact Assign.release_ne h

/-- After a report of a process, what the other sessions record is still theirs. -/
theorem live_reap (h : Sound k l) (hsp : sp ∈ l.entries) (hpid : sp.seProcess = some pid)
    (hsp' : sp' ∈ l.entries) (hne : sp'.id ≠ sp.id) (hpid' : sp'.seProcess = some pid') :
    reap k pid status pid' = some sp'.id := by
  have : pid' ≠ pid := fun e => hne (congrArg (·.id) (h.distinct sp' hsp' sp hsp pid (e ▸ hpid') hpid))
  rw [reap_of_ne this]
  exact h.live sp' hsp' pid' hpid'

variable {w w₁ w₂ : World} {op : Op}

/-- An operation keeps the table sound, unless it is a restart that fails. -/
theorem opStep_sound (hs : OpStep w₁ op t w₂) (h : Sound w₁.gettys w₁.globals.sessionList)
    (hok : ¬ FailedRestart w₁.globals.sessionList op t) : Sound w₂.gettys w₂.globals.sessionList := by
  cases hs with
  | @start k g g' i t r hr hfresh =>
    rcases startSession_cases hr with ⟨rfl, hg⟩ | ⟨sp, pid, e, hsp, -, rfl, hg⟩
    · rw [hg]; exact h
    · rw [hg]
      cases pid with
      | none => exact h
      | some pid =>
        exact sound_setProcess (fun sp' hsp' _ => h.live sp' hsp') (hfresh _ List.mem_cons_self)
  | @collect k g g' pid status t hr hfresh =>
    rcases collectProcess_cases hr with ⟨hfind, rfl, hg⟩ | ⟨sp, hfind, -, hfree, hg⟩ |
      ⟨sp, r, e, hfind, hshut, rfl, hg⟩
    · rw [hg]
      refine sound_of_live fun sp hsp pid' hpid' => ?_
      have : pid' ≠ pid := fun e => findSession_none hfind sp hsp (e ▸ hpid')
      exact (reap_of_ne this).trans (h.live sp hsp pid' hpid')
    · obtain ⟨hsp, hpid⟩ := findSession_some hfind
      rw [hg, gettys_free hfree]
      refine sound_of_live fun sp' hsp' pid' hpid' => ?_
      obtain ⟨hsp', hne⟩ := mem_remEntry hsp'
      exact live_reap h hsp hpid hsp' hne hpid'
    · obtain ⟨hsp, hpid⟩ := findSession_some hfind
      rw [hg]
      cases r with
      | some pid' =>
        exact sound_setProcess (fun sp' hsp' hne pid' hpid' => live_reap h hsp hpid hsp' hne hpid')
          (hfresh _ List.mem_cons_self)
      | none =>
        -- the process is still there, or else the restart of its session has failed
        have hstop : status.isStopped := by
          by_contra hstop
          exact hok ⟨hstop, ⟨sp, hfind, by simp [hshut]⟩, _, e, List.mem_cons_self⟩
        show Sound (reap k pid status) g.sessionList
        rw [reap, if_pos hstop]
        exact h

/-- After a restart that fails the dead process is still recorded. -/
theorem opStep_failed (hs : OpStep w₁ op t w₂) (hfail : FailedRestart w₁.globals.sessionList op t) :
    ¬ Sound w₂.gettys w₂.globals.sessionList := by
  cases hs with
  | start => exact hfail.elim
  | @collect k g g' pid status t hr hfresh =>
    obtain ⟨hstop, ⟨sp, hfind, hshut⟩, child, e, he⟩ := hfail
    intro h
    rcases collectProcess_cases hr with ⟨hfind', -⟩ | ⟨sp', hfind', hshut', -⟩ |
      ⟨sp', r, e', hfind', -, rfl, hg⟩
    · rw [hfind] at hfind'; cases hfind'
    · rw [hfind] at hfind'; cases hfind'; exact hshut hshut'
    · obtain rfl : r = none := by
        cases List.mem_singleton.mp he; rfl
      obtain ⟨hsp, hpid⟩ := findSession_some hfind
      have hlive := h.live sp (by rw [hg]; exact hsp) pid hpid
      have hdead : reap k pid status pid = none := by rw [reap, if_neg hstop, Assign.release_same]
      exact absurd (hdead.symm.trans hlive) (by simp)

/-! ## Runs -/

theorem opStep_det (h : OpStep w op t w₁) (h' : OpStep w op t w₂) : w₁ = w₂ := by
  cases h with
  | start h =>
    cases h' with
    | start h' => cases Prog.Steps.det h h'; rfl
  | collect h =>
    cases h' with
    | collect h' => cases Prog.Steps.det h h'; rfl

theorem opRun_det {l : List (Op × List (Event sys))} (h : OpRun w l w₁) (h' : OpRun w l w₂) :
    w₁ = w₂ := by
  induction h generalizing w₂ with
  | nil =>
    generalize hl : ([] : List (Op × List (Event sys))) = l at h'
    cases h' with
    | nil => rfl
    | snoc => simp at hl
  | @snoc l w₁ w₃ op t _ hs ih =>
    generalize hl : l ++ [(op, t)] = l' at h'
    cases h' with
    | nil => simp at hl
    | snoc hr' hs' =>
      obtain ⟨rfl, e⟩ := List.append_inj' hl rfl
      cases e
      obtain rfl := ih hr'
      exact opStep_det hs hs'

/-- An operation of a run. -/
theorem opRun_step {l l₁ l₂ : List (Op × List (Event sys))} (h : OpRun w l w₂)
    (hl : l = l₁ ++ (op, t) :: l₂) : ∃ w₁ w₃, OpRun w l₁ w₁ ∧ OpStep w₁ op t w₃ := by
  induction h generalizing l₂ with
  | nil => simp at hl
  | snoc hr hs ih =>
    rcases snoc_eq_append_cons hl with ⟨rfl, e⟩ | ⟨l₃, hl⟩
    · cases e
      exact ⟨_, _, hr, hs⟩
    · exact ih hl

/-- From a sound table, any number of starts and collections, of any processes
and with any results of each `fork`, leave the table sound after each of them
exactly if no restart of a terminated process fails. -/
theorem sessions_sound {l : List (Op × List (Event sys))}
    (h₀ : Sound w.gettys w.globals.sessionList) (h : OpRun w l w₂) :
    (∀ l₁ l₂ w₁, l = l₁ ++ l₂ → OpRun w l₁ w₁ → Sound w₁.gettys w₁.globals.sessionList) ↔
      ∀ l₁ op t l₂ w₁, l = l₁ ++ (op, t) :: l₂ → OpRun w l₁ w₁ →
        ¬ FailedRestart w₁.globals.sessionList op t := by
  constructor
  · intro hsound l₁ op t l₂ w₁ hl h₁ hfail
    obtain ⟨w₃, w₄, h₃, hs⟩ := opRun_step h hl
    obtain rfl := opRun_det h₁ h₃
    exact opStep_failed hs hfail
      (hsound (l₁ ++ [(op, t)]) l₂ w₄ (by rw [hl, List.append_assoc]; rfl) (.snoc h₁ hs))
  · intro hok l₁ l₂ w₁ hl h₁
    induction h₁ generalizing l₂ with
    | nil => exact h₀
    | @snoc l₁ w₁ w₃ op t h₁ hs ih =>
      rw [List.append_assoc, List.singleton_append] at hl
      exact opStep_sound hs (ih _ hl) (hok l₁ op t l₂ w₁ hl h₁)

/-- One session, for which nothing has been started. -/
def oneSession : World where
  gettys _ := none
  globals := { Globals.initial [] 0 with sessionList := .addTail .empty ⟨0, 0, none, SE_PRESENT,
    "/dev/tty1".toList, some "getty tty1".toList, ["getty".toList, "tty1".toList]⟩ }

/-- The session, with a process. -/
def oneStarted (pid : Pid) : Globals :=
  { oneSession.globals with sessionList := oneSession.globals.sessionList.setProcess 0 pid }

/-- The session is started as process 5, which terminates and is collected, where
`fork` returns `r`. -/
def collectFive (r : Option Pid) : List (Op × List (Event sys)) :=
  let getty := Call.fork (.getty 0 "/dev/tty1".toList ["getty".toList, "tty1".toList])
  [(.start 0, [⟨getty, (some 5, 0)⟩]), (.collect 5 (.exited 0), [⟨getty, (r, 0)⟩])]

theorem oneSession_sound : Sound oneSession.gettys oneSession.globals.sessionList :=
  sound_of_live fun sp hsp pid hpid => by
    obtain rfl := List.mem_singleton.mp hsp
    cases hpid

theorem collectFive_run (r : Option Pid) (hr : r = none ∨ r = some 5) :
    ∃ w, OpRun oneSession (collectFive r) w ∧
      w.globals.sessionList.entries.map (·.seProcess) = [some 5] ∧
      w.gettys 5 = r.map fun _ => 0 := by
  have hstart : OpStep oneSession (.start 0) [⟨.fork (.getty 0 "/dev/tty1".toList
      ["getty".toList, "tty1".toList]), (some 5, 0)⟩] _ :=
    .start (.cons (.nil _)) fun e he => by rw [List.mem_singleton.mp he]; rfl
  rcases hr with rfl | rfl
  · refine ⟨_, .snoc (.snoc .nil hstart) (.collect (.cons (.nil _)) fun e he => ?_), rfl, rfl⟩
    rw [List.mem_singleton.mp he]
    trivial
  · refine ⟨_, .snoc (.snoc .nil hstart) (.collect (.cons (.nil _)) fun e he => ?_), rfl, rfl⟩
    rw [List.mem_singleton.mp he]
    rfl

/-- The restart gets the pid of the process that it replaces. -/
theorem sessions_sound_reused : ∃ w, OpRun oneSession (collectFive (some 5)) w ∧
    ∀ l₁ l₂ w, collectFive (some 5) = l₁ ++ l₂ → OpRun oneSession l₁ w →
      Sound w.gettys w.globals.sessionList := by
  obtain ⟨w, hrun, -⟩ := collectFive_run (some 5) (.inr rfl)
  refine ⟨w, hrun, (sessions_sound oneSession_sound hrun).mpr fun l₁ op t l₂ w₁ hl _ hfail => ?_⟩
  have hmem : (op, t) ∈ collectFive (some 5) := by rw [hl]; simp
  simp only [collectFive, List.mem_cons, List.not_mem_nil, or_false, Prod.mk.injEq] at hmem
  rcases hmem with ⟨rfl, rfl⟩ | ⟨rfl, rfl⟩
  · exact hfail
  · obtain ⟨-, -, child, e, he⟩ := hfail
    cases List.mem_singleton.mp he

/-- The restart fails: the session still records process 5, which has been reaped. -/
theorem failedRestart_recorded : Sound oneSession.gettys oneSession.globals.sessionList ∧
    ∃ w, OpRun oneSession (collectFive none) w ∧
      w.globals.sessionList.entries.map (·.seProcess) = [some 5] ∧ w.gettys 5 = none ∧
      ¬ Sound w.gettys w.globals.sessionList := by
  obtain ⟨w, hrun, hpid, hdead⟩ := collectFive_run none (.inl rfl)
  refine ⟨oneSession_sound, w, hrun, hpid, hdead, fun h => ?_⟩
  have hmem : some 5 ∈ w.globals.sessionList.entries.map (·.seProcess) := by rw [hpid]; simp
  obtain ⟨sp, hsp, hsp5⟩ := List.mem_map.mp hmem
  have hlive := h.live sp hsp 5 hsp5
  rw [hdead] at hlive
  cases hlive

end Cheviot.Proof
