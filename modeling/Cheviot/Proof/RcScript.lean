import Cheviot.Proof.Collect

/-!
# The result of the rc script

A round of `do_run_rc`'s wait is one of four (`RcRound`), each of which is known
by what it waits for and sends. `doRunRc_script`: whatever is reported, of the
script and of any other children, `do_run_rc` returns the result of the script.
-/

namespace Cheviot.Proof

open Framework Cheviot.Sysinit Cheviot.Spec

variable {fuel : Nat} {g g' : Globals} {pid wpid : Pid} {status : Status} {t t' : List (Event sys)}

/-! ## What is read off the calls of a round -/

/-- A call of `collect_process`. -/
def isRestart : Call → Bool
  | .free _ | .fork (.getty ..) => true
  | _ => false

/-- What `do_run_rc` has waited for and sent. -/
structure Log where
  kills : List (Option Pid × Signal)
  stops : List Status
  ends : List Status
  failures : List Int
  waits : Nat

/-- The log of a run of calls. -/
def rcLog (pid : Pid) (t : List (Event sys)) : Log :=
  ⟨kills t, stops pid t, ends pid t, failures t, (t.filter (isWait ·.call)).length⟩

/-- One log after the other. -/
def Log.append (l l' : Log) : Log :=
  ⟨l.kills ++ l'.kills, l.stops ++ l'.stops, l.ends ++ l'.ends, l.failures ++ l'.failures,
    l.waits + l'.waits⟩

theorem rcLog_append (pid : Pid) (t t' : List (Event sys)) :
    rcLog pid (t ++ t') = (rcLog pid t).append (rcLog pid t') := by
  simp [rcLog, Log.append, kills, stops, ends, failures, statuses]

/-- The calls of `collect_process` are not logged. -/
theorem rcLog_restart (h : ∀ e ∈ t, isRestart e.call) : rcLog pid t = ⟨[], [], [], [], 0⟩ := by
  induction t with
  | nil => rfl
  | cons e t ih =>
    have he := h e List.mem_cons_self
    have ht := ih fun e he => h e (List.mem_cons_of_mem _ he)
    rw [← List.singleton_append, rcLog_append, ht]
    obtain ⟨c, r⟩ := e
    cases c with
    | free b => rfl
    | fork child => cases child <;> rfl
    | _ => cases he

/-! ## A round -/

/-- The rounds of the wait for process `pid`. -/
inductive RcRound (pid : Pid) : List (Event sys) → Proc.Round Unit (Option Status) → Prop where
  | failed (e : Int) : RcRound pid [⟨.waitpid true, (none, e)⟩]
      (if e = EINTR then .again () else .done none)
  | stopped {status : Status} {e : Int} {t : List (Event sys)} {r : Bool × Int} :
      status.isStopped → (∀ e ∈ t, isRestart e.call) →
      RcRound pid (⟨.waitpid true, (some (pid, status), e)⟩ :: t ++ [⟨.kill (some pid) .cont, r⟩])
        (.again ())
  | ended {status : Status} {e : Int} {t : List (Event sys)} :
      ¬ status.isStopped → (∀ e ∈ t, isRestart e.call) →
      RcRound pid (⟨.waitpid true, (some (pid, status), e)⟩ :: t) (.done (some status))
  | other {wpid : Pid} {status : Status} {e : Int} {t : List (Event sys)} :
      wpid ≠ pid → (∀ e ∈ t, isRestart e.call) →
      RcRound pid (⟨.waitpid true, (some (wpid, status), e)⟩ :: t) (.again ())

theorem rcRound_cases {o : Out (Proc.Round Unit (Option Status))}
    (h : (rcRound pid g).Runs t (o, g')) : ∃ x, o = .ok x ∧ RcRound pid t x := by
  rw [rcRound, runs_syscall_bind_iff] at h
  obtain ⟨r, e, t', rfl, h⟩ := h
  cases r with
  | none =>
    rw [Proc.runs_get_bind, Proc.ite_apply] at h
    refine ⟨if e = EINTR then .again () else .done none, ?_⟩
    by_cases he : e = EINTR
    · rw [if_pos he] at h
      obtain ⟨rfl, rfl, -⟩ := Proc.runs_pure.mp h
      exact ⟨(if_pos he).symm ▸ rfl, .failed e⟩
    · rw [if_neg he] at h
      obtain ⟨rfl, rfl, -⟩ := Proc.runs_pure.mp h
      exact ⟨(if_neg he).symm ▸ rfl, .failed e⟩
  | some x =>
    obtain ⟨wpid, status⟩ := x
    dsimp only at h
    obtain ⟨t₁, t₂, _, g₁, rfl, h₁, h₂⟩ := (collectProcess_total wpid status).runs_bind h
    have hrestart : ∀ e ∈ t₁, isRestart e.call :=
      (collectProcess_frame (P := (isRestart ·)) (fun _ => rfl) (fun _ _ _ => rfl) wpid status).calls h₁
    rw [Proc.ite_apply] at h₂
    by_cases hstop : wpid = pid ∧ status.isStopped
    · rw [if_pos hstop, runs_syscall_bind_iff] at h₂
      obtain ⟨r, e', t₂, rfl, h₂⟩ := h₂
      obtain ⟨rfl, rfl, -⟩ := Proc.runs_pure.mp h₂
      obtain ⟨rfl, hstop⟩ := hstop
      exact ⟨_, rfl, .stopped hstop hrestart⟩
    · rw [if_neg hstop, Proc.ite_apply] at h₂
      by_cases hpid : wpid = pid
      · rw [if_pos hpid] at h₂
        obtain ⟨rfl, rfl, -⟩ := Proc.runs_pure.mp h₂
        subst hpid
        rw [List.append_nil]
        exact ⟨_, rfl, .ended (fun hs => hstop ⟨rfl, hs⟩) hrestart⟩
      · rw [if_neg hpid] at h₂
        obtain ⟨rfl, rfl, -⟩ := Proc.runs_pure.mp h₂
        rw [List.append_nil]
        exact ⟨_, rfl, .other hpid hrestart⟩

/-! ## The log of a round -/

/-- Each stop of the process has been answered by a SIGCONT, and nothing else has
been sent. -/
def Log.Continues (pid : Pid) (l : Log) : Prop :=
  l.kills = List.replicate l.stops.length (some pid, .cont)

/-- The process has not terminated, and no wait has failed for good. -/
def Log.Open (l : Log) : Prop := l.ends = [] ∧ ∀ e ∈ l.failures, e = EINTR

theorem Log.Continues.append {l l' : Log} (h : l.Continues pid) (h' : l'.Continues pid) :
    (l.append l').Continues pid := by
  rw [Log.Continues, Log.append, h, h', List.length_append, List.replicate_add]

theorem Log.Open.append {l l' : Log} (h : l.Open) (h' : l'.Open) : (l.append l').Open :=
  ⟨by rw [Log.append, h.1, h'.1]; rfl, List.forall_mem_append.mpr ⟨h.2, h'.2⟩⟩

/-- The log of code that ends the wait. -/
def Log.Ends (l : Log) : Option Status → Prop
  | none => l.ends = [] ∧ ∃ e ∈ l.failures, e ≠ EINTR
  | some status => l.ends = [status] ∧ ∀ e ∈ l.failures, e = EINTR

theorem Log.Ends.append {l l' : Log} {r : Option Status} (h : l.Open) (h' : l'.Ends r) :
    (l.append l').Ends r := by
  cases r with
  | none =>
    obtain ⟨hends, e, he, hne⟩ := h'
    exact ⟨by rw [Log.append, h.1, hends]; rfl, e, List.mem_append_right _ he, hne⟩
  | some status =>
    exact ⟨by rw [Log.append, h.1, h'.1]; rfl, List.forall_mem_append.mpr ⟨h.2, h'.2⟩⟩

/-- The log of a round. -/
def Log.OfRound (l : Log) : Proc.Round Unit (Option Status) → Prop
  | .again _ => l.Open ∧ l.waits = 1
  | .done r => l.Ends r

theorem rcLog_cons (pid : Pid) {e : Event sys} (h : ∀ e ∈ t, isRestart e.call) :
    rcLog pid (e :: t) = rcLog pid [e] := by
  rw [← List.singleton_append, rcLog_append, rcLog_restart h]
  simp [Log.append]

theorem rcLog_report (pid wpid : Pid) (status : Status) (e : Int) :
    rcLog pid [⟨.waitpid true, (some (wpid, status), e)⟩] =
      ⟨[], if wpid = pid ∧ status.isStopped then [status] else [],
        if wpid = pid ∧ ¬ status.isStopped then [status] else [], [], 1⟩ := by
  by_cases hpid : wpid = pid <;> by_cases hstop : status.isStopped <;>
    simp [rcLog, kills, stops, ends, failures, statuses, reports, isWait, hpid, hstop]

/-- What a round waits for and sends. -/
theorem rcRound_log {x : Proc.Round Unit (Option Status)} (h : RcRound pid t x) :
    (rcLog pid t).Continues pid ∧ (rcLog pid t).OfRound x := by
  cases h with
  | failed e =>
    have hlog : rcLog pid [⟨.waitpid true, (none, e)⟩] = ⟨[], [], [], [e], 1⟩ := rfl
    rw [hlog]
    refine ⟨rfl, ?_⟩
    by_cases he : e = EINTR
    · rw [if_pos he]
      exact ⟨⟨rfl, by simpa using he⟩, rfl⟩
    · rw [if_neg he]
      exact ⟨rfl, e, List.mem_singleton_self e, he⟩
  | @stopped status e t r hstop hrestart =>
    have hlog : rcLog pid (⟨.waitpid true, (some (pid, status), e)⟩ :: t ++
        [⟨.kill (some pid) .cont, r⟩]) = ⟨[(some pid, .cont)], [status], [], [], 1⟩ := by
      rw [rcLog_append, rcLog_cons pid hrestart, rcLog_report]
      simp [hstop, Log.append, rcLog, kills, stops, ends, failures, statuses, reports, isWait]
    rw [hlog]
    exact ⟨rfl, ⟨rfl, by simp⟩, rfl⟩
  | @ended status e t hstop hrestart =>
    rw [rcLog_cons pid hrestart, rcLog_report, if_neg (fun h => hstop h.2), if_pos ⟨rfl, hstop⟩]
    exact ⟨rfl, rfl, by simp⟩
  | @other wpid status e t hpid hrestart =>
    rw [rcLog_cons pid hrestart, rcLog_report, if_neg (fun h => hpid h.1), if_neg (fun h => hpid h.1)]
    exact ⟨rfl, ⟨rfl, by simp⟩, rfl⟩

/-! ## The wait -/

/-- How the wait ends after `n` rounds at most. -/
def RcEnds (n : Nat) (l : Log) : Out (Option Status) → Prop
  | .ok r => l.Ends r
  | .timeout => l.Open ∧ l.waits = n
  | _ => False

theorem rcLoop_ends {n : Nat} {o : Out (Option Status)}
    (h : (Proc.iter (fun _ => rcRound pid) n () g).Runs t (o, g')) :
    (rcLog pid t).Continues pid ∧ RcEnds n (rcLog pid t) o := by
  induction n generalizing g t with
  | zero =>
    obtain ⟨rfl, hx⟩ := Prog.runs_ret.mp h
    cases hx
    exact ⟨rfl, ⟨rfl, by simp [rcLog, failures]⟩, rfl⟩
  | succ n ih =>
    rw [Proc.iter, Proc.bind_apply, Prog.runs_bind] at h
    obtain ⟨t₁, t₂, ⟨o₁, g₁⟩, rfl, h₁, h₂⟩ := h
    obtain ⟨x, rfl, hround⟩ := rcRound_cases h₁
    obtain ⟨hcont, hlog⟩ := rcRound_log hround
    cases x with
    | again b =>
      obtain ⟨hcont', hends⟩ := ih h₂
      rw [rcLog_append]
      refine ⟨hcont.append hcont', ?_⟩
      cases o with
      | ok r => exact Log.Ends.append hlog.1 hends
      | timeout =>
        refine ⟨hlog.1.append hends.1, ?_⟩
        rw [Log.append, hlog.2, hends.2, Nat.add_comm]
      | _ => exact hends
    | done r =>
      obtain ⟨rfl, rfl, -⟩ := Proc.runs_pure.mp h₂
      rw [List.append_nil]
      exact ⟨hcont, hlog⟩

/-- Before each wait, each stop of the process has been answered and it has not
terminated. -/
def InOrder (pid : Pid) (t : List (Event sys)) : Prop :=
  ∀ t₁ x t₂, t = t₁ ++ x :: t₂ → isWait x.call →
    (rcLog pid t₁).Continues pid ∧ (rcLog pid t₁).Open

theorem InOrder.append {u : List (Event sys)} {x : Event sys} (h : InOrder pid t)
    (hlog : (rcLog pid t).Continues pid ∧ (rcLog pid t).Open) (hu : ∀ e ∈ u, ¬ isWait e.call) :
    InOrder pid (t ++ x :: u) := by
  intro t₁ y t₂ ht hy
  rcases List.append_eq_append_iff.mp ht with ⟨t₃, rfl, ht'⟩ | ⟨t₃, rfl, ht'⟩
  · cases t₃ with
    | nil => rwa [List.append_nil]
    | cons z t₃ =>
      obtain ⟨-, rfl⟩ := List.cons.inj ht'
      exact absurd hy (hu y (by simp))
  · cases t₃ with
    | nil => rwa [List.append_nil] at hlog
    | cons z t₃ =>
      obtain ⟨rfl, rfl⟩ := List.cons.inj ht'
      exact h t₁ y t₃ rfl hy

/-- A call of a round after its wait. -/
def isAfterWait (pid : Pid) (c : Call) : Prop := isRestart c ∨ c = .kill (some pid) .cont

theorem isAfterWait.not_wait {c : Call} (h : isAfterWait pid c) : ¬ isWait c := by
  rcases h with h | rfl
  · cases c with
    | waitpid => cases h
    | _ => exact nofun
  · exact nofun

/-- A round at any moment: it waits first. -/
theorem rcRound_steps {q : Prog sys (Out (Proc.Round Unit (Option Status)) × Globals)}
    (h : (rcRound pid g).Steps t q) :
    t = [] ∨ ∃ r e t', t = ⟨.waitpid true, (r, e)⟩ :: t' ∧ ∀ x ∈ t', isAfterWait pid x.call := by
  rw [rcRound] at h
  rcases steps_syscall_bind h with rfl | ⟨r, e, t', rfl, hs⟩
  · exact .inl rfl
  · refine .inr ⟨r, e, t', rfl, ?_⟩
    cases r with
    | none =>
      have hcalls := fun (hf : Proc.Frame (isAfterWait pid) besidesSessions _) => hf.calls hs
      exact hcalls (.bind .get fun _ => .ite (.pure _) (.pure _))
    | some x =>
      have hcalls := fun (hf : Proc.Frame (isAfterWait pid) besidesSessions _) => hf.calls hs
      exact hcalls (.bind (collectProcess_frame (fun _ => .inl rfl) (fun _ _ _ => .inl rfl) x.1 x.2)
        fun _ => .ite (.bind (besidesSessions_syscall (.inr rfl)) fun _ => .pure _)
          (.ite (.pure _) (.pure _)))

theorem kills_afterWait (h : ∀ x ∈ t, isAfterWait pid x.call) :
    ∀ x ∈ kills t, x = (some pid, .cont) := by
  intro x hx
  obtain ⟨e, he, hkill⟩ := List.mem_filterMap.mp hx
  rcases h e he with hrestart | hcont
  · obtain ⟨c, r⟩ := e
    cases c with
    | kill => cases hrestart
    | _ => cases hkill
  · rw [hcont] at hkill
    exact (Option.some.inj hkill).symm

theorem kills_append (t t' : List (Event sys)) : kills (t ++ t') = kills t ++ kills t' :=
  List.filterMap_append

/-- A run of the wait, at any moment. -/
theorem rcLoop_inOrder {n : Nat} {q : Prog sys (Out (Option Status) × Globals)}
    (h : (Proc.iter (fun _ => rcRound pid) n () g).Steps t q) :
    InOrder pid t ∧ ∀ x ∈ kills t, x = (some pid, .cont) := by
  have hnone : InOrder pid [] := fun t₁ x t₂ ht => by simp at ht
  have hopen : (rcLog pid []).Continues pid ∧ (rcLog pid []).Open :=
    ⟨rfl, rfl, by simp [rcLog, failures]⟩
  -- what the rounds before have left, and any moment of the next one
  have hnext : ∀ {h u : List (Event sys)} {g q}, InOrder pid h →
      (rcLog pid h).Continues pid ∧ (rcLog pid h).Open → (rcRound pid g).Steps u q →
      InOrder pid (h ++ u) := fun horder hlog hs => by
    rcases rcRound_steps hs with rfl | ⟨r, e, u, rfl, hu⟩
    · rwa [List.append_nil]
    · exact horder.append hlog fun x hx => (hu x hx).not_wait
  obtain ⟨t₁, t₂, b, g₁, q', rfl, hrounds, hlast⟩ := Proc.steps_iter h
  obtain ⟨horder, hlog⟩ := hrounds.invariant
    (J := fun _ _ h => InOrder pid h ∧ (rcLog pid h).Continues pid ∧ (rcLog pid h).Open)
    (fun b g h t b' g' hJ hr => by
      obtain ⟨x, hx, hround⟩ := rcRound_cases hr
      cases hx
      obtain ⟨hcont, hlog⟩ := rcRound_log hround
      refine ⟨hnext hJ.1 hJ.2 hr, ?_⟩
      rw [rcLog_append]
      exact ⟨hJ.2.1.append hcont, hJ.2.2.append hlog.1⟩)
    (h := []) ⟨hnone, hopen⟩
  refine ⟨hnext horder hlog hlast, fun x hx => ?_⟩
  rw [kills_append, List.mem_append] at hx
  rcases hx with hx | hx
  · have hkills : kills t₁ = List.replicate (stops pid t₁).length (some pid, .cont) := hlog.1
    exact List.eq_of_mem_replicate (hkills ▸ hx)
  · rcases rcRound_steps hlast with rfl | ⟨r, e, u, rfl, hu⟩
    · cases hx
    · exact kills_afterWait hu x hx

/-! ## `do_run_rc` -/

/-- What `do_run_rc` returns, where its wait ended with `r`. -/
def rcResult (r : Option Status) : Int := if r = some (.exited 0) then 0 else -1

theorem rcResult_cases (r : Option Status) : rcResult r = 0 ∨ rcResult r = -1 := by
  rw [rcResult]
  split
  · exact .inl rfl
  · exact .inr rfl

/-- The result of a wait, by its log. -/
theorem Log.Ends.rcResult_eq {l : Log} {r : Option Status} (h : l.Ends r) :
    rcResult r = 0 ↔ Status.exited 0 ∈ l.ends ∧ ∀ e ∈ l.failures, e = EINTR := by
  cases r with
  | none =>
    obtain ⟨-, e, he, hne⟩ := h
    exact iff_of_false (by decide) fun hall => hne (hall.2 e he)
  | some status =>
    obtain ⟨hends, hfail⟩ := h
    rw [hends, List.mem_singleton, and_iff_left hfail, rcResult]
    by_cases hzero : status = .exited 0
    · exact iff_of_true (if_pos (congrArg some hzero)) hzero.symm
    · rw [if_neg fun h => hzero (Option.some.inj h)]
      exact iff_of_false (by decide) fun h => hzero h.symm

theorem doRunRc_eq (fuel : Nat) (path : Str) : doRunRc fuel path =
    syscall (.fork (.rc [PATH_SHELL, path])) >>= fun r => r.elim
      (drainChildren fuel >>= fun _ => pure (-1))
      fun pid => Proc.iter (fun _ => rcRound pid) fuel () >>= fun r => pure (rcResult r) := by
  rw [doRunRc]
  refine congrArg _ (funext fun r => ?_)
  cases r with
  | none => rfl
  | some pid =>
    dsimp only [Option.elim_some]
    refine congrArg _ (funext fun r => ?_)
    rcases r with _ | (_ | code) | sig | sig <;> rfl

/-- After the `fork`, `do_run_rc` is its wait, and returns the result of it. -/
theorem doRunRc_steps {path : Str} {e : Int} {q : Prog sys (Out Int × Globals)}
    (h : (doRunRc fuel path g).Steps (⟨.fork (.rc [PATH_SHELL, path]), (some pid, e)⟩ :: t) q) :
    ((Proc.iter (fun _ => rcRound pid) fuel () >>= fun r => pure (rcResult r)) { g with errno := e }).Steps
      t q := by
  rw [doRunRc_eq] at h
  rcases steps_syscall_bind h with ht | ⟨r, e', t', ht, hs⟩
  · cases ht
  · cases ht
    exact hs

/-- `do_run_rc` after the `fork`, at any moment. -/
theorem doRunRc_inOrder {path : Str} {e : Int} {q : Prog sys (Out Int × Globals)}
    (h : (doRunRc fuel path g).Steps (⟨.fork (.rc [PATH_SHELL, path]), (some pid, e)⟩ :: t) q) :
    InOrder pid t ∧ ∀ x ∈ kills t, x = (some pid, .cont) := by
  rcases Prog.steps_bind.mp (doRunRc_steps h) with ⟨q', h₁, -⟩ | ⟨t₁, t₂, ⟨o, g₁⟩, rfl, h₁, h₂⟩
  · exact rcLoop_inOrder h₁
  · -- what follows the wait makes no calls
    obtain rfl : t₂ = [] := by
      cases o <;> exact (Prog.steps_ret.mp h₂).1
    rw [List.append_nil]
    exact rcLoop_inOrder h₁

/-- `do_run_rc` returns 0 exactly if the script has exited with status 0 and no wait
has failed for good; it answers each stop of the script, and of nothing else, by a
SIGCONT before it waits again, and does not wait once the script has terminated. -/
theorem doRunRc_script (fuel : Nat) (path : Str) (g : Globals) (pid : Pid) (e : Int) :
    (∀ t q, (doRunRc fuel path g).Steps (⟨.fork (.rc [PATH_SHELL, path]), (some pid, e)⟩ :: t) q →
      (∀ x ∈ kills t, x = (some pid, .cont)) ∧
      ∀ t₁ x t₂, t = t₁ ++ x :: t₂ → isWait x.call →
        kills t₁ = List.replicate (stops pid t₁).length (some pid, .cont) ∧ ends pid t₁ = []) ∧
    ∀ t o g', (doRunRc fuel path g).Runs (⟨.fork (.rc [PATH_SHELL, path]), (some pid, e)⟩ :: t) (o, g') →
      kills t = List.replicate (stops pid t).length (some pid, .cont) ∧
      (o = .ok 0 ↔ Status.exited 0 ∈ ends pid t ∧ ∀ errno ∈ failures t, errno = EINTR) ∧
      (o = .ok 0 ∨ o = .ok (-1) ∨ (o = .timeout ∧ (t.filter (isWait ·.call)).length = fuel)) := by
  refine ⟨fun t q hs => ?_, fun t o g' h => ?_⟩
  · obtain ⟨horder, hkills⟩ := doRunRc_inOrder hs
    refine ⟨hkills, fun t₁ x t₂ ht hx => ?_⟩
    obtain ⟨hcont, hopen⟩ := horder t₁ x t₂ ht hx
    exact ⟨hcont, hopen.1⟩
  · obtain ⟨t₁, t₂, ⟨o₁, g₁⟩, rfl, h₁, h₂⟩ := Prog.runs_bind.mp (doRunRc_steps h)
    obtain ⟨hcont, hends⟩ := rcLoop_ends h₁
    cases o₁ with
    | ok r =>
      obtain ⟨rfl, rfl, -⟩ := Proc.runs_pure.mp h₂
      rw [List.append_nil]
      refine ⟨hcont, ?_, ?_⟩
      · rw [Out.ok.injEq]
        exact Log.Ends.rcResult_eq hends
      · rcases rcResult_cases r with hr | hr
        · exact .inl (congrArg Out.ok hr)
        · exact .inr (.inl (congrArg Out.ok hr))
    | timeout =>
      obtain ⟨rfl, hx⟩ := Prog.runs_ret.mp h₂
      cases hx
      rw [List.append_nil]
      obtain ⟨⟨hnone, -⟩, hwaits⟩ := hends
      refine ⟨hcont, ?_, .inr (.inr ⟨rfl, hwaits⟩)⟩
      rw [show ends pid t₁ = [] from hnone]
      exact ⟨nofun, fun h => nomatch h.1⟩
    | exited c => exact hends.elim
    | fault => exact hends.elim

/-- Of the script, which is process 34, a stop and its exit are reported; of another child, a stop and an
exit; and a wait is interrupted. -/
def scriptStops : List (Event sys) :=
  [⟨.waitpid true, (none, EINTR)⟩, ⟨.waitpid true, (some (35, .stopped 19), 0)⟩,
    ⟨.waitpid true, (some (34, .stopped 19), 0)⟩, ⟨.kill (some 34) .cont, (true, 0)⟩,
    ⟨.waitpid true, (some (35, .exited 1), 0)⟩, ⟨.waitpid true, (some (34, .exited 0), 0)⟩]

theorem doRunRc_script_stops : ∃ g', (doRunRc 5 PATH_RC_STARTUP (Globals.initial [] 0)).Runs
      (⟨.fork (.rc [PATH_SHELL, PATH_RC_STARTUP]), (some 34, 0)⟩ :: scriptStops) (.ok 0, g') ∧
    kills scriptStops = [(some 34, .cont)] ∧ Status.exited 0 ∈ ends 34 scriptStops ∧
    (∀ errno ∈ failures scriptStops, errno = EINTR) ∧
    ∀ t₁ x t₂, scriptStops = t₁ ++ x :: t₂ → isWait x.call →
      kills t₁ = List.replicate (stops 34 t₁).length (some 34, .cont) ∧ ends 34 t₁ = [] := by
  have h : (doRunRc 5 PATH_RC_STARTUP (Globals.initial [] 0)).Runs
      (⟨.fork (.rc [PATH_SHELL, PATH_RC_STARTUP]), (some 34, 0)⟩ :: scriptStops) (.ok 0, _) :=
    .cons (.cons (.cons (.cons (.cons (.cons (.cons (.nil _)))))))
  obtain ⟨hsteps, hruns⟩ := doRunRc_script 5 PATH_RC_STARTUP (Globals.initial [] 0) 34 0
  obtain ⟨hkills, hzero, -⟩ := hruns _ _ _ h
  obtain ⟨hexited, hfailures⟩ := hzero.mp rfl
  exact ⟨_, h, hkills, hexited, hfailures, (hsteps _ _ h).2⟩

end Cheviot.Proof
