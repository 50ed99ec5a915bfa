import Cheviot.Proof.Collect
import Cheviot.Spec.Handover

/-!
# The children that `do_run_rc` hands to `collect_process`

`doRunRcNoted` is `do_run_rc` with a log beside it (`doRunRcNoted_sim`). A round of the
wait hands over what it reports, and settles its sessions exactly if no restart fails
and there is only one (`adds_collect`), and so do the rounds one after the other
(`Logs`), with the sessions that the calls have left (`collectProcess_entries`); the
loop after a `fork` that has failed hands over nothing. `doRunRc_nothingLost_iff`: exactly when
nothing is lost.
-/

namespace Cheviot.Proof

open Framework Cheviot.Sysinit Cheviot.Spec

variable {fuel : Nat} {path : Str} {g g' : Globals} {log : List Collection} {pid : Pid} {sp : Session}
  {status : Status} {t t' : List (Event sys)}

/-! ## The log changes nothing -/

theorem doRunRcWith_collect (fuel : Nat) (path : Str) :
    doRunRcWith (fun p => p) collectProcess fuel path = doRunRc fuel path := rfl

/-- A round of the wait, with its log. -/
abbrev rcRoundNoted (pid : Pid) : Proc sys (Globals × List Collection) (Proc.Round Unit (Option Status)) :=
  rcRoundWith (fun p => p.besideLog) collectNoted pid

theorem rcRoundNoted_sim (pid : Pid) : Proc.Sim Proc.Forgets Eq (rcRoundNoted pid) (rcRound pid) := by
  refine (Proc.Sim.besideLog _).bind fun r r' hr => ?_
  subst hr
  cases r with
  | none =>
    refine (Proc.Sim.besideLog _).bind fun g g' hg => ?_
    subst hg
    split <;> exact .pure rfl
  | some x =>
    refine (Proc.Sim.noted _ _).bind fun _ _ _ => ?_
    split
    · exact (Proc.Sim.besideLog _).bind fun _ _ _ => .pure rfl
    · split <;> exact .pure rfl

theorem doRunRcNoted_sim (fuel : Nat) (path : Str) :
    Proc.Sim Proc.Forgets Eq (doRunRcNoted fuel path) (doRunRc fuel path) := by
  rw [← doRunRcWith_collect]
  refine (Proc.Sim.besideLog _).bind fun r r' hr => ?_
  subst hr
  cases r with
  | none => exact (Proc.Sim.besideLog _).bind fun _ _ _ => .pure rfl
  | some pid =>
    refine (Proc.Sim.iter (fun _ => rcRoundNoted_sim pid) fuel ()).bind fun r r' hr => ?_
    subst hr
    rcases r with _ | (_ | code) | sig | sig <;> exact .pure rfl

/-- A run of a call beside the log, and what follows it, from its first call. -/
theorem runs_besideLog_bind {α : Type} {c : Call} {f : c.Result → Proc sys (Globals × List Collection) α}
    {x : Out α × Globals × List Collection} :
    (((syscall c).besideLog >>= f) (g, log)).Runs t x ↔
      ∃ r e t', t = ⟨c, (r, e)⟩ :: t' ∧ (f r ({ g with errno := e }, log)).Runs t' x := by
  rw [Proc.bind_apply, Proc.besideLog, syscall_apply, Prog.call_bind, Prog.call_bind, Prog.runs_call]
  constructor
  · rintro ⟨⟨r, e⟩, t', ht, h⟩
    exact ⟨r, e, t', ht, h⟩
  · rintro ⟨r, e, t', ht, h⟩
    exact ⟨(r, e), t', ht, h⟩

/-! ## `collect_process` settles the session of the process -/

/-- Where the session of the process is not to be restarted, its blocks are freed. -/
theorem collectProcess_freed {o : Out Unit} (h : (collectProcess pid status g).Runs t (o, g'))
    (hfind : findSession g.sessionList.entries pid = some sp) (hshut : sp.isShutdown) :
    freed t = blocks sp := by
  have hne : g.sessionList.entries ≠ [] := List.ne_nil_of_mem (findSession_some hfind).1
  rw [collectProcess, Proc.runs_get_bind, if_neg hne, hfind] at h
  dsimp only at h
  rw [if_pos hshut, freeSession_runs] at h
  exact h.1.freed

theorem session_mem_blocks {id : Nat} (sp : Session) : .session id ∈ blocks sp ↔ id = sp.id := by
  rw [blocks]
  split <;> simp

theorem not_gettyFails_of_isFree {e : Event sys} (h : isFree e.call) : ¬ gettyFails e := by
  obtain ⟨c, r⟩ := e
  cases c with
  | free b => simp [gettyFails]
  | _ => cases h

/-- The sessions of a process that is collected are settled, unless the `fork` for one fails or
there is another one. -/
theorem collectProcess_settled (h : (collectProcess pid status g).Runs t (.ok (), g')) :
    Collection.Settled ⟨pid, status, g.sessionList, t, g'.sessionList⟩ ↔ (∀ e ∈ t, ¬ gettyFails e) ∧
      ∀ sp ∈ g.sessionList.entries, ∀ sp' ∈ g.sessionList.entries,
        sp.seProcess = some pid → sp'.seProcess = some pid → sp = sp' := by
  rcases collectProcess_cases h with ⟨hfind, rfl, -⟩ | ⟨sp, hfind, hshut, hfree, hg⟩ |
    ⟨sp, r, e, hfind, hshut, rfl, hg⟩
  · have hnone := findSession_none hfind
    exact iff_of_true (fun sp hsp hpid => absurd hpid (hnone sp hsp))
      ⟨by simp, fun sp hsp _ _ hpid _ => absurd hpid (hnone sp hsp)⟩
  · obtain ⟨hsp, hpid⟩ := findSession_some hfind
    rw [and_iff_right fun e he => not_gettyFails_of_isFree (hfree e he)]
    have hfreed : freed t = blocks sp := collectProcess_freed h hfind hshut
    have hown : ∀ sp' ∈ g.sessionList.entries, .session sp'.id ∈ freed t ↔ sp' = sp := fun sp' hsp' => by
      rw [hfreed, session_mem_blocks]
      exact ⟨eq_of_id hsp' hsp, congrArg Session.id⟩
    constructor
    · intro hsettled sp₁ h₁ sp₂ h₂ hpid₁ hpid₂
      have hfirst : ∀ sp' ∈ g.sessionList.entries, sp'.seProcess = some pid → sp' = sp := fun sp' hsp' hpid' => by
        rcases hsettled sp' hsp' hpid' with ⟨hmem, -⟩ | ⟨pid', e', hmem, -⟩
        · exact (hown sp' hsp').mp hmem
        · cases hfree _ hmem
      rw [hfirst sp₁ h₁ hpid₁, hfirst sp₂ h₂ hpid₂]
    · intro hone sp' hsp' hpid'
      obtain rfl := hone sp' hsp' sp hsp hpid' hpid
      refine .inl ⟨(hown sp' hsp').mpr rfl, fun sp₁ h₁ => ?_⟩
      rw [hg] at h₁
      exact (mem_remEntry h₁).2
  · obtain ⟨hsp, hpid⟩ := findSession_some hfind
    cases r with
    | none =>
      refine iff_of_false (fun hsettled => ?_) (by simp [gettyFails])
      rcases hsettled sp hsp hpid with ⟨hfreed, -⟩ | ⟨pid', e', hmem, -⟩
      · simp [freed] at hfreed
      · simp at hmem
    | some pid' =>
      rw [and_iff_right (by simp [gettyFails])]
      constructor
      · intro hsettled sp₁ h₁ sp₂ h₂ hpid₁ hpid₂
        have hfirst : ∀ sp' ∈ g.sessionList.entries, sp'.seProcess = some pid → sp' = sp := fun sp' hsp' hpid' => by
          rcases hsettled sp' hsp' hpid' with ⟨hfreed, -⟩ | ⟨pid'', e', hmem, -⟩
          · simp [freed] at hfreed
          · have hcall : Call.fork _ = .fork _ := congrArg Event.call (List.mem_singleton.mp hmem)
            exact eq_of_id hsp' hsp (Child.getty.inj (Call.fork.inj hcall)).1
        rw [hfirst sp₁ h₁ hpid₁, hfirst sp₂ h₂ hpid₂]
      · intro hone sp' hsp' hpid'
        obtain rfl := hone sp' hsp' sp hsp hpid' hpid
        refine .inr ⟨pid', e, List.mem_singleton_self _, ?_⟩
        rw [hg]
        exact List.mem_map.mpr ⟨sp', hsp', by simp⟩

/-! ## The sessions after a run -/

theorem entriesOf_append (es : List Session) (t t' : List (Event sys)) :
    entriesOf es (t ++ t') = entriesOf (entriesOf es t) t' := List.foldl_append

theorem alone_append {es : List Session} : Alone es (t ++ t') ↔ Alone es t ∧ Alone (entriesOf es t) t' := by
  induction t generalizing es with
  | nil => exact (and_iff_right trivial).symm
  | cons e t ih =>
    rw [List.cons_append, Alone, Alone, ih, and_assoc]
    rfl

/-- Calls that report nothing find nothing. -/
theorem alone_of_waited {es : List Session} (h : ∀ e ∈ t, waited e = none) : Alone es t := by
  induction t generalizing es with
  | nil => trivial
  | cons e t ih =>
    obtain ⟨he, ht⟩ := List.forall_mem_cons.mp h
    exact ⟨fun pid status hw => absurd (he.symm.trans hw) nofun, ih ht⟩

theorem length_entriesAfter (es : List Session) (e : Event sys) : (entriesAfter es e).length ≤ es.length := by
  unfold entriesAfter
  split
  · exact (List.length_map _).le
  · exact List.length_filter_le ..
  · exact Nat.le_refl _

/-- One session is alone, and stays so. -/
theorem alone_of_length {es : List Session} (h : es.length ≤ 1) : Alone es t := by
  induction t generalizing es with
  | nil => trivial
  | cons e t ih =>
    refine ⟨fun _ _ _ _ sp hsp sp' hsp' _ _ => ?_, ih ((length_entriesAfter es e).trans h)⟩
    match es, h with
    | [sp₀], _ => rw [List.mem_singleton.mp hsp, List.mem_singleton.mp hsp']

theorem entriesOf_frees {es : List Session} (h : ∀ e ∈ t, isFree e.call) :
    entriesOf es t = es.filter fun sp => .session sp.id ∉ freed t := by
  induction t generalizing es with
  | nil => simp [entriesOf, freed]
  | cons e t ih =>
    obtain ⟨he, ht⟩ := List.forall_mem_cons.mp h
    obtain ⟨c, r⟩ := e
    cases c with
    | free b =>
      have hcons : freed (⟨.free b, r⟩ :: t) = b :: freed t := rfl
      rw [entriesOf, List.foldl_cons, hcons]
      refine (ih ht).trans ?_
      cases b with
      | session id =>
        rw [entriesAfter, List.filter_filter]
        exact List.filter_congr fun sp _ => by simp [Bool.and_comm]
      | _ => simp [entriesAfter]
    | _ => cases he

/-- The sessions after `collect_process` are what its calls have made of them. -/
theorem collectProcess_entries (h : (collectProcess pid status g).Runs t (.ok (), g')) :
    entriesOf g.sessionList.entries t = g'.sessionList.entries := by
  rcases collectProcess_cases h with ⟨-, rfl, hg⟩ | ⟨sp, hfind, hshut, hfree, hg⟩ | ⟨sp, r, e, -, -, rfl, hg⟩
  · rw [hg]
    rfl
  · have hmem : sp.id ∈ g.sessionList.entries.map (·.id) :=
      List.mem_map.mpr ⟨sp, (findSession_some hfind).1, rfl⟩
    rw [hg, entriesOf_frees hfree, collectProcess_freed h hfind hshut, SessionTable.remEntry]
    dsimp only
    rw [if_pos hmem]
    exact List.filter_congr fun sp' _ => by simp [session_mem_blocks]
  · rw [hg]
    cases r with
    | none => rfl
    | some pid' => rfl

/-! ## A part of a run, and what it adds to the log -/

/-- From the sessions `es`, the calls hand over what they report, and leave its sessions settled
exactly if no restart fails and no two of them are of one process. -/
structure Adds (es : List Session) (t : List (Event sys)) (hs : List Collection) : Prop where
  handed : hs.map (fun h => (h.pid, h.status)) = t.filterMap waited
  settled : (∀ h ∈ hs, ¬ h.status.isStopped → h.Settled) ↔ Restarts t ∧ Alone es t
  head : ∀ e ∈ t.head?, ¬ gettyFails e

theorem Adds.append {es : List Session} {hs hs' : List Collection} (h : Adds es t hs)
    (h' : Adds (entriesOf es t) t' hs') : Adds es (t ++ t') (hs ++ hs') := by
  constructor
  · rw [List.map_append, List.filterMap_append, h.handed, h'.handed]
  · have hrestarts : Restarts (t ++ t') ↔ Restarts t ∧ Restarts t' := by
      rw [Restarts, List.isChain_append]
      exact ⟨fun hr => ⟨hr.1, hr.2.1⟩, fun hr => ⟨hr.1, hr.2, fun _ _ e he _ => h'.head e he⟩⟩
    rw [List.forall_mem_append, h.settled, h'.settled, hrestarts, alone_append]
    tauto
  · intro e he
    cases t with
    | nil => exact h'.head e he
    | cons x t => exact h.head e he

/-- The log grows by what the calls hand over, and the sessions are as the calls have left them. -/
def Logs (s : Globals × List Collection) (t : List (Event sys)) (s' : Globals × List Collection) : Prop :=
  entriesOf s.1.sessionList.entries t = s'.1.sessionList.entries ∧
    ∃ hs, s'.2 = s.2 ++ hs ∧ Adds s.1.sessionList.entries t hs

theorem adds_none (es : List Session) : Adds es [] [] where
  handed := rfl
  settled := iff_of_true (by simp) ⟨.nil, trivial⟩
  head := by simp

theorem logs_chains : Proc.Chains Logs where
  nil s := ⟨rfl, [], by simp, adds_none _⟩
  append h h' := by
    obtain ⟨htable, hs, hl, ha⟩ := h
    obtain ⟨htable', hs', hl', ha'⟩ := h'
    rw [← htable] at htable' ha'
    exact ⟨(entriesOf_append ..).trans htable', hs ++ hs', by rw [hl', hl, List.append_assoc], ha.append ha'⟩

/-- No getty fails after the first call. -/
theorem restarts_cons {e : Event sys} (h : ∀ x ∈ t, ¬ gettyFails x) : Restarts (e :: t) := by
  induction t generalizing e with
  | nil => exact .singleton e
  | cons x t ih =>
    rw [Restarts, List.isChain_cons_cons]
    exact ⟨fun _ => h x List.mem_cons_self, ih fun y hy => h y (List.mem_cons_of_mem _ hy)⟩

/-- A call that reports nothing adds nothing. -/
theorem adds_nil {es : List Session} {e : Event sys} (hw : waited e = none) (he : ¬ gettyFails e) :
    Adds es [e] [] where
  handed := by simp [hw]
  settled := iff_of_true (by simp) ⟨.singleton e, alone_of_waited (List.forall_mem_singleton.mpr hw)⟩
  head x hx := by
    obtain rfl : e = x := by simpa using hx
    exact he

theorem terminates_report {errno : Int} :
    Terminates ⟨.waitpid true, (some (pid, status), errno)⟩ ↔ ¬ status.isStopped := by
  constructor
  · intro ⟨pid', status', hw, hs⟩
    cases hw
    exact hs
  · intro hs
    exact ⟨pid, status, rfl, hs⟩

/-- Of the calls of `collect_process`, none reports a child, and only the first one can
be a `fork`. -/
theorem collectProcess_calls (h : (collectProcess pid status g).Runs t (.ok (), g')) :
    (∀ e ∈ t, waited e = none) ∧ ∀ e ∈ t.tail, ¬ gettyFails e := by
  rcases collectProcess_cases h with ⟨-, rfl, -⟩ | ⟨sp, -, -, hfree, -⟩ | ⟨sp, r, e, -, -, rfl, -⟩
  · simp
  · refine ⟨fun e he => ?_, fun e he => not_gettyFails_of_isFree (hfree e (List.mem_of_mem_tail he))⟩
    have hisFree := hfree e he
    obtain ⟨c, r⟩ := e
    cases c with
    | free b => rfl
    | _ => cases hisFree
  · simp [waited]

/-- A report, and the run of `collect_process` on it. -/
theorem adds_collect {errno : Int} (h : (collectProcess pid status g).Runs t (.ok (), g')) :
    Adds g.sessionList.entries (⟨.waitpid true, (some (pid, status), errno)⟩ :: t)
      [⟨pid, status, g.sessionList, t, g'.sessionList⟩] := by
  obtain ⟨hnone, htail⟩ := collectProcess_calls h
  have hreport : waited ⟨.waitpid true, (some (pid, status), errno)⟩ = some (pid, status) := rfl
  have hrestarts : Restarts (⟨.waitpid true, (some (pid, status), errno)⟩ :: t) ↔
      (¬ status.isStopped → ∀ e ∈ t, ¬ gettyFails e) := by
    cases t with
    | nil => exact iff_of_true (.singleton _) (by simp)
    | cons x t =>
      have hrest : Restarts (x :: t) := restarts_cons htail
      constructor
      · intro hr hstop
        exact List.forall_mem_cons.mpr ⟨(List.isChain_cons_cons.mp hr).1 (terminates_report.mpr hstop), htail⟩
      · intro hs
        exact List.isChain_cons_cons.mpr
          ⟨fun hterm => hs (terminates_report.mp hterm) x List.mem_cons_self, hrest⟩
  have halone : Alone g.sessionList.entries (⟨.waitpid true, (some (pid, status), errno)⟩ :: t) ↔
      (¬ status.isStopped → ∀ sp ∈ g.sessionList.entries, ∀ sp' ∈ g.sessionList.entries,
        sp.seProcess = some pid → sp'.seProcess = some pid → sp = sp') := by
    rw [Alone, and_iff_left (alone_of_waited hnone)]
    constructor
    · exact fun hone => hone pid status rfl
    · rintro hone pid' status' hw
      cases hw
      exact hone
  constructor
  · rw [List.filterMap_cons_some hreport, List.filterMap_eq_nil_iff.mpr hnone]
    rfl
  · rw [List.forall_mem_singleton, collectProcess_settled h, hrestarts, halone]
    exact imp_and
  · simp [gettyFails]

/-! ## The wait -/

/-- Code beside the log hands nothing over. -/
theorem besideLog_logs {α : Type} {p : Sys α} (h : ∀ g t o g', (p g).Runs t (o, g') →
    entriesOf g.sessionList.entries t = g'.sessionList.entries ∧ Adds g.sessionList.entries t []) :
    Proc.Leads Logs p.besideLog := by
  intro s t o s' hr
  obtain ⟨hp, hl⟩ := Proc.runs_besideLog.mp hr
  obtain ⟨htable, hadds⟩ := h _ _ _ _ hp
  exact ⟨htable, [], by rw [hl, List.append_nil], hadds⟩

theorem get_logs : Proc.Leads Logs (Proc.get : Sys Globals).besideLog := by
  refine besideLog_logs fun g t o g' h => ?_
  obtain ⟨rfl, he⟩ := Prog.runs_ret.mp h
  cases he
  exact ⟨rfl, adds_none _⟩

theorem syscall_logs {c : Call} (hw : ∀ r, waited ⟨c, r⟩ = none) (hf : ∀ r, ¬ gettyFails ⟨c, r⟩)
    (htable : ∀ es r, entriesAfter es ⟨c, r⟩ = es) : Proc.Leads Logs (syscall c).besideLog := by
  refine besideLog_logs fun g t o g' h => ?_
  obtain ⟨r, rfl⟩ := syscall_total c _ _ _ _ h
  obtain ⟨e, rfl, rfl⟩ := runs_syscall.mp h
  exact ⟨htable _ _, adds_nil (hw _) (hf _)⟩

theorem rcRoundNoted_logs (pid : Pid) : Proc.Leads Logs (rcRoundNoted pid) := by
  intro s t o s' h
  obtain ⟨g, log⟩ := s
  obtain ⟨r, e, t, rfl, h₁⟩ := runs_besideLog_bind.mp h
  cases r with
  | none =>
    have hwait : Logs (g, log) [⟨.waitpid true, (none, e)⟩] ({ g with errno := e }, log) :=
      ⟨rfl, [], by simp, adds_nil rfl (by simp [gettyFails])⟩
    refine logs_chains.append hwait ?_
    exact Proc.Leads.bind logs_chains get_logs
      (fun _ => .ite (.pure logs_chains _) (.pure logs_chains _)) _ _ _ _ h₁
  | some x =>
    obtain ⟨wpid, status⟩ := x
    dsimp only at h₁
    rw [Proc.bind_apply, Prog.runs_bind] at h₁
    obtain ⟨t₁, t₂, ⟨o₁, g₁, log₁⟩, rfl, h₂, h₃⟩ := h₁
    obtain ⟨hcollect, rfl⟩ := Proc.runs_noted.mp h₂
    obtain ⟨_, rfl⟩ := collectProcess_total wpid status _ _ _ _ hcollect
    have htable : entriesOf g.sessionList.entries t₁ = g₁.sessionList.entries :=
      collectProcess_entries (g := { g with errno := e }) hcollect
    have hreport : Logs (g, log) (⟨.waitpid true, (some (wpid, status), e)⟩ :: t₁) (g₁, _) :=
      ⟨htable, _, rfl, adds_collect (g := { g with errno := e }) hcollect⟩
    refine logs_chains.append hreport ?_
    have hkill : Proc.Leads Logs (syscall (.kill (some pid) .cont)).besideLog :=
      syscall_logs (fun _ => rfl) (fun _ => by simp [gettyFails]) fun _ _ => rfl
    rw [Proc.next_ok] at h₃
    exact Proc.Leads.ite (.bind logs_chains hkill fun _ => .pure logs_chains _)
      (.ite (.pure logs_chains _) (.pure logs_chains _)) _ _ _ _ h₃

/-! ## `do_run_rc` -/

theorem drainChildren_frame (fuel : Nat) :
    Proc.Frame (· = Call.waitpidNohang) besidesSessions (drainChildren fuel) := by
  have hwait : Proc.Frame (· = Call.waitpidNohang) besidesSessions (syscall .waitpidNohang) :=
    besidesSessions_syscall rfl
  refine .iter (fun _ => .bind hwait fun r => ?_) fuel ()
  cases r <;> exact .pure _

/-- Where the `fork` of the script fails, nothing is handed over. -/
theorem doRunRcNoted_drained {e : Int} {o : Out Int} {s' : Globals × List Collection}
    (h : (doRunRcNoted fuel path (g, [])).Runs
      (⟨.fork (.rc [PATH_SHELL, path]), (none, e)⟩ :: t) (o, s')) :
    s'.2 = [] ∧ ∀ x ∈ t, x.call = .waitpidNohang := by
  obtain ⟨r, e', t', ht, h₁⟩ := runs_besideLog_bind.mp h
  cases ht
  dsimp only at h₁
  rw [Proc.bind_apply, Prog.runs_bind] at h₁
  obtain ⟨t₁, t₂, ⟨o₁, g₁, log₁⟩, rfl, h₂, h₃⟩ := h₁
  obtain ⟨hdrain, rfl⟩ := Proc.runs_besideLog.mp h₂
  have hcalls := (drainChildren_frame fuel).calls hdrain
  cases o₁ <;>
  · obtain ⟨rfl, hx⟩ := Prog.runs_ret.mp h₃
    cases hx
    rw [List.append_nil]
    exact ⟨rfl, hcalls⟩

/-- Nothing is lost of a run that hands nothing over if it reports nothing. -/
theorem nothingLost_nil : NothingLost t [] ↔ t.filterMap waited = [] :=
  ⟨fun h => h.handed.symm, fun h => ⟨h.symm, by simp⟩⟩

theorem doRunRcNoted_nothingLost {o : Out Int} {s' : Globals × List Collection}
    (h : (doRunRcNoted fuel path (g, [])).Runs t (o, s')) :
    NothingLost t s'.2 ↔ (RcForked t ∨ t.filterMap waited = []) ∧ Restarts t ∧ Alone g.sessionList.entries t := by
  obtain ⟨r, e, t, rfl, h₁⟩ := runs_besideLog_bind.mp h
  cases r with
  | none =>
    obtain ⟨hlog, hcalls⟩ := doRunRcNoted_drained h
    have hforked : ¬ RcForked (⟨.fork (.rc [PATH_SHELL, path]), (none, e)⟩ :: t) := by
      intro ⟨argv, pid, e', hmem⟩
      rcases List.mem_cons.mp hmem with hx | hx
      · cases hx
      · cases hcalls _ hx
    have hrestarts : Restarts (⟨.fork (.rc [PATH_SHELL, path]), (none, e)⟩ :: t) := by
      refine restarts_cons fun x hx => ?_
      obtain ⟨c, r⟩ := x
      obtain rfl : c = .waitpidNohang := hcalls _ hx
      simp [gettyFails]
    rw [hlog, nothingLost_nil, or_iff_right hforked, and_iff_right hrestarts]
    exact ⟨fun hnil => ⟨hnil, alone_of_waited (List.filterMap_eq_nil_iff.mp hnil)⟩, And.left⟩
  | some pid =>
    have hlogs : Logs (g, []) (⟨.fork (.rc [PATH_SHELL, path]), (some pid, e)⟩ :: t) s' := by
      have hfork : Logs (g, []) [⟨.fork (.rc [PATH_SHELL, path]), (some pid, e)⟩]
          ({ g with errno := e }, []) := ⟨rfl, [], by simp, adds_nil rfl (by simp [gettyFails])⟩
      refine logs_chains.append hfork ?_
      refine Proc.Leads.bind logs_chains (.iter logs_chains (fun _ => rcRoundNoted_logs pid) fuel ())
        (fun r => ?_) _ _ _ _ h₁
      rcases r with _ | (_ | code) | sig | sig <;> exact .pure logs_chains _
    obtain ⟨-, hs, hl, hadds⟩ := hlogs
    rw [List.nil_append] at hl
    have hforked : RcForked (⟨.fork (.rc [PATH_SHELL, path]), (some pid, e)⟩ :: t) :=
      ⟨_, _, _, List.mem_cons_self⟩
    rw [hl, and_iff_right (.inl hforked), ← hadds.settled]
    exact ⟨fun hn => hn.settled, fun hsettled => ⟨hadds.handed, hsettled⟩⟩

/-- In every run of `do_run_rc`, with a log of its calls of `collect_process` beside it,
each child that is reported is handed over once and every session of each one that has
terminated is freed or restarted: exactly if the `fork` of the script succeeds or the
loop after its failure reports no child, no `fork` for a restart fails, and no two
sessions record a child that is reported as terminated. -/
theorem doRunRc_nothingLost_iff (fuel : Nat) (path : Str) (g : Globals) (t : List (Event sys))
    (o : Out Int) (g' : Globals) (h : (doRunRc fuel path g).Runs t (o, g')) :
    ∃ log, (doRunRcNoted fuel path (g, [])).Runs t (o, (g', log)) ∧
      (NothingLost t log ↔
        (RcForked t ∨ t.filterMap waited = []) ∧ Restarts t ∧ Alone g.sessionList.entries t) := by
  obtain ⟨log, hnoted⟩ := (doRunRcNoted_sim fuel path).runs_of_forgets [] h
  exact ⟨log, hnoted, doRunRcNoted_nothingLost hnoted⟩

/-- The process of the session, 21, terminates during the script, 22, and is restarted as 23. -/
def gettyEnds : List (Event sys) :=
  [⟨.fork (.rc [PATH_SHELL, PATH_RC_SHUTDOWN]), (some 22, 0)⟩,
    ⟨.waitpid true, (some (21, .exited 0), 0)⟩,
    ⟨.fork (.getty 0 "/dev/tty1".toList ["getty".toList, "tty1".toList]), (some 23, 0)⟩,
    ⟨.waitpid true, (some (22, .exited 0), 0)⟩]

theorem doRunRc_nothingLost_restarted : ∃ g' log,
    (doRunRcNoted 2 PATH_RC_SHUTDOWN (oneStarted 21, [])).Runs gettyEnds (.ok 0, (g', log)) ∧
      NothingLost gettyEnds log := by
  obtain ⟨log, hnoted, hiff⟩ := doRunRc_nothingLost_iff 2 PATH_RC_SHUTDOWN (oneStarted 21) gettyEnds
    (.ok 0) _ (.cons (.cons (.cons (.cons (.nil _)))))
  have hrestarts : Restarts gettyEnds := by simp [Restarts, gettyEnds, gettyFails]
  exact ⟨_, log, hnoted, hiff.mpr ⟨.inl ⟨_, _, _, List.mem_cons_self⟩, hrestarts, alone_of_length (Nat.le_refl 1)⟩⟩

/-- The `fork` of the script fails, and the process has terminated. -/
def gettyDrained : List (Event sys) :=
  [⟨.fork (.rc [PATH_SHELL, PATH_RC_SHUTDOWN]), (none, 0)⟩,
    ⟨.waitpidNohang, (.child 21 (.exited 0), 0)⟩, ⟨.waitpidNohang, (.error, ECHILD)⟩]

/-- The process of a session is reaped after a `fork` that has failed, and the session
keeps it. -/
theorem doRunRc_drained : ∃ g' log,
    (doRunRcNoted 2 PATH_RC_SHUTDOWN (oneStarted 21, [])).Runs gettyDrained (.ok (-1), (g', log)) ∧
      gettyDrained.filterMap waited = [(21, .exited 0)] ∧ log = [] ∧
      (∃ sp ∈ g'.sessionList.entries, sp.seProcess = some 21) ∧ ¬ NothingLost gettyDrained log := by
  refine ⟨_, _, .cons (.cons (.cons (.nil _))), rfl, rfl, ⟨_, List.mem_cons_self, rfl⟩, fun h => ?_⟩
  cases h.handed

end Cheviot.Proof
