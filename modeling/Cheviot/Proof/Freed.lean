import Cheviot.Proof.Reaper

/-!
# The sessions that the reaper frees

Each round of the reaper removes the session of what it reports, and frees it
(`Removes`). `stateReaper_frees`: so does the reaper, whatever is reported and in
whatever order.
-/

namespace Cheviot.Proof

open Framework Cheviot.Sysinit Cheviot.Spec

variable {fuel : Nat} {g g' : Globals} {l l' l'' : SessionTable} {sp : Session} {pid : Pid}
  {status : Status} {t t' : List (Event sys)}

/-- No two sessions record the same process. -/
def Distinct (l : SessionTable) : Prop := ∀ sp ∈ l.entries, ∀ sp' ∈ l.entries, ∀ pid,
  sp.seProcess = some pid → sp'.seProcess = some pid → sp = sp'

/-- The sessions whose processes are reported go, and are freed. -/
structure Removes (l : SessionTable) (t : List (Event sys)) (l' : SessionTable) : Prop where
  entries : l'.entries = l.entries.filter fun sp => ¬ Collected t sp
  freed : (freed t).Perm ((l.entries.filter fun sp => Collected t sp).flatMap blocks)

theorem Removes.mem (h : Removes l t l') (hsp : sp ∈ l'.entries) : sp ∈ l.entries :=
  (List.mem_filter.mp (h.entries ▸ hsp)).1

theorem Removes.noRestart (h : Removes l t l') (hm : NoRestart l) : NoRestart l' :=
  fun sp hsp => hm sp (h.mem hsp)

theorem Removes.distinct (h : Removes l t l') (hd : Distinct l) : Distinct l' :=
  fun sp hsp sp' hsp' => hd sp (h.mem hsp) sp' (h.mem hsp')

/-! ## One report -/

theorem collected_append : Collected (t ++ t') sp ↔ Collected t sp ∨ Collected t' sp := by
  simp only [Collected, reported_append, List.mem_append, or_and_right, exists_or]

/-- Calls that report nothing remove nothing. -/
theorem removes_silent (hreported : reported t = []) (hfreed : freed t = []) : Removes l t l := by
  have hnot : ∀ sp, ¬ Collected t sp := fun sp ⟨pid, hpid, _⟩ => by
    rw [hreported] at hpid
    cases hpid
  refine ⟨(List.filter_eq_self.mpr fun sp _ => by simpa using hnot sp).symm, ?_⟩
  rw [hfreed, List.filter_eq_nil_iff.mpr fun sp _ => by simpa using hnot sp]
  exact List.Perm.nil

theorem collected_report {bs : List Block} {e : Int} (hfrees : Frees bs t) :
    Collected (⟨.waitpid false, (some (pid, status), e)⟩ :: t) sp ↔ sp.seProcess = some pid := by
  have hr : reported (⟨.waitpid false, (some (pid, status), e)⟩ :: t) = [pid] := by
    rw [reported, List.filterMap_cons, ← reported, hfrees.reported]
    rfl
  simp [Collected, hr]

/-- The session of a process is the only one that goes. -/
theorem without_entries (hd : Distinct l) (pid : Pid) :
    (without l pid).entries = l.entries.filter fun sp => ¬ sp.seProcess = some pid := by
  rw [without]
  cases hfind : findSession l.entries pid with
  | none =>
    exact (List.filter_eq_self.mpr fun sp hsp => by simpa using findSession_none hfind sp hsp).symm
  | some sp =>
    obtain ⟨hsp, hpid⟩ := findSession_some hfind
    rw [Option.map_some, Option.getD_some, SessionTable.remEntry]
    dsimp only
    rw [if_pos (List.mem_map_of_mem hsp)]
    refine List.filter_congr fun sp' hsp' => ?_
    rw [decide_eq_decide, ne_eq, not_iff_not]
    refine ⟨fun hid => ?_, fun hpid' => congrArg _ (hd sp' hsp' sp hsp pid hpid' hpid)⟩
    rw [eq_of_id hsp' hsp hid, hpid]

/-- Its blocks are what is freed. -/
theorem ended_perm (hd : Distinct l) (pid : Pid) :
    (ended l pid).Perm ((l.entries.filter fun sp => sp.seProcess = some pid).flatMap blocks) := by
  rw [ended]
  cases hfind : findSession l.entries pid with
  | none =>
    rw [List.filter_eq_nil_iff.mpr fun sp hsp => by simpa using findSession_none hfind sp hsp]
    exact List.Perm.nil
  | some sp =>
    obtain ⟨hsp, hpid⟩ := findSession_some hfind
    have hone : (l.entries.filter fun sp => sp.seProcess = some pid).Perm [sp] := by
      refine (List.perm_ext_iff_of_nodup ((List.Nodup.of_map _ l.nodup).filter _)
        (List.nodup_singleton sp)).mpr fun sp' => ?_
      rw [List.mem_filter, decide_eq_true_iff, List.mem_singleton]
      exact ⟨fun h => hd sp' h.1 sp hsp pid h.2 hpid, fun he => he ▸ ⟨hsp, hpid⟩⟩
    have := (hone.flatMap_right blocks).symm
    rwa [List.flatMap_singleton] at this

/-- Of a process that is reported, the session goes and is freed. -/
theorem removes_report (hd : Distinct l) {e : Int} (hfrees : Frees (ended l pid) t) :
    Removes l (⟨.waitpid false, (some (pid, status), e)⟩ :: t) (without l pid) := by
  have hfreed : freed (⟨.waitpid false, (some (pid, status), e)⟩ :: t) = ended l pid := by
    rw [← hfrees.freed]
    rfl
  refine ⟨?_, ?_⟩
  · rw [without_entries hd]
    refine List.filter_congr fun sp _ => ?_
    rw [decide_eq_decide, collected_report hfrees]
  · have hsame : (l.entries.filter fun sp => Collected (⟨.waitpid false, (some (pid, status), e)⟩ :: t) sp) =
        l.entries.filter fun sp => sp.seProcess = some pid := by
      refine List.filter_congr fun sp _ => ?_
      rw [decide_eq_decide, collected_report hfrees]
    rw [hfreed, hsame]
    exact ended_perm hd pid

/-! ## Runs -/

theorem Removes.append (h : Removes l t l') (h' : Removes l' t' l'') : Removes l (t ++ t') l'' := by
  refine ⟨?_, ?_⟩
  · rw [h'.entries, h.entries, List.filter_filter]
    refine List.filter_congr fun sp _ => ?_
    rw [← Bool.decide_and, decide_eq_decide, collected_append, not_or, and_comm]
  · have hsplit := List.filter_append_perm (fun sp => Collected t sp)
      (l.entries.filter fun sp => Collected (t ++ t') sp)
    have hfirst : ((l.entries.filter fun sp => Collected (t ++ t') sp).filter fun sp => Collected t sp) =
        l.entries.filter fun sp => Collected t sp := by
      rw [List.filter_filter]
      refine List.filter_congr fun sp _ => ?_
      rw [← Bool.decide_and, decide_eq_decide, collected_append]
      exact and_iff_left_of_imp .inl
    have hlast : ((l.entries.filter fun sp => Collected (t ++ t') sp).filter fun sp => !Collected t sp) =
        l'.entries.filter fun sp => Collected t' sp := by
      rw [h.entries, List.filter_filter, List.filter_filter]
      refine List.filter_congr fun sp _ => ?_
      rw [← decide_not, ← Bool.decide_and, ← Bool.decide_and, decide_eq_decide, collected_append]
      exact ⟨fun ⟨hn, hc⟩ => ⟨hc.resolve_left hn, hn⟩, fun ⟨hc, hn⟩ => ⟨hn, .inr hc⟩⟩
    rw [hfirst, hlast] at hsplit
    rw [freed_append]
    refine (h.freed.append h'.freed).trans ?_
    rw [← List.flatMap_append]
    exact hsplit.flatMap_right blocks

/-- What a run removes, where no session is to be restarted. -/
def RemovesIf (g : Globals) (t : List (Event sys)) (g' : Globals) : Prop :=
  NoRestart g.sessionList → Distinct g.sessionList → Removes g.sessionList t g'.sessionList

theorem removesIf_chains : Proc.Chains RemovesIf where
  nil _ _ _ := removes_silent rfl rfl
  append h h' hm hd :=
    have h₁ := h hm hd
    h₁.append (h' (h₁.noRestart hm) (h₁.distinct hd))

theorem reapRound_removes : Proc.Leads RemovesIf reapRound := fun g t o g' h hm hd => by
  obtain ⟨r, e, t', rfl, hfrees, hx⟩ := (reapRound_runs hm).mp h
  cases hx
  cases r with
  | none =>
    obtain rfl := frees_nil.mp hfrees
    exact removes_silent rfl rfl
  | some x => exact removes_report hd hfrees

theorem sendSigs_removes : Proc.Leads RemovesIf (sendSigs fuel deathSigs) := by
  have hkill : Proc.Leads RemovesIf (syscall (.kill none .hup)) := fun g t o g' h => by
    rw [syscall_apply, Prog.runs_call] at h
    obtain ⟨r, t', rfl, h⟩ := h
    obtain ⟨rfl, hx⟩ := Prog.runs_ret.mp h
    cases hx
    exact fun _ _ => removes_silent rfl rfl
  exact .bind removesIf_chains hkill fun _ => .bind removesIf_chains (.get removesIf_chains) fun _ =>
    .ite (.pure removesIf_chains _) (.bind removesIf_chains
      (.iter removesIf_chains (fun _ => reapRound_removes) _ _) fun _ => .pure removesIf_chains _)

theorem stateReaper_removes {o : Out InitState} (hd : Distinct g.sessionList)
    (h : (stateReaper fuel g).Runs t (o, g')) :
    Removes g.sessionList.setShutdown t g'.sessionList := by
  refine sendSigs_removes { g with sessionList := g.sessionList.setShutdown } t o g' h
    (fun _ hsp => isShutdown_setShutdown hsp) fun sp hsp sp' hsp' pid hpid hpid' => ?_
  obtain ⟨sp₁, h₁, rfl⟩ := List.mem_map.mp hsp
  obtain ⟨sp₂, h₂, rfl⟩ := List.mem_map.mp hsp'
  exact congrArg marked (hd sp₁ h₁ sp₂ h₂ pid hpid hpid')

/-- The reaper starts no getty. It leaves the sessions, marked and in their order,
whose processes have not been reported, and has freed each of the others once, so
that the order of the reports makes no difference to the list. -/
theorem stateReaper_frees (g : Globals) (hd : Distinct g.sessionList) :
    (∀ fuel t q, (stateReaper fuel g).Steps t q → ∀ e ∈ t, forksGetty e.call = none) ∧
    (∀ fuel t o g', (stateReaper fuel g).Runs t (o, g') →
      g'.sessionList.entries =
        (g.sessionList.entries.filter fun sp => ¬ Collected t sp).map marked ∧
      (freed t).Perm ((g.sessionList.entries.filter fun sp => Collected t sp).flatMap blocks)) ∧
    ∀ fuel fuel' t t' o o' g₁ g₂, (stateReaper fuel g).Runs t (o, g₁) →
      (stateReaper fuel' g).Runs t' (o', g₂) → (∀ pid, pid ∈ reported t ↔ pid ∈ reported t') →
      g₁.sessionList.entries = g₂.sessionList.entries := by
  have hentries : ∀ {fuel t o g'}, (stateReaper fuel g).Runs t (o, g') → g'.sessionList.entries =
      (g.sessionList.entries.filter fun sp => ¬ Collected t sp).map marked := fun h => by
    rw [(stateReaper_removes hd h).entries]
    exact List.filter_map
  refine ⟨fun fuel t q hs => ?_, fun fuel t o g' h => ⟨hentries h, ?_⟩, ?_⟩
  · exact (stateReaper_noGetty (A := fun _ _ => True) (h := []) (by simp [NoGetty])).invariant hs
      (fun _ _ _ _ => trivial) (by simp [NoGetty])
  · have hfreed := (stateReaper_removes hd h).freed
    rw [SessionTable.setShutdown, List.filter_map, List.flatMap_map] at hfreed
    exact hfreed
  · intro fuel fuel' t t' o o' g₁ g₂ h h' hsame
    rw [hentries h, hentries h']
    congr 1
    refine List.filter_congr fun sp _ => ?_
    rw [decide_eq_decide, not_iff_not]
    exact exists_congr fun pid => and_congr_left fun _ => hsame pid

/-- Two sessions, of which the first has a process. -/
def twoSessions : SessionTable :=
  (SessionTable.empty.addTail ⟨0, 0, some 4, SE_PRESENT, "/dev/tty1".toList, none, []⟩).addTail
    ⟨1, 1, none, SE_PRESENT, "/dev/tty2".toList, some "getty tty2".toList, ["getty".toList]⟩

/-- A process of no session and then the one of the first session are reported. -/
theorem stateReaper_frees_first : ∃ t o g',
    (stateReaper 3 { Globals.initial [] 0 with sessionList := twoSessions }).Runs t (o, g') ∧
      reported t = [3, 4] ∧ g'.sessionList.entries = (twoSessions.entries.drop 1).map marked ∧
      (freed t).Perm [.device 0, .session 0] := by
  have hd : Distinct twoSessions := by
    intro sp hsp sp' hsp' pid hpid hpid'
    simp only [twoSessions, SessionTable.addTail, SessionTable.empty, List.nil_append, List.cons_append,
      List.mem_cons, List.not_mem_nil, or_false] at hsp hsp'
    rcases hsp with rfl | rfl
    · rcases hsp' with rfl | rfl
      · rfl
      · cases hpid'
    · cases hpid
  have h : (stateReaper 3 { Globals.initial [] 0 with sessionList := twoSessions }).Runs
      [⟨.kill none .hup, (true, 0)⟩, ⟨.waitpid false, (some (3, .exited 0), 0)⟩,
        ⟨.waitpid false, (some (4, .signaled 1), 0)⟩, ⟨.free (.device 0), ((), 0)⟩,
        ⟨.free (.session 0), ((), 0)⟩, ⟨.waitpid false, (none, ECHILD)⟩] (.ok .shutdown, _) :=
    .cons (.cons (.cons (.cons (.cons (.cons (.nil _))))))
  obtain ⟨hentries, hfreed⟩ := (stateReaper_frees { Globals.initial [] 0 with sessionList := twoSessions }
    hd).2.1 _ _ _ _ h
  exact ⟨_, _, _, h, rfl, hentries, hfreed⟩

end Cheviot.Proof
