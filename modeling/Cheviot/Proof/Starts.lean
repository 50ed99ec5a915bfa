import Cheviot.Proof.Alloc
import Cheviot.Spec.Starts

/-!
# The start of the sessions

A round of the start loop, at each kind of session (`startSession_end`,
`startSession_running`, `startSession_idle`). From these:

* `stateStartSessions_started`: what is started and recorded, where no session has
  a process at first;
* `startLoop_ends`: the loop ends exactly if it does not come to a session that has
  a process.
-/

namespace Cheviot.Proof

open Framework Cheviot.Sysinit Cheviot.Spec

variable {fuel n : Nat} {g g' : Globals} {typ : Ttyent} {l : SessionTable} {sp : Session} {pid : Pid} {e : Int}
  {t : List (Event sys)} {before rest : List Session}

/-! ## A round -/

/-- The process of the session at a place of the table is set. -/
theorem setProcess_entries (h : l.entries = before ++ sp :: rest) (pid : Pid) :
    (l.setProcess sp.id pid).entries = before ++ withProcess sp pid :: rest := by
  have hnodup := l.nodup
  rw [h, List.map_append, List.map_cons, List.nodup_middle, List.nodup_cons, List.mem_append] at hnodup
  have hkeep : ∀ es : List Session, sp.id ∉ es.map (·.id) →
      (es.map fun s => if s.id = sp.id then { withProcess s pid with id := s.id } else s) = es := by
    intro es hes
    refine (List.map_congr_left fun s hs => if_neg fun hid => ?_).trans (List.map_id es)
    exact hes (hid ▸ List.mem_map_of_mem hs)
  rw [SessionTable.setProcess, SessionTable.update]
  dsimp only
  rw [h, List.map_append, List.map_cons, if_pos rfl]
  exact congrArg₂ (· ++ _ :: ·) (hkeep before fun hm => hnodup.1 (.inl hm))
    (hkeep rest fun hm => hnodup.1 (.inr hm))

theorem startSession_end (h : g.sessionList.entries = before) :
    startSession n before.length g = .ret (.ok (.done .messageLoop), g) := by
  have hnone : g.sessionList.entries[before.length]? = none := by
    rw [h]
    exact List.getElem?_eq_none (Nat.le_refl _)
  rw [startSession, Proc.bind_apply, Proc.get_apply, Prog.ret_bind, Proc.next_ok, hnone]
  rfl

theorem getElem?_before (h : g.sessionList.entries = before ++ sp :: rest) :
    g.sessionList.entries[before.length]? = some sp := by
  rw [h, List.getElem?_append_right (Nat.le_refl _), Nat.sub_self]
  rfl

/-- A session that has a process: the loop stays where it is. -/
theorem startSession_running (h : g.sessionList.entries = before ++ sp :: rest)
    (hsp : sp.seProcess.isSome) :
    startSession n before.length g = .ret (.ok (.again before.length), g) := by
  rw [startSession, Proc.bind_apply, Proc.get_apply, Prog.ret_bind, Proc.next_ok, getElem?_before h]
  dsimp only
  rw [if_pos hsp]
  rfl

/-- The globals after the `fork` of the session has returned `pid`. -/
def afterStart (g : Globals) (sp : Session) (pid : Pid) (e : Int) : Globals :=
  { g with errno := e, sessionList := g.sessionList.setProcess sp.id pid }

/-- How a round ends, with the answer of the `fork` for the session `sp` at `i`. -/
def startResult (g : Globals) (i : Nat) (sp : Session) :
    Option Pid × Int → Out (Proc.Round Nat InitState) × Globals
  | (none, e) => (.ok (.done .runRcShutdown), { g with errno := e })
  | (some pid, e) => (.ok (.again (i + 1)), afterStart g sp pid e)

/-- A session that has none is started, or could not be. -/
theorem startSession_idle (h : g.sessionList.entries = before ++ sp :: rest)
    (hsp : sp.seProcess = none) : startSession 0 before.length g =
      .call (.fork (.getty sp.id sp.seDevice sp.seGettyArgv)) fun r =>
        .ret (startResult g before.length sp r) := by
  rw [startSession, Proc.bind_apply, Proc.get_apply, Prog.ret_bind, Proc.next_ok, getElem?_before h]
  dsimp only
  rw [if_neg (by rw [hsp]; decide), startGetty, Proc.bind_apply, syscall_apply, Prog.call_bind]
  refine congrArg _ (funext fun r => ?_)
  obtain ⟨_ | pid, e⟩ := r <;> rfl

/-! ## The loop, round by round -/

/-- At the end of the table the loop ends. -/
theorem iter_startSession_end (hg : g.sessionList.entries = before) :
    Proc.iter (startSession 0) (n + 1) before.length g = .ret (.ok .messageLoop, g) := by
  rw [Proc.iter, Proc.bind_apply, startSession_end hg]
  rfl

/-- At a session that has a process the loop spins. -/
theorem iter_startSession_running {n : Nat} (hg : g.sessionList.entries = before ++ sp :: rest)
    (hsp : sp.seProcess.isSome) :
    Proc.iter (startSession 0) n before.length g = .ret (.timeout, g) := by
  induction n with
  | zero => rfl
  | succ n ih =>
    rw [Proc.iter, Proc.bind_apply, startSession_running hg hsp]
    exact ih

/-- At one that has none it forks. -/
theorem iter_startSession_first {x : Out InitState × Globals}
    (hg : g.sessionList.entries = before ++ sp :: rest) (hsp : sp.seProcess = none)
    (h : (Proc.iter (startSession 0) (n + 1) before.length g).Runs t x) :
    ∃ r t', t = getty sp r :: t' := by
  rw [Proc.iter, Proc.bind_apply, startSession_idle hg hsp, Prog.call_bind] at h
  obtain ⟨r, t', ht, -⟩ := Prog.runs_call.mp h
  exact ⟨r, t', ht⟩

theorem iter_startSession_none {x : Out InitState × Globals}
    (hg : g.sessionList.entries = before ++ sp :: rest) (hsp : sp.seProcess = none) :
    (Proc.iter (startSession 0) (n + 1) before.length g).Runs (getty sp (none, e) :: t) x ↔
      t = [] ∧ x = (.ok .runRcShutdown, { g with errno := e }) := by
  rw [Proc.iter, Proc.bind_apply, startSession_idle hg hsp, Prog.call_bind]
  exact Prog.runs_call_cons.trans Prog.runs_ret

theorem iter_startSession_some {x : Out InitState × Globals}
    (hg : g.sessionList.entries = before ++ sp :: rest) (hsp : sp.seProcess = none) :
    (Proc.iter (startSession 0) (n + 1) before.length g).Runs (getty sp (some pid, e) :: t) x ↔
      (Proc.iter (startSession 0) n (before ++ [withProcess sp pid]).length
        (afterStart g sp pid e)).Runs t x := by
  rw [Proc.iter, Proc.bind_apply, startSession_idle hg hsp, Prog.call_bind, List.length_append]
  exact Prog.runs_call_cons

theorem afterStart_entries (hg : g.sessionList.entries = before ++ sp :: rest) (pid : Pid) (e : Int) :
    (afterStart g sp pid e).sessionList.entries = (before ++ [withProcess sp pid]) ++ rest := by
  rw [← List.append_cons]
  exact setProcess_entries hg pid

/-! ## Where no session has a process -/

variable {pids : List (Pid × Int)} {l₀ l₁ : List Session} {o : Out InitState}

theorem started_cons (h : Started l₀ pids t l₁) (sp : Session) (pid : Pid) (e : Int) :
    Started (sp :: l₀) ((pid, e) :: pids) (getty sp (some pid, e) :: t) (withProcess sp pid :: l₁) where
  forks := h.forks.imp (fun ⟨hlen, ht⟩ => ⟨congrArg (· + 1) hlen, congrArg (_ :: ·) ht⟩)
    fun ⟨sp', e', hsp', ht⟩ => ⟨sp', e', hsp', congrArg (_ :: ·) ht⟩
  recorded := congrArg (_ :: ·) h.recorded

theorem started_failed (sp : Session) (l : List Session) (e : Int) :
    Started (sp :: l) [] [getty sp (none, e)] (sp :: l) :=
  ⟨.inr ⟨sp, e, rfl, rfl⟩, rfl⟩

/-- The processes of sessions that have been started are the results of `fork`, but
for the one that failed. -/
theorem started_forkResults (h : Started l₀ pids t l₁) :
    forkResults t = pids.map (some ·.1) ∨ forkResults t = pids.map (some ·.1) ++ [none] := by
  have hzip : ∀ (l : List Session) (pids : List (Pid × Int)), pids.length ≤ l.length →
      forkResults (List.zipWith (fun sp p => getty sp (some p.1, p.2)) l pids) =
        pids.map (some ·.1) := by
    intro l pids
    induction pids generalizing l with
    | nil => intro _; rw [List.zipWith_nil_right]; rfl
    | cons p pids ih =>
      cases l with
      | nil => exact fun h => absurd h (by simp)
      | cons sp l => exact fun h => congrArg (_ :: ·) (ih l (Nat.le_of_succ_le_succ h))
  rcases h.forks with ⟨hlen, rfl⟩ | ⟨sp, e, hsp, rfl⟩
  · exact .inl (hzip _ _ hlen.le)
  · have hlen := (List.getElem?_eq_some_iff.mp hsp).1
    refine .inr ?_
    rw [forkResults, List.filterMap_append]
    exact congrArg (· ++ [none]) (hzip _ _ hlen.le)

/-- A run of the start loop that goes on from a place of the table, after which no session
has a process, with fuel for each of them. -/
theorem iter_startSession {n : Nat} (hidle : Idle rest) (hg : g.sessionList.entries = before ++ rest)
    (h : (Proc.iter (startSession 0) n before.length g).Runs t (o, g')) :
    (o = .timeout ∧ n ≤ rest.length) ∨ ∃ pids rest', g'.sessionList.entries = before ++ rest' ∧
      Started rest pids t rest' ∧ (o = .ok .messageLoop ∧ none ∉ forkResults t ∨
        o = .ok .runRcShutdown ∧ none ∈ forkResults t) := by
  induction n generalizing before rest g t with
  | zero =>
    obtain ⟨-, hx⟩ := Prog.runs_ret.mp h
    exact .inl ⟨congrArg Prod.fst hx, Nat.zero_le _⟩
  | succ n ih =>
    cases rest with
    | nil =>
      rw [iter_startSession_end (by rw [hg, List.append_nil])] at h
      obtain ⟨rfl, hx⟩ := Prog.runs_ret.mp h
      cases hx
      exact .inr ⟨[], [], hg, ⟨.inl ⟨rfl, rfl⟩, rfl⟩, .inl ⟨rfl, List.not_mem_nil⟩⟩
    | cons sp rest =>
      obtain ⟨hsp, hrest⟩ := List.forall_mem_cons.mp hidle
      obtain ⟨⟨r, e⟩, t', rfl⟩ := iter_startSession_first hg hsp h
      cases r with
      | none =>
        obtain ⟨rfl, hx⟩ := (iter_startSession_none hg hsp).mp h
        cases hx
        exact .inr ⟨[], sp :: rest, hg, started_failed sp rest e,
          .inr ⟨rfl, List.mem_singleton_self _⟩⟩
      | some pid =>
        have hnext := (iter_startSession_some hg hsp).mp h
        refine (ih hrest (afterStart_entries hg pid e) hnext).imp (And.imp_right Nat.succ_le_succ) ?_
        rintro ⟨pids, rest', hlist, hstarted, ho⟩
        refine ⟨(pid, e) :: pids, withProcess sp pid :: rest', ?_, started_cons hstarted sp pid e, ?_⟩
        · rw [hlist, List.append_assoc]
          rfl
        · have hmem : none ∈ forkResults (getty sp (some pid, e) :: t') ↔ none ∈ forkResults t' :=
            List.mem_cons.trans (or_iff_right (Option.some_ne_none pid).symm)
          exact ho.imp (And.imp_right (mt hmem.mp)) (And.imp_right hmem.mpr)

theorem startLoop_idle (hidle : Idle g.sessionList.entries) (h : (startLoop fuel g).Runs t (o, g')) :
    (o = .timeout ∧ fuel ≤ g.sessionList.entries.length) ∨
      ∃ pids, Started g.sessionList.entries pids t g'.sessionList.entries ∧
        (o = .ok .messageLoop ∧ none ∉ forkResults t ∨ o = .ok .runRcShutdown ∧ none ∈ forkResults t) := by
  have hnil : g.sessionList.entries = [] ++ g.sessionList.entries := rfl
  refine (iter_startSession hidle hnil h).imp_right ?_
  rintro ⟨pids, rest', hlist, hstarted⟩
  exact ⟨pids, by rw [hlist]; exact hstarted⟩

/-! ## Sessions that are read have no process -/

theorem allocRun_idle {i : Nat} {r : Option Session} {l' : SessionTable} (h : AllocRun i typ l t r l')
    (hidle : Idle l.entries) : Idle l'.entries := by
  cases h with
  | noArgv => exact fun sp hsp => hidle sp (mem_remEntry hsp).1
  | added =>
    rw [addTail_entries rfl]
    exact List.forall_mem_append.mpr ⟨hidle, List.forall_mem_singleton.mpr rfl⟩
  | _ => exact hidle

theorem readSessions_idle (hidle : Idle g.sessionList.entries)
    (h : (readSessions fuel g).Runs t (.ok (), g')) : Idle g'.sessionList.entries := by
  have hcall : ∀ {c : Call} {g : Globals}, Idle g.sessionList.entries →
      Proc.Returns (syscall c) g fun _ g' => Idle g'.sessionList.entries := by
    intro c g hg t r g' hr
    obtain ⟨e, -, rfl⟩ := runs_syscall.mp hr
    exact hg
  have hread : ∀ g : Globals, Idle g.sessionList.entries →
      Proc.Returns (readTtys fuel) g fun _ g' => Idle g'.sessionList.entries := by
    intro g hg
    refine Proc.returns_iter (J := fun _ g => Idle g.sessionList.entries) (fun i g hg => ?_) fuel hg
    refine Proc.returns_bind.mpr fun t₁ typ g₁ h₁ => ?_
    have hg₁ := hcall hg t₁ typ g₁ h₁
    cases typ with
    | none => exact Proc.returns_pure.mpr hg₁
    | some typ =>
      refine Proc.returns_bind.mpr fun t₂ r g₂ h₂ => Proc.returns_pure.mpr ?_
      exact allocRun_idle (allocSession_cases h₂) hg₁
  have hall : Proc.Returns (readSessions fuel) g fun _ g' => Idle g'.sessionList.entries := by
    refine Proc.returns_bind.mpr fun t₁ _ g₁ h₁ => Proc.returns_bind.mpr fun t₂ _ g₂ h₂ =>
      Proc.returns_bind.mpr fun t₃ _ g₃ h₃ => ?_
    exact hcall (hread g₂ (hcall (hcall hidle _ _ _ h₁) _ _ _ h₂) _ _ _ h₃)
  exact hall t () g' h

/-- The states of `state_start_sessions`: reading, and the loop if there is a session. -/
theorem stateStartSessions_cases {s : InitState} (h : (stateStartSessions fuel g).Runs t (.ok s, g')) :
    ∃ t₁ g₁ t₂, t = t₁ ++ t₂ ∧ (readSessions fuel g).Runs t₁ (.ok (), g₁) ∧
      (g₁.sessionList.entries ≠ [] → (startLoop fuel g₁).Runs t₂ (.ok s, g')) := by
  have heq : stateStartSessions fuel = (do
      readSessions fuel
      let g ← Proc.get
      if g.sessionList.entries = [] then pure .runRcShutdown else startLoop fuel) := by
    rw [stateStartSessions, readSessions, startLoop]
    simp only [bind_assoc]
  rw [heq] at h
  obtain ⟨t₁, t₂, _, g₁, rfl, h₁, h₂⟩ := Proc.runs_bind_ok.mp h
  rw [Proc.runs_get_bind] at h₂
  refine ⟨t₁, g₁, t₂, rfl, h₁, fun hne => ?_⟩
  rw [if_neg hne] at h₂
  exact h₂

/-- Where a `fork` fails, it is the first one exactly if no session has been started. -/
theorem started_firstFails (h : Started l₀ pids t l₁) (hfail : none ∈ forkResults t) :
    (forkResults t).head? = some none ↔ pids = [] := by
  rcases started_forkResults h with hr | hr
  · rw [hr] at hfail
    simp at hfail
  · rw [hr]
    cases pids with
    | nil => exact iff_of_true rfl rfl
    | cons p pids => exact iff_of_false nofun nofun

/-- Where none fails, and there is a session, one has been started. -/
theorem started_ne_nil (h : Started l₀ pids t l₁) (hne : l₀ ≠ []) (hok : none ∉ forkResults t) :
    pids ≠ [] := by
  rintro rfl
  rcases h.forks with ⟨hlen, -⟩ | ⟨sp, e, -, rfl⟩
  · exact hne (List.length_eq_zero_iff.mp hlen.symm)
  · rw [List.zipWith_nil_right] at hok
    exact hok (List.mem_singleton_self _)

/-- From the runs of the loop to what it is to do: the next state tells whether a session
has been started exactly if no `fork` fails after the first. -/
theorem startLoop_tells {s : InitState} (hidle : Idle g.sessionList.entries)
    (hne : g.sessionList.entries ≠ []) (h : (startLoop fuel g).Runs t (.ok s, g')) :
    (∃ pids, Started g.sessionList.entries pids t g'.sessionList.entries ∧
      (s = .runRcShutdown ↔ pids = []) ∧ (s = .messageLoop ↔ pids ≠ [])) ↔
    (none ∈ forkResults t → (forkResults t).head? = some none) := by
  obtain ⟨ho, -⟩ | ⟨pids, hstarted, ho⟩ := startLoop_idle hidle h
  · cases ho
  constructor
  · rintro ⟨pids', hstarted', hshut, -⟩ hfail
    rcases ho with ⟨-, hok⟩ | ⟨hs, -⟩
    · exact absurd hfail hok
    · cases hs
      exact (started_firstFails hstarted' hfail).mpr (hshut.mp rfl)
  · intro hfirst
    refine ⟨pids, hstarted, ?_⟩
    rcases ho with ⟨hs, hok⟩ | ⟨hs, hfail⟩
    · cases hs
      have hpids := started_ne_nil hstarted hne hok
      exact ⟨iff_of_false nofun hpids, iff_of_true rfl hpids⟩
    · cases hs
      have hpids := (started_firstFails hstarted hfail).mp (hfirst hfail)
      exact ⟨iff_of_true rfl hpids, iff_of_false nofun (not_not.mpr hpids)⟩

/-- Where no session has a process, the sessions are started in order until a `fork` fails,
and the next state tells whether one has been started exactly if no `fork` fails
after the first. The loop ends. -/
theorem stateStartSessions_started (hidle : Idle g.sessionList.entries) :
    (∀ t s g', (stateStartSessions fuel g).Runs t (.ok s, g') → ∃ t₁ g₁ t₂, t = t₁ ++ t₂ ∧
      (readSessions fuel g).Runs t₁ (.ok (), g₁) ∧ Idle g₁.sessionList.entries ∧
      (g₁.sessionList.entries ≠ [] →
        ((∃ pids, Started g₁.sessionList.entries pids t₂ g'.sessionList.entries ∧
          (s = .runRcShutdown ↔ pids = []) ∧ (s = .messageLoop ↔ pids ≠ [])) ↔
        (none ∈ forkResults t₂ → (forkResults t₂).head? = some none)))) ∧
    ∀ t₁ g₁, (readSessions fuel g).Runs t₁ (.ok (), g₁) → ∀ n, g₁.sessionList.entries.length < n →
      ∀ t₂ o g', (startLoop n g₁).Runs t₂ (o, g') → ∃ s, o = .ok s := by
  refine ⟨fun t s g' h => ?_, fun t₁ g₁ h₁ n hn t₂ o g' h₂ => ?_⟩
  · obtain ⟨t₁, g₁, t₂, rfl, h₁, h₂⟩ := stateStartSessions_cases h
    have hidle₁ := readSessions_idle hidle h₁
    exact ⟨t₁, g₁, t₂, rfl, h₁, hidle₁, fun hne => startLoop_tells hidle₁ hne (h₂ hne)⟩
  · rcases startLoop_idle (readSessions_idle hidle h₁) h₂ with ⟨-, hle⟩ | ⟨-, -, ⟨rfl, -⟩ | ⟨rfl, -⟩⟩
    · exact absurd hn (Nat.not_lt.mpr hle)
    · exact ⟨_, rfl⟩
    · exact ⟨_, rfl⟩

/-- Two sessions, of which the first has process `pid`. -/
def twoTtys (pid : Option Pid) : Globals := { Globals.initial [] 0 with
  sessionList := (SessionTable.empty.addTail ⟨0, 0, pid, SE_PRESENT, ['a'], some ['g'], [['g']]⟩).addTail
    ⟨1, 1, none, SE_PRESENT, ['b'], some ['g'], [['g']]⟩ }

/-- The calls before the first session is started, with nothing in /etc/ttys. -/
def noTtys : List (Event sys) :=
  [⟨.endttyent, ((), 0)⟩, ⟨.setttyent, ((), 0)⟩, ⟨.getttyent, (none, 0)⟩, ⟨.endttyent, ((), 0)⟩]

theorem twoTtys_idle : Idle (twoTtys none).sessionList.entries := by
  rintro sp hsp
  simp only [twoTtys, SessionTable.addTail, SessionTable.empty, List.nil_append, List.cons_append,
    List.mem_cons, List.not_mem_nil, or_false] at hsp
  rcases hsp with rfl | rfl <;> rfl

/-- The `fork`s of the two sessions, as processes 12 and 13. -/
def twoForks : List (Event sys) :=
  [⟨.fork (.getty 0 ['a'] [['g']]), (some 12, 0)⟩, ⟨.fork (.getty 1 ['b'] [['g']]), (some 13, 0)⟩]

/-- Both sessions are started, and the next state says so. Whatever `fork` returns, the loop ends. -/
theorem stateStartSessions_started_two :
    (∃ g', (stateStartSessions 3 (twoTtys none)).Runs (noTtys ++ twoForks) (.ok .messageLoop, g') ∧
      (readSessions 3 (twoTtys none)).Runs noTtys (.ok (), twoTtys none) ∧
      ∃ pids, Started (twoTtys none).sessionList.entries pids twoForks g'.sessionList.entries ∧ pids ≠ []) ∧
    ∀ n, 2 < n → ∀ t o g', (startLoop n (twoTtys none)).Runs t (o, g') → ∃ s, o = .ok s := by
  have hrun : (stateStartSessions 3 (twoTtys none)).Runs (noTtys ++ twoForks) (.ok .messageLoop, _) :=
    .cons (.cons (.cons (.cons (.cons (.cons (.nil _))))))
  have hread : (readSessions 3 (twoTtys none)).Runs noTtys (.ok (), twoTtys none) :=
    .cons (.cons (.cons (.cons (.nil _))))
  obtain ⟨hstarts, hends⟩ := @stateStartSessions_started 3 (twoTtys none) twoTtys_idle
  obtain ⟨t₁, g₁, t₂, ht, h₁, -, htells⟩ := hstarts _ _ _ hrun
  obtain ⟨rfl, rfl, he⟩ := hread.eq_of_append h₁ ht
  cases he
  obtain ⟨pids, hstarted, -, hnext⟩ := (htells (by decide)).mpr (by decide)
  exact ⟨⟨_, hrun, hread, pids, hstarted, hnext.mp rfl⟩, hends _ _ hread⟩

/-- The second `fork` fails: the system shuts down, with the first session's getty
running. -/
theorem secondStart_shutsDown : ∃ g', Idle (twoTtys none).sessionList.entries ∧
    (stateStartSessions 3 (twoTtys none)).Runs (noTtys ++
      [⟨.fork (.getty 0 ['a'] [['g']]), (some 12, 0)⟩, ⟨.fork (.getty 1 ['b'] [['g']]), (none, 11)⟩])
      (.ok .runRcShutdown, g') ∧
    g'.sessionList.entries.map (·.seProcess) = [some 12, none] :=
  ⟨_, twoTtys_idle, .cons (.cons (.cons (.cons (.cons (.cons (.nil _)))))), rfl⟩

/-! ## Where sessions may have a process -/

theorem unchanged_refl (l : List Session) : Unchanged l l := fun _ _ h _ => h

theorem unchanged_trans {l l' l'' : List Session} (h : Unchanged l l') (h' : Unchanged l' l'') :
    Unchanged l l'' := fun i sp hsp hrun => h' i sp (h i sp hsp hrun) hrun

/-- The process of a session that had none is set. -/
theorem restarted_unchanged (hsp : sp ∈ l.entries) (hidle : sp.seProcess = none) (r : Option Pid) :
    Unchanged l.entries (restarted l sp.id r).entries := by
  cases r with
  | none => exact unchanged_refl _
  | some pid =>
    intro i sp' hsp' hrun
    have hid : sp'.id ≠ sp.id := by
      intro hid
      rw [eq_of_id (List.mem_of_getElem? hsp') hsp hid, hidle] at hrun
      cases hrun
    rw [restarted, SessionTable.setProcess, SessionTable.update, List.getElem?_map, hsp']
    exact congrArg some (if_neg hid)

/-- The start loop leaves a session that has a process as it is. -/
theorem startLoop_unchanged {s : InitState} (h : (startLoop fuel g).Runs t (.ok s, g')) :
    Unchanged g.sessionList.entries g'.sessionList.entries := by
  have hround : ∀ {i : Nat} {g₁ : Globals}, Unchanged g.sessionList.entries g₁.sessionList.entries →
      Proc.Returns (startSession 0 i) g₁ fun _ g₂ =>
        Unchanged g.sessionList.entries g₂.sessionList.entries := by
    intro i g₁ hg₁ t r g₂ hr
    rcases startSession_cases hr with ⟨-, hlist⟩ | ⟨sp, pid, e, hsp, hidle, -, hlist⟩
    · rw [hlist]
      exact hg₁
    · rw [hlist]
      exact unchanged_trans hg₁ (restarted_unchanged hsp hidle pid)
  have hloop : Proc.Returns (startLoop fuel) g fun _ g' =>
      Unchanged g.sessionList.entries g'.sessionList.entries := by
    refine Proc.returns_iter (J := fun _ g₁ => Unchanged g.sessionList.entries g₁.sessionList.entries)
      (fun i g₁ hg₁ t r g₂ hr => ?_) fuel (unchanged_refl _)
    have := hround hg₁ t r g₂ hr
    cases r with
    | again b => exact this
    | done a => exact this
  exact hloop t s g' h

/-- A `fork` fails before the loop comes to a session that has a process, where `r` gives the
results of `fork` from the `n`-th on. -/
def FailsBefore (r : Nat → Option Pid × Int) (n : Nat) (l : List Session) : Prop :=
  ∀ i sp, l[i]? = some sp → sp.seProcess.isSome → ∃ j < i, (r (n + j)).1 = none

section

variable {r : Nat → Option Pid × Int}

theorem failsBefore_nil : FailsBefore r n [] := fun i sp h => by simp at h

theorem failsBefore_running (hsp : sp.seProcess.isSome) : ¬ FailsBefore r n (sp :: rest) := fun h => by
  obtain ⟨j, hj, -⟩ := h 0 sp rfl hsp
  exact absurd hj (Nat.not_lt_zero j)

theorem failsBefore_none (hsp : sp.seProcess = none) (hr : (r n).1 = none) :
    FailsBefore r n (sp :: rest) := by
  rintro (_ | i) sp' hsp' hrun
  · cases hsp'
    rw [hsp] at hrun
    cases hrun
  · exact ⟨0, Nat.succ_pos i, hr⟩

theorem failsBefore_some (hsp : sp.seProcess = none) (hr : (r n).1 ≠ none) :
    FailsBefore r n (sp :: rest) ↔ FailsBefore r (n + 1) rest := by
  constructor
  · intro h i sp' hsp' hrun
    obtain ⟨j, hj, hfail⟩ := h (i + 1) sp' hsp' hrun
    cases j with
    | zero => exact absurd hfail hr
    | succ j => exact ⟨j, Nat.lt_of_succ_lt_succ hj, by rwa [Nat.add_right_comm]⟩
  · rintro h (_ | i) sp' hsp' hrun
    · cases hsp'
      rw [hsp] at hrun
      cases hrun
    · obtain ⟨j, hj, hfail⟩ := h i sp' hsp' hrun
      exact ⟨j + 1, Nat.succ_lt_succ hj, by rwa [← Nat.add_assoc, Nat.add_right_comm]⟩

end

/-- The loop from a place of the table: it ends if a `fork` fails before it comes to a
session that has a process. -/
theorem iter_startSession_ends (r : Nat → Option Pid × Int)
    (hg : g.sessionList.entries = before ++ rest) :
    (∃ n s g', (Proc.iter (startSession 0) n before.length g).Runs
      (attempts r before.length (rest.filter (·.seProcess.isNone))) (.ok s, g')) ↔
    FailsBefore r before.length rest := by
  induction rest generalizing before g with
  | nil =>
    refine iff_of_true ⟨1, .messageLoop, g, ?_⟩ failsBefore_nil
    rw [iter_startSession_end (by rw [hg, List.append_nil])]
    exact .nil _
  | cons sp rest ih =>
    by_cases hsp : sp.seProcess.isSome
    · refine iff_of_false ?_ (failsBefore_running hsp)
      rintro ⟨n, s, g', h⟩
      rw [iter_startSession_running hg hsp] at h
      obtain ⟨-, hx⟩ := Prog.runs_ret.mp h
      cases hx
    · have hidle : sp.seProcess = none := by simpa using hsp
      have hfilter : (sp :: rest).filter (·.seProcess.isNone) = sp :: rest.filter (·.seProcess.isNone) :=
        List.filter_cons_of_pos (by rw [hidle]; rfl)
      rw [hfilter, attempts]
      cases hr : r before.length with | mk res e => ?_
      cases res with
      | none =>
        exact iff_of_true ⟨1, _, _, (iter_startSession_none hg hidle).mpr ⟨rfl, rfl⟩⟩
          (failsBefore_none hidle (congrArg Prod.fst hr))
      | some pid =>
        have hlen : (before ++ [withProcess sp pid]).length = before.length + 1 := List.length_append
        have hnext := ih (afterStart_entries hg pid e)
        rw [hlen] at hnext
        rw [failsBefore_some hidle (by rw [hr]; exact Option.some_ne_none pid), ← hnext,
          if_pos (show (some pid, e).1.isSome from rfl), ← hlen]
        -- the start takes one round
        constructor
        · rintro ⟨n, s, g', h⟩
          cases n with
          | zero => cases h
          | succ n => exact ⟨n, s, g', (iter_startSession_some hg hidle).mp h⟩
        · rintro ⟨n, s, g', h⟩
          exact ⟨n + 1, s, g', (iter_startSession_some hg hidle).mpr h⟩

/-- The start loop ends, attempts each session that has no process once, in order, until
a `fork` fails, and leaves the others as they are, exactly if a `fork` fails before it
comes to a session that has a process. -/
theorem startLoop_ends (g : Globals) (r : Nat → Option Pid × Int) :
    (∃ fuel s g', (startLoop fuel g).Runs
        (attempts r 0 (g.sessionList.entries.filter (·.seProcess.isNone))) (.ok s, g') ∧
      Unchanged g.sessionList.entries g'.sessionList.entries) ↔
    ∀ i sp, g.sessionList.entries[i]? = some sp → sp.seProcess.isSome → ∃ j < i, (r j).1 = none := by
  have hnil : g.sessionList.entries = [] ++ g.sessionList.entries := rfl
  have hloop := iter_startSession_ends r hnil
  simp only [FailsBefore, List.length_nil, Nat.zero_add] at hloop
  rw [← hloop]
  constructor
  · rintro ⟨fuel, s, g', h, -⟩
    exact ⟨fuel, s, g', h⟩
  · rintro ⟨fuel, s, g', h⟩
    exact ⟨fuel, s, g', h, startLoop_unchanged h⟩

/-- The first session has a process: the loop does not end. -/
theorem runningFirst_spins : ¬ ∃ fuel t s g', (startLoop fuel (twoTtys (some 11))).Runs t (.ok s, g') := by
  rintro ⟨fuel, t, s, g', h⟩
  have hnil : (twoTtys (some 11)).sessionList.entries = [] ++ _ :: _ := rfl
  have hspin : startLoop fuel (twoTtys (some 11)) = .ret (.timeout, twoTtys (some 11)) :=
    iter_startSession_running hnil rfl
  rw [hspin] at h
  obtain ⟨-, hx⟩ := Prog.runs_ret.mp h
  cases hx

end Cheviot.Proof
