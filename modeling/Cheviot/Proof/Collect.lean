import Cheviot.Proof.Sessions
import Cheviot.Spec.Children

/-!
# `free_session` and `collect_process`, call by call

What `free_session` frees and leaves (`freeSession_runs`), and `collect_process`
where no session is to be restarted (`collectProcess_marked`): one run for each
list of answers, so that a run is known from its calls and can also be given.
-/

namespace Cheviot.Proof

open Framework Cheviot.Sysinit Cheviot.Spec

variable {g g' : Globals} {l : SessionTable} {sp sp' : Session} {pid : Pid} {status : Status}
  {t t' : List (Event sys)}

/-! ## Calls, and what is read off them -/

theorem errnoAfter_append (errno : Int) (t t' : List (Event sys)) :
    errnoAfter errno (t ++ t') = errnoAfter (errnoAfter errno t) t' := List.foldl_append

theorem freed_append (t t' : List (Event sys)) : freed (t ++ t') = freed t ++ freed t' :=
  List.filterMap_append

theorem reported_append (t t' : List (Event sys)) : reported (t ++ t') = reported t ++ reported t' :=
  List.filterMap_append

theorem sent_append (t t' : List (Event sys)) : sent (t ++ t') = sent t ++ sent t' :=
  List.filterMap_append

/-- The calls of `t` free the blocks `bs`, one by one. -/
def Frees (bs : List Block) (t : List (Event sys)) : Prop := t.map (·.call) = bs.map Call.free

theorem frees_nil : Frees [] t ↔ t = [] := List.map_eq_nil_iff

theorem frees_cons {b : Block} {bs : List Block} :
    Frees (b :: bs) t ↔ ∃ e t', t = ⟨.free b, ((), e)⟩ :: t' ∧ Frees bs t' := by
  rw [Frees, List.map_cons, List.map_eq_cons_iff]
  constructor
  · rintro ⟨⟨c, r⟩, t', rfl, rfl, h⟩
    exact ⟨r.2, t', rfl, h⟩
  · rintro ⟨e, t', rfl, h⟩
    exact ⟨_, t', rfl, rfl, h⟩

/-- What holds of no calls, and is kept by one more `free`, holds of calls that free. -/
theorem Frees.induction {P : List Block → List (Event sys) → Prop} {bs : List Block} (h : Frees bs t)
    (nil : P [] []) (cons : ∀ b e bs t, P bs t → P (b :: bs) (⟨.free b, ((), e)⟩ :: t)) : P bs t := by
  induction bs generalizing t with
  | nil =>
    rw [frees_nil.mp h]
    exact nil
  | cons b bs ih =>
    obtain ⟨e, t', rfl, h'⟩ := frees_cons.mp h
    exact cons b e bs t' (ih h')

theorem Frees.isFree {bs : List Block} (h : Frees bs t) : ∀ e ∈ t, isFree e.call := by
  intro e he
  have : e.call ∈ bs.map Call.free := h ▸ List.mem_map_of_mem he
  obtain ⟨b, -, hb⟩ := List.mem_map.mp this
  rw [← hb]
  rfl

theorem Frees.freed {bs : List Block} (h : Frees bs t) : freed t = bs :=
  h.induction (P := fun bs t => Spec.freed t = bs) rfl fun b _ _ _ ih => congrArg (b :: ·) ih

/-- A run that frees `bs` and leaves `errno` at 0. -/
def freeing (bs : List Block) : List (Event sys) := bs.map fun b => ⟨.free b, ((), 0)⟩

theorem freeing_frees (bs : List Block) : Frees bs (freeing bs) := List.map_map

/-! ## `free_session` -/

/-- `free` of each block. -/
def freeAll : List Block → Sys Unit
  | [] => pure ()
  | b :: bs => do
    syscall (.free b)
    freeAll bs

theorem freeAll_runs (bs : List Block) {x : Out Unit × Globals} :
    (freeAll bs g).Runs t x ↔ Frees bs t ∧ x = (.ok (), { g with errno := errnoAfter g.errno t }) := by
  induction bs generalizing g t with
  | nil =>
    rw [frees_nil, freeAll, Proc.pure_apply, Prog.runs_ret]
    refine and_congr_right fun ht => ?_
    rw [ht]
    rfl
  | cons b bs ih =>
    rw [freeAll, runs_syscall_bind_iff, frees_cons]
    constructor
    · rintro ⟨r, e, t', rfl, h⟩
      obtain ⟨hfrees, rfl⟩ := ih.mp h
      exact ⟨⟨e, t', rfl, hfrees⟩, rfl⟩
    · rintro ⟨⟨e, t', rfl, hfrees⟩, rfl⟩
      exact ⟨(), e, t', rfl, ih.mpr ⟨hfrees, rfl⟩⟩

theorem freeSession_eq (sp : Session) : freeSession sp = (do
    Proc.modify fun g => { g with sessionList := g.sessionList.remEntry sp }
    freeAll (blocks sp)) := by
  rw [freeSession, blocks]
  split <;> simp only [freeAll, bind_pure_unit]

/-- `free_session` unlinks the session, and frees each of its blocks. -/
theorem freeSession_runs {x : Out Unit × Globals} : (freeSession sp g).Runs t x ↔
    Frees (blocks sp) t ∧ x = (.ok (), { g with
      sessionList := g.sessionList.remEntry sp, errno := errnoAfter g.errno t }) := by
  rw [freeSession_eq, Proc.runs_modify_bind, freeAll_runs]

/-! ## `collect_process` -/

/-- No session is to be restarted. -/
def NoRestart (l : SessionTable) : Prop := ∀ sp ∈ l.entries, sp.isShutdown

/-- What the collection of `pid` frees, where no session is to be restarted. -/
def ended (l : SessionTable) (pid : Pid) : List Block :=
  ((findSession l.entries pid).map blocks).getD []

/-- The table after the collection of `pid`, where no session is to be restarted. -/
def without (l : SessionTable) (pid : Pid) : SessionTable :=
  ((findSession l.entries pid).map l.remEntry).getD l

/-- Where no session is to be restarted, `collect_process` frees the session of
the process, if there is one. -/
theorem collectProcess_marked (hm : NoRestart g.sessionList) {x : Out Unit × Globals} :
    (collectProcess pid status g).Runs t x ↔ Frees (ended g.sessionList pid) t ∧
      x = (.ok (), { g with
        sessionList := without g.sessionList pid, errno := errnoAfter g.errno t }) := by
  have hskip : findSession g.sessionList.entries pid = none → (((pure () : Sys Unit) g).Runs t x ↔
      Frees (ended g.sessionList pid) t ∧ x = (.ok (), { g with
        sessionList := without g.sessionList pid, errno := errnoAfter g.errno t })) := by
    intro hfind
    rw [ended, without, hfind, Proc.pure_apply, Prog.runs_ret]
    refine (and_congr_left' frees_nil.symm).trans (and_congr_right fun ht => ?_)
    rw [frees_nil.mp ht]
    rfl
  rw [collectProcess, Proc.runs_get_bind]
  by_cases hnil : g.sessionList.entries = []
  · rw [if_pos hnil]
    exact hskip (by rw [hnil]; rfl)
  · rw [if_neg hnil]
    cases hfind : findSession g.sessionList.entries pid with
    | none => exact hskip hfind
    | some sp =>
      have hshut := hm sp (findSession_some hfind).1
      dsimp only
      rw [if_pos hshut, freeSession_runs, ended, without, hfind]
      rfl

theorem without_noRestart (hm : NoRestart l) (pid : Pid) : NoRestart (without l pid) := by
  intro sp hsp
  rw [without] at hsp
  cases hfind : findSession l.entries pid with
  | none => rw [hfind] at hsp; exact hm sp hsp
  | some sp' => rw [hfind] at hsp; exact hm sp (mem_remEntry hsp).1

end Cheviot.Proof
