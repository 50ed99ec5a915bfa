import Mathlib.Data.Finset.Card
import Cheviot.Proof.Collect
import Cheviot.Proof.RunRc

/-!
# The reaper

`state_reaper` marks every session, so that its rounds are known from the
answers (`reapRound_runs`). From this:

* `stateReaper_reaps`: every child has been reaped when it returns, unless a stale
  `ECHILD` in `errno` ended its loop;
* `stateReaper_escalates`: it sends nothing but SIGHUP, so that it gets the better
  of its children exactly if that is what they all die from.
-/

namespace Cheviot.Proof

open Framework Cheviot.Sysinit Cheviot.Spec

variable {fuel : Nat} {g g' g₀ : Globals} {l : SessionTable} {C : Finset Pid} {t t' : List (Event sys)}

/-! ## A round -/

/-- What a round frees. -/
def roundFrees (l : SessionTable) (r : Option (Pid × Status)) : List Block :=
  (r.map fun x => ended l x.1).getD []

/-- The globals after a round that ends with the calls `t`. -/
def afterRound (g : Globals) (r : Option (Pid × Status)) (errno : Int) (t : List (Event sys)) :
    Globals :=
  { g with
    sessionList := (r.map fun x => without g.sessionList x.1).getD g.sessionList
    errno := errnoAfter errno t }

theorem afterRound_noRestart (hm : NoRestart g.sessionList) (r : Option (Pid × Status)) (e : Int)
    (t : List (Event sys)) : NoRestart (afterRound g r e t).sessionList := by
  cases r with
  | none => exact hm
  | some x => exact without_noRestart hm x.1

/-- A round, where no session is to be restarted: a `waitpid`, and the end of the
session of what it reports. -/
theorem reapRound_runs (hm : NoRestart g.sessionList) {x : Out (Proc.Round Unit Unit) × Globals} :
    (reapRound g).Runs t x ↔ ∃ r e t', t = ⟨.waitpid false, (r, e)⟩ :: t' ∧
      Frees (roundFrees g.sessionList r) t' ∧
      x = (.ok (if errnoAfter e t' ≠ ECHILD then .again () else .done ()), afterRound g r e t') := by
  rw [reapRound, runs_syscall_bind_iff]
  refine exists_congr fun r => exists_congr fun e => exists_congr fun t' => and_congr_right fun _ => ?_
  have hlast : ∀ {g : Globals} {u : List (Event sys)}, ((do
      let g ← Proc.get
      if g.errno ≠ ECHILD then pure (.again ()) else pure (.done ()) : Sys _) g).Runs u x ↔ u = [] ∧
        x = (.ok (if g.errno ≠ ECHILD then .again () else .done ()), g) := by
    intro g u
    rw [Proc.runs_get_bind, Proc.ite_apply]
    split <;> rw [Proc.pure_apply, Prog.runs_ret]
  cases r with
  | none =>
    refine (hlast (g := { g with errno := e })).trans ?_
    rw [roundFrees, Option.map_none, Option.getD_none, frees_nil]
    refine and_congr_right fun ht => ?_
    rw [ht]
    rfl
  | some y =>
    dsimp only
    rw [Proc.bind_apply, Prog.runs_bind]
    constructor
    · rintro ⟨t₁, t₂, z, rfl, h₁, h₂⟩
      obtain ⟨hfrees, rfl⟩ := (collectProcess_marked (g := { g with errno := e }) hm).mp h₁
      obtain ⟨rfl, rfl⟩ := hlast.mp h₂
      rw [List.append_nil]
      exact ⟨hfrees, rfl⟩
    · rintro ⟨hfrees, rfl⟩
      exact ⟨t', [], _, (List.append_nil t').symm,
        (collectProcess_marked (g := { g with errno := e }) hm).mpr ⟨hfrees, rfl⟩, hlast.mpr ⟨rfl, rfl⟩⟩

/-- A run of the loop, from its first round. -/
theorem reapLoop_runs {n : Nat} (hm : NoRestart g.sessionList)
    (h : (Proc.iter (fun _ => reapRound) (n + 1) () g).Runs t (.ok (), g')) :
    ∃ r e t₁ t₂, t = ⟨.waitpid false, (r, e)⟩ :: t₁ ++ t₂ ∧ Frees (roundFrees g.sessionList r) t₁ ∧
      ((errnoAfter e t₁ = ECHILD ∧ t₂ = [] ∧ g' = afterRound g r e t₁) ∨
        (errnoAfter e t₁ ≠ ECHILD ∧
          (Proc.iter (fun _ => reapRound) n () (afterRound g r e t₁)).Runs t₂ (.ok (), g'))) := by
  rw [Proc.iter, Proc.runs_bind_ok] at h
  obtain ⟨u, t₂, x, g₁, rfl, h₁, h₂⟩ := h
  obtain ⟨r, e, t₁, rfl, hfrees, hx⟩ := (reapRound_runs hm).mp h₁
  cases hx
  refine ⟨r, e, t₁, t₂, rfl, hfrees, ?_⟩
  by_cases he : errnoAfter e t₁ = ECHILD
  · rw [if_neg (not_not.mpr he)] at h₂
    obtain ⟨rfl, -, rfl⟩ := Proc.runs_pure_ok.mp h₂
    exact .inl ⟨he, rfl, rfl⟩
  · rw [if_pos he] at h₂
    exact .inr ⟨he, h₂⟩

/-! ## Every child is reaped -/

theorem childrenOf_append (C : Finset Pid) (t t' : List (Event sys)) :
    childrenOf C (t ++ t') = childrenOf (childrenOf C t) t' := List.foldl_append

theorem Frees.children {bs : List Block} (h : Frees bs t) (C : Finset Pid) : childrenOf C t = C :=
  h.induction (P := fun _ t => childrenOf C t = C) rfl fun _ _ _ _ ih => ih

/-- The children after a round. -/
theorem childrenOf_round {r : Option (Pid × Status)} {e : Int} {bs : List Block} (h : Frees bs t) :
    childrenOf C (⟨.waitpid false, (r, e)⟩ :: t ++ t') =
      childrenOf (childrenAfter C ⟨.waitpid false, (r, e)⟩) t' := by
  rw [childrenOf_append]
  exact congrArg (childrenOf · t') (h.children _)

/-- Where an element that is not among the first ones stands. -/
theorem split_after {α : Type} {a b : α} {t t₁ t₂ t' : List α} (h : a :: t ++ t' = t₁ ++ b :: t₂)
    (hb : b ∉ t) : (t₁ = [] ∧ a = b ∧ t₂ = t ++ t') ∨ ∃ t₃, t₁ = a :: t ++ t₃ ∧ t' = t₃ ++ b :: t₂ := by
  rcases List.append_eq_append_iff.mp h with ⟨t₃, rfl, rfl⟩ | ⟨t₃, ht, ht₂⟩
  · exact .inr ⟨t₃, rfl, rfl⟩
  · cases t₁ with
    | nil =>
      obtain rfl : t₃ = a :: t := ht.symm
      obtain ⟨rfl, rfl⟩ := List.cons.inj ht₂
      exact .inl ⟨rfl, rfl, rfl⟩
    | cons c t₁ =>
      obtain ⟨rfl, rfl⟩ := List.cons.inj ht
      cases t₃ with
      | nil => exact .inr ⟨[], by simp, ht₂.symm⟩
      | cons c t₃ =>
        obtain ⟨rfl, -⟩ := List.cons.inj ht₂
        exact absurd (List.mem_append_right _ List.mem_cons_self) hb

/-- A stale `errno` after the first round, or after a later one. -/
theorem stale_cons {r : Option (Pid × Status)} {e : Int} {bs : List Block} (hfrees : Frees bs t)
    (hnext : t'.takeWhile (isFree ·.call) = []) :
    Stale C (⟨.waitpid false, (r, e)⟩ :: t ++ t') ↔
      (r.isSome ∧ (childrenAfter C ⟨.waitpid false, (r, e)⟩).Nonempty ∧ errnoAfter e t = ECHILD) ∨
        Stale (childrenAfter C ⟨.waitpid false, (r, e)⟩) t' := by
  have hfree : ∀ x ∈ t, isFree x.call := hfrees.isFree
  have htake : (t ++ t').takeWhile (isFree ·.call) = t := by
    rw [List.takeWhile_append_of_pos hfree, hnext, List.append_nil]
  constructor
  · rintro ⟨t₁, pid, status, e', t₂, ht, hleft, he⟩
    rcases split_after ht (fun hm => nomatch hfree _ hm) with ⟨rfl, hhead, rfl⟩ | ⟨t₃, rfl, rfl⟩
    · cases hhead
      rw [htake] at he
      exact .inl ⟨rfl, hleft, he⟩
    · rw [List.append_assoc, childrenOf_round hfrees] at hleft
      exact .inr ⟨t₃, pid, status, e', t₂, rfl, hleft, he⟩
  · rintro (⟨hr, hleft, he⟩ | ⟨t₁, pid, status, e', t₂, rfl, hleft, he⟩)
    · obtain ⟨⟨pid, status⟩, rfl⟩ := Option.isSome_iff_exists.mp hr
      exact ⟨[], pid, status, e, t ++ t', rfl, hleft, by rw [htake]; exact he⟩
    · refine ⟨⟨.waitpid false, (r, e)⟩ :: t ++ t₁, pid, status, e', t₂, by simp, ?_, he⟩
      rw [List.append_assoc, childrenOf_round hfrees]
      exact hleft

/-- A run of the loop begins with a `waitpid`. -/
theorem reapLoop_takeWhile {n : Nat} (hm : NoRestart g.sessionList)
    (h : (Proc.iter (fun _ => reapRound) n () g).Runs t (.ok (), g')) :
    t.takeWhile (isFree ·.call) = [] := by
  cases n with
  | zero => simp [Proc.iter, Prog.runs_ret] at h
  | succ n =>
    obtain ⟨r, e, t₁, t₂, rfl, -⟩ := reapLoop_runs hm h
    rfl

/-- The loop ends with a child left exactly if a stale `errno` ended it. -/
theorem reapLoop_left {n : Nat} (hm : NoRestart g.sessionList)
    (h : (Proc.iter (fun _ => reapRound) n () g).Runs t (.ok (), g'))
    (hwaits : Admits (fun h => Waits (childrenOf C h)) [] t) :
    childrenOf C t = ∅ ↔ ¬ Stale C t := by
  induction n generalizing g t C with
  | zero => simp [Proc.iter, Prog.runs_ret] at h
  | succ n ih =>
    obtain ⟨r, e, t₁, t₂, rfl, hfrees, hend⟩ := reapLoop_runs hm h
    obtain ⟨hfirst, hrest⟩ := admits_append.mp hwaits
    have hanswer := (admits_cons.mp hfirst).1
    rw [childrenOf_round hfrees]
    rcases hend with ⟨he, rfl, -⟩ | ⟨he, h⟩
    · rw [stale_cons hfrees rfl, or_iff_left (by simp [Stale])]
      cases r with
      | none =>
        -- the loop ended with a `waitpid` that failed, so that there is no child
        obtain rfl := frees_nil.mp hfrees
        obtain rfl : C = ∅ := hanswer.mp he
        simp [childrenOf, childrenAfter]
      | some x => simp [childrenOf, he, Finset.not_nonempty_iff_eq_empty]
    · have hm' := afterRound_noRestart hm r e t₁
      rw [stale_cons hfrees (reapLoop_takeWhile hm' h), or_iff_right fun hs => he hs.2.2]
      refine ih hm' h (admits_shift (fun u x hx => ?_) hrest)
      rwa [List.nil_append, childrenOf_round hfrees] at hx

theorem Frees.reported {bs : List Block} (h : Frees bs t) : reported t = [] :=
  h.induction (P := fun _ t => Spec.reported t = []) rfl fun _ _ _ _ ih => ih

/-- Whatever is reported is passed to `collect_process`. -/
theorem reapLoop_reaps {n : Nat} (hm : NoRestart g.sessionList)
    (h : (Proc.iter (fun _ => reapRound) n () g).Runs t (.ok (), g')) :
    ∃ l, Reaps g t l g' ∧ l.map (·.1) = reported t := by
  induction n generalizing g t with
  | zero => simp [Proc.iter, Prog.runs_ret] at h
  | succ n ih =>
    obtain ⟨r, e, t₁, t₂, rfl, hfrees, hend⟩ := reapLoop_runs hm h
    obtain ⟨l, hl, hreported⟩ : ∃ l, Reaps (afterRound g r e t₁) t₂ l g' ∧ l.map (·.1) = reported t₂ := by
      rcases hend with ⟨-, rfl, rfl⟩ | ⟨-, h⟩
      · exact ⟨[], .nil _, rfl⟩
      · exact ih (afterRound_noRestart hm r e t₁) h
    rw [reported_append, reported, List.filterMap_cons, ← reported, hfrees.reported]
    cases r with
    | none =>
      obtain rfl := frees_nil.mp hfrees
      exact ⟨l, .failed hl, hreported⟩
    | some x =>
      refine ⟨x :: l, .child ((collectProcess_marked (g := { g with errno := e }) hm).mpr ⟨hfrees, rfl⟩) hl, ?_⟩
      rw [List.map_cons, hreported]
      rfl

/-- A child that has not been reported is left. -/
theorem mem_childrenOf {pid : Pid} (hpid : pid ∈ C) (ht : pid ∉ reported t) : pid ∈ childrenOf C t := by
  induction t generalizing C with
  | nil => exact hpid
  | cons e t ih =>
    have hrest : pid ∉ reported t := fun hm => ht (List.mem_filterMap.mpr (by
      obtain ⟨x, hx, he⟩ := List.mem_filterMap.mp hm
      exact ⟨x, List.mem_cons_of_mem _ hx, he⟩))
    have hhead : ∀ x, waited e = some x → x.1 ≠ pid := fun x hx he =>
      ht (List.mem_filterMap.mpr ⟨e, List.mem_cons_self, by rw [hx, ← he]; rfl⟩)
    refine ih (C := childrenAfter C e) ?_ hrest
    obtain ⟨c, r⟩ := e
    cases c with
    | fork child =>
      obtain ⟨x, e⟩ := r
      cases x with
      | none => exact hpid
      | some x => exact Finset.mem_insert_of_mem hpid
    | waitpid untraced =>
      obtain ⟨x, e⟩ := r
      cases x with
      | none => exact hpid
      | some x =>
        rw [childrenAfter]
        split
        · exact hpid
        · exact Finset.mem_erase.mpr ⟨(hhead x rfl).symm, hpid⟩
    | waitpidNohang =>
      obtain ⟨x, e⟩ := r
      cases x with
      | child pid' status => exact Finset.mem_erase.mpr ⟨(hhead (pid', status) rfl).symm, hpid⟩
      | _ => exact hpid
    | _ => exact hpid

theorem Frees.errno_eq {bs : List Block} {errno : Int} (h : Frees bs t)
    (hkeeps : Admits (fun h => FreeKeepsErrno (errnoAfter errno h)) [] t) :
    errnoAfter errno t = errno := by
  revert hkeeps
  refine h.induction (P := fun _ t => Admits (fun h => FreeKeepsErrno (errnoAfter errno h)) [] t →
    errnoAfter errno t = errno) (fun _ => rfl) fun b e bs t ih hkeeps => ?_
  obtain ⟨hhead, hrest⟩ := admits_cons.mp hkeeps
  obtain rfl : e = errno := hhead rfl
  exact (ih hrest : errnoAfter e t = e)

/-- If neither what succeeds nor `free` changes `errno`, a stale `ECHILD` is the
one there was at first. -/
theorem reapLoop_stale {n : Nat} (hm : NoRestart g.sessionList)
    (h : (Proc.iter (fun _ => reapRound) n () g).Runs t (.ok (), g'))
    (hwaits : Admits (fun h => Waits (childrenOf C h)) [] t)
    (hkeeps : Admits (fun h => KeepsErrno (errnoAfter g.errno h)) [] t)
    (hfree : Admits (fun h => FreeKeepsErrno (errnoAfter g.errno h)) [] t) :
    Stale C t ↔ g.errno = ECHILD ∧ ∃ pid status e t', t = ⟨.waitpid false, (some (pid, status), e)⟩ :: t' ∧
      (C.erase pid).Nonempty := by
  induction n generalizing g t C with
  | zero => simp [Proc.iter, Prog.runs_ret] at h
  | succ n ih =>
    obtain ⟨r, e, t₁, t₂, rfl, hfrees, hend⟩ := reapLoop_runs hm h
    obtain ⟨hwaits₁, hwaits₂⟩ := admits_append.mp hwaits
    obtain ⟨hkeeps₁, hkeeps₂⟩ := admits_append.mp hkeeps
    obtain ⟨hfree₁, hfree₂⟩ := admits_append.mp hfree
    have herrno : errnoAfter e t₁ = e := hfrees.errno_eq (admits_cons.mp hfree₁).2
    -- no later round finds `ECHILD` there, since the loop went on
    have hlater : t₂.takeWhile (isFree ·.call) = [] ∧ ¬ Stale (childrenAfter C ⟨.waitpid false, (r, e)⟩) t₂ := by
      rcases hend with ⟨-, rfl, -⟩ | ⟨he, h⟩
      · exact ⟨rfl, by simp [Stale]⟩
      · have hm' := afterRound_noRestart hm r e t₁
        refine ⟨reapLoop_takeWhile hm' h, fun hs => he ((ih hm' h (admits_shift (fun u x hx => ?_) hwaits₂)
          (admits_shift (fun u x hx => ?_) hkeeps₂) (admits_shift (fun u x hx => ?_) hfree₂)).mp hs).1⟩
        · rwa [List.nil_append, childrenOf_round hfrees] at hx
        · rwa [List.nil_append, errnoAfter_append] at hx
        · rwa [List.nil_append, errnoAfter_append] at hx
    rw [stale_cons hfrees hlater.1, or_iff_left hlater.2, herrno]
    cases r with
    | none => simp
    | some x =>
      obtain ⟨pid, status⟩ := x
      obtain rfl : e = g.errno := (admits_cons.mp hkeeps₁).1
      have hstop : ¬ status.isStopped := fun hs => Bool.false_ne_true ((admits_cons.mp hwaits₁).1.2 hs)
      rw [childrenAfter, if_neg hstop]
      simp [and_comm]

/-! ## `state_reaper` -/

/-- The globals in which the loop of the reaper is entered. -/
def reaping (g : Globals) (errno : Int) : Globals :=
  { g with sessionList := g.sessionList.setShutdown, errno := errno }

theorem reaping_noRestart (g : Globals) (e : Int) : NoRestart (reaping g e).sessionList :=
  fun _ hsp => isShutdown_setShutdown hsp

theorem stateReaper_loop {e : Int} {s : InitState}
    (h : (stateReaper fuel g).Runs (⟨.kill none .hup, (true, e)⟩ :: t) (.ok s, g')) :
    (Proc.iter (fun _ => reapRound) fuel () (reaping g e)).Runs t (.ok (), g') := by
  rw [stateReaper, Proc.runs_modify_bind, deathSigs, sendSigs, runs_syscall_bind_iff] at h
  obtain ⟨r, e', t', ht, h⟩ := h
  cases ht
  rw [Proc.runs_get_bind, if_neg (fun hc => nomatch hc.1)] at h
  obtain ⟨t₁, t₂, a, g₁, rfl, h₁, h₂⟩ := Proc.runs_bind_ok.mp h
  obtain ⟨rfl, -, rfl⟩ := Proc.runs_pure_ok.mp h₂
  rw [List.append_nil]
  exact h₁

/-- When the reaper returns, every child has been reaped and passed to
`collect_process` exactly if no stale `ECHILD` ended its loop. Where `free` too
keeps `errno`, it ended the loop exactly if it was there on entry, and the first
`waitpid` reports a child and leaves another one. -/
theorem stateReaper_reaps {e : Int} {s : InitState}
    (h : (stateReaper fuel g).Runs (⟨.kill none .hup, (true, e)⟩ :: t) (.ok s, g'))
    (hwaits : Admits (fun h => Waits (childrenOf C h)) [] t)
    (hkeeps : Admits (fun h => KeepsErrno (errnoAfter g.errno h)) [] (⟨.kill none .hup, (true, e)⟩ :: t)) :
    (AllReaped C (reaping g e) t g' ↔ ¬ Stale C t) ∧
      (Admits (fun h => FreeKeepsErrno (errnoAfter g.errno h)) [⟨.kill none .hup, (true, e)⟩] t →
        (AllReaped C (reaping g e) t g' ↔ ¬ (g.errno = ECHILD ∧ ∃ pid status e' t',
          t = ⟨.waitpid false, (some (pid, status), e')⟩ :: t' ∧ (C.erase pid).Nonempty))) := by
  have hloop := stateReaper_loop h
  have hm := reaping_noRestart g e
  have hall : AllReaped C (reaping g e) t g' ↔ ¬ Stale C t := by
    rw [← reapLoop_left hm hloop hwaits]
    refine ⟨fun ha => ha.1, fun ha => ⟨ha, ?_⟩⟩
    obtain ⟨l, hl, hreported⟩ := reapLoop_reaps hm hloop
    refine ⟨l, hl, fun pid hpid => ?_⟩
    have hmem : pid ∈ reported t := by
      by_contra hnot
      exact Finset.notMem_empty pid (ha ▸ mem_childrenOf hpid hnot)
    obtain ⟨⟨_, status⟩, hx, rfl⟩ := List.mem_map.mp (hreported ▸ hmem)
    exact ⟨status, hx⟩
  refine ⟨hall, fun hfree => ?_⟩
  obtain ⟨hkill, hkeeps⟩ := admits_cons.mp hkeeps
  obtain rfl : e = g.errno := hkill
  rw [hall, reapLoop_stale hm hloop hwaits hkeeps hfree]
  rfl

/-- A wait is interrupted, and three children are reaped; the second is the process of a session, which
is freed. -/
def threeReaped : List (Event sys) :=
  [⟨.kill none .hup, (true, 0)⟩, ⟨.waitpid false, (none, EINTR)⟩,
    ⟨.waitpid false, (some (14, .exited 0), EINTR)⟩, ⟨.waitpid false, (some (15, .signaled 1), EINTR)⟩,
    ⟨.free (.device 0), ((), EINTR)⟩, ⟨.free (.getty 0), ((), EINTR)⟩, ⟨.free (.argv 0), ((), EINTR)⟩,
    ⟨.free (.session 0), ((), EINTR)⟩, ⟨.waitpid false, (some (16, .exited 0), EINTR)⟩,
    ⟨.waitpid false, (none, ECHILD)⟩]

theorem stateReaper_reaps_three : ∃ g', (stateReaper 5 (oneStarted 15)).Runs threeReaped (.ok .shutdown, g') ∧
    ¬ Stale {14, 15, 16} threeReaped.tail ∧ AllReaped {14, 15, 16} (reaping (oneStarted 15) 0) threeReaped.tail g' := by
  have h : (stateReaper 5 (oneStarted 15)).Runs threeReaped (.ok .shutdown, _) :=
    .cons (.cons (.cons (.cons (.cons (.cons (.cons (.cons (.cons (.cons (.nil _))))))))))
  have hwaits : Admits (fun h => Waits (childrenOf {14, 15, 16} h)) [] threeReaped.tail := by
    simp only [threeReaped, List.tail_cons, admits_cons, admits_nil, and_true]
    exact ⟨iff_of_false (by decide) (by decide), ⟨by decide, by decide⟩, ⟨by decide, by decide⟩, trivial, trivial,
      trivial, trivial, ⟨by decide, by decide⟩, iff_of_true rfl (by decide)⟩
  have hkeeps : Admits (fun h => KeepsErrno (errnoAfter (oneStarted 15).errno h)) [] threeReaped := by
    simp only [threeReaped, admits_cons, admits_nil, and_true]
    exact ⟨rfl, trivial, rfl, rfl, trivial, trivial, trivial, trivial, rfl, trivial⟩
  have hfree : Admits (fun h => FreeKeepsErrno (errnoAfter (oneStarted 15).errno h)) [⟨.kill none .hup, (true, 0)⟩]
      threeReaped.tail := by
    simp only [threeReaped, List.tail_cons, admits_cons, admits_nil, and_true]
    have hwait : ∀ {r : Option (Pid × Status)} {errno e : Int}, FreeKeepsErrno errno ⟨.waitpid false, (r, e)⟩ :=
      fun h => by cases h
    exact ⟨hwait, hwait, hwait, fun _ => rfl, fun _ => rfl, fun _ => rfl, fun _ => rfl, hwait, hwait⟩
  obtain ⟨hreaped, herrno⟩ := stateReaper_reaps h hwaits hkeeps
  have hall := (herrno hfree).mpr fun hstale => absurd hstale.1 (by decide)
  exact ⟨_, h, hreaped.mp hall, hall⟩

/-- The calls of a run in which process 2 is reaped. -/
def twoReaped (errno : Int) : List (Event sys) :=
  [⟨.kill none .hup, (true, errno)⟩, ⟨.waitpid false, (some (2, .exited 0), errno)⟩]

/-- With `ECHILD` in `errno` on entry, the first of two children that is reported
ends the loop. -/
theorem reaper_staleErrno : ∃ g',
    (stateReaper 1 (Globals.initial [] ECHILD)).Runs (twoReaped ECHILD) (.ok .shutdown, g') ∧
      Admits (fun h => Waits (childrenOf {2, 3} h)) [] (twoReaped ECHILD).tail ∧
      Admits (fun h => KeepsErrno (errnoAfter ECHILD h)) [] (twoReaped ECHILD) ∧
      childrenOf {2, 3} (twoReaped ECHILD).tail = {3} ∧
      ¬ AllReaped {2, 3} (reaping (Globals.initial [] ECHILD) ECHILD) (twoReaped ECHILD).tail g' := by
  have hleft : childrenOf {2, 3} (twoReaped ECHILD).tail = {3} := by decide
  refine ⟨_, .cons (.cons (.nil _)), admits_cons.mpr ⟨⟨by decide, nofun⟩, admits_nil⟩,
    admits_cons.mpr ⟨rfl, admits_cons.mpr ⟨rfl, admits_nil⟩⟩, hleft, fun ha => ?_⟩
  rw [AllReaped, hleft] at ha
  exact absurd ha.1 (by decide)

/-! ## Signals -/

/-- The reaper forks nothing. -/
theorem stateReaper_noFork {q : Prog sys (Out InitState × Globals)}
    (hs : (stateReaper fuel g).Steps t q) : ∀ e ∈ t, ∀ child, e.call ≠ .fork child := by
  have hgetty : NoGetty t := (stateReaper_noGetty (A := fun _ _ => True) (h := []) (by simp [NoGetty])).invariant
    hs (fun _ _ _ _ => trivial) (by simp [NoGetty])
  intro e he child hc
  have hcollect := stateReaper_frame.calls hs e he
  have hnone := hgetty e he
  rw [hc] at hcollect hnone
  cases child with
  | getty => cases hnone
  | _ => cases hcollect

section

variable {dies : Pid → Signal} {k k' : Kernel}

/-- Where no child is alive, none comes alive without a `fork`. -/
theorem kernelRun_dead (hr : k.Run dies t k') (halive : k.alive = ∅)
    (hfork : ∀ e ∈ t, ∀ child, e.call ≠ .fork child) : k'.alive = ∅ := by
  induction hr with
  | nil => exact halive
  | exit pid _ ih => exact ih (by rw [Kernel.terminate, halive, Finset.filter_empty]) hfork
  | @call k k' e t _ _ ih =>
    refine ih ?_ fun e he => hfork e (List.mem_cons_of_mem _ he)
    have hnot := hfork e List.mem_cons_self
    obtain ⟨c, r⟩ := e
    cases c with
    | fork child => exact absurd rfl (hnot child)
    | kill target sig =>
      cases target with
      | none => rw [Kernel.after, Kernel.terminate, halive, Finset.filter_empty]
      | some pid => exact halive
    | waitpid untraced =>
      obtain ⟨x, e⟩ := r
      cases x with
      | none => exact halive
      | some x =>
        rw [Kernel.after]
        split <;> exact halive
    | waitpidNohang =>
      obtain ⟨x, e⟩ := r
      cases x <;> exact halive
    | _ => exact halive

/-- SIGHUP ends all children, if that is what they die from. -/
theorem kernelRun_hup {r : Bool × Int} (hr : k.Run dies (⟨.kill none .hup, r⟩ :: t) k')
    (hdies : ∀ pid ∈ k.alive, dies pid = .hup) (hfork : ∀ e ∈ t, ∀ child, e.call ≠ .fork child) :
    k'.alive = ∅ := by
  generalize ht : (⟨.kill none .hup, r⟩ : Event sys) :: t = u at hr
  induction hr with
  | nil => cases ht
  | exit pid _ ih => exact ih (fun c hc => hdies c (Finset.mem_filter.mp hc).1) ht
  | call _ hr =>
    cases ht
    exact kernelRun_dead hr (Finset.filter_eq_empty_iff.mpr fun c hc =>
      not_not.mpr (.inl (hdies c hc).symm)) hfork

/-- Calls of `free` concern no child. -/
theorem kernelRun_frees {bs : List Block} (hfrees : Frees bs t) (hr : k.Run dies t' k') :
    k.Run dies (t ++ t') k' := by
  refine hfrees.induction (P := fun _ t => k.Run dies (t ++ t') k') hr fun b e bs t ih => ?_
  exact .call ⟨trivial, nofun, nofun⟩ ih

theorem Frees.sent {bs : List Block} (h : Frees bs t) : sent t = [] :=
  h.induction (P := fun _ t => Spec.sent t = []) rfl fun _ _ _ _ ih => ih

theorem freeing_errno (bs : List Block) : errnoAfter 0 (freeing bs) = 0 := by
  induction bs with
  | nil => rfl
  | cons b bs ih => exact ih

/-- The loop can reap all that have terminated, and then waits for the others. -/
theorem reapLoop_waits (dies : Pid → Signal) (k : Kernel) (hm : NoRestart g.sessionList) :
    ∃ n t f k', (Proc.iter (fun _ => reapRound) n () g).Steps t (.call (.waitpid false) f) ∧
      k.Run dies t k' ∧ k'.dead = ∅ ∧ k'.alive = k.alive ∧ sent t = [] := by
  induction hn : k.dead.card generalizing k g with
  | zero => exact ⟨1, [], _, k, .nil _, .nil k, Finset.card_eq_zero.mp hn, rfl, rfl⟩
  | succ n ih =>
    obtain ⟨pid, hpid⟩ := Finset.card_pos.mp (by omega : 0 < k.dead.card)
    have hfrees := freeing_frees (ended g.sessionList pid)
    have hround : (reapRound g).Runs
        (⟨.waitpid false, (some (pid, .exited 0), 0)⟩ :: freeing (ended g.sessionList pid))
        (.ok (.again ()), afterRound g (some (pid, .exited 0)) 0 (freeing (ended g.sessionList pid))) := by
      refine (reapRound_runs hm).mpr ⟨_, _, _, rfl, hfrees, ?_⟩
      rw [freeing_errno]
      rfl
    obtain ⟨m, t, f, k', hs, hr, hdead, halive, hsent⟩ :=
      ih (k := { k with dead := k.dead.erase pid }) (afterRound_noRestart hm _ _ _)
        (by rw [Finset.card_erase_of_mem hpid, hn]; rfl)
    obtain ⟨m', hs'⟩ := (Proc.Rounds.one hround).steps hs
    refine ⟨m', _, f, k', hs', ?_, hdead, halive, ?_⟩
    · refine .call ⟨⟨Finset.mem_union_right _ hpid, nofun⟩, ?_, nofun⟩ (kernelRun_frees hfrees hr)
      intro pid' status hw _
      cases hw
      exact hpid
    · rw [sent_append, hsent, List.append_nil]
      exact hfrees.sent

end

theorem stateReaper_steps (e : Int) {q : Prog sys (Out Unit × Globals)}
    (h : (Proc.iter (fun _ => reapRound) fuel () (reaping g e)).Steps t q) :
    (stateReaper fuel g).Steps (⟨.kill none .hup, (true, e)⟩ :: t)
      (q.bind (Proc.next fun _ => pure .shutdown)) := .cons (h.bind _)

/-- Whenever the reaper waits with only live children left, or returns while a
child is alive, it has sent all three signals, exactly if there is no child that
does not die from SIGHUP. -/
theorem stateReaper_escalates (dies : Pid → Signal) (k : Kernel) (g : Globals) :
    (∀ fuel t q k', (stateReaper fuel g).Steps t q → k.Run dies t k' → k'.Leaves q →
      sent t = [.hup, .term, .kill]) ↔ ∀ pid ∈ k.alive, dies pid = .hup := by
  constructor
  · intro hsent
    by_contra hnot
    obtain ⟨c, hc, hdies⟩ : ∃ c ∈ k.alive, dies c ≠ .hup := by simpa using hnot
    obtain ⟨fuel, t, f, k', hs, hr, hdead, halive, hnone⟩ := reapLoop_waits dies
      (k.after dies ⟨.kill none .hup, (true, 0)⟩) (reaping_noRestart g 0)
    have hleft : c ∈ k'.alive := by
      rw [halive]
      exact Finset.mem_filter.mpr ⟨hc, fun h => h.elim (fun h => hdies h.symm) (by decide)⟩
    have hall := hsent fuel _ _ k' (stateReaper_steps 0 hs) (.call ⟨trivial, nofun, nofun⟩ hr)
      ⟨hdead, c, hleft⟩
    rw [sent, List.filterMap_cons, ← sent, hnone] at hall
    cases hall
  · intro hdies fuel t q k' hs hr hleft
    have hfork := stateReaper_noFork hs
    rcases Prog.steps_call.mp (show (Prog.call (S := sys) (.kill none .hup) _).Steps t q from hs) with
      ⟨rfl, rfl⟩ | ⟨r, t, rfl, -⟩
    · exact hleft.elim
    · have hdead := kernelRun_hup hr hdies fun e he => hfork e (List.mem_cons_of_mem _ he)
      cases q with
      | ret x =>
        obtain ⟨o, g'⟩ := x
        cases o <;> first | exact hleft.elim | exact absurd hleft (by simp [Kernel.Leaves, hdead])
      | call c f =>
        cases c with
        | waitpid untraced =>
          cases untraced <;> first | exact hleft.elim | exact absurd hleft (by simp [Kernel.Leaves, hdead])
        | _ => exact hleft.elim

/-- A child that ignores SIGHUP: the reaper waits for it and sends nothing else. -/
theorem reaper_noEscalation : ∃ q k',
    (stateReaper 1 (Globals.initial [] 0)).Steps [⟨.kill none .hup, (true, 0)⟩] q ∧
      Kernel.Run (fun _ => .term) ⟨{3}, ∅⟩ [⟨.kill none .hup, (true, 0)⟩] k' ∧ k'.Leaves q ∧
      sent [⟨.kill none .hup, (true, 0)⟩] = [.hup] :=
  ⟨_, _, .cons (.nil _), .call ⟨trivial, nofun, nofun⟩ (.nil _), ⟨rfl, 3, by decide⟩, rfl⟩

end Cheviot.Proof
