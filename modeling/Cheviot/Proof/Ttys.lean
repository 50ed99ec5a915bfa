import Cheviot.Proof.Alloc

/-!
# The sessions of a ttys file

`readTtys_mirrors`: where no allocation fails, the loop over the records of a ttys
file adds a session for each record of a terminal that is on, and no other. What
`alloc_session` does with one record is `allocSession_adds`; the loop follows by
induction on the records.
-/

namespace Cheviot.Proof

open Framework Cheviot.Sysinit Cheviot.Spec

variable {g g' : Globals} {typ : Ttyent} {t : List (Event sys)} {i fuel : Nat}

/-! ## A record -/

/-- The record has a name to make a session of. -/
def Named (typ : Ttyent) : Prop := ∀ name, typ.tyName = some name → ∃ c ∈ name, ¬ isSeparator c

theorem words_commandLine (typ : Ttyent) :
    words (commandLine typ) = words (typ.tyGetty.getD []) ++ words (typ.tyName.getD []) :=
  words_append _ _

/-- A name with a character that is none of the separators is one of the words. -/
theorem words_commandLine_ne_nil (hname : Named typ) (h : isActive typ) :
    words (commandLine typ) ≠ [] := by
  obtain ⟨name, hsome⟩ : ∃ name, typ.tyName = some name := by
    simp only [isActive, Bool.and_eq_true] at h
    exact Option.isSome_iff_exists.mp h.1.2
  obtain ⟨c, hc, hsep⟩ := hname name hsome
  rw [words_commandLine, hsome]
  intro hnil
  exact hsep (solid_eq_nil.mp (List.append_eq_nil_iff.mp hnil).2 c hc)

theorem sessionOf_mirrors (hname : Named typ) (h : isActive typ) (id i : Nat) :
    Mirrors (sessionOf id i typ) (typ, i) := by
  have hne := words_commandLine_ne_nil hname h
  have hwords := words_commandLine typ
  simp only [isActive, Bool.and_eq_true, Option.isSome_iff_exists] at h
  obtain ⟨⟨-, name, hsome⟩, getty, hgetty⟩ := h
  refine ⟨rfl, rfl, rfl, ⟨name, hsome, ?_⟩, ⟨getty, name, hgetty, hsome, ?_⟩, hne⟩
  · rw [sessionOf, hsome]
    rfl
  · rw [hgetty, hsome] at hwords
    exact hwords

/-- Where its allocations succeed, `alloc_session` adds the session of a record that is
to have one. -/
theorem allocRun_adds {l l' : SessionTable} {r : Option Session} (hname : Named typ)
    (h : AllocRun i typ l t r l') (hok : ∀ e ∈ t, Allocates e) :
    ttys t = [] ∧ l'.entries = l.entries ++ if isActive typ then [sessionOf l.fresh i typ] else [] := by
  cases h with
  | refused hrefused => exact ⟨rfl, by rw [if_neg hrefused, List.append_nil]⟩
  | noSession n e => exact absurd rfl (hok _ List.mem_cons_self)
  | noDevice n v s e e' e'' =>
    exact absurd (hok _ (List.mem_cons_of_mem _ List.mem_cons_self)) Bool.false_ne_true
  | noArgv n v s e e' hactive hid hsetup hfrees =>
    have hok' : ∀ e ∈ _, Allocates e := fun e he =>
      hok e (List.mem_append_left _ (List.mem_cons_of_mem _ (List.mem_cons_of_mem _ he)))
    cases hsetup with
    | noLine e => exact absurd (hok' _ List.mem_cons_self) Bool.false_ne_true
    | noArgv e e' hargv =>
      cases hargv with
      | noBlock n e => exact absurd rfl (hok' _ (List.mem_cons_of_mem _ List.mem_cons_self))
      | noWord n v e e' hword =>
        exact absurd (words_of_strtok_none hword) (words_commandLine_ne_nil hname hactive)
  | added n v s e e' hactive hsetup =>
    rw [addTail_entries rfl, if_pos hactive]
    cases hsetup with
    | argv e hargv => cases hargv; exact ⟨rfl, rfl⟩

/-! ## The records of a file -/

/-- A round of the loop, at record `i`. -/
def readTty (i : Nat) : Sys (Proc.Round Nat Unit) := do
  let typ ← syscall .getttyent
  match typ with
  | none => pure (.done ())
  | some typ =>
    let _ ← allocSession i typ
    pure (.again (i + 1))

theorem readTtys_eq : readTtys fuel = Proc.iter readTty fuel 0 := rfl

/-- What a round does with the answer of `getttyent`. -/
theorem readTty_cases {o : Out (Proc.Round Nat Unit)} (h : (readTty i g).Runs t (o, g')) :
    ∃ typ e t', t = ⟨.getttyent, (typ, e)⟩ :: t' ∧
      match typ with
      | none => o = .ok (.done ()) ∧ t' = [] ∧ g' = { g with errno := e }
      | some typ => o = .ok (.again (i + 1)) ∧
          ∃ r, (allocSession i typ { g with errno := e }).Runs t' (.ok r, g') := by
  rw [readTty, runs_syscall_bind_iff] at h
  obtain ⟨typ, e, t', ht, h₁⟩ := h
  refine ⟨typ, e, t', ht, ?_⟩
  cases typ with
  | none =>
    obtain ⟨ht', ho, hg⟩ := Proc.runs_pure.mp h₁
    exact ⟨ho, ht', hg⟩
  | some typ =>
    dsimp only at h₁ ⊢
    obtain ⟨t₂, t₃, r, g₂, rfl, h₂, h₃⟩ := (allocSession_total i typ).runs_bind h₁
    obtain ⟨rfl, rfl, rfl⟩ := Proc.runs_pure.mp h₃
    rw [List.append_nil]
    exact ⟨rfl, r, h₂⟩

/-- The loop over the records from `i` on. -/
theorem iter_readTty {n : Nat} {typs : List Ttyent} {o : Out Unit} (hnames : ∀ typ ∈ typs, Named typ)
    (h : (Proc.iter readTty n i g).Runs t (o, g')) (hlen : typs.length < n)
    (hty : ttys t = typs.map some ++ [none]) (hok : ∀ e ∈ t, Allocates e) :
    o = .ok () ∧ ∃ new, g'.sessionList.entries = g.sessionList.entries ++ new ∧
      List.Forall₂ Mirrors new ((typs.zipIdx i).filter fun x => isActive x.1) := by
  induction n generalizing i g t typs with
  | zero => exact absurd hlen (Nat.not_lt_zero _)
  | succ n ih =>
    rw [Proc.iter, Proc.bind_apply, Prog.runs_bind] at h
    obtain ⟨t₁, t₂, ⟨o₁, g₁⟩, rfl, h₁, h₂⟩ := h
    obtain ⟨typ, e, t', rfl, hround⟩ := readTty_cases h₁
    have htys : typ :: (ttys t' ++ ttys t₂) = typs.map some ++ [none] := by
      rw [← hty, ttys, ttys, ttys, List.filterMap_append]
      rfl
    cases typ with
    | none =>
      obtain ⟨rfl, rfl, rfl⟩ := hround
      obtain ⟨rfl, rfl, rfl⟩ := Proc.runs_pure.mp h₂
      cases typs with
      | nil => exact ⟨rfl, [], (List.append_nil _).symm, .nil⟩
      | cons typ typs => cases htys
    | some typ =>
      obtain ⟨rfl, r, hr⟩ := hround
      cases typs with
      | nil => cases htys
      | cons typ' typs =>
        obtain ⟨hhead, htail⟩ := List.cons.inj htys
        obtain rfl := Option.some.inj hhead
        have hname := hnames _ List.mem_cons_self
        obtain ⟨hnone, hadds⟩ := allocRun_adds hname (allocSession_cases hr) fun e he =>
          hok e (List.mem_append_left _ (List.mem_cons_of_mem _ he))
        rw [hnone, List.nil_append] at htail
        obtain ⟨rfl, new, hnew, hmirrors⟩ := ih (fun typ hmem => hnames typ (List.mem_cons_of_mem _ hmem))
          h₂ (Nat.lt_of_succ_lt_succ hlen) htail fun e he => hok e (List.mem_append_right _ he)
        rw [hadds, List.append_assoc] at hnew
        refine ⟨rfl, _, hnew, ?_⟩
        rw [List.zipIdx_cons, List.filter_cons]
        by_cases hactive : isActive typ
        · rw [if_pos hactive, if_pos hactive]
          exact .cons (sessionOf_mirrors hname hactive _ _) hmirrors
        · rw [if_neg hactive, if_neg hactive]
          exact hmirrors

/-- The places of the records that have a session increase. -/
theorem active_increases {typs : List Ttyent} {new : List Session}
    (h : List.Forall₂ Mirrors new (active typs)) : (new.map (·.seIndex)).Pairwise (· < ·) := by
  have hplaces : new.map (·.seIndex) = (active typs).map (·.2) := by
    generalize active typs = xs at h
    induction h with
    | nil => rfl
    | cons hsp _ ih => rw [List.map_cons, List.map_cons, hsp.index, ih]
  have hall : (typs.zipIdx.map (·.2)).Pairwise (· < ·) := by
    rw [List.zipIdx_map_snd]
    exact List.pairwise_lt_range'
  rw [hplaces]
  exact hall.sublist (List.filter_sublist.map _)

/-- The loop over the records of a ttys file, where the allocations succeed and every
name has a character that is neither a space nor a tab, ends, and it has added one
session for each record of a terminal that is on and has the strings it needs, in the
order of the file, and no other. -/
theorem readTtys_mirrors {typs : List Ttyent} {o : Out Unit} (hnames : ∀ typ ∈ typs, Named typ)
    (h : (readTtys fuel g).Runs t (o, g')) (hfuel : typs.length < fuel)
    (hty : ttys t = typs.map some ++ [none]) (hok : ∀ e ∈ t, Allocates e) :
    o = .ok () ∧ ∃ new, g'.sessionList.entries = g.sessionList.entries ++ new ∧
      List.Forall₂ Mirrors new (active typs) ∧ (new.map (·.seIndex)).Pairwise (· < ·) := by
  rw [readTtys_eq] at h
  obtain ⟨ho, new, hnew, hmirrors⟩ := iter_readTty hnames h hfuel hty hok
  exact ⟨ho, new, hnew, hmirrors, active_increases hmirrors⟩

/-- A line of /etc/ttys that is off. -/
def ttyOff : Ttyent := ⟨false, some ['b'], some ['g']⟩

/-- One that is off, and one that is on. -/
theorem readTtys_mirrors_one : ∃ t g' sp, (readTtys 3 (Globals.initial [] 0)).Runs t (.ok (), g') ∧
    g'.sessionList.entries = [sp] ∧ Mirrors sp (ttyA, 1) := by
  have hrun : (readTtys 3 (Globals.initial [] 0)).Runs
      (⟨.getttyent, (some ttyOff, 0)⟩ :: ⟨.getttyent, (some ttyA, 0)⟩ ::
        allocA 0 (some (Vector.replicate _ NUL)) ++ [⟨.getttyent, (none, 0)⟩]) (.ok (), _) :=
    .cons (.cons (.cons (.cons (.cons (.cons (.cons (.nil _)))))))
  have hnames : ∀ typ ∈ [ttyOff, ttyA], Named typ := by
    intro typ htyp name hname
    rcases List.mem_pair.mp htyp with rfl | rfl <;> cases hname
    · exact ⟨'b', List.mem_singleton_self _, by decide⟩
    · exact ⟨'a', List.mem_singleton_self _, by decide⟩
  obtain ⟨-, new, hnew, hmirrors, -⟩ := readTtys_mirrors hnames hrun (by decide) rfl (by
    simp [allocA, Allocates])
  have hactive : active [ttyOff, ttyA] = [(ttyA, 1)] := rfl
  rw [hactive] at hmirrors
  cases hmirrors with
  | cons hsp hnil =>
    cases hnil
    exact ⟨_, _, _, hrun, hnew, hsp⟩

end Cheviot.Proof
