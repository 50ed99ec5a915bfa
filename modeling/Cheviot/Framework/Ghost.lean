import Cheviot.Framework.Proc

/-!
# A log beside the memory

`Proc.besideLog p` is `p` on a memory with a log beside it, which it leaves alone, and
`Proc.noted note p` is `p` with a note in the log of the memory before, the calls and
the memory after. Neither makes a call that `p` does not make (`Sim.besideLog`,
`Sim.noted`), so a log can be kept of a part of a program without changing what the
program does.
-/

namespace Framework

variable {S : Sig} {σ α β γ δ : Type}

namespace Prog

/-- `p`, which also returns the calls it has made. -/
def traced : Prog S α → Prog S (α × List (Event S))
  | .ret a => .ret (a, [])
  | .call c k => .call c fun r => (k r).traced.bind fun x => .ret (x.1, ⟨c, r⟩ :: x.2)

theorem runs_traced {p : Prog S α} {t : List (Event S)} {x : α × List (Event S)} :
    Runs p.traced t x ↔ Runs p t x.1 ∧ x.2 = t := by
  induction p generalizing t x with
  | ret a =>
    rw [traced, runs_ret, runs_ret]
    constructor
    · rintro ⟨rfl, rfl⟩
      exact ⟨⟨rfl, rfl⟩, rfl⟩
    · rintro ⟨⟨rfl, ha⟩, ht⟩
      exact ⟨rfl, Prod.ext ha ht⟩
  | call c k ih =>
    rw [traced, runs_call, runs_call]
    constructor
    · rintro ⟨r, t, rfl, h⟩
      obtain ⟨t₁, t₂, y, rfl, hk, hret⟩ := runs_bind.mp h
      obtain ⟨rfl, rfl⟩ := runs_ret.mp hret
      obtain ⟨hrun, ht⟩ := (ih r).mp hk
      rw [List.append_nil]
      exact ⟨⟨r, t₁, rfl, hrun⟩, congrArg _ ht⟩
    · rintro ⟨⟨r, t, rfl, h⟩, ht⟩
      have hret : Runs (.ret (x.1, ⟨c, r⟩ :: t) : Prog S (α × List (Event S))) [] x :=
        runs_ret.mpr ⟨rfl, Prod.ext rfl ht⟩
      refine ⟨r, t, rfl, runs_bind.mpr ⟨t, [], (x.1, t), by simp, (ih r).mpr ⟨h, rfl⟩, hret⟩⟩

/-- The value of the one program made into something else. -/
theorem Rel.map_left {R : α → β → Prop} {R' : δ → β → Prop} {p : Prog S α} {q : Prog S β} {f : α → δ}
    (h : Rel R p q) (hf : ∀ a b, R a b → R' (f a) b) : Rel R' (p.bind fun a => .ret (f a)) q := by
  induction h with
  | ret h => exact .ret (hf _ _ h)
  | call _ ih => exact .call ih

theorem rel_refl (p : Prog S α) : Rel Eq p p := by
  induction p with
  | ret a => exact .ret rfl
  | call c k ih => exact .call ih

theorem rel_traced (p : Prog S α) : Rel (fun x a => x.1 = a) p.traced p := by
  induction p with
  | ret a => exact .ret rfl
  | call c k ih => exact .call fun r => (ih r).map_left fun _ _ h => h

end Prog

namespace Proc

/-- `p`, with a log beside the memory that it leaves alone. -/
def besideLog (p : Proc S σ α) : Proc S (σ × List γ) α := fun s =>
  (p s.1).bind fun x => .ret (x.1, (x.2, s.2))

/-- `p`, with a note in the log. -/
def noted (note : σ → List (Event S) → σ → γ) (p : Proc S σ α) : Proc S (σ × List γ) α := fun s =>
  (p s.1).traced.bind fun x => .ret (x.1.1, (x.1.2, s.2 ++ [note s.1 x.2 x.1.2]))

variable {note : σ → List (Event S) → σ → γ} {p : Proc S σ α} {s s' : σ} {l l' : List γ}
  {t : List (Event S)} {o : Out α}

theorem runs_besideLog : (besideLog p (s, l)).Runs t (o, (s', l')) ↔ (p s).Runs t (o, s') ∧ l' = l := by
  rw [besideLog, Prog.runs_bind]
  constructor
  · rintro ⟨t₁, t₂, x, rfl, h, hret⟩
    obtain ⟨rfl, hx⟩ := Prog.runs_ret.mp hret
    cases hx
    rw [List.append_nil]
    exact ⟨h, rfl⟩
  · rintro ⟨h, rfl⟩
    exact ⟨t, [], (o, s'), by simp, h, .nil _⟩

theorem runs_noted : (noted note p (s, l)).Runs t (o, (s', l')) ↔
    (p s).Runs t (o, s') ∧ l' = l ++ [note s t s'] := by
  rw [noted, Prog.runs_bind]
  constructor
  · rintro ⟨t₁, t₂, x, rfl, h, hret⟩
    obtain ⟨rfl, hx⟩ := Prog.runs_ret.mp hret
    obtain ⟨hrun, ht⟩ := Prog.runs_traced.mp h
    cases hx
    rw [List.append_nil, ht]
    exact ⟨hrun, rfl⟩
  · rintro ⟨h, rfl⟩
    exact ⟨t, [], ((o, s'), t), by simp, Prog.runs_traced.mpr ⟨h, rfl⟩, .nil _⟩

/-- The memory, without the log. -/
def Forgets (s : σ × List γ) (s' : σ) : Prop := s.1 = s'

theorem Sim.besideLog (p : Proc S σ α) :
    Sim Forgets Eq (Proc.besideLog p : Proc S (σ × List γ) α) p := by
  rintro ⟨s, l⟩ _ rfl
  exact (Prog.rel_refl (p s)).map_left fun _ _ h => h ▸ ⟨Out.rel_eq.mpr rfl, rfl⟩

theorem Sim.noted (note : σ → List (Event S) → σ → γ) (p : Proc S σ α) :
    Sim Forgets Eq (Proc.noted note p) p := by
  rintro ⟨s, l⟩ _ rfl
  exact (Prog.rel_traced (p s)).map_left fun _ _ h => h ▸ ⟨Out.rel_eq.mpr rfl, rfl⟩

/-- Each run of the code is one of the code with a log. -/
theorem Sim.runs_of_forgets {p : Proc S (σ × List γ) α} {q : Proc S σ α} (h : Sim Forgets Eq p q)
    (l : List γ) (hq : (q s).Runs t (o, s')) : ∃ l', (p (s, l)).Runs t (o, (s', l')) := by
  obtain ⟨⟨o', s₁, l'⟩, hp, hout, hmem⟩ := (h (s, l) s rfl).symm.runs hq
  obtain rfl : o' = o := Out.rel_eq.mp hout
  obtain rfl : s₁ = s' := hmem
  exact ⟨l', hp⟩

end Proc

end Framework
