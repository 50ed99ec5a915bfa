import Cheviot.Framework.Frame

/-!
# One program after another

Two pieces of code with signatures and memories of their own, the second of which runs where
the first has returned (`Proc.andThen`): the code of a program that is put together from
parts. A run of it is in the first part, or has left it and is in the second
(`Proc.steps_andThen`).
-/

namespace Framework

variable {S T : Sig} {σ τ α β γ : Type}

/-- The calls of both signatures. -/
abbrev Sig.sum (S T : Sig) : Sig := ⟨S.Call ⊕ T.Call, Sum.elim S.Ret T.Ret⟩

/-- A call of the first signature. -/
def Event.inl (e : Event S) : Event (S.sum T) := ⟨.inl e.call, e.ret⟩

/-- A call of the second signature. -/
def Event.inr (e : Event T) : Event (S.sum T) := ⟨.inr e.call, e.ret⟩

namespace Prog

/-- A program that makes calls of the first signature. -/
def inl : Prog S α → Prog (S.sum T) α
  | .ret a => .ret a
  | .call c k => .call (.inl c) fun r => (k r).inl

/-- A program that makes calls of the second signature. -/
def inr : Prog T α → Prog (S.sum T) α
  | .ret a => .ret a
  | .call c k => .call (.inr c) fun r => (k r).inr

theorem steps_inl {p : Prog S α} {t : List (Event (S.sum T))} {q : Prog (S.sum T) α}
    (h : Steps p.inl t q) : ∃ t' q', t = t'.map Event.inl ∧ q = q'.inl ∧ Steps p t' q' := by
  induction p generalizing t with
  | ret a =>
    obtain ⟨rfl, rfl⟩ := steps_ret.mp h
    exact ⟨[], _, rfl, rfl, .nil _⟩
  | call c k ih =>
    rcases steps_call.mp h with ⟨rfl, rfl⟩ | ⟨r, t₁, rfl, h₁⟩
    · exact ⟨[], _, rfl, rfl, .nil _⟩
    · obtain ⟨t', q', rfl, rfl, hk⟩ := ih r h₁
      exact ⟨⟨c, r⟩ :: t', q', rfl, rfl, .cons hk⟩

theorem steps_inr {p : Prog T α} {t : List (Event (S.sum T))} {q : Prog (S.sum T) α}
    (h : Steps p.inr t q) : ∃ t' q', t = t'.map Event.inr ∧ q = q'.inr ∧ Steps p t' q' := by
  induction p generalizing t with
  | ret a =>
    obtain ⟨rfl, rfl⟩ := steps_ret.mp h
    exact ⟨[], _, rfl, rfl, .nil _⟩
  | call c k ih =>
    rcases steps_call.mp h with ⟨rfl, rfl⟩ | ⟨r, t₁, rfl, h₁⟩
    · exact ⟨[], _, rfl, rfl, .nil _⟩
    · obtain ⟨t', q', rfl, rfl, hk⟩ := ih r h₁
      exact ⟨⟨c, r⟩ :: t', q', rfl, rfl, .cons hk⟩

theorem Steps.inl {p q : Prog S α} {t : List (Event S)} (h : Steps p t q) :
    Steps (S := S.sum T) p.inl (t.map Event.inl) q.inl := by
  induction h with
  | nil => exact .nil _
  | cons _ ih => exact .cons ih

theorem Steps.inr {p q : Prog T α} {t : List (Event T)} (h : Steps p t q) :
    Steps (S := S.sum T) p.inr (t.map Event.inr) q.inr := by
  induction h with
  | nil => exact .nil _
  | cons _ ih => exact .cons ih

theorem steps_append {p q : Prog S α} {t u : List (Event S)} (h : Steps p (t ++ u) q) :
    ∃ r, Steps p t r ∧ Steps r u q := by
  induction t generalizing p with
  | nil => exact ⟨p, .nil _, h⟩
  | cons e t ih =>
    cases h with
    | cons h =>
      obtain ⟨r, hp, hr⟩ := ih h
      exact ⟨r, .cons hp, hr⟩

end Prog

namespace Proc

/-- `q`, on the memory that `f` makes of what `p` leaves, after `p` has returned; any other end
of `p` is final. -/
def andThen (p : Proc S σ α) (f : σ → τ) (q : Proc T τ β) (s : σ) : Prog (S.sum T) (Out β) :=
  (p s).inl.bind fun
    | (.ok _, s') => (q (f s')).inr.bind fun y => .ret y.1
    | (.exited code, _) => .ret (.exited code)
    | (.fault, _) => .ret .fault
    | (.timeout, _) => .ret .timeout

variable {p : Proc S σ α} {f : σ → τ} {q : Proc T τ β} {s : σ}

/-- A run of two parts is in the first one, or has left it, ended there or in the second one. -/
theorem steps_andThen {t : List (Event (S.sum T))} {r : Prog (S.sum T) (Out β)}
    (h : (andThen p f q s).Steps t r) :
    (∃ t₁ p', t = t₁.map Event.inl ∧ (p s).Steps t₁ p' ∧ (∀ a s', p' ≠ .ret (.ok a, s')) ∧
      ∀ o, r = .ret o → ∃ o' s', p' = .ret (o', s') ∧ (∀ code, o = .exited code ↔ o' = .exited code)) ∨
    ∃ t₁ t₂ a s' q', t = t₁.map Event.inl ++ t₂.map Event.inr ∧ (p s).Runs t₁ (.ok a, s') ∧
      (q (f s')).Steps t₂ q' ∧ ∀ o, r = .ret o → ∃ s'', q' = .ret (o, s'') := by
  rw [andThen] at h
  rcases Prog.steps_bind_cases h with ⟨c, k, hp, rfl⟩ | ⟨t₁, t₂, ⟨o, s'⟩, rfl, hp, hq⟩
  · obtain ⟨t', p', rfl, hp', hsteps⟩ := Prog.steps_inl hp
    refine .inl ⟨t', p', rfl, hsteps, fun a s' he => ?_, nofun⟩
    rw [he] at hp'
    cases hp'
  · obtain ⟨t', p', rfl, hp', hsteps⟩ := Prog.steps_inl hp
    have hret : p' = .ret (o, s') := by
      cases p' with
      | ret x => exact congrArg _ (Prog.ret.inj hp').symm
      | call c k => cases hp'
    subst hret
    cases o with
    | ok a =>
      refine .inr ?_
      rcases Prog.steps_bind_cases hq with ⟨c, k, hq', rfl⟩ | ⟨u₁, u₂, y, rfl, hq', hend⟩
      · obtain ⟨u, q', rfl, -, hsteps'⟩ := Prog.steps_inr hq'
        exact ⟨t', u, a, s', q', rfl, hsteps, hsteps', nofun⟩
      · obtain ⟨rfl, rfl⟩ := Prog.steps_ret.mp hend
        obtain ⟨u, q', rfl, hq'', hsteps'⟩ := Prog.steps_inr hq'
        refine ⟨t', u, a, s', q', by rw [List.append_nil], hsteps, hsteps', fun o ho => ⟨y.2, ?_⟩⟩
        cases q' with
        | ret x => rw [← Prog.ret.inj hq'', ← Prog.ret.inj ho]
        | call c k => cases hq''
    | _ =>
      obtain ⟨rfl, rfl⟩ := Prog.steps_ret.mp hq
      refine .inl ⟨t', _, by rw [List.append_nil], hsteps, nofun, fun o ho => ⟨_, s', rfl, fun code => ?_⟩⟩
      cases ho
      simp

/-- A run of the first part that returns, and then one of the second. -/
theorem runs_andThen {t₁ : List (Event S)} {t₂ : List (Event T)} {a : α} {s' : σ} {o : Out β} {s'' : τ}
    (hp : (p s).Runs t₁ (.ok a, s')) (hq : (q (f s')).Runs t₂ (o, s'')) :
    (andThen p f q s).Runs (t₁.map Event.inl ++ t₂.map Event.inr) o := by
  have hq' := Prog.Runs.bind (f := fun y : Out β × τ => (.ret y.1 : Prog (S.sum T) (Out β)))
    (Prog.Steps.inr (S := S) hq) (.nil _)
  rw [List.append_nil] at hq'
  exact Prog.Runs.bind (Prog.Steps.inl (T := T) hp) hq'

end Proc

end Framework
