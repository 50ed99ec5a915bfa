import Mathlib.Data.List.Forall2
import Cheviot.Framework.Proc

/-!
# Two runs with different answers

`Proc.Mirrors R E V p q`: for a run of `p`, and answers related to those of the
run by `E`, there is a run of `q` that gets these answers and ends the same way,
from memories related by `R` to memories related by `R`, with values related by
`V`. What `R` and `E` leave open then has no influence on which calls are made,
nor on what `V` tells of the value. A rule for each construct.
-/

namespace Framework

variable {S : Sig} {σ τ α β γ δ : Type}

/-- A list that is related to a concatenation is a concatenation. -/
theorem forall₂_append_left {R : α → β → Prop} {l₁ l₂ : List α} {l : List β}
    (h : List.Forall₂ R (l₁ ++ l₂) l) :
    ∃ l₁' l₂', l = l₁' ++ l₂' ∧ List.Forall₂ R l₁ l₁' ∧ List.Forall₂ R l₂ l₂' :=
  ⟨l.take l₁.length, l.drop l₁.length, (List.take_append_drop _ l).symm,
    (List.forall₂_take_append _ _ _ h.flip).flip, (List.forall₂_drop_append _ _ _ h.flip).flip⟩

namespace Proc

/-- `q`, with answers related by `E` to those of a run of `p`, has a run that ends the
same way. -/
def Mirrors (R : σ → τ → Prop) (E : Event S → Event S → Prop) (V : α → β → Prop)
    (p : Proc S σ α) (q : Proc S τ β) : Prop :=
  ∀ s s' t t' x, R s s' → List.Forall₂ E t t' → (p s).Runs t x →
    ∃ y, (q s').Runs t' y ∧ Ends R V x y

variable {R : σ → τ → Prop} {E : Event S → Event S → Prop} {V : α → β → Prop}

/-- Code that ends at once. -/
theorem Mirrors.ret {p : Proc S σ α} {q : Proc S τ β} {x : σ → Out α × σ} {y : τ → Out β × τ}
    (hp : ∀ s, p s = .ret (x s)) (hq : ∀ s, q s = .ret (y s))
    (h : ∀ s s', R s s' → Ends R V (x s) (y s')) : Mirrors R E V p q := by
  intro s s' t t' z hR ht hr
  rw [hp] at hr
  obtain ⟨rfl, rfl⟩ := Prog.runs_ret.mp hr
  cases ht
  refine ⟨y s', ?_, h s s' hR⟩
  rw [hq]
  exact .nil _

theorem Mirrors.pure {a : α} {b : β} (h : V a b) :
    Mirrors R E V (pure a : Proc S σ α) (pure b : Proc S τ β) :=
  .ret (fun _ => rfl) (fun _ => rfl) fun _ _ hR => ⟨h, hR⟩

theorem Mirrors.get : Mirrors R E R (get : Proc S σ σ) (get : Proc S τ τ) :=
  .ret (fun _ => rfl) (fun _ => rfl) fun _ _ hR => ⟨hR, hR⟩

theorem Mirrors.modify {f : σ → σ} {f' : τ → τ} (h : ∀ s s', R s s' → R (f s) (f' s')) :
    Mirrors R E Eq (modify f : Proc S σ Unit) (modify f' : Proc S τ Unit) :=
  .ret (fun _ => rfl) (fun _ => rfl) fun s s' hR => ⟨rfl, h s s' hR⟩

theorem Mirrors.call {c : S.Call} {V : S.Ret c → S.Ret c → Prop}
    (h : ∀ r e, E ⟨c, r⟩ e → ∃ r', e = ⟨c, r'⟩ ∧ V r r') :
    Mirrors R E V (call c : Proc S σ (S.Ret c)) (call c : Proc S τ (S.Ret c)) := by
  intro s s' t t' x hR ht hr
  rw [call_apply, Prog.runs_call] at hr
  obtain ⟨r, t₁, rfl, hr⟩ := hr
  obtain ⟨rfl, rfl⟩ := Prog.runs_ret.mp hr
  cases ht with
  | @cons _ e _ u hE hu =>
    cases hu
    obtain ⟨r', rfl, hV⟩ := h r e hE
    exact ⟨(.ok r', s'), .cons (.nil _), hV, hR⟩

theorem Mirrors.bind {W : γ → δ → Prop} {p : Proc S σ α} {q : Proc S τ β} {f : α → Proc S σ γ}
    {f' : β → Proc S τ δ} (h : Mirrors R E V p q) (hf : ∀ a b, V a b → Mirrors R E W (f a) (f' b)) :
    Mirrors R E W (p >>= f) (q >>= f') := by
  intro s s' t t' x hR ht hr
  rw [bind_apply, Prog.runs_bind] at hr
  obtain ⟨t₁, t₂, ⟨o, s₁⟩, rfl, hp, hn⟩ := hr
  obtain ⟨u₁, u₂, rfl, hu₁, hu₂⟩ := forall₂_append_left ht
  obtain ⟨⟨o', s₁'⟩, hq, hends⟩ := h _ _ _ _ _ hR hu₁ hp
  have hbind : ∀ y, (next f' (o', s₁')).Runs u₂ y → ((q >>= f') s').Runs (u₁ ++ u₂) y := fun y hy => by
    rw [bind_apply, Prog.runs_bind]
    exact ⟨u₁, u₂, _, rfl, hq, hy⟩
  obtain ⟨hout, hmem⟩ := hends
  cases o <;> cases o' <;> try exact hout.elim
  · obtain ⟨y, hy, hyends⟩ := hf _ _ hout _ _ _ _ _ hmem hu₂ hn
    exact ⟨y, hbind y hy, hyends⟩
  all_goals
    obtain ⟨rfl, rfl⟩ := Prog.runs_ret.mp hn
    cases hu₂
    exact ⟨_, hbind _ (.nil _), hout, hmem⟩

theorem Mirrors.ite {c : Prop} [Decidable c] {p p' : Proc S σ α} {q q' : Proc S τ β}
    (h : Mirrors R E V p q) (h' : Mirrors R E V p' q') :
    Mirrors R E V (if c then p else p') (if c then q else q') := by
  split <;> assumption

/-- Two loops over the same variables, whose rounds mirror each other. -/
theorem Mirrors.iter {body : γ → Proc S σ (Round γ α)} {body' : γ → Proc S τ (Round γ α)}
    (h : ∀ b, Mirrors R E Eq (body b) (body' b)) : ∀ n b, Mirrors R E Eq (iter body n b) (iter body' n b)
  | 0, _ => .ret (fun _ => rfl) (fun _ => rfl) fun _ _ hR => ⟨trivial, hR⟩
  | n + 1, b => (h b).bind fun x y e => by
    subst e
    cases x with
    | again b' => exact Mirrors.iter h n b'
    | done a => exact .pure rfl

end Proc

end Framework
