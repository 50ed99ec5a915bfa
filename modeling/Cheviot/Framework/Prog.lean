import Mathlib.Data.List.Basic

/-!
# Programs that make calls

A program over a signature of calls, as the tree of what it does after every
sequence of answers: it returns a value, or makes a call and goes on with the
answer. Nothing is assumed of the side that answers, so a property of every
branch of the tree is a property of every environment.

* `Prog.Steps p t q`: `p` makes the calls of `t`, gets the answers of `t`, and
  is left as `q`. A run observed up to any moment is such a `t`.
* `Prog.Rel R p q`: `p` and `q` make the same calls whatever the answers, and
  return values related by `R`.
-/

namespace Framework

/-- The calls a program can make, and the answers each of them can get. -/
structure Sig where
  Call : Type
  Ret : Call → Type

/-- A call that has been answered. -/
structure Event (S : Sig) where
  call : S.Call
  ret : S.Ret call

/-- A program: a value, or a call and what is done with its answer. -/
inductive Prog (S : Sig) (α : Type) : Type where
  | ret (a : α)
  | call (c : S.Call) (k : S.Ret c → Prog S α)

variable {S : Sig} {α β γ δ : Type}

namespace Prog

/-- `p`, then `f` on its value. -/
def bind : Prog S α → (α → Prog S β) → Prog S β
  | .ret a, f => f a
  | .call c k, f => .call c fun r => (k r).bind f

@[simp] theorem ret_bind (a : α) (f : α → Prog S β) : (Prog.ret a).bind f = f a := rfl

@[simp] theorem call_bind (c : S.Call) (k : S.Ret c → Prog S α) (f : α → Prog S β) :
    (Prog.call c k).bind f = .call c fun r => (k r).bind f := rfl

theorem bind_ret (p : Prog S α) : p.bind .ret = p := by
  induction p with
  | ret a => rfl
  | call c k ih => simp only [call_bind, ih]

theorem bind_assoc (p : Prog S α) (f : α → Prog S β) (g : β → Prog S γ) :
    (p.bind f).bind g = p.bind fun a => (f a).bind g := by
  induction p with
  | ret a => rfl
  | call c k ih => simp only [call_bind, ih]

/-! ## Runs -/

/-- `p` makes the calls of `t` with the answers of `t` and is left as `q`. -/
inductive Steps : Prog S α → List (Event S) → Prog S α → Prop where
  | nil (p : Prog S α) : Steps p [] p
  | cons {c : S.Call} {k : S.Ret c → Prog S α} {r : S.Ret c} {t : List (Event S)} {q : Prog S α} :
      Steps (k r) t q → Steps (.call c k) (⟨c, r⟩ :: t) q

/-- A run of `p` that returns `a`. -/
abbrev Runs (p : Prog S α) (t : List (Event S)) (a : α) : Prop := Steps p t (.ret a)

theorem steps_nil {p q : Prog S α} (h : Steps p [] q) : q = p := by
  cases h
  rfl

theorem steps_ret {a : α} {t : List (Event S)} {q : Prog S α} :
    Steps (.ret a) t q ↔ t = [] ∧ q = .ret a := by
  constructor
  · intro h; cases h; exact ⟨rfl, rfl⟩
  · rintro ⟨rfl, rfl⟩; exact .nil _

theorem runs_ret {a b : α} {t : List (Event S)} :
    Runs (.ret a : Prog S α) t b ↔ t = [] ∧ b = a := by
  simp [Runs, steps_ret]

theorem steps_call {c : S.Call} {k : S.Ret c → Prog S α} {t : List (Event S)} {q : Prog S α} :
    Steps (.call c k) t q ↔
      (t = [] ∧ q = .call c k) ∨ ∃ r t', t = ⟨c, r⟩ :: t' ∧ Steps (k r) t' q := by
  constructor
  · intro h
    cases h with
    | nil => exact .inl ⟨rfl, rfl⟩
    | cons h => exact .inr ⟨_, _, rfl, h⟩
  · rintro (⟨rfl, rfl⟩ | ⟨r, t', rfl, h⟩)
    · exact .nil _
    · exact .cons h

theorem runs_call {c : S.Call} {k : S.Ret c → Prog S α} {t : List (Event S)} {a : α} :
    Runs (.call c k) t a ↔ ∃ r t', t = ⟨c, r⟩ :: t' ∧ Runs (k r) t' a := by
  simp [Runs, steps_call]

theorem runs_call_cons {c : S.Call} {k : S.Ret c → Prog S α} {r : S.Ret c} {t : List (Event S)}
    {a : α} : Runs (.call c k) (⟨c, r⟩ :: t) a ↔ Runs (k r) t a :=
  ⟨fun h => by cases h; assumption, .cons⟩

theorem Steps.trans {p q r : Prog S α} {t u : List (Event S)} (h : Steps p t q) (h' : Steps q u r) :
    Steps p (t ++ u) r := by
  induction h with
  | nil => exact h'
  | cons _ ih => exact .cons (ih h')

theorem Steps.bind {p q : Prog S α} {t : List (Event S)} (h : Steps p t q) (f : α → Prog S β) :
    Steps (p.bind f) t (q.bind f) := by
  induction h with
  | nil => exact .nil _
  | cons _ ih => exact .cons ih

theorem Runs.bind {p : Prog S α} {f : α → Prog S β} {t u : List (Event S)} {a : α} {q : Prog S β}
    (h : Runs p t a) (h' : Steps (f a) u q) : Steps (p.bind f) (t ++ u) q :=
  (Steps.bind h f).trans h'

/-- A run of `p.bind f` is still in `p`, or has left `p` with a value and is
in `f` on it. -/
theorem steps_bind {p : Prog S α} {f : α → Prog S β} {t : List (Event S)} {q : Prog S β} :
    Steps (p.bind f) t q ↔ (∃ p', Steps p t p' ∧ q = p'.bind f) ∨
      ∃ t₁ t₂ a, t = t₁ ++ t₂ ∧ Runs p t₁ a ∧ Steps (f a) t₂ q := by
  constructor
  · induction p generalizing t with
    | ret a => exact fun h => .inr ⟨[], t, a, rfl, .nil _, h⟩
    | call c k ih =>
      rw [call_bind, steps_call]
      rintro (⟨rfl, rfl⟩ | ⟨r, t', rfl, h⟩)
      · exact .inl ⟨_, .nil _, rfl⟩
      · rcases ih r h with ⟨p', hp, rfl⟩ | ⟨t₁, t₂, a, rfl, hp, hf⟩
        · exact .inl ⟨p', .cons hp, rfl⟩
        · exact .inr ⟨⟨c, r⟩ :: t₁, t₂, a, rfl, .cons hp, hf⟩
  · rintro (⟨p', hp, rfl⟩ | ⟨t₁, t₂, a, rfl, hp, hf⟩)
    · exact hp.bind f
    · exact Runs.bind hp hf

/-- The same, where a run that has left `p` is in `f`. -/
theorem steps_bind_cases {p : Prog S α} {f : α → Prog S β} {t : List (Event S)} {q : Prog S β}
    (h : Steps (p.bind f) t q) :
    (∃ c k, Steps p t (.call c k) ∧ q = .call c fun r => (k r).bind f) ∨
      ∃ t₁ t₂ a, t = t₁ ++ t₂ ∧ Runs p t₁ a ∧ Steps (f a) t₂ q := by
  rcases steps_bind.mp h with ⟨p', hp, rfl⟩ | h
  · cases p' with
    | ret a => exact .inr ⟨t, [], a, (List.append_nil t).symm, hp, .nil _⟩
    | call c k => exact .inl ⟨c, k, hp, rfl⟩
  · exact .inr h

theorem runs_bind {p : Prog S α} {f : α → Prog S β} {t : List (Event S)} {b : β} :
    Runs (p.bind f) t b ↔ ∃ t₁ t₂ a, t = t₁ ++ t₂ ∧ Runs p t₁ a ∧ Runs (f a) t₂ b := by
  rw [Runs, steps_bind]
  constructor
  · rintro (⟨p', hp, hq⟩ | h)
    · cases p' with
      | ret a => exact ⟨t, [], a, by simp, hp, by rw [ret_bind] at hq; rw [← hq]; exact .nil _⟩
      | call c k => cases hq
    · exact h
  · exact .inr

/-- Two continuations that agree on each value that `p` can return. -/
theorem bind_congr {p : Prog S α} {f f' : α → Prog S β} (h : ∀ t a, Runs p t a → f a = f' a) :
    p.bind f = p.bind f' := by
  induction p with
  | ret a => exact h [] a (.nil _)
  | call c k ih =>
    rw [call_bind, call_bind]
    exact congrArg (Prog.call c) (funext fun r => ih r fun t a hr => h (⟨c, r⟩ :: t) a (.cons hr))

/-- The answers decide a run. -/
theorem Steps.det {p q q' : Prog S α} {t : List (Event S)} (h : Steps p t q) (h' : Steps p t q') :
    q = q' := by
  induction h with
  | nil => cases h'; rfl
  | cons _ ih => cases h' with | cons h' => exact ih h'

/-- Where a run that returns is the first part of a run of more, it is known from that. -/
theorem Runs.eq_of_append {p : Prog S α} {t t' u u' : List (Event S)} {a a' : α} (h : Runs p t a)
    (h' : Runs p t' a') (ht : t ++ u = t' ++ u') : t = t' ∧ u = u' ∧ a = a' := by
  induction p generalizing t t' with
  | ret b =>
    obtain ⟨rfl, rfl⟩ := runs_ret.mp h
    obtain ⟨rfl, rfl⟩ := runs_ret.mp h'
    exact ⟨rfl, ht, rfl⟩
  | call c k ih =>
    obtain ⟨r, v, rfl, hk⟩ := runs_call.mp h
    obtain ⟨r', v', rfl, hk'⟩ := runs_call.mp h'
    obtain ⟨he, hv⟩ := List.cons.inj ht
    cases he
    obtain ⟨rfl, hu, ha⟩ := ih r hk hk' hv
    exact ⟨rfl, hu, ha⟩

/-- Where every call can be answered, a run can be gone on with to its end. -/
theorem exists_runs (hS : ∀ c, Nonempty (S.Ret c)) (p : Prog S α) : ∃ t a, Runs p t a := by
  induction p with
  | ret a => exact ⟨[], a, .nil _⟩
  | call c k ih =>
    obtain ⟨r⟩ := hS c
    obtain ⟨t, a, h⟩ := ih r
    exact ⟨⟨c, r⟩ :: t, a, .cons h⟩

/-- What holds of the calls of every run that returns holds of those of any run. -/
theorem calls_of_runs {P : Event S → Prop} {p q : Prog S α} {t : List (Event S)}
    (hS : ∀ c, Nonempty (S.Ret c)) (hp : ∀ t a, Runs p t a → ∀ e ∈ t, P e) (hs : Steps p t q) :
    ∀ e ∈ t, P e := by
  obtain ⟨u, a, h⟩ := exists_runs hS q
  exact fun e he => hp _ a (hs.trans h) e (List.mem_append_left _ he)

/-! ## Replaying a run -/

/-- What is left of `p` when it has made the calls of `t` with the answers of `t`. -/
def replay [DecidableEq S.Call] : Prog S α → List (Event S) → Option (Prog S α)
  | p, [] => some p
  | .ret _, _ :: _ => none
  | .call c k, e :: t => if h : e.call = c then (k (h ▸ e.ret)).replay t else none

theorem replay_eq_some [DecidableEq S.Call] {p q : Prog S α} {t : List (Event S)} :
    p.replay t = some q ↔ Steps p t q := by
  constructor
  · intro h
    induction t generalizing p with
    | nil => cases p <;> (cases h; exact .nil _)
    | cons e t ih =>
      cases p with
      | ret a => cases h
      | call c k =>
        obtain ⟨c', r⟩ := e
        rw [replay] at h
        split at h
        · next hc =>
          obtain rfl : c' = c := hc
          exact .cons (ih h)
        · cases h
  · intro h
    induction h with
    | nil p => cases p <;> rfl
    | cons _ ih => rw [replay, dif_pos rfl]; exact ih

instance [DecidableEq S.Call] (p : Prog S α) (t : List (Event S)) : Decidable (∃ q, Steps p t q) :=
  decidable_of_iff ((p.replay t).isSome = true)
    (Option.isSome_iff_exists.trans (exists_congr fun _ => replay_eq_some))

/-! ## Two programs that make the same calls -/

/-- `p` and `q` make the same calls whatever the answers, and return values
related by `R`. -/
inductive Rel (R : α → β → Prop) : Prog S α → Prog S β → Prop where
  | ret {a : α} {b : β} : R a b → Rel R (.ret a) (.ret b)
  | call {c : S.Call} {k : S.Ret c → Prog S α} {k' : S.Ret c → Prog S β} :
      (∀ r, Rel R (k r) (k' r)) → Rel R (.call c k) (.call c k')

theorem rel_call {R : α → β → Prop} {c : S.Call} {k : S.Ret c → Prog S α}
    {k' : S.Ret c → Prog S β} : Rel R (.call c k) (.call c k') ↔ ∀ r, Rel R (k r) (k' r) :=
  ⟨fun h => by cases h; assumption, .call⟩

theorem Rel.bind {R : α → β → Prop} {R' : γ → δ → Prop} {p : Prog S α} {q : Prog S β}
    {f : α → Prog S γ} {g : β → Prog S δ} (h : Rel R p q)
    (hf : ∀ a b, R a b → Rel R' (f a) (g b)) : Rel R' (p.bind f) (q.bind g) := by
  induction h with
  | ret h => exact hf _ _ h
  | call _ ih => exact .call ih

theorem Rel.mono {R R' : α → β → Prop} {p : Prog S α} {q : Prog S β} (h : Rel R p q)
    (hR : ∀ a b, R a b → R' a b) : Rel R' p q := by
  induction h with
  | ret h => exact .ret (hR _ _ h)
  | call _ ih => exact .call ih

theorem Rel.symm {R : α → β → Prop} {p : Prog S α} {q : Prog S β} (h : Rel R p q) :
    Rel (fun b a => R a b) q p := by
  induction h with
  | ret h => exact .ret h
  | call _ ih => exact .call ih

theorem Rel.trans {R : α → β → Prop} {R' : β → γ → Prop} {p : Prog S α} {q : Prog S β}
    {r : Prog S γ} (h : Rel R p q) (h' : Rel R' q r) :
    Rel (fun a c => ∃ b, R a b ∧ R' b c) p r := by
  induction h generalizing r with
  | ret h => cases h' with | ret h' => exact .ret ⟨_, h, h'⟩
  | call _ ih => cases h' with | call h' => exact .call fun x => ih x (h' x)

/-- A program related to a value is a value. -/
theorem Rel.eq_ret {R : α → β → Prop} {p : Prog S α} {b : β} (h : Rel R p (.ret b)) :
    ∃ a, p = .ret a ∧ R a b := by
  cases h with | ret h => exact ⟨_, rfl, h⟩

/-- A program related to one that makes a call makes that call. -/
theorem Rel.eq_call {R : α → β → Prop} {p : Prog S α} {c : S.Call} {k : S.Ret c → Prog S β}
    (h : Rel R p (.call c k)) : ∃ k', p = .call c k' ∧ ∀ r, Rel R (k' r) (k r) := by
  cases h with | call h => exact ⟨_, rfl, h⟩

/-- What a program has done, a related one can have done. -/
theorem Rel.steps {R : α → β → Prop} {p p' : Prog S α} {q : Prog S β} (h : Rel R p q)
    {t : List (Event S)} (hp : Steps p t p') : ∃ q', Steps q t q' ∧ Rel R p' q' := by
  induction hp generalizing q with
  | nil => exact ⟨q, .nil _, h⟩
  | cons _ ih =>
    cases h with
    | call h =>
      obtain ⟨q', hq, hR⟩ := ih (h _)
      exact ⟨q', .cons hq, hR⟩

/-- Related programs have the same runs. -/
theorem Rel.runs {R : α → β → Prop} {p : Prog S α} {q : Prog S β} (h : Rel R p q)
    {t : List (Event S)} {a : α} (hp : Runs p t a) : ∃ b, Runs q t b ∧ R a b := by
  induction h generalizing t with
  | ret h =>
    obtain ⟨rfl, rfl⟩ := runs_ret.mp hp
    exact ⟨_, .nil _, h⟩
  | call _ ih =>
    obtain ⟨r, t', rfl, hk⟩ := runs_call.mp hp
    obtain ⟨b, hq, hR⟩ := ih r hk
    exact ⟨b, .cons hq, hR⟩

end Prog

end Framework
