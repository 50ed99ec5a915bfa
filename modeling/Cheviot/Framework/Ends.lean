import Cheviot.Framework.Sum
import Cheviot.Framework.Wp

/-!
# Preconditions for every end

`Proc.EndsIn` is `Proc.Wp` with a postcondition for every way in which code ends, not only where
it returns: for code that exits in the middle of its loops. It has the same rules, where what
follows a piece of code in a `bind` runs after it has returned and any other end is the end of
both (`Proc.onEnd`).

`Proc.Stays` is what is left of it for code that neither exits nor faults, whatever the answers.
-/

namespace Framework

variable {S : Sig} {σ α β γ : Type}

namespace Proc

variable {A : List (Event S) → Event S → Prop} {I : List (Event S) → Prop}

/-- As long as the answers are admitted by `A`, `I` holds of the history after each call, and `Q`
of the end of the code, the memory and the history then. -/
def EndsIn (A : List (Event S) → Event S → Prop) (I : List (Event S) → Prop) (p : Proc S σ α) (s : σ)
    (h : List (Event S)) (Q : Out α → σ → List (Event S) → Prop) : Prop :=
  Prog.Wp A I (fun x h' => Q x.1 x.2 h') (p s) h

/-- `Q`, at the end of code that more code follows with the postcondition `R` of its value. -/
def onEnd (R : α → σ → List (Event S) → Prop) (Q : Out β → σ → List (Event S) → Prop) :
    Out α → σ → List (Event S) → Prop
  | .ok a => R a
  | .exited code => Q (.exited code)
  | .fault => Q .fault
  | .timeout => Q .timeout

variable {Q Q' : Out α → σ → List (Event S) → Prop} {s : σ} {h : List (Event S)}

theorem EndsIn.mono {p : Proc S σ α} (hp : EndsIn A I p s h Q) (hQ : ∀ o s' h', Q o s' h' → Q' o s' h') :
    EndsIn A I p s h Q' :=
  Prog.Wp.mono hp fun x h' hx => hQ x.1 x.2 h' hx

@[simp] theorem endsIn_pure {a : α} : EndsIn A I (pure a : Proc S σ α) s h Q ↔ Q (.ok a) s h := Prog.wp_ret

@[simp] theorem endsIn_get {Q : Out σ → σ → List (Event S) → Prop} :
    EndsIn A I (get : Proc S σ σ) s h Q ↔ Q (.ok s) s h := Prog.wp_ret

@[simp] theorem endsIn_modify {f : σ → σ} {Q : Out Unit → σ → List (Event S) → Prop} :
    EndsIn A I (modify f : Proc S σ Unit) s h Q ↔ Q (.ok ()) (f s) h := Prog.wp_ret

@[simp] theorem endsIn_exit {code : Int} :
    EndsIn A I (exit code : Proc S σ α) s h Q ↔ Q (.exited code) s h := Prog.wp_ret

@[simp] theorem endsIn_fault : EndsIn A I (fault : Proc S σ α) s h Q ↔ Q .fault s h := Prog.wp_ret

@[simp] theorem endsIn_timeout : EndsIn A I (timeout : Proc S σ α) s h Q ↔ Q .timeout s h := Prog.wp_ret

@[simp] theorem endsIn_call {c : S.Call} {Q : Out (S.Ret c) → σ → List (Event S) → Prop} :
    EndsIn A I (call c : Proc S σ _) s h Q ↔
      ∀ r, A h ⟨c, r⟩ → I (h ++ [⟨c, r⟩]) ∧ Q (.ok r) s (h ++ [⟨c, r⟩]) := by
  simp only [EndsIn, call_apply, Prog.wp_call, Prog.wp_ret]

@[simp] theorem endsIn_bind {p : Proc S σ α} {f : α → Proc S σ β}
    {Q : Out β → σ → List (Event S) → Prop} : EndsIn A I (p >>= f) s h Q ↔
      EndsIn A I p s h (onEnd (fun a s' h' => EndsIn A I (f a) s' h' Q) Q) := by
  rw [EndsIn, bind_apply, Prog.wp_bind]
  have : ∀ (x : Out α × σ) h', Prog.Wp A I (fun x h' => Q x.1 x.2 h') (next f x) h' ↔
      onEnd (fun a s' h' => EndsIn A I (f a) s' h' Q) Q x.1 x.2 h' := by
    rintro ⟨o, s'⟩ h'
    cases o with
    | ok a => exact Iff.rfl
    | _ => exact Prog.wp_ret
  simp only [this]
  rfl

theorem endsIn_ite {c : Prop} [Decidable c] {p q : Proc S σ α} :
    EndsIn A I (if c then p else q) s h Q ↔ (c → EndsIn A I p s h Q) ∧ (¬ c → EndsIn A I q s h Q) := by
  split <;> simp_all

/-- A loop keeps an invariant `J` of its variables, the memory and the history, if each round
does that asks for another one; it may end in any round, or be cut off. -/
theorem endsIn_iter {body : β → Proc S σ (Round β α)} {J : β → σ → List (Event S) → Prop}
    (htimeout : ∀ b s h, J b s h → Q .timeout s h)
    (hbody : ∀ b s h, J b s h → EndsIn A I (body b) s h (onEnd (fun x s' h' =>
      match x with
      | .again b' => J b' s' h'
      | .done a => Q (.ok a) s' h') Q)) :
    ∀ n b s h, J b s h → EndsIn A I (iter body n b) s h Q
  | 0, b, s, h, hJ => endsIn_timeout.mpr (htimeout b s h hJ)
  | n + 1, b, s, h, hJ => by
    rw [iter, endsIn_bind]
    refine (hbody b s h hJ).mono fun o s' h' ho => ?_
    cases o with
    | ok x =>
      cases x with
      | again b' => exact endsIn_iter htimeout hbody n b' s' h' ho
      | done a => exact endsIn_pure.mpr ho
    | _ => exact ho

/-- A run of the code, with admitted answers: `I` at any moment, and `Q` at its end. -/
theorem EndsIn.steps {p : Proc S σ α} {t : List (Event S)} {q : Prog S (Out α × σ)}
    (hp : EndsIn A I p s h Q) (hs : (p s).Steps t q) (ht : Admits A h t) :
    (t ≠ [] → I (h ++ t)) ∧ ∀ o s', q = .ret (o, s') → Q o s' (h ++ t) := by
  obtain ⟨hi, hq⟩ := Prog.Wp.steps hp hs ht
  refine ⟨hi, fun o s' he => ?_⟩
  subst he
  exact (Prog.wp_ret (Q := fun (x : Out α × σ) h' => Q x.1 x.2 h')).mp hq

/-- What holds of every run that has ended, whatever the answers. -/
theorem endsIn_of_runs {p : Proc S σ α} {Q : Out α → σ → Prop} (hI : ∀ h, I h)
    (hp : ∀ t o s', (p s).Runs t (o, s') → Q o s') : EndsIn A I p s h fun o s' _ => Q o s' :=
  (Prog.wp_of_steps (P := fun _ => True) (R := fun x => Q x.1 x.2) (J := fun _ => True)
    (fun t q hs => ⟨fun _ _ => trivial, fun x he => hp t x.1 x.2 (by subst he; exact hs)⟩) (fun _ _ _ _ => trivial)
    (fun h _ => hI h) trivial).mono fun _ _ hx => hx.1

/-! ## Code that stays -/

/-- `p` neither exits nor faults: it returns, or is cut off inside a loop. -/
def Stays (p : Proc S σ α) : Prop := ∀ s t o s', (p s).Runs t (o, s') → (∃ a, o = .ok a) ∨ o = .timeout

section Stays

variable {p : Proc S σ α}

theorem Total.stays (hp : Total p) : Stays p := fun s t o s' h => .inl (hp s t o s' h)

theorem Stays.bind {f : α → Proc S σ β} (hp : Stays p) (hf : ∀ a, Stays (f a)) : Stays (p >>= f) := by
  intro s t o s' h
  rw [bind_apply, Prog.runs_bind] at h
  obtain ⟨t₁, t₂, ⟨o₁, s₁⟩, rfl, h₁, h₂⟩ := h
  rcases hp _ _ _ _ h₁ with ⟨a, rfl⟩ | rfl
  · exact hf a _ _ _ _ h₂
  · obtain ⟨-, he⟩ := Prog.runs_ret.mp h₂
    exact .inr (Prod.mk.inj he).1

theorem Stays.ite {c : Prop} [Decidable c] {q : Proc S σ α} (hp : Stays p) (hq : Stays q) :
    Stays (if c then p else q) := by
  split <;> assumption

theorem Stays.iter {body : β → Proc S σ (Round β α)} (h : ∀ b, Stays (body b)) (n : Nat) (b : β) :
    Stays (iter body n b) := by
  induction n generalizing b with
  | zero =>
    intro s t o s' hr
    exact .inr (Prod.mk.inj (Prog.runs_ret.mp hr).2).1
  | succ n ih =>
    refine (h b).bind fun x => ?_
    cases x with
    | again b' => exact ih b'
    | done a => exact (Total.pure a).stays

end Stays

end Proc

end Framework
