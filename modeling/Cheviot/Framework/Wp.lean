import Cheviot.Framework.Frame

/-!
# Preconditions over histories

Rules for what holds along every run of a program, given what is assumed of
the answers. A history is the list of the answered calls so far. `Prog.Wp A I Q
p h` says of `p`, started with history `h`: as long as every answer `e` got with
history `h'` satisfies `A h' e`, the history satisfies `I` after each call, and
a returned value satisfies `Q` with the history then reached (`Prog.Wp.steps`).

`Proc.Wp` is the same for code with a memory: `Q` is asked for only where the
code returns, since nothing runs after any other end. Its rules are
equivalences for the basic constructs, so that `simp only` turns a piece of code
into its conditions; a loop needs an invariant (`Proc.wp_iter`).
`Proc.Returns` is what is left of it where nothing is said of histories.
-/

namespace Framework

variable {S : Sig} {σ α β : Type}

/-- A call in a history that has one more call at its end. -/
theorem snoc_eq_append_cons {t t₁ t₂ : List α} {e e' : α} (h : t ++ [e] = t₁ ++ e' :: t₂) :
    (t = t₁ ∧ e = e') ∨ ∃ t₃, t = t₁ ++ e' :: t₃ := by
  rcases List.eq_nil_or_concat t₂ with rfl | ⟨t₃, x, rfl⟩
  · obtain ⟨rfl, e⟩ := List.append_inj' h rfl
    exact .inl ⟨rfl, List.singleton_inj.mp e⟩
  · rw [List.concat_eq_append, ← List.cons_append, ← List.append_assoc] at h
    exact .inr ⟨t₃, (List.append_inj' h rfl).1⟩

/-- Every answer of `t`, got after history `h`, is one that `A` admits. -/
def Admits (A : List (Event S) → Event S → Prop) (h t : List (Event S)) : Prop :=
  ∀ t₁ e t₂, t = t₁ ++ e :: t₂ → A (h ++ t₁) e

theorem admits_cons {A : List (Event S) → Event S → Prop} {h t : List (Event S)} {e : Event S} :
    Admits A h (e :: t) ↔ A h e ∧ Admits A (h ++ [e]) t := by
  constructor
  · refine fun ha => ⟨by simpa using ha [] e t rfl, fun t₁ e' t₂ ht => ?_⟩
    rw [List.append_assoc]
    exact ha (e :: t₁) e' t₂ (by rw [ht]; rfl)
  · rintro ⟨ha, ht⟩ t₁ e' t₂ he
    cases t₁ with
    | nil => obtain ⟨rfl, -⟩ := List.cons.inj he; simpa using ha
    | cons e₁ t₁ =>
      obtain ⟨rfl, rfl⟩ := List.cons.inj he
      simpa using ht t₁ e' t₂ rfl

theorem admits_nil {A : List (Event S) → Event S → Prop} {h : List (Event S)} : Admits A h [] :=
  fun _ _ _ ht => by simp at ht

theorem admits_append {A : List (Event S) → Event S → Prop} {h t t' : List (Event S)} :
    Admits A h (t ++ t') ↔ Admits A h t ∧ Admits A (h ++ t) t' := by
  induction t generalizing h with
  | nil => simp [admits_nil]
  | cons e t ih =>
    rw [List.cons_append, admits_cons, admits_cons, ih, List.append_assoc, and_assoc]
    rfl

/-- Answers that are admitted after a history, by what is asked of them from there on. -/
theorem admits_shift {A A' : List (Event S) → Event S → Prop} {h t : List (Event S)}
    (hA : ∀ u e, A (h ++ u) e → A' u e) (ha : Admits A h t) : Admits A' [] t :=
  fun u e v hu => hA u e (ha u e v hu)

namespace Prog

variable (A : List (Event S) → Event S → Prop) (I : List (Event S) → Prop)

/-- As long as the answers are admitted by `A`, `I` holds of the history after
each call, and `Q` of the value and the history on return. -/
inductive Wp (Q : α → List (Event S) → Prop) : Prog S α → List (Event S) → Prop where
  | ret {a : α} {h : List (Event S)} : Q a h → Wp Q (.ret a) h
  | call {c : S.Call} {k : S.Ret c → Prog S α} {h : List (Event S)} :
      (∀ r, A h ⟨c, r⟩ → I (h ++ [⟨c, r⟩])) →
      (∀ r, A h ⟨c, r⟩ → Wp Q (k r) (h ++ [⟨c, r⟩])) → Wp Q (.call c k) h

variable {A I} {Q Q' : α → List (Event S) → Prop}

theorem wp_ret {a : α} {h : List (Event S)} : Wp A I Q (.ret a) h ↔ Q a h :=
  ⟨fun h => by cases h; assumption, .ret⟩

theorem wp_call {c : S.Call} {k : S.Ret c → Prog S α} {h : List (Event S)} :
    Wp A I Q (.call c k) h ↔
      ∀ r, A h ⟨c, r⟩ → I (h ++ [⟨c, r⟩]) ∧ Wp A I Q (k r) (h ++ [⟨c, r⟩]) := by
  constructor
  · intro hw r hr
    cases hw with | call hi hk => exact ⟨hi r hr, hk r hr⟩
  · exact fun hw => .call (fun r hr => (hw r hr).1) fun r hr => (hw r hr).2

theorem Wp.mono {p : Prog S α} {h : List (Event S)} (hp : Wp A I Q p h)
    (hQ : ∀ a h', Q a h' → Q' a h') : Wp A I Q' p h := by
  induction hp with
  | ret h => exact .ret (hQ _ _ h)
  | call hi _ ih => exact .call hi ih

theorem wp_bind {p : Prog S α} {f : α → Prog S β} {Q : β → List (Event S) → Prop}
    {h : List (Event S)} : Wp A I Q (p.bind f) h ↔ Wp A I (fun a h' => Wp A I Q (f a) h') p h := by
  induction p generalizing h with
  | ret a => rw [ret_bind, wp_ret]
  | call c k ih => simp only [call_bind, wp_call, ih]

/-- A program whose calls keep `J`. -/
theorem wp_of_steps {x : Prog S α} {P : Event S → Prop} {R : α → Prop} {J : List (Event S) → Prop}
    (hx : ∀ t q, Steps x t q → (∀ e ∈ t, P e) ∧ ∀ a, q = .ret a → R a)
    (hJ : ∀ h e, J h → P e → J (h ++ [e])) (hJI : ∀ h, J h → I h) {h : List (Event S)} (h₀ : J h) :
    Wp A I (fun a h' => R a ∧ J h') x h := by
  induction x generalizing h with
  | ret a => exact .ret ⟨(hx [] _ (.nil _)).2 a rfl, h₀⟩
  | call c k ih =>
    have hstep : ∀ r, J (h ++ [⟨c, r⟩]) := fun r =>
      hJ _ _ h₀ ((hx [⟨c, r⟩] _ (.cons (.nil _))).1 _ List.mem_cons_self)
    refine .call (fun r _ => hJI _ (hstep r)) fun r _ => ih r (fun t q hs => ?_) (hstep r)
    obtain ⟨hP, hR⟩ := hx (⟨c, r⟩ :: t) q (.cons hs)
    exact ⟨fun e he => hP e (List.mem_cons_of_mem _ he), hR⟩

/-- What holds of every value a program returns can be asked for on return. -/
theorem Wp.and_runs {p : Prog S α} {h : List (Event S)} {R : α → Prop} (hp : Wp A I Q p h)
    (hr : ∀ t a, Runs p t a → R a) : Wp A I (fun a h' => Q a h' ∧ R a) p h := by
  induction hp with
  | ret hq => exact .ret ⟨hq, hr [] _ (.nil _)⟩
  | call hi _ ih => exact .call hi fun r ha => ih r ha fun t a hk => hr _ a (.cons hk)

/-- What a precondition says of a run with admitted answers. -/
theorem Wp.steps {p q : Prog S α} {h t : List (Event S)} (hp : Wp A I Q p h) (hs : Steps p t q)
    (ht : Admits A h t) : (t ≠ [] → I (h ++ t)) ∧ Wp A I Q q (h ++ t) := by
  induction hs generalizing h with
  | nil p => simpa using hp
  | @cons c k r t q hs ih =>
    obtain ⟨ha, ht⟩ := admits_cons.mp ht
    obtain ⟨hi, hk⟩ := wp_call.mp hp r ha
    obtain ⟨h₁, h₂⟩ := ih hk ht
    rw [List.append_assoc, List.singleton_append] at h₁ h₂
    refine ⟨fun _ => ?_, h₂⟩
    by_cases e : t = []
    · subst e; exact hi
    · exact h₁ e

end Prog

namespace Proc

variable {A : List (Event S) → Event S → Prop} {I : List (Event S) → Prop}

/-- As long as the answers are admitted by `A`, `I` holds of the history after
each call, and `Q` of the value, the memory and the history where the code
returns. -/
def Wp (A : List (Event S) → Event S → Prop) (I : List (Event S) → Prop) (p : Proc S σ α) (s : σ)
    (h : List (Event S)) (Q : α → σ → List (Event S) → Prop) : Prop :=
  Prog.Wp A I (fun x h' => ∀ a, x.1 = .ok a → Q a x.2 h') (p s) h

variable {Q : α → σ → List (Event S) → Prop} {s : σ} {h : List (Event S)}

theorem Wp.mono {p : Proc S σ α} {Q' : α → σ → List (Event S) → Prop} (hp : Wp A I p s h Q)
    (hQ : ∀ a s' h', Q a s' h' → Q' a s' h') : Wp A I p s h Q' :=
  Prog.Wp.mono hp fun x h' hx a ha => hQ a x.2 h' (hx a ha)

@[simp] theorem wp_pure {a : α} : Wp A I (pure a : Proc S σ α) s h Q ↔ Q a s h := by
  simp [Wp, Prog.wp_ret]

@[simp] theorem wp_bind {p : Proc S σ α} {f : α → Proc S σ β} {Q : β → σ → List (Event S) → Prop} :
    Wp A I (p >>= f) s h Q ↔ Wp A I p s h fun a s' h' => Wp A I (f a) s' h' Q := by
  rw [Wp, bind_apply, Prog.wp_bind]
  have : ∀ (x : Out α × σ) h', Prog.Wp A I (fun x h' => ∀ b, x.1 = .ok b → Q b x.2 h') (next f x) h' ↔
      ∀ a, x.1 = .ok a → Wp A I (f a) x.2 h' Q := by
    rintro ⟨o, s'⟩ h'
    cases o <;> simp [Wp, Prog.wp_ret]
  simp only [this]
  rfl

@[simp] theorem wp_call {c : S.Call} {Q : S.Ret c → σ → List (Event S) → Prop} :
    Wp A I (call c : Proc S σ _) s h Q ↔
      ∀ r, A h ⟨c, r⟩ → I (h ++ [⟨c, r⟩]) ∧ Q r s (h ++ [⟨c, r⟩]) := by
  simp [Wp, Prog.wp_call, Prog.wp_ret]

@[simp] theorem wp_get {Q : σ → σ → List (Event S) → Prop} :
    Wp A I (get : Proc S σ σ) s h Q ↔ Q s s h := by
  simp [Wp, Prog.wp_ret]

@[simp] theorem wp_modify {f : σ → σ} {Q : Unit → σ → List (Event S) → Prop} :
    Wp A I (modify f : Proc S σ Unit) s h Q ↔ Q () (f s) h :=
  ⟨fun hw => Prog.wp_ret.mp hw () rfl, fun hq => .ret fun _ _ => hq⟩

@[simp] theorem wp_exit {code : Int} : Wp A I (exit code : Proc S σ α) s h Q := by
  simp [Wp, Prog.wp_ret]

@[simp] theorem wp_fault : Wp A I (fault : Proc S σ α) s h Q := by
  simp [Wp, Prog.wp_ret]

@[simp] theorem wp_timeout : Wp A I (timeout : Proc S σ α) s h Q := by
  simp [Wp, Prog.wp_ret]

@[simp] theorem wp_orFault {o : Option α} :
    Wp A I (orFault o : Proc S σ α) s h Q ↔ ∀ a, o = some a → Q a s h := by
  cases o <;> simp

theorem wp_ite {c : Prop} [Decidable c] {p q : Proc S σ α} :
    Wp A I (if c then p else q) s h Q ↔ (c → Wp A I p s h Q) ∧ (¬ c → Wp A I q s h Q) := by
  split <;> simp_all

/-- A loop keeps an invariant `J` of its variables, the memory and the
history, if each round does. -/
theorem wp_iter {body : β → Proc S σ (Round β α)} {J : β → σ → List (Event S) → Prop}
    (hbody : ∀ b s h, J b s h → Wp A I (body b) s h fun x s' h' =>
      match x with
      | .again b' => J b' s' h'
      | .done a => Q a s' h') :
    ∀ n b s h, J b s h → Wp A I (iter body n b) s h Q
  | 0, _, _, _, _ => wp_timeout
  | n + 1, b, s, h, hJ => by
    rw [iter, wp_bind]
    refine (hbody b s h hJ).mono fun x s' h' hx => ?_
    cases x with
    | again b' => exact wp_iter hbody n b' s' h' hx
    | done a => exact wp_pure.mpr hx

/-- Code with a frame, whose calls keep `J`. -/
theorem Frame.wp {γ : Type} {P : S.Call → Prop} {proj : σ → γ} {p : Proc S σ α} (hp : Frame P proj p)
    {J : List (Event S) → Prop} (hJ : ∀ h e, J h → P e.call → J (h ++ [e]))
    (hJI : ∀ h, J h → I h) (h₀ : J h) :
    Wp A I p s h fun _ s' h' => proj s' = proj s ∧ J h' :=
  (Prog.wp_of_steps (P := fun e => P e.call) (R := fun x => proj x.2 = proj s)
    (fun _ _ hs => ⟨hp.calls hs, fun _ hx => hp.keeps (hx ▸ hs)⟩) hJ hJI h₀).mono
    fun _ _ hx _ _ => hx

/-- A run of the code, with admitted answers, keeps `I`. -/
theorem Wp.invariant {p : Proc S σ α} {t : List (Event S)} {q : Prog S (Out α × σ)}
    (hp : Wp A I p s h Q) (hs : (p s).Steps t q) (ht : Admits A h t) (h₀ : I h) : I (h ++ t) := by
  by_cases e : t = []
  · subst e; simpa using h₀
  · exact (Prog.Wp.steps hp hs ht).1 e

/-- A run of the code that returns, with admitted answers, ends in `Q`. -/
theorem Wp.runs {p : Proc S σ α} {t : List (Event S)} {a : α} {s' : σ} (hp : Wp A I p s h Q)
    (hs : (p s).Runs t (.ok a, s')) (ht : Admits A h t) : Q a s' (h ++ t) :=
  Prog.wp_ret.mp (Prog.Wp.steps hp hs ht).2 a rfl

/-! ## Whatever the answers -/

/-- Where the code returns, its value and the memory satisfy `Q`. -/
def Returns (p : Proc S σ α) (s : σ) (Q : α → σ → Prop) : Prop :=
  ∀ t a s', (p s).Runs t (.ok a, s') → Q a s'

section Returns

variable {Q : α → σ → Prop}

/-- What holds whatever the answers can be asked for where the code returns. -/
theorem Wp.and_returns {p : Proc S σ α} {Q : α → σ → List (Event S) → Prop} {R : α → σ → Prop}
    (hp : Wp A I p s h Q) (hr : Returns p s R) : Wp A I p s h fun a s' h' => Q a s' h' ∧ R a s' :=
  (Prog.Wp.and_runs (R := fun x => ∀ a, x.1 = .ok a → R a x.2) hp
    fun t x hx a ha => hr t a x.2 (by rw [← ha]; exact hx)).mono
    fun _ _ hx a ha => ⟨hx.1 a ha, hx.2 a ha⟩

theorem returns_ok {p : Proc S σ α} {a : α} {s' : σ} (hp : p s = .ret (.ok a, s')) :
    Returns p s Q ↔ Q a s' := by
  constructor
  · exact fun h => h [] a s' (by rw [hp]; exact .nil _)
  · intro h t b s'' hr
    rw [hp] at hr
    obtain ⟨-, e⟩ := Prog.runs_ret.mp hr
    cases e
    exact h

theorem returns_pure {a : α} : Returns (pure a : Proc S σ α) s Q ↔ Q a s := returns_ok rfl

theorem returns_get {Q : σ → σ → Prop} : Returns (get : Proc S σ σ) s Q ↔ Q s s := returns_ok rfl

theorem returns_modify {f : σ → σ} {Q : Unit → σ → Prop} :
    Returns (modify f : Proc S σ Unit) s Q ↔ Q () (f s) := returns_ok rfl

theorem returns_bind {p : Proc S σ α} {f : α → Proc S σ β} {Q : β → σ → Prop} :
    Returns (p >>= f) s Q ↔ Returns p s fun a s' => Returns (f a) s' Q := by
  constructor
  · exact fun h t a s' hp u b s'' hf => h _ _ _ (runs_bind_ok.mpr ⟨t, u, a, s', rfl, hp, hf⟩)
  · intro h t b s'' hr
    obtain ⟨t₁, t₂, a, s₁, rfl, hp, hf⟩ := runs_bind_ok.mp hr
    exact h _ _ _ hp _ _ _ hf

theorem returns_ite {c : Prop} [Decidable c] {p q : Proc S σ α} (hp : c → Returns p s Q)
    (hq : ¬ c → Returns q s Q) : Returns (if c then p else q) s Q := by
  split
  · exact hp ‹_›
  · exact hq ‹_›

/-- A loop keeps an invariant `J` of its variables and the memory, if each
round does. -/
theorem returns_iter {body : β → Proc S σ (Round β α)} {J : β → σ → Prop}
    (hbody : ∀ b s, J b s → Returns (body b) s fun x s' =>
      match x with
      | .again b' => J b' s'
      | .done a => Q a s') (n : Nat) {b : β} (hJ : J b s) : Returns (iter body n b) s Q := by
  intro t a s' hr
  obtain ⟨t₁, t₂, b₁, s₁, rfl, hrounds, hlast⟩ := runs_iter hr
  have := hrounds.invariant (J := fun b s _ => J b s)
    (fun b s _ _ b' s' hJ hr => hbody b s hJ _ _ _ hr) (h := []) hJ
  exact hbody b₁ s₁ this _ _ _ hlast

end Returns

end Proc

end Framework
