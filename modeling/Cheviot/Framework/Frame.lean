import Cheviot.Framework.Proc

/-!
# What code leaves alone, and the rounds of its loops

`Proc.Frame P proj p`: every call that `p` makes satisfies `P`, and `p` leaves
the part `proj` of the memory as it is. A rule for each construct.

`Proc.Rounds body b s t b' s'`: rounds of a loop that asked for another round,
from the variables `b` and the memory `s` to `b'` and `s'`, with the calls `t`. A
run of a loop is such rounds and the run of one more (`steps_iter`,
`runs_iter`), so that what each round preserves holds along the loop
(`Rounds.invariant`).
-/

namespace Framework

variable {S : Sig} {σ α β γ : Type}

namespace Proc

/-! ## Frames -/

/-- Every call of `p` satisfies `P`, and `p` leaves `proj` as it is. -/
def Frame (P : S.Call → Prop) (proj : σ → γ) (p : Proc S σ α) : Prop :=
  ∀ s t q, (p s).Steps t q →
    (∀ e ∈ t, P e.call) ∧ ∀ o s', q = .ret (o, s') → proj s' = proj s

section Frame

variable {P P' : S.Call → Prop} {proj : σ → γ} {p : Proc S σ α} {s s' : σ} {o : Out α}
  {t : List (Event S)}

theorem Frame.calls (h : Frame P proj p) {q : Prog S (Out α × σ)} (hs : (p s).Steps t q) :
    ∀ e ∈ t, P e.call := (h s t q hs).1

theorem Frame.keeps (h : Frame P proj p) (hs : (p s).Runs t (o, s')) : proj s' = proj s :=
  (h s t _ hs).2 o s' rfl

/-- Code that ends at once. -/
theorem Frame.ret {x : σ → Out α × σ} (hp : ∀ s, p s = .ret (x s)) (h : ∀ s, proj (x s).2 = proj s) :
    Frame P proj p := by
  intro s t q hs
  rw [hp, Prog.steps_ret] at hs
  obtain ⟨rfl, rfl⟩ := hs
  refine ⟨by simp, fun o s' e => ?_⟩
  rw [← h s, Prog.ret.inj e]

theorem Frame.pure (a : α) : Frame P proj (pure a : Proc S σ α) := .ret (fun _ => rfl) fun _ => rfl

theorem Frame.get : Frame P proj (Proc.get : Proc S σ σ) := .ret (fun _ => rfl) fun _ => rfl

theorem Frame.modify {f : σ → σ} (h : ∀ s, proj (f s) = proj s) :
    Frame P proj (modify f : Proc S σ Unit) := .ret (fun _ => rfl) h

theorem Frame.exit (code : Int) : Frame P proj (exit code : Proc S σ α) :=
  .ret (fun _ => rfl) fun _ => rfl

theorem Frame.fault : Frame P proj (fault : Proc S σ α) := .ret (fun _ => rfl) fun _ => rfl

theorem Frame.timeout : Frame P proj (timeout : Proc S σ α) := .ret (fun _ => rfl) fun _ => rfl

theorem Frame.orFault (a : Option α) : Frame P proj (orFault a : Proc S σ α) := by
  cases a with
  | none => exact .fault
  | some a => exact .pure a

theorem Frame.call {c : S.Call} (h : P c) : Frame P proj (call c : Proc S σ (S.Ret c)) := by
  intro s t q hs
  rw [call_apply, Prog.steps_call] at hs
  rcases hs with ⟨rfl, rfl⟩ | ⟨r, t', rfl, hs⟩
  · exact ⟨by simp, fun o s' e => by cases e⟩
  · obtain ⟨rfl, rfl⟩ := Prog.steps_ret.mp hs
    exact ⟨by simpa using h, fun o s' e => by cases e; rfl⟩

theorem Frame.bind {f : α → Proc S σ β} (hp : Frame P proj p) (hf : ∀ a, Frame P proj (f a)) :
    Frame P proj (p >>= f) := by
  intro s t q hs
  rcases Prog.steps_bind_cases hs with ⟨c, k, hp', rfl⟩ | ⟨t₁, t₂, ⟨o, s₁⟩, rfl, hp', hf'⟩
  · exact ⟨hp.calls hp', fun o s' e => by cases e⟩
  · cases o with
    | ok a =>
      obtain ⟨hc, hk⟩ := hf a s₁ t₂ q hf'
      exact ⟨List.forall_mem_append.mpr ⟨hp.calls hp', hc⟩,
        fun o s' e => (hk o s' e).trans (hp.keeps hp')⟩
    | _ =>
      obtain ⟨rfl, rfl⟩ := Prog.steps_ret.mp hf'
      rw [List.append_nil]
      refine ⟨hp.calls hp', fun o s' e => ?_⟩
      rw [← hp.keeps hp']
      exact congrArg (fun x => proj x.2) (Prog.ret.inj e).symm

theorem Frame.ite {c : Prop} [Decidable c] {q : Proc S σ α} (hp : Frame P proj p)
    (hq : Frame P proj q) : Frame P proj (if c then p else q) := by
  split <;> assumption

theorem Frame.iter {body : β → Proc S σ (Round β α)} (h : ∀ b, Frame P proj (body b)) :
    ∀ n b, Frame P proj (iter body n b)
  | 0, _ => .timeout
  | n + 1, b => (h b).bind fun x => by
    cases x with
    | again b' => exact Frame.iter h n b'
    | done a => exact .pure a

theorem Frame.mono (h : Frame P proj p) (hP : ∀ c, P c → P' c) : Frame P' proj p :=
  fun s t q hs => ⟨fun e he => hP _ ((h s t q hs).1 e he), (h s t q hs).2⟩

/-- What is left alone as a whole is left alone in its parts. -/
theorem Frame.part {δ : Type} (f : γ → δ) (h : Frame P proj p) : Frame P (fun s => f (proj s)) p :=
  fun s t q hs => ⟨(h s t q hs).1, fun o s' e => congrArg f ((h s t q hs).2 o s' e)⟩

end Frame

/-! ## Traces of completed runs -/

/-- Every run of `p` that ends relates the memory before it, its calls and the
memory after it by `R`. -/
def Leads (R : σ → List (Event S) → σ → Prop) (p : Proc S σ α) : Prop :=
  ∀ s t o s', (p s).Runs t (o, s') → R s t s'

/-- What holds of two runs holds of the one after the other. -/
structure Chains (R : σ → List (Event S) → σ → Prop) : Prop where
  nil : ∀ s, R s [] s
  append : ∀ {s t s' t' s''}, R s t s' → R s' t' s'' → R s (t ++ t') s''

section Leads

variable {R : σ → List (Event S) → σ → Prop} {p : Proc S σ α}

theorem Leads.pure (hR : Chains R) (a : α) : Leads R (pure a : Proc S σ α) := fun s t o s' h => by
  obtain ⟨rfl, -, rfl⟩ := runs_pure.mp h
  exact hR.nil s'

theorem Leads.get (hR : Chains R) : Leads R (get : Proc S σ σ) := fun s t o s' h => by
  obtain ⟨rfl, h⟩ := Prog.runs_ret.mp h
  cases h
  exact hR.nil s

theorem Leads.bind (hR : Chains R) {f : α → Proc S σ β} (hp : Leads R p)
    (hf : ∀ a, Leads R (f a)) : Leads R (p >>= f) := fun s t o s' h => by
  rw [bind_apply, Prog.runs_bind] at h
  obtain ⟨t₁, t₂, ⟨o₁, s₁⟩, rfl, h₁, h₂⟩ := h
  cases o₁ with
  | ok a => exact hR.append (hp _ _ _ _ h₁) (hf a _ _ _ _ h₂)
  | _ =>
    obtain ⟨rfl, e⟩ := Prog.runs_ret.mp h₂
    cases e
    rw [List.append_nil]
    exact hp _ _ _ _ h₁

theorem Leads.ite {c : Prop} [Decidable c] {q : Proc S σ α} (hp : Leads R p) (hq : Leads R q) :
    Leads R (if c then p else q) := by
  split <;> assumption

theorem Leads.iter (hR : Chains R) {body : β → Proc S σ (Round β α)} (h : ∀ b, Leads R (body b)) :
    ∀ n b, Leads R (iter body n b)
  | 0, _ => fun s t o s' h => by
    obtain ⟨rfl, e⟩ := Prog.runs_ret.mp h
    cases e
    exact hR.nil s
  | n + 1, b => .bind hR (h b) fun x => by
    cases x with
    | again b' => exact Leads.iter hR h n b'
    | done a => exact .pure hR a

/-- Code with a frame that implies the relation. -/
theorem Frame.leads {P : S.Call → Prop} {proj : σ → γ} (hp : Frame P proj p)
    (h : ∀ s t s', (∀ e ∈ t, P e.call) → proj s' = proj s → R s t s') : Leads R p :=
  fun s t _ s' hr => h s t s' (hp.calls hr) (hp.keeps hr)

end Leads

/-! ## Code that returns -/

/-- Whatever the answers, a run of `p` that ends returns: it neither exits nor
faults, and has no loop that can be cut off. -/
def Total (p : Proc S σ α) : Prop := ∀ s t o s', (p s).Runs t (o, s') → ∃ a, o = .ok a

section Total

variable {p : Proc S σ α}

theorem Total.pure (a : α) : Total (pure a : Proc S σ α) := fun s t o s' h => by
  obtain ⟨-, rfl, -⟩ := runs_pure.mp h
  exact ⟨a, rfl⟩

theorem Total.get : Total (get : Proc S σ σ) := fun s t o s' h => by
  obtain ⟨-, h⟩ := Prog.runs_ret.mp h
  cases h
  exact ⟨s, rfl⟩

theorem Total.modify (f : σ → σ) : Total (modify f : Proc S σ Unit) := fun s t o s' h => by
  obtain ⟨-, h⟩ := Prog.runs_ret.mp h
  cases h
  exact ⟨(), rfl⟩

theorem Total.call (c : S.Call) : Total (call c : Proc S σ (S.Ret c)) := fun s t o s' h => by
  rw [call_apply, Prog.runs_call] at h
  obtain ⟨r, t', rfl, h⟩ := h
  obtain ⟨-, h⟩ := Prog.runs_ret.mp h
  cases h
  exact ⟨r, rfl⟩

/-- A run of code that returns, and of what follows it. -/
theorem Total.runs_bind {f : α → Proc S σ β} (hp : Total p) {s : σ} {t : List (Event S)}
    {x : Out β × σ} (h : ((p >>= f) s).Runs t x) : ∃ t₁ t₂ a s₁, t = t₁ ++ t₂ ∧
      (p s).Runs t₁ (.ok a, s₁) ∧ (f a s₁).Runs t₂ x := by
  rw [bind_apply, Prog.runs_bind] at h
  obtain ⟨t₁, t₂, ⟨o₁, s₁⟩, rfl, h₁, h₂⟩ := h
  obtain ⟨a, rfl⟩ := hp _ _ _ _ h₁
  exact ⟨t₁, t₂, a, s₁, rfl, h₁, h₂⟩

theorem Total.bind {f : α → Proc S σ β} (hp : Total p) (hf : ∀ a, Total (f a)) :
    Total (p >>= f) := fun s t o s' h => by
  obtain ⟨t₁, t₂, a, s₁, rfl, -, h₂⟩ := hp.runs_bind h
  exact hf a _ _ _ _ h₂

theorem Total.ite {c : Prop} [Decidable c] {q : Proc S σ α} (hp : Total p) (hq : Total q) :
    Total (if c then p else q) := by
  split <;> assumption

end Total

/-! ## Rounds -/

/-- Rounds of a loop that asked for another round. -/
inductive Rounds (body : β → Proc S σ (Round β α)) (b : β) (s : σ) :
    List (Event S) → β → σ → Prop where
  | nil : Rounds body b s [] b s
  | snoc {b₁ b₂ : β} {s₁ s₂ : σ} {t₁ t₂ : List (Event S)} : Rounds body b s t₁ b₁ s₁ →
      (body b₁ s₁).Runs t₂ (.ok (.again b₂), s₂) → Rounds body b s (t₁ ++ t₂) b₂ s₂

section Rounds

variable {body : β → Proc S σ (Round β α)} {b b' b'' : β} {s s' s'' : σ} {t t' : List (Event S)}

theorem Rounds.one (h : (body b s).Runs t (.ok (.again b'), s')) : Rounds body b s t b' s' := by
  simpa using Rounds.snoc .nil h

theorem Rounds.trans (h : Rounds body b s t b' s') (h' : Rounds body b' s' t' b'' s'') :
    Rounds body b s (t ++ t') b'' s'' := by
  induction h' with
  | nil => simpa using h
  | snoc _ hr ih =>
    rw [← List.append_assoc]
    exact .snoc ih hr

/-- What each round preserves holds after any number of them. -/
theorem Rounds.invariant {J : β → σ → List (Event S) → Prop}
    (step : ∀ b s h t b' s', J b s h → (body b s).Runs t (.ok (.again b'), s') → J b' s' (h ++ t))
    (hr : Rounds body b s t b' s') {h : List (Event S)} (h₀ : J b s h) : J b' s' (h ++ t) := by
  induction hr with
  | nil => simpa using h₀
  | snoc _ hb ih =>
    rw [← List.append_assoc]
    exact step _ _ _ _ _ _ ih hb

/-- Rounds, and then what the loop does from there, are what the loop does. -/
theorem Rounds.steps {n : Nat} {q : Prog S (Out α × σ)} (h : Rounds body b s t b' s')
    (h' : (iter body n b' s').Steps t' q) : ∃ m, (iter body m b s).Steps (t ++ t') q := by
  induction h generalizing n t' with
  | nil => exact ⟨n, h'⟩
  | snoc _ hr ih =>
    rw [List.append_assoc]
    exact ih (n := n + 1) (Prog.Runs.bind hr h')

/-- A run of a loop is rounds and a run of one more. -/
theorem steps_iter {n : Nat} {q : Prog S (Out α × σ)} (h : (iter body n b s).Steps t q) :
    ∃ t₁ t₂ b' s' q', t = t₁ ++ t₂ ∧ Rounds body b s t₁ b' s' ∧ (body b' s').Steps t₂ q' := by
  induction n generalizing b s t with
  | zero =>
    obtain ⟨rfl, -⟩ := Prog.steps_ret.mp h
    exact ⟨[], [], b, s, _, rfl, .nil, .nil _⟩
  | succ n ih =>
    rw [iter, bind_apply, Prog.steps_bind] at h
    rcases h with ⟨p', hp, -⟩ | ⟨t₁, t₂, ⟨o, s₁⟩, rfl, hp, hf⟩
    · exact ⟨[], t, b, s, p', rfl, .nil, hp⟩
    · match o, hf with
      | .ok (.again b₁), hf =>
        obtain ⟨u₁, u₂, b', s', q', rfl, hr, hb⟩ := ih hf
        exact ⟨t₁ ++ u₁, u₂, b', s', q', by rw [List.append_assoc], (Rounds.one hp).trans hr, hb⟩
      | .ok (.done a), hf | .exited code, hf | .fault, hf | .timeout, hf =>
        obtain ⟨rfl, -⟩ := Prog.steps_ret.mp hf
        exact ⟨[], t₁, b, s, _, by simp, .nil, hp⟩

/-- A loop that ended made rounds and one more, which was done. -/
theorem runs_iter {n : Nat} {a : α} (h : (iter body n b s).Runs t (.ok a, s')) :
    ∃ t₁ t₂ b₁ s₁, t = t₁ ++ t₂ ∧ Rounds body b s t₁ b₁ s₁ ∧
      (body b₁ s₁).Runs t₂ (.ok (.done a), s') := by
  induction n generalizing b s t with
  | zero => simp [iter, Prog.runs_ret] at h
  | succ n ih =>
    rw [iter, runs_bind_ok] at h
    obtain ⟨t₁, t₂, x, s₁, rfl, hp, hf⟩ := h
    cases x with
    | again b₁ =>
      obtain ⟨u₁, u₂, b', s₂, rfl, hr, hb⟩ := ih hf
      exact ⟨t₁ ++ u₁, u₂, b', s₂, by rw [List.append_assoc], (Rounds.one hp).trans hr, hb⟩
    | done a' =>
      obtain ⟨rfl, rfl, rfl⟩ := runs_pure_ok.mp hf
      exact ⟨[], t₁, b, s, by simp, .nil, hp⟩

end Rounds

end Proc

end Framework
