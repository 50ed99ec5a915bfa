import Cheviot.Framework.Prog

/-!
# Processes

The code of a process: programs (`Prog`) over a state `σ`, the process' own
memory, that return, exit, fault or run out of the rounds granted to a loop.
`Proc S σ` is a lawful monad, so C code is written in `do` notation, and
`Proc.iter` is its loop.

`Proc.Sim R V p q` relates two such codes with different memories: from
memories related by `R` they make the same calls whatever the answers, end the
same way, return values related by `V` and leave memories related by `R`
(`Sim.bind`, `Sim.iter`).
-/

namespace Framework

/-- How the code of a process ends. `fault` is an access outside an object;
nothing is said of what happens after it. `timeout` is a loop that made all
the rounds it was granted, which is how a run is cut off inside a loop. -/
inductive Out (α : Type) : Type where
  | ok (a : α)
  | exited (code : Int)
  | fault
  | timeout

namespace Out

/-- The same end, with values related by `V`. -/
def Rel {α β : Type} (V : α → β → Prop) : Out α → Out β → Prop
  | .ok a, .ok b => V a b
  | .exited c, .exited c' => c = c'
  | .fault, .fault => True
  | .timeout, .timeout => True
  | _, _ => False

theorem Rel.mono {α β : Type} {V V' : α → β → Prop} {x : Out α} {y : Out β} (h : Rel V x y)
    (hV : ∀ a b, V a b → V' a b) : Rel V' x y := by
  cases x <;> cases y <;> first | exact hV _ _ h | exact h

theorem rel_eq {α : Type} {x y : Out α} : Rel Eq x y ↔ x = y := by
  constructor
  · intro h
    cases x <;> cases y <;> first | exact h.elim | exact congrArg _ h | rfl
  · intro h
    subst h
    cases x <;> first | rfl | trivial

end Out

/-- Code that runs on a memory of type `σ`. -/
def Proc (S : Sig) (σ α : Type) : Type := σ → Prog S (Out α × σ)

variable {S : Sig} {σ τ α β γ δ : Type}

namespace Proc

/-- `f` on the value of code that returned; any other end is final. -/
def next (f : α → Proc S σ β) : Out α × σ → Prog S (Out β × σ)
  | (.ok a, s) => f a s
  | (.exited code, s) => .ret (.exited code, s)
  | (.fault, s) => .ret (.fault, s)
  | (.timeout, s) => .ret (.timeout, s)

instance : Monad (Proc S σ) where
  pure a := fun s => .ret (.ok a, s)
  bind p f := fun s => (p s).bind (next f)

/-- Make a call. -/
def call (c : S.Call) : Proc S σ (S.Ret c) := fun s => .call c fun r => .ret (.ok r, s)

/-- Read the memory. -/
def get : Proc S σ σ := fun s => .ret (.ok s, s)

/-- Change the memory. -/
def modify (f : σ → σ) : Proc S σ Unit := fun s => .ret (.ok (), f s)

/-- `exit(code)`. -/
def exit (code : Int) : Proc S σ α := fun s => .ret (.exited code, s)

/-- Undefined behaviour. -/
def fault : Proc S σ α := fun s => .ret (.fault, s)

/-- The loop that is still running. -/
def timeout : Proc S σ α := fun s => .ret (.timeout, s)

/-- The value of `o`, or a fault. -/
def orFault : Option α → Proc S σ α
  | some a => pure a
  | none => fault

/-! ## What a piece of code is, from a memory -/

@[simp] theorem pure_apply (a : α) (s : σ) : (pure a : Proc S σ α) s = .ret (.ok a, s) := rfl

@[simp] theorem bind_apply (p : Proc S σ α) (f : α → Proc S σ β) (s : σ) :
    (p >>= f) s = (p s).bind (next f) := rfl

@[simp] theorem call_apply (c : S.Call) (s : σ) :
    (call c : Proc S σ (S.Ret c)) s = .call c fun r => .ret (.ok r, s) := rfl

@[simp] theorem get_apply (s : σ) : (get : Proc S σ σ) s = .ret (.ok s, s) := rfl

@[simp] theorem modify_apply (f : σ → σ) (s : σ) :
    (modify f : Proc S σ Unit) s = .ret (.ok (), f s) := rfl

@[simp] theorem exit_apply (code : Int) (s : σ) :
    (exit code : Proc S σ α) s = .ret (.exited code, s) := rfl

@[simp] theorem fault_apply (s : σ) : (fault : Proc S σ α) s = .ret (.fault, s) := rfl

@[simp] theorem timeout_apply (s : σ) : (timeout : Proc S σ α) s = .ret (.timeout, s) := rfl

@[simp] theorem orFault_some (a : α) : (orFault (some a) : Proc S σ α) = pure a := rfl

@[simp] theorem orFault_none : (orFault none : Proc S σ α) = fault := rfl

@[simp] theorem next_ok (f : α → Proc S σ β) (a : α) (s : σ) : next f (.ok a, s) = f a s := rfl

@[simp] theorem next_exited (f : α → Proc S σ β) (code : Int) (s : σ) :
    next f (.exited code, s) = .ret (.exited code, s) := rfl

@[simp] theorem next_fault (f : α → Proc S σ β) (s : σ) :
    next f (.fault, s) = .ret (.fault, s) := rfl

@[simp] theorem next_timeout (f : α → Proc S σ β) (s : σ) :
    next f (.timeout, s) = .ret (.timeout, s) := rfl

theorem ite_apply (c : Prop) [Decidable c] (p q : Proc S σ α) (s : σ) :
    (if c then p else q) s = if c then p s else q s := by
  split <;> rfl

instance : LawfulMonad (Proc S σ) := LawfulMonad.mk' _
  (fun p => by
    funext s
    show (p s).bind _ = p s
    induction p s with
    | ret x => obtain ⟨o, s'⟩ := x; cases o <;> rfl
    | call c k ih => simp only [Prog.call_bind, ih])
  (fun _ _ => rfl)
  (fun p f g => by
    funext s
    simp only [bind_apply, Prog.bind_assoc]
    congr 1
    funext x
    obtain ⟨o, s'⟩ := x
    cases o <;> rfl)

@[simp] theorem map_apply (f : α → β) (p : Proc S σ α) (s : σ) :
    (f <$> p) s = (p s).bind (next fun a => pure (f a)) := by
  rw [← bind_pure_comp]; rfl

/-! ## Loops -/

/-- What a round of a loop asks for: another round, with the new values of the
loop's variables, or the end of the loop. -/
inductive Round (β α : Type) : Type where
  | again (b : β)
  | done (a : α)

/-- A loop: rounds of `body`, at most `n` of them, until one is done. -/
def iter (body : β → Proc S σ (Round β α)) : Nat → β → Proc S σ α
  | 0, _ => timeout
  | n + 1, b => do
    match ← body b with
    | .again b' => iter body n b'
    | .done a => pure a

/-- A loop whose rounds do nothing spins. -/
theorem iter_spin (n : Nat) (b : β) (s : σ) :
    iter (fun b => (pure (.again b) : Proc S σ (Round β α))) n b s = .ret (.timeout, s) := by
  induction n with
  | zero => rfl
  | succ n ih => exact ih

/-! ## Runs of code that has several parts -/

theorem runs_pure {a : α} {s s' : σ} {o : Out α} {t : List (Event S)} :
    ((pure a : Proc S σ α) s).Runs t (o, s') ↔ t = [] ∧ o = .ok a ∧ s' = s := by
  rw [pure_apply, Prog.runs_ret, Prod.mk.injEq]

theorem runs_pure_ok {a b : α} {s s' : σ} {t : List (Event S)} :
    ((pure a : Proc S σ α) s).Runs t (.ok b, s') ↔ t = [] ∧ b = a ∧ s' = s := by
  rw [runs_pure, Out.ok.injEq]

theorem runs_get_bind {f : σ → Proc S σ α} {s : σ} {t : List (Event S)} {x : Out α × σ} :
    ((get >>= f) s).Runs t x ↔ (f s s).Runs t x := Iff.rfl

theorem runs_modify_bind {u : σ → σ} {f : Unit → Proc S σ α} {s : σ} {t : List (Event S)}
    {x : Out α × σ} : ((modify u >>= f) s).Runs t x ↔ (f () (u s)).Runs t x := Iff.rfl

theorem runs_call_bind {c : S.Call} {f : S.Ret c → Proc S σ α} {s : σ} {t : List (Event S)} {x : Out α × σ} :
    ((call c >>= f) s).Runs t x ↔ ∃ r t', t = ⟨c, r⟩ :: t' ∧ (f r s).Runs t' x := Prog.runs_call

/-- A run of `p >>= f` that returns: `p` returns, then `f` on its value does. -/
theorem runs_bind_ok {p : Proc S σ α} {f : α → Proc S σ β} {s s' : σ} {t : List (Event S)} {b : β} :
    ((p >>= f) s).Runs t (.ok b, s') ↔ ∃ t₁ t₂ a s₁, t = t₁ ++ t₂ ∧ (p s).Runs t₁ (.ok a, s₁) ∧
      (f a s₁).Runs t₂ (.ok b, s') := by
  rw [bind_apply, Prog.runs_bind]
  constructor
  · rintro ⟨t₁, t₂, ⟨o, s₁⟩, rfl, hp, hf⟩
    cases o with
    | ok a => exact ⟨t₁, t₂, a, s₁, rfl, hp, hf⟩
    | _ => simp [Prog.runs_ret] at hf
  · rintro ⟨t₁, t₂, a, s₁, rfl, hp, hf⟩
    exact ⟨t₁, t₂, (.ok a, s₁), rfl, hp, hf⟩

/-! ## Two pieces of code that make the same calls -/

/-- The same end with related values, and related memories. -/
def Ends (R : σ → τ → Prop) (V : α → β → Prop) (x : Out α × σ) (y : Out β × τ) : Prop :=
  Out.Rel V x.1 y.1 ∧ R x.2 y.2

/-- From memories related by `R`, `p` and `q` make the same calls, end the
same way with values related by `V`, and leave memories related by `R`. -/
def Sim (R : σ → τ → Prop) (V : α → β → Prop) (p : Proc S σ α) (q : Proc S τ β) : Prop :=
  ∀ s s', R s s' → Prog.Rel (Ends R V) (p s) (q s')

section Sim

variable {R : σ → τ → Prop} {V : α → β → Prop}

theorem Ends.mono {R' : σ → τ → Prop} {V' : α → β → Prop} {x : Out α × σ} {y : Out β × τ}
    (h : Ends R V x y) (hR : ∀ s s', R s s' → R' s s') (hV : ∀ a b, V a b → V' a b) :
    Ends R' V' x y := ⟨h.1.mono hV, hR _ _ h.2⟩

theorem Sim.pure {a : α} {b : β} (h : V a b) :
    Sim R V (pure a : Proc S σ α) (pure b : Proc S τ β) := fun _ _ hR => .ret ⟨h, hR⟩

/-- Two codes that ended the same way, each followed by more code. -/
theorem rel_next {R' : σ → τ → Prop} {V' : γ → δ → Prop} {f : α → Proc S σ γ}
    {g : β → Proc S τ δ} {x : Out α × σ} {y : Out β × τ} (h : Ends R V x y)
    (hR : ∀ s s', R s s' → R' s s')
    (hf : ∀ a b s s', V a b → R s s' → Prog.Rel (Ends R' V') (f a s) (g b s')) :
    Prog.Rel (Ends R' V') (next f x) (next g y) := by
  obtain ⟨o, s⟩ := x
  obtain ⟨o', s'⟩ := y
  obtain ⟨ho, hs⟩ := h
  cases o <;> cases o' <;> try exact ho.elim
  · exact hf _ _ _ _ ho hs
  · exact .ret ⟨ho, hR _ _ hs⟩
  · exact .ret ⟨trivial, hR _ _ hs⟩
  · exact .ret ⟨trivial, hR _ _ hs⟩

theorem Sim.bind {V' : γ → δ → Prop} {p : Proc S σ α} {q : Proc S τ β} {f : α → Proc S σ γ}
    {g : β → Proc S τ δ} (h : Sim R V p q) (hf : ∀ a b, V a b → Sim R V' (f a) (g b)) :
    Sim R V' (p >>= f) (q >>= g) := fun s s' hR =>
  (h s s' hR).bind fun _ _ hE =>
    rel_next hE (fun _ _ hR => hR) fun _ _ _ _ hV hR => hf _ _ hV _ _ hR

/-- A value that is dropped makes no difference. -/
theorem rel_drop {c : γ} {x : Prog S (Out α × σ)} {y : Prog S (Out β × τ)}
    (h : Prog.Rel (Ends R fun _ _ => True) x y) :
    Prog.Rel (Ends R fun _ _ => True) (x.bind (next fun _ => (pure c : Proc S σ γ))) y := by
  rw [← Prog.bind_ret y]
  refine h.bind fun x y ⟨ho, hR⟩ => ?_
  obtain ⟨o, s⟩ := x
  obtain ⟨o', s'⟩ := y
  cases o <;> cases o' <;> first | exact ho.elim | exact .ret ⟨trivial, hR⟩ | exact .ret ⟨ho, hR⟩

/-- Two loops over the same variables, whose rounds agree. -/
theorem Sim.iter {body : γ → Proc S σ (Round γ α)} {body' : γ → Proc S τ (Round γ α)}
    (h : ∀ b, Sim R Eq (body b) (body' b)) : ∀ n b, Sim R Eq (iter body n b) (iter body' n b)
  | 0, _ => fun _ _ hR => .ret ⟨trivial, hR⟩
  | n + 1, b => (h b).bind fun x y e => by
    subst e
    cases x with
    | again b' => exact Sim.iter h n b'
    | done a => exact Sim.pure rfl

end Sim

end Proc

end Framework
