import Mathlib.Data.List.Induction
import Cheviot.Framework.Frame

/-!
# A process and those that it forks

A program whose calls can fork others, over what they share (`PoolKernel`): in each step it makes a
call, or one of those it has forked does (`Pool.Step`). Nothing is assumed of the order. The calls
of the parent in a run are those of a run of its program (`Pool.Run.parent`), the children are what
its calls have forked, in order (`Pool.Run.forked`), and the calls of each child are those of a run
of its own program (`Pool.Run.child`), so that what is proved of each program alone holds of it in
any run.
-/

namespace Framework

/-- What processes share: which calls of the parent fork a child, the program that a child runs,
and what the calls of either can make of `κ`. -/
structure PoolKernel (S T : Sig) (ι β κ : Type) where
  forks : Event S → Option ι
  code : ι → Prog T β
  parent : κ → Event S → κ → Prop
  child : κ → Nat → Event T → κ → Prop

/-- The parent, the children by the order in which they were forked, and what they share. -/
structure Pool (S T : Sig) (ι α β κ : Type) where
  parent : Prog S α
  children : List (ι × Prog T β)
  shared : κ

/-- A call of the parent, or of a child. -/
inductive PoolLabel (S T : Sig) where
  | parent (e : Event S)
  | child (i : Nat) (e : Event T)

variable {S T : Sig} {ι α β κ : Type}

/-- The calls of the parent. -/
def parentCalls (l : List (PoolLabel S T)) : List (Event S) :=
  l.filterMap fun x =>
    match x with
    | .parent e => some e
    | .child _ _ => none

/-- The calls of child `i`. -/
def childCalls (i : Nat) (l : List (PoolLabel S T)) : List (Event T) :=
  l.filterMap fun x =>
    match x with
    | .parent _ => none
    | .child j e => if j = i then some e else none

section

variable (l l' : List (PoolLabel S T)) (i : Nat)

theorem parentCalls_append : parentCalls (l ++ l') = parentCalls l ++ parentCalls l' :=
  List.filterMap_append

theorem childCalls_append : childCalls i (l ++ l') = childCalls i l ++ childCalls i l' :=
  List.filterMap_append

@[simp] theorem parentCalls_parent (e : Event S) : parentCalls (l ++ [.parent e]) = parentCalls l ++ [e] :=
  parentCalls_append l _

@[simp] theorem parentCalls_child (e : Event T) : parentCalls (l ++ [.child i e]) = parentCalls l := by
  rw [parentCalls_append]
  exact List.append_nil _

@[simp] theorem childCalls_parent (e : Event S) : childCalls i (l ++ [.parent e]) = childCalls i l := by
  rw [childCalls_append]
  exact List.append_nil _

@[simp] theorem childCalls_child (e : Event T) : childCalls i (l ++ [.child i e]) = childCalls i l ++ [e] := by
  rw [childCalls_append]
  exact congrArg _ (by simp [childCalls])

theorem childCalls_other {i j : Nat} (h : j ≠ i) (e : Event T) :
    childCalls i (l ++ [.child j e]) = childCalls i l := by
  rw [childCalls_append]
  simp [childCalls, h]

end

/-- Where the parent makes a call, its calls before and after it are those before and after. -/
theorem exists_of_parentCalls {l : List (PoolLabel S T)} {t t' : List (Event S)} {e : Event S}
    (h : parentCalls l = t ++ e :: t') :
    ∃ l₁ l₂, l = l₁ ++ .parent e :: l₂ ∧ parentCalls l₁ = t ∧ parentCalls l₂ = t' := by
  induction l generalizing t with
  | nil => simp [parentCalls] at h
  | cons x l ih =>
    cases x with
    | child i e' =>
      obtain ⟨l₁, l₂, rfl, h₁, h₂⟩ := ih h
      exact ⟨.child i e' :: l₁, l₂, rfl, h₁, h₂⟩
    | parent e' =>
      cases t with
      | nil =>
        obtain ⟨rfl, rfl⟩ := List.cons.inj h
        exact ⟨[], l, rfl, rfl, rfl⟩
      | cons e'' t =>
        obtain ⟨rfl, hl⟩ := List.cons.inj h
        obtain ⟨l₁, l₂, rfl, h₁, h₂⟩ := ih hl
        exact ⟨.parent e' :: l₁, l₂, rfl, congrArg (e' :: ·) h₁, h₂⟩

namespace Pool

variable (K : PoolKernel S T ι β κ)

/-- The children of a call. -/
def forkedBy (e : Event S) : List (ι × Prog T β) := (K.forks e).toList.map fun x => (x, K.code x)

/-- The next call, of the parent or of a child. -/
inductive Step : Pool S T ι α β κ → PoolLabel S T → Pool S T ι α β κ → Prop where
  | parent {c : S.Call} {k : S.Ret c → Prog S α} {cs : List (ι × Prog T β)} {x x' : κ} (r : S.Ret c) :
      K.parent x ⟨c, r⟩ x' →
      Step ⟨.call c k, cs, x⟩ (.parent ⟨c, r⟩) ⟨k r, cs ++ forkedBy K ⟨c, r⟩, x'⟩
  | child {p : Prog S α} {cs : List (ι × Prog T β)} {x x' : κ} {i : Nat} {y : ι} {c : T.Call}
      {k : T.Ret c → Prog T β} (r : T.Ret c) : cs[i]? = some (y, .call c k) → K.child x i ⟨c, r⟩ x' →
      Step ⟨p, cs, x⟩ (.child i ⟨c, r⟩) ⟨p, cs.set i (y, k r), x'⟩

/-- The calls `l`, from `s` on, lead to `s'`. -/
inductive Run (s : Pool S T ι α β κ) : List (PoolLabel S T) → Pool S T ι α β κ → Prop where
  | nil : Run s [] s
  | snoc {l : List (PoolLabel S T)} {s₁ s₂ : Pool S T ι α β κ} {x : PoolLabel S T} :
      Run s l s₁ → Step K s₁ x s₂ → Run s (l ++ [x]) s₂

variable {K} {s s' s'' : Pool S T ι α β κ} {l l' : List (PoolLabel S T)}

theorem step_parent {p q : Prog S α} {cs : List (ι × Prog T β)} {x x' : κ} {e : Event S}
    (hp : p.Steps [e] q) (hk : K.parent x e x') :
    Step K ⟨p, cs, x⟩ (.parent e) ⟨q, cs ++ forkedBy K e, x'⟩ := by
  cases hp with
  | cons h =>
    obtain rfl := Prog.steps_nil h
    exact .parent _ hk

theorem step_child {p : Prog S α} {q q' : Prog T β} {cs : List (ι × Prog T β)} {x x' : κ} {i : Nat} {y : ι}
    {e : Event T} (hi : cs[i]? = some (y, q)) (hq : q.Steps [e] q') (hk : K.child x i e x') :
    Step K ⟨p, cs, x⟩ (.child i e) ⟨p, cs.set i (y, q'), x'⟩ := by
  cases hq with
  | cons h =>
    obtain rfl := Prog.steps_nil h
    exact .child _ hi hk

theorem Run.append (h : Run K s l s') (h' : Run K s' l' s'') : Run K s (l ++ l') s'' := by
  induction h' with
  | nil => simpa using h
  | snoc _ hstep ih =>
    rw [← List.append_assoc]
    exact ih.snoc hstep

/-- The parent alone makes calls. -/
theorem run_parent {p q : Prog S α} {cs : List (ι × Prog T β)} {x : κ} {t : List (Event S)} (h : p.Steps t q)
    (hk : ∀ e ∈ t, K.parent x e x) :
    Run K ⟨p, cs, x⟩ (t.map .parent) ⟨q, cs ++ t.flatMap (forkedBy K), x⟩ := by
  induction h generalizing cs with
  | nil => simpa using Run.nil
  | @cons c k r t q _ ih =>
    rw [List.map_cons, List.flatMap_cons, ← List.append_assoc, ← List.singleton_append]
    have hstep : Step K ⟨.call c k, cs, x⟩ (.parent ⟨c, r⟩) ⟨k r, cs ++ forkedBy K ⟨c, r⟩, x⟩ :=
      .parent r (hk _ List.mem_cons_self)
    exact (Run.nil.snoc hstep).append (ih fun e he => hk e (List.mem_cons_of_mem _ he))

/-- One child alone does. -/
theorem run_child {p : Prog S α} {q q' : Prog T β} {cs : List (ι × Prog T β)} {x : κ} {i : Nat} {y : ι}
    {t : List (Event T)} (hi : cs[i]? = some (y, q)) (h : q.Steps t q') (hk : ∀ e ∈ t, K.child x i e x) :
    Run K ⟨p, cs, x⟩ (t.map (.child i)) ⟨p, cs.set i (y, q'), x⟩ := by
  obtain ⟨hlt, hget⟩ := List.getElem?_eq_some_iff.mp hi
  induction h generalizing cs with
  | nil q =>
    rw [List.map_nil, ← hget, List.set_getElem_self]
    exact .nil
  | @cons c k r t q' _ ih =>
    rw [List.map_cons, ← List.singleton_append]
    have hstep : Step K ⟨p, cs, x⟩ (.child i ⟨c, r⟩) ⟨p, cs.set i (y, k r), x⟩ :=
      .child r hi (hk _ List.mem_cons_self)
    have hnext := @ih (cs.set i (y, k r)) (List.getElem?_set_self hlt)
      (fun e he => hk e (List.mem_cons_of_mem _ he)) (by rwa [List.length_set]) (List.getElem_set_self _)
    rw [List.set_set] at hnext
    exact (Run.nil.snoc hstep).append hnext

theorem run_nil (h : Run K s [] s') : s' = s := by
  generalize hl : ([] : List (PoolLabel S T)) = l at h
  cases h with
  | nil => rfl
  | snoc => simp at hl

theorem run_snoc {x : PoolLabel S T} (h : Run K s (l ++ [x]) s'') :
    ∃ s', Run K s l s' ∧ Step K s' x s'' := by
  generalize hl : l ++ [x] = l' at h
  cases h with
  | nil => simp at hl
  | snoc hrun hstep =>
    obtain ⟨rfl, hx⟩ := List.append_inj' hl rfl
    cases hx
    exact ⟨_, hrun, hstep⟩

/-- A run, up to any call of it. -/
theorem run_append (h : Run K s (l ++ l') s'') : ∃ s', Run K s l s' ∧ Run K s' l' s'' := by
  induction l' using List.reverseRecOn generalizing s'' with
  | nil => exact ⟨s'', by simpa using h, .nil⟩
  | append_singleton l' x ih =>
    rw [← List.append_assoc] at h
    obtain ⟨s₁, h₁, hstep⟩ := run_snoc h
    obtain ⟨s', hl, hl'⟩ := ih h₁
    exact ⟨s', hl, hl'.snoc hstep⟩

section

variable {p : Prog S α} {x : κ}

/-- The parent's calls are those of a run of its program. -/
theorem Run.parent (h : Run K ⟨p, [], x⟩ l s) : p.Steps (parentCalls l) s.parent := by
  induction h with
  | nil => exact .nil _
  | snoc _ hstep ih =>
    cases hstep with
    | parent r _ =>
      rw [parentCalls_parent]
      exact ih.trans (.cons (.nil _))
    | child r _ _ =>
      rw [parentCalls_child]
      exact ih

/-- The children are those that the parent's calls have forked, in order. -/
theorem Run.forked (h : Run K ⟨p, [], x⟩ l s) : s.children.map (·.1) = (parentCalls l).filterMap K.forks := by
  induction h with
  | nil => rfl
  | snoc _ hstep ih =>
    cases hstep with
    | @parent c _ _ _ _ r _ =>
      rw [parentCalls_parent, List.filterMap_append, ← ih, List.map_append, forkedBy]
      cases hf : K.forks ⟨c, r⟩ <;> simp [hf]
    | @child _ _ _ _ i y _ _ r hi _ =>
      rw [parentCalls_child, ← ih, List.map_set]
      refine List.ext_getElem? fun j => ?_
      rw [List.getElem?_set]
      split
      · rename_i hj
        subst hj
        split
        · rw [List.getElem?_map, hi, Option.map_some]
        · rename_i hlt
          rw [List.getElem?_eq_none (Nat.not_lt.mp hlt)]
      · rfl

/-- The calls of a child are those of a run of its program, and who has not been forked makes none. -/
theorem Run.child (h : Run K ⟨p, [], x⟩ l s) (i : Nat) :
    (∀ y q, s.children[i]? = some (y, q) → (K.code y).Steps (childCalls i l) q) ∧
      (s.children.length ≤ i → childCalls i l = []) := by
  induction h with
  | nil => exact ⟨by simp, fun _ => rfl⟩
  | @snoc l s₁ s₂ z hrun hstep ih =>
    cases hstep with
    | @parent c k cs _ _ r _ =>
      rw [childCalls_parent]
      obtain ⟨hold, hnew⟩ := ih
      refine ⟨fun y q hi => ?_, fun hlen => hnew ?_⟩
      · rcases Nat.lt_or_ge i cs.length with hlt | hge
        · rw [List.getElem?_append_left hlt] at hi
          exact hold y q hi
        · rw [List.getElem?_append_right hge] at hi
          obtain ⟨y', -, he⟩ := List.mem_map.mp (List.mem_of_getElem? hi)
          cases he
          rw [hnew hge]
          exact .nil _
      · rw [List.length_append] at hlen
        exact Nat.le_trans (Nat.le_add_right _ _) hlen
    | @child _ cs _ _ j y c k r hj _ =>
      obtain ⟨hold, hnew⟩ := ih
      have hlt : j < cs.length := by
        obtain ⟨hlt, -⟩ := List.getElem?_eq_some_iff.mp hj
        exact hlt
      by_cases hij : j = i
      · subst hij
        rw [childCalls_child]
        refine ⟨fun y' q hi => ?_, fun hlen => ?_⟩
        · rw [List.getElem?_set_self hlt] at hi
          cases hi
          exact (hold _ _ hj).trans (.cons (.nil _))
        · rw [List.length_set] at hlen
          omega
      · rw [childCalls_other l hij]
        refine ⟨fun y' q hi => ?_, fun hlen => hnew ?_⟩
        · rw [List.getElem?_set_ne hij] at hi
          exact hold _ _ hi
        · rw [List.length_set] at hlen
          exact hlen

end

end Pool

end Framework
