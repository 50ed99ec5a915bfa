import Cheviot.Framework.Wp

/-!
# Heaps, by what is done with them

What a program does with the blocks of its heap is a list of operations. A block is live
(`Live`) from where it is allocated to where it is next freed, and a list of operations is safe
(`Safe`) if no block is allocated that is live, and none is freed or used that is not: no block is
freed twice, or used after it has been freed. Both are given for a list with one more operation
(`live_snoc`, `safe_snoc`).
-/

namespace Framework

/-- What is done with the blocks of a heap. -/
inductive HeapOp (B : Type) where
  | alloc (b : B)
  | free (b : B)
  | use (bs : List B)

namespace HeapOp

variable {B : Type} {ops ops' : List (HeapOp B)} {op : HeapOp B} {b : B} {bs : List B}

/-- `b` has been allocated, and has not been freed since. -/
def Live (ops : List (HeapOp B)) (b : B) : Prop :=
  ∃ before after, ops = before ++ .alloc b :: after ∧ .free b ∉ after

/-- What may be done after `ops`. -/
def Allowed (ops : List (HeapOp B)) : HeapOp B → Prop
  | .alloc b => ¬ Live ops b
  | .free b => Live ops b
  | .use bs => ∀ b ∈ bs, Live ops b

/-- Each operation may be done after those before it. -/
def Safe (ops : List (HeapOp B)) : Prop :=
  ∀ before op after, ops = before ++ op :: after → Allowed before op

/-! ## One more operation -/

theorem not_live_nil : ¬ Live ([] : List (HeapOp B)) b := fun ⟨_, _, h, _⟩ => by simp at h

theorem live_snoc : Live (ops ++ [op]) b ↔ op = .alloc b ∨ Live ops b ∧ op ≠ .free b := by
  constructor
  · rintro ⟨before, after, h, hfree⟩
    rcases List.eq_nil_or_concat after with rfl | ⟨after, op', rfl⟩
    · exact .inl (List.singleton_inj.mp (List.append_inj' h rfl).2)
    · rw [List.concat_eq_append, ← List.cons_append, ← List.append_assoc] at h
      obtain ⟨rfl, hop⟩ := List.append_inj' h rfl
      obtain rfl := List.singleton_inj.mp hop
      rw [List.concat_eq_append, List.mem_append, List.mem_singleton, not_or] at hfree
      exact .inr ⟨⟨before, after, rfl, hfree.1⟩, fun he => hfree.2 he.symm⟩
  · rintro (rfl | ⟨⟨before, after, rfl, hfree⟩, hop⟩)
    · exact ⟨ops, [], rfl, List.not_mem_nil⟩
    · refine ⟨before, after ++ [op], by simp, fun hmem => ?_⟩
      rcases List.mem_append.mp hmem with hmem | hmem
      · exact hfree hmem
      · exact hop (List.mem_singleton.mp hmem).symm

theorem live_alloc {b' : B} : Live (ops ++ [.alloc b']) b ↔ b = b' ∨ Live ops b := by
  rw [live_snoc, HeapOp.alloc.injEq, eq_comm]
  exact or_congr_right (and_iff_left (by simp))

theorem live_free {b' : B} : Live (ops ++ [.free b']) b ↔ Live ops b ∧ b ≠ b' := by
  rw [live_snoc, ne_eq, HeapOp.free.injEq, @eq_comm _ b']
  exact ⟨fun h => h.resolve_left (by simp), .inr⟩

theorem live_use : Live (ops ++ [.use bs]) b ↔ Live ops b := by
  rw [live_snoc]
  exact ⟨fun h => (h.resolve_left (by simp)).1, fun h => .inr ⟨h, by simp⟩⟩

theorem safe_nil : Safe ([] : List (HeapOp B)) := fun _ _ _ h => by simp at h

theorem safe_snoc : Safe (ops ++ [op]) ↔ Safe ops ∧ Allowed ops op := by
  constructor
  · refine fun h => ⟨fun before op' after he => h before op' (after ++ [op]) ?_, h ops op [] rfl⟩
    rw [he, List.append_assoc, List.cons_append]
  · rintro ⟨h, hop⟩ before op' after he
    rcases snoc_eq_append_cons he with ⟨rfl, rfl⟩ | ⟨after, rfl⟩
    · exact hop
    · exact h before op' after rfl

end HeapOp

end Framework
