import Mathlib.Logic.Function.Basic
import Cheviot.Framework.Prog

/-!
# Descriptors and the terminal of a process

The open descriptors of a process and its controlling terminal (`Files`), and what a call does with
them (`Files.Step`): a descriptor that a call returns was not in use, `dup2` makes its target the
file of its source or fails and changes nothing, and a process that has no terminal takes that of a
descriptor. What each call changes is a lemma (`step_open` to `step_setTty`), so that a run of calls
(`Files.Run`), of which `view` says what they ask, is followed one descriptor at a time.
-/

namespace Framework

/-- The file of each descriptor that is open, and the controlling terminal. -/
structure Files (F : Type) where
  fds : Int → Option F
  tty : Option F

/-- What a call asks about descriptors, with its answer. -/
inductive FileCall (F : Type) where
  | open (f : F) (fd : Int)
  | dupFrom (fd min fd' : Int)
  | dup2 (fd n r : Int)
  | close (fd : Int)
  | setsid (r : Int)
  | setTty (fd r : Int)
  | other

variable {F E : Type}

namespace Files

/-- What a call does. A call that returns -1 has failed. -/
inductive Step : Files F → FileCall F → Files F → Prop where
  | opened {x : Files F} {f : F} {fd : Int} {tty : Option F} : 0 ≤ fd → x.fds fd = none →
      tty = x.tty ∨ tty = some f → Step x (.open f fd) ⟨Function.update x.fds fd (some f), tty⟩
  | notOpened {x : Files F} {f : F} : Step x (.open f (-1)) x
  | duplicated {x : Files F} {f : F} {fd min fd' : Int} : x.fds fd = some f → min ≤ fd' → 0 ≤ fd' →
      x.fds fd' = none → Step x (.dupFrom fd min fd') { x with fds := Function.update x.fds fd' (some f) }
  | notDuplicated {x : Files F} {fd min : Int} : Step x (.dupFrom fd min (-1)) x
  | replaced {x : Files F} {f : F} {fd n : Int} : x.fds fd = some f → 0 ≤ n →
      Step x (.dup2 fd n n) { x with fds := Function.update x.fds n (some f) }
  | notReplaced {x : Files F} {fd n : Int} : Step x (.dup2 fd n (-1)) x
  | closed {x : Files F} {fd : Int} : Step x (.close fd) { x with fds := Function.update x.fds fd none }
  | session {x : Files F} {r : Int} : 0 ≤ r → Step x (.setsid r) { x with tty := none }
  | noSession {x : Files F} : Step x (.setsid (-1)) x
  | attached {x : Files F} {f : F} {fd r : Int} : x.fds fd = some f → 0 ≤ r →
      Step x (.setTty fd r) { x with tty := some f }
  | notAttached {x : Files F} {fd : Int} : Step x (.setTty fd (-1)) x
  | other {x : Files F} : Step x .other x

variable {x y z : Files F} {f : F} {fd min fd' n r m : Int}

/-! ## What each call changes -/

theorem step_open (h : Step x (.open f fd) y) (hfd : fd ≠ -1) :
    x.fds fd = none ∧ ∀ m, y.fds m = if m = fd then some f else x.fds m := by
  cases h with
  | opened _ hfree _ => exact ⟨hfree, fun m => Function.update_apply ..⟩
  | notOpened => exact absurd rfl hfd

theorem step_dupFrom (h : Step x (.dupFrom fd min fd') y) (hfd : fd' ≠ -1) :
    min ≤ fd' ∧ x.fds fd' = none ∧ y.tty = x.tty ∧
      ∀ m, y.fds m = if m = fd' then x.fds fd else x.fds m := by
  cases h with
  | duplicated hf hmin _ hfree =>
    refine ⟨hmin, hfree, rfl, fun m => ?_⟩
    rw [hf]
    exact Function.update_apply ..
  | notDuplicated => exact absurd rfl hfd

theorem step_dup2 (h : Step x (.dup2 fd n r) y) (hn : 0 ≤ n) : y.tty = x.tty ∧
    ∀ m, y.fds m = if r = n ∧ m = n then x.fds fd else x.fds m := by
  cases h with
  | replaced hf _ =>
    refine ⟨rfl, fun m => ?_⟩
    simp only [true_and, hf]
    exact Function.update_apply ..
  | notReplaced => exact ⟨rfl, fun m => (if_neg (by omega)).symm⟩

theorem step_close (h : Step x (.close fd) y) : y.tty = x.tty ∧
    ∀ m, y.fds m = if m = fd then none else x.fds m := by
  cases h with
  | closed => exact ⟨rfl, fun m => Function.update_apply ..⟩

theorem step_setsid (h : Step x (.setsid r) y) : y.fds = x.fds := by
  cases h <;> rfl

theorem step_setTty (h : Step x (.setTty fd r) y) : y.fds = x.fds ∧ (r ≠ -1 → y.tty = x.fds fd) := by
  cases h with
  | attached hf _ => exact ⟨rfl, fun _ => hf.symm⟩
  | notAttached => exact ⟨rfl, fun hr => absurd rfl hr⟩

/-! ## Runs -/

/-- The calls `t` make `y` of `x`. -/
inductive Run (view : E → FileCall F) : Files F → List E → Files F → Prop where
  | nil {x : Files F} : Run view x [] x
  | cons {x y z : Files F} {e : E} {t : List E} : Step x (view e) y → Run view y t z →
      Run view x (e :: t) z

variable {view : E → FileCall F}

theorem run_nil (h : Run view x [] y) : y = x := by
  cases h
  rfl

theorem run_cons {e : E} {t : List E} (h : Run view x (e :: t) z) :
    ∃ y, Step x (view e) y ∧ Run view y t z := by
  cases h with
  | cons hstep hrun => exact ⟨_, hstep, hrun⟩

theorem run_append {t t' : List E} (h : Run view x (t ++ t') z) : ∃ y, Run view x t y ∧ Run view y t' z := by
  induction t generalizing x with
  | nil => exact ⟨x, .nil, h⟩
  | cons e t ih =>
    obtain ⟨x', hstep, hrun⟩ := run_cons h
    obtain ⟨y, hxy, hyz⟩ := ih hrun
    exact ⟨y, .cons hstep hxy, hyz⟩

/-- Calls that are about something else change nothing. -/
theorem run_other {t : List E} (h : Run view x t y) (ht : ∀ e ∈ t, view e = .other) : y = x := by
  induction t generalizing x with
  | nil => exact run_nil h
  | cons e t ih =>
    obtain ⟨x', hstep, hrun⟩ := run_cons h
    rw [ht e List.mem_cons_self] at hstep
    cases hstep
    exact ih hrun fun e' he' => ht e' (List.mem_cons_of_mem _ he')

end Files

end Framework
