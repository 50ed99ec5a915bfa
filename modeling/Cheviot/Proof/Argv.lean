import Cheviot.Framework.Frame
import Cheviot.Spec.Ttys

/-!
# `construct_argv`

`constructArgv_exact`: the array that is allocated for a command line has just room
for the words of any command line of that length, and for the NULL after them
(`length_solid_le`); so every store is inside it, and it is these words that are
stored.
-/

namespace Cheviot.Proof

open Framework Cheviot.Sysinit Cheviot.Spec

variable {n : Nat} {g : Globals} {s tok rest : Str}

/-! ## `strtok` -/

theorem words_of_strtok_none (h : strtok s = none) : words s = [] := by
  unfold strtok at h
  rw [words, solid_eq]
  split at h
  · rename_i e
    rw [e]
  · cases h

/-- `strtok` returns the next word, and leaves the others. -/
theorem words_of_strtok_some (h : strtok s = some (tok, rest)) :
    words s = tok :: words rest ∧ rest.length < s.length := by
  have hle := List.length_dropWhile_le isSeparator s
  unfold strtok at h
  rw [words, solid_eq]
  split at h
  · cases h
  · rename_i c cs e
    obtain ⟨rfl, rfl⟩ := Prod.mk.inj (Option.some.inj h)
    rw [e] at hle ⊢
    refine ⟨rfl, ?_⟩
    have := List.length_dropWhile_le (!isSeparator ·) (c :: cs)
    rw [List.length_tail]
    rw [List.length_cons] at hle this
    omega

theorem words_append (s s' : Str) : words (s ++ [' '] ++ s') = words s ++ words s' := by
  rw [List.append_assoc]
  exact solid_append_sep rfl s s'

/-! ## The loop -/

/-- A round of the loop: what has been stored, and what `strtok` has left. -/
def argvRound (n : Nat) (x : List Str × Str) : Sys (Proc.Round (List Str × Str) (List Str)) :=
  if x.1.length < n then
    match strtok x.2 with
    | none => pure (.done x.1)
    | some (tok, rest) => pure (.again (x.1 ++ [tok], rest))
  else Proc.fault

/-- The loop over the words left of a command line, with room for them in the array. -/
theorem argvLoop_eq : ∀ (k : Nat) (ws : List Str) (rest : Str), ws.length + (words rest).length < n →
    rest.length < k → Proc.iter (argvRound n) k (ws, rest) g = .ret (.ok (ws ++ words rest), g)
  | 0, _, _, _, hk => absurd hk (Nat.not_lt_zero _)
  | k + 1, ws, rest, hn, hk => by
    rw [Proc.iter, argvRound, if_pos (Nat.lt_of_le_of_lt (Nat.le_add_right ..) hn)]
    dsimp only
    cases hword : strtok rest with
    | none =>
      rw [words_of_strtok_none hword, List.append_nil]
      rfl
    | some x =>
      obtain ⟨tok, rest'⟩ := x
      obtain ⟨hwords, hlt⟩ := words_of_strtok_some hword
      rw [hwords, List.length_cons] at hn
      have hnext := argvLoop_eq k (ws ++ [tok]) rest'
        (by rw [List.length_append, List.length_singleton]; omega) (by omega)
      rw [hwords, List.append_cons]
      exact hnext

/-- `storeWords` makes the stores of the loop: it has no result where the loop has none, and else leaves
in the array the words that the loop adds, a NULL after them, and the rest as it was. -/
theorem argvLoop_stores (k : Nat) (ws : List Str) (rest : Str) (argv : Vector (Option Str) n) :
    (storeWords k rest ws.length argv = none ∧ ∀ r, Proc.iter (argvRound n) k (ws, rest) g ≠ .ret (.ok r, g)) ∨
    ∃ added argv', storeWords k rest ws.length argv = some argv' ∧
      Proc.iter (argvRound n) k (ws, rest) g = .ret (.ok (ws ++ added), g) ∧
      argv'.toList = argv.toList.take ws.length ++ added.map some ++
        none :: argv.toList.drop (ws.length + added.length + 1) := by
  induction k generalizing ws rest argv with
  | zero => exact .inl ⟨rfl, fun r h => by cases h⟩
  | succ k ih =>
    rw [Proc.iter, argvRound, storeWords]
    by_cases hlt : ws.length < n
    · have hlen : ws.length < argv.toList.length := by rwa [Vector.length_toList]
      rw [if_pos hlt, dif_pos hlt]
      dsimp only
      cases hword : strtok rest with
      | none =>
        refine .inr ⟨[], _, rfl, by rw [List.append_nil]; rfl, ?_⟩
        rw [Vector.toList_set, set_eq_fill hlen]
        rfl
      | some x =>
        obtain ⟨tok, rest'⟩ := x
        have hnext := ih (ws ++ [tok]) rest' (argv.set ws.length (some tok) hlt)
        rw [List.length_append, List.length_singleton] at hnext
        rcases hnext with ⟨hnone, hfail⟩ | ⟨added, argv', hstores, hloop, hlist⟩
        · exact .inl ⟨hnone, hfail⟩
        · refine .inr ⟨tok :: added, argv', hstores, ?_, ?_⟩
          · rw [List.append_cons]
            exact hloop
          · rw [hlist, Vector.toList_set, set_fill hlen]
            rfl
    · rw [if_neg hlt, dif_neg hlt]
      exact .inl ⟨rfl, fun r h => by cases h⟩

/-! ## The whole -/

/-- The number of entries `construct_argv` allocates. -/
def argvSize (command : Str) : Nat := (command.length + 1) / 2 + 1

/-- The words of a command line and a NULL fit its array. -/
theorem length_words_lt (command : Str) : (words command).length < argvSize command := by
  have h : 2 * (words command).length ≤ command.length + 1 := length_solid_le command
  rw [argvSize]
  omega

theorem constructArgv_eq (id : Nat) (command : Str) (g : Globals) : constructArgv id command g =
    .call (.malloc (.argv id) (.pointers (argvSize command))) fun r =>
      if r.1 = none then .ret (.ok none, { g with errno := r.2 })
      else if words command = [] then
        .call (.free (.argv id)) fun r' => .ret (.ok none, { g with errno := r'.2 })
      else .ret (.ok (some (words command)), { g with errno := r.2 }) := by
  dsimp only [constructArgv]
  rw [Proc.bind_apply, syscall_apply, Prog.call_bind]
  refine congrArg (Prog.call _) (funext fun r => ?_)
  obtain ⟨v, e⟩ := r
  rw [Prog.ret_bind, Proc.next_ok]
  cases v with
  | none => rfl
  | some v =>
    refine Eq.trans ?_ (if_neg (Option.some_ne_none v)).symm
    dsimp only
    cases hword : strtok command with
    | none =>
      rw [if_pos (words_of_strtok_none hword)]
      rfl
    | some x =>
      obtain ⟨tok, rest⟩ := x
      obtain ⟨hwords, hlt⟩ := words_of_strtok_some hword
      have hfit := length_words_lt command
      rw [hwords, List.length_cons, Nat.add_comm] at hfit
      dsimp only
      rw [if_neg (by rw [hwords]; exact List.cons_ne_nil _ _), Proc.bind_apply, hwords]
      exact congrArg (Prog.bind · _) (argvLoop_eq (command.length + 1) [tok] rest hfit (Nat.lt_succ_of_lt hlt))

/-- Whatever the answers, `construct_argv` returns. -/
theorem constructArgv_total (id : Nat) (command : Str) : Proc.Total (constructArgv id command) := by
  intro g t o g' h
  rw [constructArgv_eq] at h
  obtain ⟨r, t₁, rfl, h₁⟩ := Prog.runs_call.mp h
  split at h₁
  · obtain ⟨-, hx⟩ := Prog.runs_ret.mp h₁
    cases hx
    exact ⟨_, rfl⟩
  · split at h₁
    · obtain ⟨r', t₂, rfl, h₂⟩ := Prog.runs_call.mp h₁
      obtain ⟨-, hx⟩ := Prog.runs_ret.mp h₂
      cases hx
      exact ⟨_, rfl⟩
    · obtain ⟨-, hx⟩ := Prog.runs_ret.mp h₁
      cases hx
      exact ⟨_, rfl⟩

/-- `construct_argv` stores inside the array that it allocates only. It returns NULL
exactly if that cannot be allocated or the command line consists of spaces and
tabs; otherwise the array holds the words of the command line, in order, and a NULL
after them. The command line of a session has the words of its getty and then those of
its name. -/
theorem constructArgv_exact (id : Nat) (command : Str) (g : Globals) :
    (constructArgv id command g =
      .call (.malloc (.argv id) (.pointers (argvSize command))) fun r =>
        if r.1 = none then .ret (.ok none, { g with errno := r.2 })
        else if command.all isSeparator then
          .call (.free (.argv id)) fun r' => .ret (.ok none, { g with errno := r'.2 })
        else .ret (.ok (some (words command)), { g with errno := r.2 })) ∧
    (∀ argv : Vector (Option Str) (argvSize command), ∃ argv',
      storeWords (command.length + 1) command 0 argv = some argv' ∧
      argv'.toList = (words command).map some ++
        none :: argv.toList.drop ((words command).length + 1)) ∧
    ∀ getty name, words (getty ++ [' '] ++ name) = words getty ++ words name := by
  refine ⟨?_, fun argv => ?_, fun getty name => ?_⟩
  · rw [constructArgv_eq]
    simp only [words, solid_eq_nil, List.all_eq_true]
  · have hloop := argvLoop_eq (g := g) (command.length + 1) [] command
      (by rw [List.length_nil, Nat.zero_add]; exact length_words_lt command) (Nat.lt_succ_self _)
    rcases argvLoop_stores (g := g) (command.length + 1) [] command argv with
      ⟨-, hfail⟩ | ⟨added, argv', hstores, hadded, hlist⟩
    · exact absurd hloop (hfail _)
    · rw [hloop] at hadded
      obtain rfl : words command = added := by
        injection hadded with hadded
        exact Out.ok.inj (Prod.mk.inj hadded).1
      rw [List.length_nil, List.take_zero, List.nil_append, Nat.zero_add] at hlist
      exact ⟨argv', hstores, hlist⟩
  · exact words_append getty name

end Cheviot.Proof
