import Cheviot.Proof.Commands

/-!
# `process_bootstrap_script` runs its script

`processBootstrapScript_ok`: on a script whose lines fit `linebuf`, the code
makes the calls of the interpreter of `Spec.Script` whose bare `waitfor` ends
the process, whatever the answers and whatever is left in `linebuf`,
`start_argv` and the tokenizer's cursor. The interpreter is a fold over the
lines, so that what holds of scripts follows on their lines
(`interpretLines_append`, `interpretLines_filter`, `interpretLines_bare`).
-/

namespace Cheviot.Proof

open Framework Cheviot.Sysinit Cheviot.Spec

variable {g : Globals} {p : Ports} {fuel : Nat}

/-! ## The loop over the lines -/

/-- The port and the queue. -/
structure SamePorts (g : Globals) (p : Ports) : Prop where
  portid_eq : g.portid = p.portid
  kq_eq : g.kq = p.kq

/-- The script left, the port and the queue. -/
structure Reads (s : Str) (g : Globals) (p : Ports) : Prop extends SamePorts g p where
  srcAt : SrcAt g s

/-- A line of the script, which leaves what follows it. -/
theorem processLine_ok (fuel : Nat) {s : Str} (h : Reads s g p) (hs : s ≠ [])
    (hfit : (s.takeWhile (!isEol ·)).length ≤ 255) :
    Prog.Rel (Proc.Ends (Reads (s.dropWhile (!isEol ·)).tail) fun r _ => r = .again ())
      (processLine fuel g)
      (runTokens fuel (Proc.exit (-1)) (tokens (s.takeWhile (!isEol ·))) p) := by
  obtain ⟨g₁, e₁, hline, hrest, hsame⟩ := sReadline_ok h.srcAt hs hfit
  generalize s.takeWhile (!isEol ·) = line at *
  generalize (s.dropWhile (!isEol ·)).tail = rest at *
  have hA₁ : Agree g₁.src g₁ p :=
    ⟨rfl, hsame.portid.trans h.portid_eq, hsame.kq.trans h.kq_eq⟩
  have hreads : ∀ {g p}, Agree g₁.src g p → Reads rest g p := fun hA =>
    ⟨⟨hA.portid_eq, hA.kq_eq⟩, by rw [SrcAt, hA.src_eq]; exact hrest⟩
  have htok := sTokenize_ok (some 0) rfl hline
  simp only [processLine, Proc.bind_apply, e₁, Prog.ret_bind, Proc.next_ok]
  cases ht : tokens line with
  | nil =>
    rw [ht] at htok
    obtain ⟨g₂, e₂, -, hT⟩ := htok
    simp only [e₂, Prog.ret_bind, Proc.next_ok, Proc.bind_apply, Proc.get_apply, Proc.pure_apply,
      runTokens, skip_apply]
    exact .ret ⟨rfl, hreads (hT.agree hA₁)⟩
  | cons cmd ops =>
    rw [ht] at htok
    obtain ⟨q, g₂, e₂, hleft, hcmd, hT⟩ := htok
    have hA₂ := hT.agree hA₁
    simp only [e₂, Prog.ret_bind, Proc.next_ok, Proc.bind_apply, Proc.get_apply, Proc.ite_apply,
      Proc.pure_apply, hcmd.cstr_eq, runTokens]
    by_cases h₀ : cmd = []
    · simp only [h₀, if_true, true_or, skip_apply]
      exact .ret ⟨rfl, hreads hA₂⟩
    by_cases h₁ : cmd.head? = some '#'
    · simp only [h₀, h₁, if_true, if_false, or_true, skip_apply]
      exact .ret ⟨rfl, hreads hA₂⟩
    simp only [h₀, h₁, if_false, or_self]
    rw [← Prog.bind_ret (command fuel (Proc.exit (-1)) cmd ops p)]
    refine (dispatch_ok cmd hA₂ hleft).bind fun x y ⟨ho, hA⟩ => ?_
    obtain ⟨o, g₃⟩ := x
    obtain ⟨o', p₃⟩ := y
    cases o <;> cases o' <;> first
      | exact ho.elim
      | exact .ret ⟨rfl, hreads hA⟩
      | exact .ret ⟨ho, hreads hA⟩

theorem lines_eq {s : Str} (hs : s ≠ []) :
    lines s = s.takeWhile (!isEol ·) :: lines (s.dropWhile (!isEol ·)).tail := pieces_eq hs

theorem interpret_nil {bare : Effect} : interpret fuel bare [] = skip := rfl

theorem interpret_cons {bare : Effect} {s s' l : Str} (h : lines s = l :: lines s') :
    interpret fuel bare s = (do runTokens fuel bare (tokens l); interpret fuel bare s') := by
  rw [interpret, h]
  rfl

/-- The rest of the script, from the line the cursor is at. -/
theorem processLines_ok (fuel n : Nat) {s : Str} (h : Reads s g p) (hn : s.length < n)
    (hfit : LinesFit s) :
    Prog.Rel (Proc.Ends SamePorts fun _ _ => True) (Proc.iter (fun _ => processLine fuel) n () g)
      (interpret fuel (Proc.exit (-1)) s p) := by
  induction n generalizing s g p with
  | zero => exact absurd hn (Nat.not_lt_zero _)
  | succ n ih =>
    rw [Proc.iter, Proc.bind_apply]
    by_cases hs : s = []
    · subst hs
      obtain ⟨g', e, hsame⟩ := sReadline_end h.srcAt
      simp only [processLine, Proc.bind_apply, e, Prog.ret_bind, Proc.next_ok, Proc.pure_apply,
        interpret_nil, skip_apply]
      exact .ret ⟨trivial, hsame.portid.trans h.portid_eq, hsame.kq.trans h.kq_eq⟩
    · have hlines := lines_eq hs
      have hlen : (s.dropWhile (!isEol ·)).tail.length < n := by
        have := List.length_dropWhile_le (!isEol ·) s
        have := List.length_pos_iff.mpr hs
        rw [List.length_tail]
        omega
      have hfit' : LinesFit (s.dropWhile (!isEol ·)).tail := fun l hl =>
        hfit l (by rw [hlines]; exact List.mem_cons_of_mem _ hl)
      rw [interpret_cons hlines, Proc.bind_apply]
      refine (processLine_ok fuel h hs (hfit _ (by rw [hlines]; exact List.mem_cons_self))).bind
        fun x y hE => Proc.rel_next hE (fun _ _ h => h.toSamePorts) fun r _ g' p' hr h' => ?_
      rw [hr]
      exact ih h' hlen hfit'

/-- On a script whose lines fit `linebuf`, with the NUL that ends it, the code
makes the calls of the interpreter and, if it returns, returns 0. -/
theorem processBootstrapScript_ok (fuel : Nat) {script : Str} (r : Str) (hnul : NUL ∉ script)
    (hfit : LinesFit script) (h : SamePorts g p) :
    Prog.Rel (Proc.Ends SamePorts fun sc _ => sc = 0)
      (processBootstrapScript fuel (some (script ++ NUL :: r)) g)
      (interpret fuel (Proc.exit (-1)) script p) := by
  have hreads : Reads script { g with src := ⟨script ++ NUL :: r, 0⟩ } p :=
    ⟨⟨h.portid_eq, h.kq_eq⟩, r, rfl, hnul⟩
  have hloop := processLines_ok fuel ((script ++ NUL :: r).length + 1) hreads
    (by simp only [List.length_append, List.length_cons]; omega) hfit
  rw [← Prog.bind_ret (interpret fuel _ script p)]
  simp only [processBootstrapScript, Proc.bind_apply, Proc.modify_apply, Prog.ret_bind,
    Proc.next_ok]
  refine hloop.bind fun x y ⟨ho, hR⟩ => ?_
  obtain ⟨o, g'⟩ := x
  obtain ⟨o', p'⟩ := y
  cases o <;> cases o' <;> first | exact ho.elim | exact .ret ⟨rfl, hR⟩ | exact .ret ⟨ho, hR⟩

/-- A completed run of the interpreter is a run of the code. -/
theorem processBootstrapScript_runs (fuel : Nat) {script : Str} (r : Str) (hnul : NUL ∉ script)
    (hfit : LinesFit script) (h : SamePorts g p) {t : List (Event sys)} {p' : Ports}
    (hrun : (interpret fuel (Proc.exit (-1)) script p).Runs t (.ok (), p')) :
    ∃ g', (processBootstrapScript fuel (some (script ++ NUL :: r)) g).Runs t (.ok 0, g') ∧
      SamePorts g' p' := by
  obtain ⟨⟨o, g'⟩, hcode, ho, hR⟩ := (processBootstrapScript_ok fuel r hnul hfit h).symm.runs hrun
  cases o with
  | ok sc =>
    obtain rfl : sc = 0 := ho
    exact ⟨g', hcode, hR⟩
  | _ => exact ho.elim

/-! ## The interpreter -/

section

variable {bare bare' : Effect} {ls ls' : List Str}

theorem interpretLines_cons {l : Str} : interpretLines fuel bare (l :: ls) =
    (do runTokens fuel bare (tokens l); interpretLines fuel bare ls) := rfl

theorem interpretLines_append : interpretLines fuel bare (ls ++ ls') =
    (do interpretLines fuel bare ls; interpretLines fuel bare ls') := by
  simp only [interpretLines, List.forM_eq_forM, List.forM_append]

theorem runTokens_idle {l : Str} (h : IsIdle l) : runTokens fuel bare (tokens l) = skip := by
  unfold IsIdle at h
  split at h
  · rename_i e; rw [e]; rfl
  · rename_i e; rw [e, runTokens, if_pos h]

/-- Idle lines make no difference. -/
theorem interpretLines_filter :
    interpretLines fuel bare (ls.filter (¬ IsIdle ·)) = interpretLines fuel bare ls := by
  induction ls with
  | nil => rfl
  | cons l ls ih =>
    by_cases h : IsIdle l
    · rw [List.filter_cons_of_neg (by simpa using h), ih, interpretLines_cons, runTokens_idle h]
      exact (pure_bind () fun _ => interpretLines fuel bare ls).symm
    · rw [List.filter_cons_of_pos (by simpa using h), interpretLines_cons, ih, interpretLines_cons]

/-- Only a bare `waitfor` depends on what a bare `waitfor` does. -/
theorem runTokens_congr {ts : List Str} (h : ts ≠ ["waitfor".toList]) :
    runTokens fuel bare ts = runTokens fuel bare' ts := by
  match ts with
  | [] => rfl
  | [cmd] =>
    have : cmd ≠ "waitfor".toList := fun e => h (by rw [e])
    simp only [runTokens, command, if_neg this]
  | cmd :: op :: ops => rfl

theorem interpretLines_congr (h : ∀ l ∈ ls, ¬ IsBareWaitfor l) :
    interpretLines fuel bare ls = interpretLines fuel bare' ls := by
  induction ls with
  | nil => rfl
  | cons l ls ih =>
    rw [interpretLines_cons, interpretLines_cons, runTokens_congr (h l List.mem_cons_self),
      ih fun l hl => h l (List.mem_cons_of_mem _ hl)]

theorem runTokens_bare {l : Str} (h : IsBareWaitfor l) : runTokens fuel bare (tokens l) = bare := by
  rw [h]
  rfl

/-- Lines with a bare `waitfor` that exits never come to their end. -/
theorem interpretLines_bare {code : Int} {l : Str} (hl : l ∈ ls) (h : IsBareWaitfor l)
    {p p' : Ports} {t : List (Event sys)} :
    ¬ (interpretLines fuel (Proc.exit code) ls p).Runs t (.ok (), p') := by
  induction ls generalizing p t with
  | nil => cases hl
  | cons l' ls ih =>
    rw [interpretLines_cons, Proc.runs_bind_ok]
    rintro ⟨t₁, t₂, u, p₁, -, h₁, h₂⟩
    rcases List.mem_cons.mp hl with rfl | hl
    · rw [runTokens_bare h, Proc.exit_apply, Prog.runs_ret] at h₁
      simp at h₁
    · exact ih hl h₂

end

/-- The code never comes to the end of a script with a bare `waitfor`. -/
theorem processBootstrapScript_bare (fuel : Nat) {script l : Str} (r : Str) (hnul : NUL ∉ script)
    (hfit : LinesFit script) (hl : l ∈ lines script) (hbare : IsBareWaitfor l)
    {t : List (Event sys)} {sc : Int} {g' : Globals} :
    ¬ (processBootstrapScript fuel (some (script ++ NUL :: r)) g).Runs t (.ok sc, g') := by
  intro hrun
  obtain ⟨⟨o, p⟩, hrun', ho, -⟩ := (processBootstrapScript_ok (p := ⟨g.portid, g.kq⟩) fuel r hnul hfit
    ⟨rfl, rfl⟩).runs hrun
  cases o with
  | ok u => exact interpretLines_bare hl hbare hrun'
  | _ => exact ho.elim

theorem runTokens_malformed {bare : Effect} {ts : List Str} (h : IsMalformed ts)
    (hbare : ts ≠ ["waitfor".toList]) : runTokens fuel bare ts = skip := by
  match ts with
  | [] => exact h.elim
  | cmd :: ops =>
    simp only [IsMalformed, List.mem_cons, List.not_mem_nil, or_false] at h
    rcases h with ⟨rfl | rfl | rfl | rfl, rfl⟩ | ⟨rfl | rfl, hops⟩ | ⟨rfl, hops⟩
    · rfl
    · exact absurd rfl hbare
    · rfl
    · rfl
    · match ops, hops with
      | [], _ | [_], _ => rfl
    · match ops, hops with
      | [], _ | [_], _ => rfl
    · match ops with
      | [] | [_] | [_, _] => rfl
      | path :: mode :: type :: more =>
        obtain ⟨hc, hb⟩ : type.head? ≠ some 'c' ∧ type.head? ≠ some 'b' := by
          rcases hops with hops | ⟨type', htype, h⟩
          · simp only [List.length_cons] at hops
            omega
          · obtain rfl : type = type' := by simpa using htype
            exact h
        have hmode : nodeMode mode type = none := by rw [nodeMode, if_neg hc, if_neg hb]
        rw [runTokens, if_neg (by decide), command, if_neg (by decide), if_neg (by decide), if_pos rfl]
        dsimp only
        rw [hmode]

end Cheviot.Proof
