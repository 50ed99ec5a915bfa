import Cheviot.Proof.Argv
import Cheviot.Proof.Collect

/-!
# The allocation of a session

The runs of `construct_argv`, `setupargv` and `alloc_session` (`ArgvRun`,
`SetupRun`, `AllocRun`), one for each point at which they can fail.
`allocSession_keeps`: a failed `alloc_session` empties the table, where it fails
in `setupargv`.
-/

namespace Cheviot.Proof

open Framework Cheviot.Sysinit Cheviot.Spec

variable {g g' : Globals} {l l' : SessionTable} {sp : Session} {typ : Ttyent} {t : List (Event sys)}

/-! ## `construct_argv` -/

/-- The runs of `construct_argv` that return. -/
inductive ArgvRun (id : Nat) (command : Str) : List (Event sys) → Option (List Str) → Prop where
  | noBlock (n : Size) (e : Int) : ArgvRun id command [⟨.malloc (.argv id) n, (none, e)⟩] none
  | noWord (n : Size) (v : Vector Char n.length) (e e' : Int) : strtok command = none →
      ArgvRun id command [⟨.malloc (.argv id) n, (some v, e)⟩, ⟨.free (.argv id), ((), e')⟩] none
  | words (n : Size) (v : Vector Char n.length) (e : Int) : strtok command ≠ none →
      ArgvRun id command [⟨.malloc (.argv id) n, (some v, e)⟩] (some (words command))

theorem constructArgv_cases {id : Nat} {command : Str} {r : Option (List Str)}
    (h : (constructArgv id command g).Runs t (.ok r, g')) :
    ArgvRun id command t r ∧ g'.sessionList = g.sessionList := by
  rw [constructArgv_eq] at h
  obtain ⟨⟨v, e⟩, t₁, rfl, h₁⟩ := Prog.runs_call.mp h
  cases v with
  | none =>
    obtain ⟨rfl, hx⟩ := Prog.runs_ret.mp h₁
    cases hx
    exact ⟨.noBlock _ e, rfl⟩
  | some v =>
    rw [if_neg (Option.some_ne_none v)] at h₁
    cases hword : strtok command with
    | none =>
      rw [if_pos (words_of_strtok_none hword)] at h₁
      obtain ⟨⟨_, e'⟩, t₂, rfl, h₂⟩ := Prog.runs_call.mp h₁
      obtain ⟨rfl, hx⟩ := Prog.runs_ret.mp h₂
      cases hx
      exact ⟨.noWord _ v e e' hword, rfl⟩
    | some x =>
      obtain ⟨hwords, -⟩ := words_of_strtok_some hword
      rw [if_neg (by rw [hwords]; exact List.cons_ne_nil _ _)] at h₁
      obtain ⟨rfl, hx⟩ := Prog.runs_ret.mp h₁
      cases hx
      exact ⟨.words _ v e (by rw [hword]; exact nofun), rfl⟩

/-! ## `setupargv` -/

/-- The runs of `setupargv` that return, for a session that has no command line yet:
whether they succeed. -/
inductive SetupRun (id : Nat) (command : Str) : List (Event sys) → Bool → Prop where
  | noLine (e : Int) : SetupRun id command [⟨.asprintf (.getty id) command, (false, e)⟩] false
  | noArgv {t : List (Event sys)} (e e' : Int) : ArgvRun id command t none →
      SetupRun id command (⟨.asprintf (.getty id) command, (true, e)⟩ :: t ++
        [⟨.free (.getty id), ((), e')⟩]) false
  | argv {t : List (Event sys)} {argv : List Str} (e : Int) : ArgvRun id command t (some argv) →
      SetupRun id command (⟨.asprintf (.getty id) command, (true, e)⟩ :: t) true

theorem setupargv_cases (hsp : sp.seGetty = none) {r : Except Session Session}
    (h : (setupargv sp typ g).Runs t (.ok r, g')) : g'.sessionList = g.sessionList ∧
      ((r = .error { sp with seGetty := none } ∧ SetupRun sp.id (commandLine typ) t false) ∨
        (r = .ok { sp with seGetty := some (commandLine typ), seGettyArgv := words (commandLine typ) } ∧
          SetupRun sp.id (commandLine typ) t true)) := by
  dsimp only [setupargv] at h
  rw [hsp, if_neg (by decide), runs_syscall_bind_iff] at h
  obtain ⟨ok, e, t', rfl, h⟩ := h
  cases ok with
  | false =>
    rw [if_neg (by decide)] at h
    obtain ⟨rfl, rfl, rfl⟩ := Proc.runs_pure_ok.mp h
    exact ⟨rfl, .inl ⟨rfl, .noLine e⟩⟩
  | true =>
    rw [if_pos rfl] at h
    obtain ⟨t₁, t₂, argv, g₁, rfl, h₁, h₂⟩ := Proc.runs_bind_ok.mp h
    obtain ⟨hrun, hlist⟩ := constructArgv_cases h₁
    cases argv with
    | none =>
      dsimp only at h₂
      rw [runs_syscall_bind_iff] at h₂
      obtain ⟨_, e', t₂, rfl, h₂⟩ := h₂
      obtain ⟨rfl, rfl, rfl⟩ := Proc.runs_pure_ok.mp h₂
      exact ⟨hlist, .inl ⟨rfl, .noArgv e e' hrun⟩⟩
    | some argv =>
      obtain ⟨rfl, rfl, rfl⟩ := Proc.runs_pure_ok.mp h₂
      rw [List.append_nil]
      have hargv : argv = words (commandLine typ) := by cases hrun; rfl
      exact ⟨hlist, .inr ⟨by rw [hargv]; rfl, .argv e hrun⟩⟩

/-! ## `alloc_session` -/

/-- The runs of `alloc_session` that return, for record `i` and from the table `l`. -/
inductive AllocRun (i : Nat) (typ : Ttyent) (l : SessionTable) :
    List (Event sys) → Option Session → SessionTable → Prop where
  | refused : ¬ isActive typ → AllocRun i typ l [] none l
  | noSession (n : Size) (e : Int) : AllocRun i typ l [⟨.malloc (.session l.fresh) n, (none, e)⟩] none l
  | noDevice (n : Size) (v : Vector Char n.length) (s : Str) (e e' e'' : Int) :
      AllocRun i typ l [⟨.malloc (.session l.fresh) n, (some v, e)⟩,
        ⟨.asprintf (.device l.fresh) s, (false, e')⟩, ⟨.free (.session l.fresh), ((), e'')⟩] none l
  | noArgv (n : Size) (v : Vector Char n.length) (s : Str) (e e' : Int) {sp : Session} {t u : List (Event sys)} :
      isActive typ → sp.id = l.fresh → SetupRun l.fresh (commandLine typ) t false →
      Frees [.device l.fresh, .session l.fresh] u →
      AllocRun i typ l (⟨.malloc (.session l.fresh) n, (some v, e)⟩ ::
        ⟨.asprintf (.device l.fresh) s, (true, e')⟩ :: t ++ u) none (l.remEntry sp)
  | added (n : Size) (v : Vector Char n.length) (s : Str) (e e' : Int) {t : List (Event sys)} :
      isActive typ → SetupRun l.fresh (commandLine typ) t true →
      AllocRun i typ l (⟨.malloc (.session l.fresh) n, (some v, e)⟩ ::
        ⟨.asprintf (.device l.fresh) s, (true, e')⟩ :: t) (some (sessionOf l.fresh i typ))
        (l.addTail (sessionOf l.fresh i typ))

theorem isActive_iff : isActive typ ↔
    ¬ (typ.tyOn = false ∨ typ.tyName = none ∨ typ.tyGetty = none) := by
  simp [isActive, Option.isSome_iff_ne_none, and_assoc]

theorem allocSession_cases {i : Nat} {r : Option Session}
    (h : (allocSession i typ g).Runs t (.ok r, g')) :
    AllocRun i typ g.sessionList t r g'.sessionList := by
  rw [allocSession, Proc.ite_apply] at h
  split at h
  · rename_i hrefused
    obtain ⟨rfl, rfl, rfl⟩ := Proc.runs_pure_ok.mp h
    exact .refused (mt isActive_iff.mp (not_not.mpr hrefused))
  · rename_i hactive
    rw [Proc.runs_get_bind, runs_syscall_bind_iff] at h
    obtain ⟨v, e, t', rfl, h⟩ := h
    cases v with
    | none =>
      obtain ⟨rfl, rfl, rfl⟩ := Proc.runs_pure_ok.mp h
      exact .noSession _ e
    | some v =>
      dsimp only at h
      rw [runs_syscall_bind_iff] at h
      obtain ⟨ok, e', t', rfl, h⟩ := h
      cases ok with
      | false =>
        rw [if_neg (by decide), runs_syscall_bind_iff] at h
        obtain ⟨_, e'', t', rfl, h⟩ := h
        obtain ⟨rfl, rfl, rfl⟩ := Proc.runs_pure_ok.mp h
        exact .noDevice _ v _ e e' e''
      | true =>
        rw [if_pos rfl] at h
        obtain ⟨t₁, t₂, r', g₁, rfl, h₁, h₂⟩ := Proc.runs_bind_ok.mp h
        obtain ⟨hlist, ⟨rfl, hrun⟩ | ⟨rfl, hrun⟩⟩ := setupargv_cases rfl h₁
        · obtain ⟨t₂, t₃, _, g₂, rfl, h₂, h₃⟩ := Proc.runs_bind_ok.mp h₂
          obtain ⟨rfl, rfl, rfl⟩ := Proc.runs_pure_ok.mp h₃
          obtain ⟨hfrees, hx⟩ := freeSession_runs.mp h₂
          cases hx
          rw [List.append_nil]
          dsimp only
          rw [hlist]
          exact .noArgv _ v _ e e' (isActive_iff.mpr hactive) rfl hrun hfrees
        · rw [Proc.runs_modify_bind] at h₂
          obtain ⟨rfl, rfl, rfl⟩ := Proc.runs_pure_ok.mp h₂
          rw [List.append_nil]
          dsimp only
          rw [hlist]
          exact .added _ v _ e e' (isActive_iff.mpr hactive) hrun

theorem setupargv_total (sp : Session) (typ : Ttyent) : Proc.Total (setupargv sp typ) := by
  refine .ite (.bind (syscall_total _) fun _ => .bind (syscall_total _) fun _ => ?_) ?_
  all_goals
    refine .bind (syscall_total _) fun ok => .ite (.bind (constructArgv_total _ _) fun argv => ?_)
      (.pure _)
    cases argv with
    | none => exact .bind (syscall_total _) fun _ => .pure _
    | some argv => exact .pure _

/-- Whatever the answers, `alloc_session` returns. -/
theorem allocSession_total (i : Nat) (typ : Ttyent) : Proc.Total (allocSession i typ) := by
  refine .ite (.pure _) (.bind .get fun g => .bind (syscall_total _) fun sp => ?_)
  cases sp with
  | none => exact .pure _
  | some sp =>
    refine .bind (syscall_total _) fun ok => .ite (.bind (setupargv_total _ _) fun r => ?_)
      (.bind (syscall_total _) fun _ => .pure _)
    cases r with
    | error sp => exact .bind (freeSession_total sp) fun _ => .pure _
    | ok sp => exact .bind (.modify _) fun _ => .pure _

/-! ## What is kept -/

theorem setupFails_nil : ¬ SetupFails typ [] := by
  rintro (⟨e, he, -⟩ | ⟨e, he, -⟩ | ⟨⟨e, he, -⟩, -⟩) <;> cases he

/-- Other calls do not count. -/
theorem setupFails_cons {e : Event sys} (hline : lineFails e = false) (hargv : argvMalloc e = none) :
    SetupFails typ (e :: t) ↔ SetupFails typ t := by
  simp only [SetupFails, List.mem_cons, exists_eq_or_imp, hline, hargv, Bool.false_eq_true,
    reduceCtorEq, false_or]

/-- Where `setupargv` fails, it has freed what it allocated, the last first. -/
theorem setupRun_false {id : Nat} (h : SetupRun id (commandLine typ) t false) :
    freed t = (allocated t).reverse ∧ (allocated t).Sublist [.getty id, .argv id] ∧ SetupFails typ t := by
  cases h with
  | noLine e => exact ⟨rfl, List.nil_sublist _, .inl ⟨_, List.mem_cons_self, rfl⟩⟩
  | noArgv e e' h =>
    cases h with
    | noBlock n e =>
      exact ⟨rfl, .cons_cons _ (List.nil_sublist _),
        .inr (.inl ⟨_, List.mem_cons_of_mem _ List.mem_cons_self, rfl⟩)⟩
    | noWord n v e e' hword =>
      exact ⟨rfl, .refl _,
        .inr (.inr ⟨⟨_, List.mem_cons_of_mem _ List.mem_cons_self, rfl⟩, hword⟩)⟩

theorem setupRun_true {id : Nat} (h : SetupRun id (commandLine typ) t true) : ¬ SetupFails typ t := by
  cases h with
  | argv e h =>
    cases h with
    | words n v e hword => simp [SetupFails, lineFails, argvMalloc, hword]

theorem setupFails_mono {t' : List (Event sys)} (h : SetupFails typ t) (hsub : ∀ e ∈ t, e ∈ t') :
    SetupFails typ t' :=
  h.imp (fun ⟨e, he, hf⟩ => ⟨e, hsub e he, hf⟩)
    (Or.imp (fun ⟨e, he, hf⟩ => ⟨e, hsub e he, hf⟩) fun ⟨⟨e, he, hf⟩, hw⟩ => ⟨⟨e, hsub e he, hf⟩, hw⟩)

/-- A session that is not in the table empties it when it is removed. -/
theorem remEntry_fresh (hid : sp.id = l.fresh) : (l.remEntry sp).entries = [] := by
  rw [SessionTable.remEntry]
  dsimp only
  rw [if_neg]
  intro hmem
  obtain ⟨s, hs, he⟩ := List.mem_map.mp hmem
  exact absurd (l.lt_fresh s hs) (by rw [he, hid]; exact Nat.lt_irrefl _)

theorem addTail_entries (hid : sp.id = l.fresh) : (l.addTail sp).entries = l.entries ++ [sp] := by
  have hsame : ({ sp with id := l.fresh } : Session) = sp := by rw [← hid]
  exact congrArg (l.entries ++ [·]) hsame

theorem Frees.allocated {bs : List Block} (h : Frees bs t) : allocated t = [] :=
  h.induction (P := fun _ t => Spec.allocated t = []) rfl fun _ _ _ _ ih => ih

theorem allocRun_keeps {i : Nat} {r : Option Session} (h : AllocRun i typ l t r l') :
    AllocKeeps l t l' r ↔ l.entries = [] ∨ ¬ SetupFails typ t := by
  cases h with
  | refused _ => exact iff_of_true ⟨rfl, List.nodup_nil, .refl _⟩ (.inr setupFails_nil)
  | noSession n e =>
    refine iff_of_true ⟨rfl, List.nodup_nil, .refl _⟩ (.inr ?_)
    rw [setupFails_cons (by rfl) (by rfl)]
    exact setupFails_nil
  | noDevice n v s e e' e'' =>
    refine iff_of_true ⟨rfl, List.nodup_singleton _, .refl _⟩ (.inr ?_)
    rw [setupFails_cons (by rfl) (by rfl), setupFails_cons (by rfl) (by rfl), setupFails_cons (by rfl) (by rfl)]
    exact setupFails_nil
  | @noArgv n v s e e' sp t u _ hid hrun hfrees =>
    obtain ⟨hfreed, hsub, hfails⟩ := setupRun_false hrun
    have hblocks : allocated (⟨.malloc (.session l.fresh) n, (some v, e)⟩ ::
        ⟨.asprintf (.device l.fresh) s, (true, e')⟩ :: t ++ u) =
        .session l.fresh :: .device l.fresh :: allocated t := by
      rw [allocated, List.filterMap_append, ← allocated, ← allocated, hfrees.allocated, List.append_nil]
      rfl
    have hreverse : freed (⟨.malloc (.session l.fresh) n, (some v, e)⟩ ::
        ⟨.asprintf (.device l.fresh) s, (true, e')⟩ :: t ++ u) =
        (.session l.fresh :: .device l.fresh :: allocated t).reverse := by
      rw [freed_append, hfrees.freed, List.reverse_cons, List.reverse_cons, List.append_assoc, ← hfreed]
      rfl
    have hnodup : (.session l.fresh :: .device l.fresh :: allocated t : List Block).Nodup :=
      .sublist (.cons_cons _ (.cons_cons _ hsub)) (by simp)
    rw [AllocKeeps, remEntry_fresh hid, hblocks, hreverse, or_iff_left (not_not.mpr (setupFails_mono hfails
      fun e he => by simp [he]))]
    exact ⟨fun h => h.1.symm, fun h => ⟨h.symm, hnodup, List.reverse_perm _⟩⟩
  | @added n v s e e' t _ hrun =>
    have hok : ¬ SetupFails typ (⟨.malloc (.session l.fresh) n, (some v, e)⟩ ::
        ⟨.asprintf (.device l.fresh) s, (true, e')⟩ :: t) := by
      rw [setupFails_cons (by rfl) (by rfl), setupFails_cons (by rfl) (by rfl)]
      exact setupRun_true hrun
    exact iff_of_true (addTail_entries rfl) (.inr hok)

/-- `alloc_session` keeps the table, or adds the session that it returns, and frees
each block that is not part of that session once, exactly if the table is empty
or `setupargv` does not fail. -/
theorem allocSession_keeps {i : Nat} {r : Option Session}
    (h : (allocSession i typ g).Runs t (.ok r, g')) :
    AllocKeeps g.sessionList t g'.sessionList r ↔ g.sessionList.entries = [] ∨ ¬ SetupFails typ t :=
  allocRun_keeps (allocSession_cases h)

/-- A line of /etc/ttys. -/
def ttyA : Ttyent := ⟨true, some ['a'], some ['g']⟩

/-- The calls that allocate session `id` for it, up to the one of its argv. -/
def allocA (id : Nat) (argv : Option (Vector Char 0)) : List (Event sys) :=
  [⟨.malloc (.session id) .session, (some (Vector.replicate 0 NUL), 0)⟩,
    ⟨.asprintf (.device id) (PATH_DEV ++ ['a']), (true, 0)⟩,
    ⟨.asprintf (.getty id) ['g', ' ', 'a'], (true, 0)⟩, ⟨.malloc (.argv id) (.pointers 3), (argv, 0)⟩]

/-- The calls of a session whose device path cannot be allocated. -/
def withoutDevice (id : Nat) : List (Event sys) :=
  [⟨.malloc (.session id) .session, (some (Vector.replicate 0 NUL), 0)⟩,
    ⟨.asprintf (.device id) (PATH_DEV ++ ['a']), (false, 12)⟩, ⟨.free (.session id), ((), 12)⟩]

theorem setupFails_ttyA {t : List (Event sys)} (hline : ∀ e ∈ t, ¬ lineFails e)
    (hargv : ∀ e ∈ t, argvMalloc e ≠ some false) : ¬ SetupFails ttyA t := by
  rintro (⟨e, he, hfails⟩ | ⟨e, he, hfails⟩ | ⟨-, hword⟩)
  · exact hline e he hfails
  · exact hargv e he hfails
  · exact absurd hword (by decide)

/-- One session is in the table: another one goes behind it, and stays out where its device path
cannot be allocated. -/
theorem allocSession_keeps_second :
    (∃ r g', (allocSession 1 ttyA oneSession.globals).Runs (allocA 1 (some (Vector.replicate _ NUL)))
        (.ok r, g') ∧ r.isSome ∧ AllocKeeps oneSession.globals.sessionList
          (allocA 1 (some (Vector.replicate _ NUL))) g'.sessionList r) ∧
      ∃ g', (allocSession 1 ttyA oneSession.globals).Runs (withoutDevice 1) (.ok none, g') ∧
        AllocKeeps oneSession.globals.sessionList (withoutDevice 1) g'.sessionList none := by
  have hadded : (allocSession 1 ttyA oneSession.globals).Runs
      (allocA 1 (some (Vector.replicate _ NUL))) (.ok (some _), _) :=
    .cons (.cons (.cons (.cons (.nil _))))
  have hkept : (allocSession 1 ttyA oneSession.globals).Runs (withoutDevice 1) (.ok none, _) :=
    .cons (.cons (.cons (.nil _)))
  refine ⟨⟨_, _, hadded, rfl, (allocSession_keeps hadded).mpr (.inr ?_)⟩,
    _, hkept, (allocSession_keeps hkept).mpr (.inr ?_)⟩
  · exact setupFails_ttyA (by simp [allocA, lineFails]) (by simp [allocA, argvMalloc])
  · exact setupFails_ttyA (by simp [withoutDevice, lineFails]) (by simp [withoutDevice, argvMalloc])

/-- One session is in the table, and the argv of the next one cannot be allocated:
the table is empty afterwards. -/
theorem allocSession_empties : ∃ g', (allocSession 1 ttyA oneSession.globals).Runs
      (allocA 1 none ++ freeing [.getty 1, .device 1, .session 1]) (.ok none, g') ∧
    oneSession.globals.sessionList.entries.length = 1 ∧ g'.sessionList.entries = [] :=
  ⟨_, .cons (.cons (.cons (.cons (.cons (.cons (.cons (.nil _))))))), rfl, rfl⟩

end Cheviot.Proof
