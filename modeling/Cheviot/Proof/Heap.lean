import Cheviot.Proof.Alloc
import Cheviot.Proof.Phases
import Cheviot.Spec.Heap

/-!
# The heap along a run of `main`

Each block that is live is in the session table, a loaded script, or at hand in the function that
runs (`Owns`), unless the setup of a session has failed; each function of the sessions has a rule
that says what it does to the blocks at hand. From the rules:

* `mainLoop_heapSafe`: whatever the answers, no run frees a block twice, and the blocks that a call
  frees, reads its arguments from or stores its result in are live;
* `mainLoop_noLeak`: where `main` enters a state, the blocks that are live are those that the
  globals point to.
-/

namespace Cheviot.Proof

open Framework Cheviot.Sysinit Cheviot.Spec HeapOp

variable {how : List UInt8 → Int} {fuel : Nat} {g g' : Globals} {l l' : SessionTable} {sp : Session}
  {h t : List (Event sys)} {e : Event sys} {L : Str → Prop} {b : Block} {bs : List Block}
  {ops : List (HeapOp Block)} {whole : Prop}

/-! ## What a call does with the heap -/

theorem heapOps_snoc (h : List (Event sys)) (e : Event sys) : heapOps (h ++ [e]) = heapOps h ++ heapOp e := by
  rw [heapOps, List.flatMap_append, List.flatMap_singleton, ← heapOps]

theorem unbroken_snoc : Unbroken (h ++ [e]) ↔ Unbroken h ∧ breaksSetup e = false := by
  rw [Unbroken, List.forall_mem_append, List.forall_mem_singleton, ← Unbroken]

/-- The calls of the scripts' commands, of the messages and of the waits do nothing with it. -/
theorem heapOp_command {c : Call} {r : sys.Ret c} (hc : isCommand c) : heapOp ⟨c, r⟩ = [] := by
  cases c with
  | fork child => cases child <;> first | rfl | cases hc
  | malloc | asprintf | free | read => cases hc
  | _ => rfl

theorem heapOp_message {c : Call} {r : sys.Ret c} (hc : isMessage c) : heapOp ⟨c, r⟩ = [] := by
  cases c with
  | fork | malloc | asprintf | free | read => cases hc
  | _ => rfl

theorem heapOp_idleRc (he : isIdleRc e) : heapOp e = [] := by
  obtain ⟨c, r⟩ := e
  cases c with
  | fork child => cases child <;> first | rfl | cases he
  | malloc | asprintf | free | read => cases he
  | _ => rfl

/-! ## Who holds the blocks -/

/-- The heap after `ops`: the sessions of the table `l` have their blocks, the blocks `bs` are at
hand, and the scripts `L` are loaded; those are all, if `whole`. -/
structure OwnsOps (L : Str → Prop) (l : SessionTable) (bs : List Block) (ops : List (HeapOp Block))
    (whole : Prop) : Prop where
  safe : Safe ops
  getty : ∀ sp ∈ l.entries, sp.seGetty.isSome
  live : ∀ sp ∈ l.entries, ∀ b ∈ sessionBlocks sp.id, Live ops b
  atHand : ∀ b ∈ bs, Live ops b
  nodup : bs.Nodup
  apart : ∀ sp ∈ l.entries, ∀ b ∈ sessionBlocks sp.id, b ∉ bs
  fresh : ∀ id, l.fresh ≤ id → ∀ b ∈ sessionBlocks id, Live ops b → b ∈ bs
  scripts : ∀ path, Live ops (.script path) ↔ L path
  kept : whole → ∀ id, ∀ b ∈ sessionBlocks id, Live ops b → b ∈ bs ∨ ∃ sp ∈ l.entries, sp.id = id

/-- The heap after the calls `h`, of which all blocks are known unless the setup of a session has
failed. -/
abbrev Owns (L : Str → Prop) (l : SessionTable) (bs : List Block) (h : List (Event sys)) : Prop :=
  OwnsOps L l bs (heapOps h) (Unbroken h)

theorem mem_sessionBlocks {id : Nat} : b ∈ sessionBlocks id ↔
    b = .device id ∨ b = .getty id ∨ b = .argv id ∨ b = .session id := by
  simp [sessionBlocks]

theorem sessionBlocks_nodup (id : Nat) : (sessionBlocks id).Nodup := by
  simp [sessionBlocks]

/-- A block belongs to one session. -/
theorem sessionBlocks_inj {id id' : Nat} (hb : b ∈ sessionBlocks id) (hb' : b ∈ sessionBlocks id') :
    id = id' := by
  rcases mem_sessionBlocks.mp hb with rfl | rfl | rfl | rfl <;> simpa [sessionBlocks] using hb'

theorem script_not_sessionBlock {path : Str} {id : Nat} : .script path ∉ sessionBlocks id := by
  simp [sessionBlocks]

/-! ## One operation -/

/-- A block of the next session is allocated. -/
theorem OwnsOps.alloc (ho : OwnsOps L l bs ops whole) (hmem : b ∈ sessionBlocks l.fresh) (hb : b ∉ bs) :
    OwnsOps L l (b :: bs) (ops ++ [.alloc b]) whole := by
  refine ⟨safe_snoc.mpr ⟨ho.safe, fun hlive => hb (ho.fresh _ (Nat.le_refl _) b hmem hlive)⟩, ho.getty,
    fun sp hsp b' hb' => live_alloc.mpr (.inr (ho.live sp hsp b' hb')), fun b' hb' => ?_,
    List.nodup_cons.mpr ⟨hb, ho.nodup⟩, fun sp hsp b' hb' hcons => ?_, fun id hid b' hb' hlive => ?_,
    fun path => ?_, fun hw id b' hb' hlive => ?_⟩
  · rcases List.mem_cons.mp hb' with rfl | hb'
    · exact live_alloc.mpr (.inl rfl)
    · exact live_alloc.mpr (.inr (ho.atHand b' hb'))
  · rcases List.mem_cons.mp hcons with rfl | hcons
    · exact absurd (l.lt_fresh sp hsp) (by rw [sessionBlocks_inj hb' hmem]; exact Nat.lt_irrefl _)
    · exact ho.apart sp hsp b' hb' hcons
  · rcases live_alloc.mp hlive with rfl | hlive
    · exact List.mem_cons_self
    · exact List.mem_cons_of_mem _ (ho.fresh id hid b' hb' hlive)
  · rw [live_alloc, ← ho.scripts path]
    exact or_iff_right fun hp => script_not_sessionBlock (hp ▸ hmem)
  · rcases live_alloc.mp hlive with rfl | hlive
    · exact .inl List.mem_cons_self
    · exact (ho.kept hw id b' hb' hlive).imp_left (List.mem_cons_of_mem _)

/-- A block of a session that is at hand is freed. -/
theorem OwnsOps.free {id : Nat} (ho : OwnsOps L l (b :: bs) ops whole) (hmem : b ∈ sessionBlocks id) :
    OwnsOps L l bs (ops ++ [.free b]) whole := by
  obtain ⟨hb, hnodup⟩ := List.nodup_cons.mp ho.nodup
  refine ⟨safe_snoc.mpr ⟨ho.safe, ho.atHand b List.mem_cons_self⟩, ho.getty,
    fun sp hsp b' hb' => live_free.mpr ⟨ho.live sp hsp b' hb', ?_⟩,
    fun b' hb' => live_free.mpr ⟨ho.atHand b' (List.mem_cons_of_mem _ hb'), fun hbb => hb (hbb ▸ hb')⟩, hnodup,
    fun sp hsp b' hb' hbs => ho.apart sp hsp b' hb' (List.mem_cons_of_mem _ hbs), fun id hid b' hb' hlive => ?_,
    fun path => ?_, fun hw id b' hb' hlive => ?_⟩
  · rintro rfl
    exact ho.apart sp hsp b' hb' List.mem_cons_self
  · obtain ⟨hlive, hne⟩ := live_free.mp hlive
    exact (List.mem_cons.mp (ho.fresh id hid b' hb' hlive)).resolve_left hne
  · rw [live_free, ← ho.scripts path]
    exact and_iff_left fun hp => script_not_sessionBlock (hp ▸ hmem)
  · obtain ⟨hlive, hne⟩ := live_free.mp hlive
    exact (ho.kept hw id b' hb' hlive).imp_left fun h => (List.mem_cons.mp h).resolve_left hne

/-- Blocks that are live are used. -/
theorem OwnsOps.use {bs' : List Block} (ho : OwnsOps L l bs ops whole) (huse : ∀ b ∈ bs', Live ops b) :
    OwnsOps L l bs (ops ++ [.use bs']) whole := by
  have hsame : ∀ {b'}, Live (ops ++ [.use bs']) b' ↔ Live ops b' := live_use
  refine ⟨safe_snoc.mpr ⟨ho.safe, huse⟩, ho.getty, ?_, ?_, ho.nodup, ho.apart, ?_, ?_, ?_⟩
  all_goals simp only [hsame]
  exacts [ho.live, ho.atHand, ho.fresh, ho.scripts, ho.kept]

/-! ## One call -/

/-- The operations of a call. -/
theorem Owns.call (ho : OwnsOps L l bs (heapOps h ++ heapOp e) (Unbroken h)) : Owns L l bs (h ++ [e]) := by
  rw [Owns, heapOps_snoc]
  exact { ho with kept := fun hu => ho.kept (unbroken_snoc.mp hu).1 }

/-- A call that does nothing with the heap. -/
theorem Owns.idle (ho : Owns L l bs h) (he : heapOp e = []) : Owns L l bs (h ++ [e]) :=
  .call (by rwa [he, List.append_nil])

/-- A call that reads or writes blocks. -/
theorem Owns.use {bs' : List Block} (ho : Owns L l bs h) (he : heapOp e = [.use bs'])
    (huse : ∀ b ∈ bs', Live (heapOps h) b) : Owns L l bs (h ++ [e]) :=
  .call (by rw [he]; exact OwnsOps.use ho huse)

/-- A call that allocates a block of the next session. -/
theorem Owns.alloc {bs' : List Block} (ho : Owns L l bs h) (he : heapOp e = [.alloc b, .use bs'])
    (hmem : b ∈ sessionBlocks l.fresh) (hb : b ∉ bs) (huse : ∀ b' ∈ bs', b' ∈ b :: bs) :
    Owns L l (b :: bs) (h ++ [e]) :=
  .call (by
    rw [he, List.append_cons]
    have ho' := OwnsOps.alloc ho hmem hb
    exact ho'.use fun b' hb' => ho'.atHand b' (huse b' hb'))

/-- A call that frees a block of a session that is at hand. -/
theorem Owns.free {id : Nat} {bs' : List Block} (ho : Owns L l (b :: bs) h)
    (he : heapOp e = [.use bs', .free b]) (hmem : b ∈ sessionBlocks id) (huse : ∀ b' ∈ bs', b' ∈ b :: bs) :
    Owns L l bs (h ++ [e]) :=
  .call (by
    rw [he, List.append_cons]
    exact (OwnsOps.use ho fun b' hb' => ho.atHand b' (huse b' hb')).free hmem)

/-! ## The table -/

/-- The session at hand goes to the end of the table. -/
theorem OwnsOps.addTail (ho : OwnsOps L l (.argv l.fresh :: .getty l.fresh :: .device l.fresh ::
    [.session l.fresh]) ops whole) (hsp : sp.seGetty.isSome) : OwnsOps L (l.addTail sp) [] ops whole := by
  have hall : ∀ b ∈ sessionBlocks l.fresh, Live ops b := fun b hb => ho.atHand b (by
    rcases mem_sessionBlocks.mp hb with rfl | rfl | rfl | rfl <;> simp)
  have hnew : ∀ {id b}, b ∈ sessionBlocks id → b ∈ (Block.argv l.fresh :: .getty l.fresh ::
      .device l.fresh :: [.session l.fresh]) → id = l.fresh := fun hb hmem => by
    refine sessionBlocks_inj hb (mem_sessionBlocks.mpr ?_)
    simp only [List.mem_cons, List.not_mem_nil, or_false] at hmem
    tauto
  refine ⟨ho.safe, ?_, ?_, by simp, List.nodup_nil, by simp, ?_, ho.scripts, fun hu id b hb hlive => ?_⟩
  · intro s hs
    rcases List.mem_append.mp hs with hs | hs
    · exact ho.getty s hs
    · rw [List.mem_singleton.mp hs]
      exact hsp
  · intro s hs
    rcases List.mem_append.mp hs with hs | hs
    · exact ho.live s hs
    · rw [List.mem_singleton.mp hs]
      exact hall
  · intro id hid b hb hlive
    have hle : l.fresh + 1 ≤ id := hid
    have := hnew hb (ho.fresh id (by omega) b hb hlive)
    omega
  · refine .inr ?_
    rcases ho.kept hu id b hb hlive with hmem | ⟨s, hs, rfl⟩
    · obtain rfl := hnew hb hmem
      exact ⟨{ sp with id := l.fresh }, List.mem_append_right _ List.mem_cons_self, rfl⟩
    · exact ⟨s, List.mem_append_left _ hs, rfl⟩

/-- A session of the table is taken out of it. -/
theorem OwnsOps.remEntry (ho : OwnsOps L l [] ops whole) (hsp : sp ∈ l.entries) :
    OwnsOps L (l.remEntry sp) (sessionBlocks sp.id) ops whole := by
  have hmem : ∀ {s}, s ∈ (l.remEntry sp).entries ↔ s ∈ l.entries ∧ s.id ≠ sp.id := by
    intro s
    rw [SessionTable.remEntry]
    dsimp only
    rw [if_pos (List.mem_map_of_mem hsp), List.mem_filter, decide_eq_true_iff]
  refine ⟨ho.safe, fun s hs => ho.getty s (hmem.mp hs).1, fun s hs => ho.live s (hmem.mp hs).1,
    ho.live sp hsp, sessionBlocks_nodup _, ?_, fun id hid b hb hlive => ?_, ho.scripts,
    fun hu id b hb hlive => ?_⟩
  · exact fun s hs b hb hb' => (hmem.mp hs).2 (sessionBlocks_inj hb hb')
  · exact absurd (ho.fresh id hid b hb hlive) List.not_mem_nil
  · obtain ⟨s, hs, rfl⟩ := (ho.kept hu id b hb hlive).resolve_left List.not_mem_nil
    by_cases hid : s.id = sp.id
    · exact .inl (hid ▸ hb)
    · exact .inr ⟨s, hmem.mpr ⟨hs, hid⟩, rfl⟩

/-- The table is emptied, after the setup of a session has failed. -/
theorem OwnsOps.emptied (ho : OwnsOps L l bs ops whole) (hl : l'.entries = []) (hfresh : l'.fresh = l.fresh)
    (hbroken : ¬ whole) : OwnsOps L l' bs ops whole := by
  refine ⟨ho.safe, ?_, ?_, ho.atHand, ho.nodup, ?_, ?_, ho.scripts, fun hu => absurd hu hbroken⟩
  · simp [hl]
  · simp [hl]
  · simp [hl]
  · rw [hfresh]
    exact ho.fresh

/-- The entries of the table change, but not which sessions they are or whether they have a
command line. -/
theorem OwnsOps.entries (ho : OwnsOps L l bs ops whole) (hfresh : l'.fresh = l.fresh)
    (hids : ∀ s ∈ l'.entries, ∃ s' ∈ l.entries, s'.id = s.id ∧ s'.seGetty = s.seGetty)
    (hids' : ∀ s ∈ l.entries, ∃ s' ∈ l'.entries, s'.id = s.id) : OwnsOps L l' bs ops whole := by
  refine ⟨ho.safe, fun s hs => ?_, fun s hs => ?_, ho.atHand, ho.nodup, fun s hs => ?_, ?_, ho.scripts,
    fun hu id b hb hlive => ?_⟩
  · obtain ⟨s', hs', -, hgetty⟩ := hids s hs
    exact hgetty ▸ ho.getty s' hs'
  · obtain ⟨s', hs', hid, -⟩ := hids s hs
    exact hid ▸ ho.live s' hs'
  · obtain ⟨s', hs', hid, -⟩ := hids s hs
    exact hid ▸ ho.apart s' hs'
  · rw [hfresh]
    exact ho.fresh
  · refine (ho.kept hu id b hb hlive).imp_right fun ⟨s, hs, hid⟩ => ?_
    obtain ⟨s', hs', hid'⟩ := hids' s hs
    exact ⟨s', hs', hid'.trans hid⟩

theorem OwnsOps.setProcess {id : Nat} {pid : Pid} (ho : OwnsOps L l bs ops whole) :
    OwnsOps L (l.setProcess id pid) bs ops whole := by
  refine ho.entries rfl (fun s hs => ?_) fun s hs => ?_
  · rcases mem_setProcess hs with ⟨hs, -⟩ | ⟨s', hs', -, rfl⟩
    · exact ⟨s, hs, rfl, rfl⟩
    · exact ⟨s', hs', rfl, rfl⟩
  · refine ⟨_, List.mem_map_of_mem hs, ?_⟩
    split <;> rfl

theorem OwnsOps.setShutdown (ho : OwnsOps L l bs ops whole) : OwnsOps L l.setShutdown bs ops whole := by
  refine ho.entries rfl (fun s hs => ?_) fun s hs => ⟨_, List.mem_map_of_mem hs, rfl⟩
  obtain ⟨s', hs', rfl⟩ := List.mem_map.mp hs
  exact ⟨s', hs', rfl, rfl⟩

/-! ## The setup of a session -/

section

variable {A : List (Event sys) → Event sys → Prop} {typ : Ttyent}

/-- The heap operations so far are safe. -/
abbrev HeapSafe (h : List (Event sys)) : Prop := Safe (heapOps h)

/-- A block of the session at hand is allocated, and the pointer to it is stored in the session. -/
theorem holder_subset {id : Nat} (hmem : b ∈ sessionBlocks id) (hsession : .session id ∈ bs) :
    ∀ b' ∈ holder b, b' ∈ bs := by
  rcases mem_sessionBlocks.mp hmem with rfl | rfl | rfl | rfl <;> simp [holder, hsession]

/-- The free of the first block at hand, where the session is, too. -/
theorem syscall_free {id : Nat} (hmem : b ∈ sessionBlocks id) (hsession : .session id ∈ b :: bs)
    (ho : Owns L g.sessionList (b :: bs) h) :
    Proc.Wp A HeapSafe (syscall (.free b)) g h fun _ g' h' =>
      g'.sessionList = g.sessionList ∧ Owns L g'.sessionList bs h' ∧ (Unbroken h' → Unbroken h) :=
  wp_syscall.mpr fun r e _ =>
    have ho' := Owns.free (e := ⟨.free b, (r, e)⟩) ho rfl hmem (holder_subset hmem hsession)
    ⟨ho'.safe, rfl, ho', fun hu => (unbroken_snoc.mp hu).1⟩

theorem constructArgv_wp {command : Str} (hbs : ∀ b ∈ bs, b ≠ .argv g.sessionList.fresh)
    (hgetty : .getty g.sessionList.fresh ∈ bs) (hsession : .session g.sessionList.fresh ∈ bs)
    (ho : Owns L g.sessionList bs h) (hword : Unbroken h → strtok command ≠ none) :
    Proc.Wp A HeapSafe (constructArgv g.sessionList.fresh command) g h fun argv g' h' =>
      g'.sessionList = g.sessionList ∧
      (argv = none → Owns L g.sessionList bs h' ∧ ¬ Unbroken h') ∧
      (argv ≠ none → Owns L g.sessionList (.argv g.sessionList.fresh :: bs) h') := by
  have hmem : Block.argv g.sessionList.fresh ∈ sessionBlocks g.sessionList.fresh := by simp [sessionBlocks]
  -- the length of the command line is read before the argv is allocated
  have hline : OwnsOps L g.sessionList bs (heapOps h ++ [.use [.getty g.sessionList.fresh]]) (Unbroken h) :=
    OwnsOps.use ho (List.forall_mem_singleton.mpr (ho.atHand _ hgetty))
  rw [Proc.Wp, constructArgv_eq, Prog.wp_call]
  rintro ⟨v, e⟩ -
  cases v with
  | none =>
    have ho' : Owns L g.sessionList bs
        (h ++ [⟨.malloc (.argv g.sessionList.fresh) (.pointers (argvSize command)), (none, e)⟩]) := .call hline
    refine ⟨ho'.safe, ?_⟩
    rw [if_pos rfl]
    refine .ret fun a ha => ?_
    cases ha
    exact ⟨rfl, fun _ => ⟨ho', fun hu => by simpa [breaksSetup] using (unbroken_snoc.mp hu).2⟩,
      fun hne => absurd rfl hne⟩
  | some v =>
    have ho' : Owns L g.sessionList (.argv g.sessionList.fresh :: bs)
        (h ++ [⟨.malloc (.argv g.sessionList.fresh) (.pointers (argvSize command)), (some v, e)⟩]) := by
      refine .call ?_
      have hread : ∀ b ∈ [.getty g.sessionList.fresh, .argv g.sessionList.fresh, .session g.sessionList.fresh],
          b ∈ .argv g.sessionList.fresh :: bs := fun b hb => by
        simp only [List.mem_cons, List.not_mem_nil, or_false] at hb
        rcases hb with rfl | rfl | rfl <;> simp [hgetty, hsession]
      have halloc := hline.alloc hmem fun hargv => hbs _ hargv rfl
      have hused := halloc.use fun b hb => halloc.atHand b (hread b hb)
      rw [List.append_assoc, List.append_assoc] at hused
      exact hused
    refine ⟨ho'.safe, ?_⟩
    rw [if_neg (Option.some_ne_none v)]
    split
    case isTrue hnone =>
      rw [Prog.wp_call]
      rintro ⟨_, e'⟩ -
      have ho'' := Owns.free (e := ⟨.free (.argv g.sessionList.fresh), ((), e')⟩) ho' rfl hmem
        (holder_subset hmem (List.mem_cons_of_mem _ hsession))
      refine ⟨ho''.safe, .ret fun a ha => ?_⟩
      cases ha
      refine ⟨rfl, fun _ => ⟨ho'', fun hu => ?_⟩, fun hne => absurd rfl hne⟩
      have hne := hword (unbroken_snoc.mp (unbroken_snoc.mp hu).1).1
      obtain ⟨⟨tok, rest⟩, hw⟩ := Option.ne_none_iff_exists'.mp hne
      rw [(words_of_strtok_some hw).1] at hnone
      cases hnone
    case isFalse =>
      refine .ret fun a ha => ?_
      cases ha
      exact ⟨rfl, fun hnone => absurd hnone (Option.some_ne_none _), fun _ => ho'⟩

theorem setupargv_wp (hid : sp.id = g.sessionList.fresh) (hsp : sp.seGetty = none)
    (ho : Owns L g.sessionList [.device g.sessionList.fresh, .session g.sessionList.fresh] h) :
    Proc.Wp A HeapSafe (setupargv sp typ) g h fun r g' h' => g'.sessionList = g.sessionList ∧
      match r with
      | .error sp' => sp'.id = sp.id ∧ sp'.seGetty = none ∧ ¬ Unbroken h' ∧
        Owns L g.sessionList [.device g.sessionList.fresh, .session g.sessionList.fresh] h'
      | .ok sp' => sp'.id = sp.id ∧ sp'.seGetty.isSome ∧
        Owns L g.sessionList (.argv g.sessionList.fresh :: .getty g.sessionList.fresh ::
          .device g.sessionList.fresh :: [.session g.sessionList.fresh]) h' := by
  have hmem : Block.getty g.sessionList.fresh ∈ sessionBlocks g.sessionList.fresh := by simp [sessionBlocks]
  rw [setupargv, if_neg (by simp [hsp])]
  dsimp only
  rw [hid]
  refine Proc.wp_bind.mpr (wp_syscall.mpr fun ok e _ => ?_)
  cases ok with
  | false =>
    have ho' := Owns.use (e := ⟨.asprintf (.getty g.sessionList.fresh) (commandLine typ), (false, e)⟩) ho rfl
      fun b hb => ho.atHand b (holder_subset hmem (by simp) b hb)
    refine ⟨ho'.safe, ?_⟩
    rw [if_neg (by decide)]
    exact Proc.wp_pure.mpr ⟨rfl, rfl, rfl, fun hu => by simpa [breaksSetup] using (unbroken_snoc.mp hu).2, ho'⟩
  | true =>
    have ho' := Owns.alloc (e := ⟨.asprintf (.getty g.sessionList.fresh) (commandLine typ), (true, e)⟩) ho rfl
      hmem (by simp) (holder_subset hmem (by simp))
    refine ⟨ho'.safe, ?_⟩
    rw [if_pos rfl]
    refine Proc.wp_bind.mpr ((constructArgv_wp (g := { g with errno := e }) (by simp) (by simp) (by simp) ho'
      fun hu => ?_).mono fun argv g₁ h₁ hpost => ?_)
    · have hword := (unbroken_snoc.mp hu).2
      rw [breaksSetup, Bool.not_true, Bool.false_or, Option.isNone_eq_false_iff] at hword
      exact Option.isSome_iff_ne_none.mp hword
    obtain ⟨hlist, hnone, hsome⟩ := hpost
    cases argv with
    | none =>
      obtain ⟨ho₁, hu₁⟩ := hnone rfl
      have ho₁ : Owns L g₁.sessionList [.getty g.sessionList.fresh, .device g.sessionList.fresh,
          .session g.sessionList.fresh] h₁ := by rw [hlist]; exact ho₁
      refine Proc.wp_bind.mpr ((syscall_free hmem (by simp) ho₁).mono fun _ g₂ h₂ hpost => ?_)
      obtain ⟨hlist₂, ho₂, hu₂⟩ := hpost
      have hsame := hlist₂.trans hlist
      exact Proc.wp_pure.mpr ⟨hsame, rfl, rfl, fun hu => hu₁ (hu₂ hu), hsame ▸ ho₂⟩
    | some argv => exact Proc.wp_pure.mpr ⟨hlist, rfl, rfl, hsome (Option.some_ne_none _)⟩

/-- `alloc_session` keeps each block in the table or gives it back. -/
theorem allocSession_wp {i : Nat} (ho : Owns L g.sessionList [] h) :
    Proc.Wp A HeapSafe (allocSession i typ) g h fun _ g' h' => Owns L g'.sessionList [] h' := by
  have hdevice : ∀ id, Block.device id ∈ sessionBlocks id := fun id => by simp [sessionBlocks]
  have hsession : ∀ id, Block.session id ∈ sessionBlocks id := fun id => by simp [sessionBlocks]
  refine Proc.wp_ite.mpr ⟨fun _ => Proc.wp_pure.mpr ho, fun _ => ?_⟩
  refine Proc.wp_bind.mpr (Proc.wp_get.mpr (Proc.wp_bind.mpr (wp_syscall.mpr fun v e _ => ?_)))
  cases v with
  | none =>
    have ho' := Owns.idle (e := ⟨.malloc (.session g.sessionList.fresh) .session, (none, e)⟩) ho rfl
    exact ⟨ho'.safe, Proc.wp_pure.mpr ho'⟩
  | some v =>
    have ho₁ := Owns.alloc (e := ⟨.malloc (.session g.sessionList.fresh) .session, (some v, e)⟩) ho rfl
      (hsession _) (by simp) (by simp)
    refine ⟨ho₁.safe, Proc.wp_bind.mpr (wp_syscall.mpr fun ok e₂ _ => ?_)⟩
    cases ok with
    | false =>
      have ho₂ := Owns.use
        (e := ⟨.asprintf (.device g.sessionList.fresh) (PATH_DEV ++ typ.tyName.getD []), (false, e₂)⟩)
        ho₁ rfl fun b hb => ho₁.atHand b (holder_subset (hdevice _) (by simp) b hb)
      refine ⟨ho₂.safe, ?_⟩
      rw [if_neg (by decide)]
      refine Proc.wp_bind.mpr ((syscall_free (g := { g with errno := e₂ }) (hsession _) (by simp) ho₂).mono
        fun _ g₃ h₃ hpost => ?_)
      exact Proc.wp_pure.mpr hpost.2.1
    | true =>
      have ho₂ := Owns.alloc
        (e := ⟨.asprintf (.device g.sessionList.fresh) (PATH_DEV ++ typ.tyName.getD []), (true, e₂)⟩)
        ho₁ rfl (hdevice _) (by simp) (holder_subset (hdevice _) (by simp))
      refine ⟨ho₂.safe, ?_⟩
      rw [if_pos rfl]
      refine Proc.wp_bind.mpr ((setupargv_wp (g := { g with errno := e₂ }) rfl rfl ho₂).mono
        fun r g₃ h₃ hpost => ?_)
      obtain ⟨hlist, hpost⟩ := hpost
      cases r with
      | ok sp =>
        obtain ⟨-, hgetty, ho₃⟩ := hpost
        rw [← hlist] at ho₃
        exact Proc.wp_bind.mpr (Proc.wp_modify.mpr (Proc.wp_pure.mpr (ho₃.addTail hgetty)))
      | error sp =>
        obtain ⟨hid, hgetty, hbroken, ho₃⟩ := hpost
        replace hid : sp.id = g₃.sessionList.fresh := by rw [hlist]; exact hid
        rw [← hlist] at ho₃
        have ho₄ := ho₃.emptied (remEntry_fresh hid) rfl hbroken
        refine Proc.wp_bind.mpr ?_
        rw [freeSession, hgetty, if_neg (by decide), hid]
        refine Proc.wp_bind.mpr (Proc.wp_modify.mpr (Proc.wp_bind.mpr ((syscall_free (hdevice _) (by simp) ho₄).mono
          fun _ g₅ h₅ hpost => ?_)))
        exact (syscall_free (hsession _) (by simp) hpost.2.1).mono fun _ g₆ h₆ hpost => Proc.wp_pure.mpr hpost.2.1

/-- The child that is forked for a session of the table reads its blocks. -/
theorem Owns.fork (ho : Owns L l bs h) (hsp : sp ∈ l.entries) (r : Option Pid × Int) :
    Owns L l bs (h ++ [⟨.fork (.getty sp.id sp.seDevice sp.seGettyArgv), r⟩]) :=
  Owns.use ho rfl (ho.live sp hsp)

/-- `state_start_sessions` keeps it, since each of its allocations and forks does. -/
theorem owns_start : StartInvariant A HeapSafe (fun l h => Owns L l [] h) where
  holds _ _ ho := ho.safe
  ttys _ _ e ho he := by
    obtain ⟨c, r⟩ := e
    refine Owns.idle ho ?_
    rcases he with rfl | rfl | rfl <;> rfl
  alloc g h i typ e ho := allocSession_wp ho
  fork l h sp pid e ho hsp := by
    have ho' := Owns.fork ho hsp (pid, e)
    cases pid with
    | none => exact ho'
    | some pid => exact ho'.setProcess

/-! ## Processes that are collected -/

/-- The session of a process that is collected is freed, or started again. -/
theorem collectProcess_heap (pid : Pid) (status : Status) (ho : Owns L g.sessionList [] h) :
    Proc.Wp A HeapSafe (collectProcess pid status) g h fun _ g' h' => Owns L g'.sessionList [] h' := by
  refine Proc.wp_bind.mpr (Proc.wp_get.mpr (Proc.wp_ite.mpr ⟨fun _ => Proc.wp_pure.mpr ho, fun _ => ?_⟩))
  cases hfind : findSession g.sessionList.entries pid with
  | none => exact Proc.wp_pure.mpr ho
  | some sp =>
    have hsp := (findSession_some hfind).1
    refine Proc.wp_ite.mpr ⟨fun _ => ?_, fun _ => Proc.wp_bind.mpr (wp_syscall.mpr fun pid e _ => ?_)⟩
    · have hmem : ∀ b ∈ sessionBlocks sp.id, b ∈ sessionBlocks sp.id := fun _ hb => hb
      rw [freeSession, if_pos (ho.getty sp hsp)]
      -- the session is freed last, since the pointers to the other blocks are in it
      refine Proc.wp_bind.mpr (Proc.wp_modify.mpr (Proc.wp_bind.mpr ((syscall_free (g := { g with
        sessionList := g.sessionList.remEntry sp }) (hmem (.device sp.id) (by simp [sessionBlocks])) (by simp)
        (ho.remEntry hsp)).mono fun _ g₂ h₂ ho₂ => ?_)))
      refine Proc.wp_bind.mpr ((syscall_free (hmem (.getty sp.id) (by simp [sessionBlocks])) (by simp) ho₂.2.1).mono
        fun _ g₃ h₃ ho₃ => ?_)
      refine Proc.wp_bind.mpr ((syscall_free (hmem (.argv sp.id) (by simp [sessionBlocks])) (by simp) ho₃.2.1).mono
        fun _ g₄ h₄ ho₄ => ?_)
      exact (syscall_free (hmem (.session sp.id) (by simp [sessionBlocks])) (by simp) ho₄.2.1).mono
        fun _ g₅ h₅ ho₅ => ho₅.2.1
    · have ho' := Owns.fork ho hsp (pid, e)
      refine ⟨ho'.safe, ?_⟩
      cases pid with
      | none => exact Proc.wp_pure.mpr ho'
      | some pid => exact Proc.wp_modify.mpr ho'.setProcess

/-- `do_run_rc` keeps it, since each of its collections does. -/
theorem owns_rc : RcInvariant A HeapSafe (fun l h => Owns L l [] h) where
  holds _ _ ho := ho.safe
  idle _ _ _ ho _ he := Owns.idle ho (heapOp_idleRc he)
  collect _ _ pid status e ho _ :=
    have ho' := Owns.idle (e := ⟨.waitpid true, (some (pid, status), e)⟩) ho rfl
    ⟨ho'.safe, collectProcess_heap pid status ho'⟩

theorem reapRound_heap (ho : Owns L g.sessionList [] h) :
    Proc.Wp A HeapSafe reapRound g h fun _ g' h' => Owns L g'.sessionList [] h' := by
  refine Proc.wp_bind.mpr (wp_syscall.mpr fun r e _ => ?_)
  have ho' := Owns.idle (e := ⟨.waitpid false, (r, e)⟩) ho rfl
  refine ⟨ho'.safe, ?_⟩
  cases r with
  | none =>
    exact Proc.wp_bind.mpr (Proc.wp_get.mpr (Proc.wp_ite.mpr
      ⟨fun _ => Proc.wp_pure.mpr ho', fun _ => Proc.wp_pure.mpr ho'⟩))
  | some x =>
    refine Proc.wp_bind.mpr ((collectProcess_heap (g := { g with errno := e }) x.1 x.2 ho').mono
      fun _ g' h' ho'' => ?_)
    exact Proc.wp_bind.mpr (Proc.wp_get.mpr (Proc.wp_ite.mpr
      ⟨fun _ => Proc.wp_pure.mpr ho'', fun _ => Proc.wp_pure.mpr ho''⟩))

theorem stateReaper_heap (ho : Owns L g.sessionList [] h) :
    Proc.Wp A HeapSafe (stateReaper fuel) g h fun _ g' h' => Owns L g'.sessionList [] h' := by
  refine Proc.wp_bind.mpr (Proc.wp_modify.mpr (Proc.wp_bind.mpr (wp_syscall.mpr fun sent e _ => ?_)))
  have ho₁ := Owns.idle (e := ⟨.kill none .hup, (sent, e)⟩) ho.setShutdown rfl
  refine ⟨ho₁.safe, Proc.wp_bind.mpr (Proc.wp_get.mpr (Proc.wp_ite.mpr
    ⟨fun _ => Proc.wp_pure.mpr ho₁, fun _ => Proc.wp_bind.mpr ?_⟩))⟩
  refine Proc.wp_iter (J := fun _ g h => Owns L g.sessionList [] h) (fun _ _ _ ho => ?_) fuel () _ _ ho₁
  refine (reapRound_heap ho).mono fun x g' h' ho' => ?_
  cases x with
  | again _ => exact ho'
  | done _ => exact Proc.wp_pure.mpr ho'

/-! ## Scripts that are loaded -/

/-- A script's block is allocated. -/
theorem Owns.load {path : Str} (ho : Owns L l [] h) (he : heapOp e = [.alloc (.script path)])
    (hL : ¬ L path) : Owns (fun p => p = path ∨ L p) l [] (h ++ [e]) := by
  have hops : heapOps (h ++ [e]) = heapOps h ++ [.alloc (.script path)] := by
    rw [heapOps_snoc, he]
  have hother : ∀ {b}, Live (heapOps (h ++ [e])) b ↔ b = .script path ∨ Live (heapOps h) b := by
    intro b
    rw [hops, live_alloc]
  have hsession : ∀ {b id}, b ∈ sessionBlocks id → (Live (heapOps (h ++ [e])) b ↔ Live (heapOps h) b) := by
    intro b id hb
    rw [hother]
    exact or_iff_right fun he => script_not_sessionBlock (he ▸ hb)
  refine ⟨?_, ho.getty, fun sp hsp b hb => (hsession hb).mpr (ho.live sp hsp b hb), by simp,
    List.nodup_nil, by simp, fun id hid b hb hlive => ho.fresh id hid b hb ((hsession hb).mp hlive),
    fun p => ?_, fun hu' id b hb hlive =>
      ho.kept (unbroken_snoc.mp hu').1 id b hb ((hsession hb).mp hlive)⟩
  · rw [hops]
    exact safe_snoc.mpr ⟨ho.safe, fun hlive => hL ((ho.scripts path).mp hlive)⟩
  · rw [hother, ho.scripts p, Block.script.injEq]

theorem OwnsOps.congr {L' : Str → Prop} (ho : OwnsOps L l bs ops whole) (hL : ∀ p, L p ↔ L' p) :
    OwnsOps L' l bs ops whole := by
  obtain ⟨safe, getty, live, atHand, nodup, apart, fresh, scripts, kept⟩ := ho
  exact ⟨safe, getty, live, atHand, nodup, apart, fresh, fun p => (scripts p).trans (hL p), kept⟩

theorem holds_setScript {slot : Slot} {buf : List Char} {size : Nat} {path : Str} :
    Holds (g.setScript slot buf size) path ↔ path = slotPath slot ∨ Holds g path := by
  constructor
  · rintro ⟨slot', rfl, hs⟩
    by_cases hslot : slot' = slot
    · exact .inl (by rw [hslot])
    · refine .inr ⟨slot', rfl, ?_⟩
      cases slot <;> cases slot' <;> first | exact absurd rfl hslot | exact hs
  · rintro (rfl | ⟨slot', rfl, hs⟩)
    · exact ⟨slot, rfl, by cases slot <;> rfl⟩
    · refine ⟨slot', rfl, ?_⟩
      cases slot <;> cases slot' <;> first | rfl | exact hs

/-- The script whose block has been allocated is loaded. -/
theorem Owns.setScript {slot : Slot} {buf : List Char} {size : Nat}
    (ho : Owns (fun p => p = slotPath slot ∨ Holds g p) g.sessionList [] h)
    (hsame : ∀ path, Holds g' path ↔ Holds g path) (hlist : g'.sessionList = g.sessionList) :
    Owns (Holds (g'.setScript slot buf size)) (g'.setScript slot buf size).sessionList [] h ∧
      ∀ path, Holds (g'.setScript slot buf size) path → path = slotPath slot ∨ Holds g path := by
  have hlist' : (g'.setScript slot buf size).sessionList = g.sessionList := by
    rw [← hlist]
    cases slot <;> rfl
  rw [hlist']
  have hholds : ∀ path, Holds (g'.setScript slot buf size) path ↔ path = slotPath slot ∨ Holds g path :=
    fun path => by rw [holds_setScript, hsame]
  exact ⟨ho.congr fun path => (hholds path).symm, fun path => (hholds path).mp⟩

/-- `load_bootstrap_file` allocates the block of a script that is not loaded. -/
theorem loadBootstrapFile_heap (slot : Slot)
    (ho : Owns (Holds g) g.sessionList [] h) (hslot : ¬ Holds g (slotPath slot)) :
    Proc.Wp A HeapSafe (loadBootstrapFile (slotPath slot) slot) g h fun _ g' h' =>
      Owns (Holds g') g'.sessionList [] h' ∧ ∀ path, Holds g' path → path = slotPath slot ∨ Holds g path := by
  refine Proc.wp_bind.mpr (wp_syscall.mpr fun fd e _ => ?_)
  have ho₁ := Owns.idle (e := ⟨.open (slotPath slot), (fd, e)⟩) ho rfl
  refine ⟨ho₁.safe, Proc.wp_ite.mpr ⟨fun _ => Proc.wp_pure.mpr ⟨ho₁, fun _ => .inr⟩, fun _ => ?_⟩⟩
  refine Proc.wp_bind.mpr (wp_syscall.mpr fun st e _ => ?_)
  have ho₂ := Owns.idle (e := ⟨.fstat fd, (st, e)⟩) ho₁ rfl
  refine ⟨ho₂.safe, Proc.wp_ite.mpr ⟨fun _ => ?_, fun _ => ?_⟩⟩
  · refine Proc.wp_bind.mpr (wp_syscall.mpr fun r e _ => ?_)
    have ho₃ := Owns.idle (e := ⟨.close fd, (r, e)⟩) ho₂ rfl
    exact ⟨ho₃.safe, Proc.wp_pure.mpr ⟨ho₃, fun _ => .inr⟩⟩
  · refine Proc.wp_bind.mpr (wp_syscall.mpr fun block e _ => ?_)
    cases block with
    | none =>
      have ho₃ := Owns.idle (e := ⟨.malloc (.script (slotPath slot)) (.chars (st.2 + 1)), (none, e)⟩) ho₂ rfl
      refine ⟨ho₃.safe, Proc.wp_bind.mpr (wp_syscall.mpr fun r e _ => ?_)⟩
      have ho₄ := Owns.idle (e := ⟨.close fd, (r, e)⟩) ho₃ rfl
      exact ⟨ho₄.safe, Proc.wp_pure.mpr ⟨ho₄, fun _ => .inr⟩⟩
    | some block =>
      have ho₃ := Owns.load (e := ⟨.malloc (.script (slotPath slot)) (.chars (st.2 + 1)), (some block, e)⟩)
        ho₂ rfl hslot
      refine ⟨ho₃.safe, Proc.wp_bind.mpr (wp_syscall.mpr fun data e _ => ?_)⟩
      have ho₄ := Owns.use (e := ⟨.read fd (.script (slotPath slot)) st.2, (data, e)⟩) ho₃ rfl
        (List.forall_mem_singleton.mpr ((ho₃.scripts _).mpr (.inl rfl)))
      refine ⟨ho₄.safe, Proc.wp_bind.mpr (wp_syscall.mpr fun r e _ => ?_)⟩
      have ho₅ := Owns.idle (e := ⟨.close fd, (r, e)⟩) ho₄ rfl
      refine ⟨ho₅.safe, Proc.wp_bind.mpr (Proc.wp_modify.mpr (Proc.wp_pure.mpr ?_))⟩
      exact ho₅.setScript (fun _ => Iff.rfl) rfl

end

/-! ## Runs of `main` -/

/-- What holds where `main` is about to enter a state. -/
def HeapAt (s : InitState) (g : Globals) (h : List (Event sys)) : Prop :=
  Owns (Holds g) g.sessionList [] h ∧ (s = .runSStartup → ∀ path, ¬ Holds g path)

/-- Code that leaves the scripts alone. -/
theorem owns_of_scripts {A : List (Event sys) → Event sys → Prop} {p : Sys InitState}
    (hp : Proc.Wp A HeapSafe p g h fun _ g' h' => Owns (Holds g) g'.sessionList [] h')
    (hkeeps : ∀ t s' g', (p g).Runs t (.ok s', g') → ∀ slot, script g' slot = script g slot) :
    Proc.Wp A HeapSafe p g h fun _ g' h' => Owns (Holds g') g'.sessionList [] h' := by
  refine (hp.and_returns (R := fun _ g' => ∀ slot, script g' slot = script g slot) hkeeps).mono
    fun _ g' h' hpost => hpost.1.congr fun path => ?_
  simp only [Holds, hpost.2]

theorem script_of_eq (h₁ : g'.sStartupScript = g.sStartupScript) (h₂ : g'.sShutdownScript = g.sShutdownScript)
    (slot : Slot) : script g' slot = script g slot := by
  cases slot <;> assumption

/-- A script's commands do nothing with the heap. -/
theorem processBootstrapScript_heap {A : List (Event sys) → Event sys → Prop} (buf : Option (List Char))
    (ho : Owns (Holds g) g.sessionList [] h) :
    Proc.Wp A HeapSafe (processBootstrapScript fuel buf) g h fun _ g' h' =>
      Owns (Holds g') g'.sessionList [] h' := by
  refine ((processBootstrapScript_frame buf).wp (J := fun h => Owns (Holds g) g.sessionList [] h)
    (fun h e ho hc => Owns.idle ho (heapOp_command hc)) (fun _ ho => ho.safe) ho).mono fun _ g' h' hpost => ?_
  obtain ⟨hkeeps, ho'⟩ := hpost
  rw [show g'.sessionList = g.sessionList from congrArg (·.2.2.2.1) hkeeps]
  refine ho'.congr fun path => ?_
  simp only [Holds, script_of_eq (congrArg (·.2.1) hkeeps) (congrArg (·.2.2.1) hkeeps)]

/-- The heap is well after each of the states, if it was before it. -/
theorem switch_heap {A : List (Event sys) → Event sys → Prop} (rc : Bool) {s : InitState}
    (hat : HeapAt s g h) : Proc.Wp A HeapSafe (switchOf how fuel rc s) g h fun _ g' h' =>
      Owns (Holds g') g'.sessionList [] h' := by
  obtain ⟨ho, hstart⟩ := hat
  have besides : ∀ {P : Call → Prop} {p : Sys InitState}, Proc.Frame P besidesSessions p →
      Proc.Wp A HeapSafe p g h (fun _ g' h' => Owns (Holds g) g'.sessionList [] h') →
      Proc.Wp A HeapSafe p g h fun _ g' h' => Owns (Holds g') g'.sessionList [] h' := fun hframe hp =>
    owns_of_scripts hp fun t s' g' hr => script_of_eq (congrArg (·.2.2.2.2.1) (hframe.keeps hr))
      (congrArg (·.2.2.2.2.2) (hframe.keeps hr))
  have hrc : ∀ path, Proc.Wp A HeapSafe (doRunRc fuel path) g h fun _ g' h' =>
      Owns (Holds g) g'.sessionList [] h' := fun path => doRunRc_wp fuel path owns_rc ho
  cases s with
  | runSStartup =>
    rw [switchOf_eq (by decide) (by decide)]
    refine Proc.wp_bind.mpr ((loadBootstrapFile_heap .startup ho (hstart rfl _)).mono fun sc g₁ h₁ hpost => ?_)
    obtain ⟨ho₁, hholds⟩ := hpost
    refine Proc.wp_ite.mpr ⟨fun _ => Proc.wp_pure.mpr ho₁, fun _ => ?_⟩
    have hnot : ¬ Holds g₁ (slotPath .shutdown) := fun hp => by
      rcases hholds _ hp with he | hp
      · exact absurd he (by decide)
      · exact hstart rfl _ hp
    refine Proc.wp_bind.mpr ((loadBootstrapFile_heap .shutdown ho₁ hnot).mono fun sc g₂ h₂ hpost => ?_)
    refine Proc.wp_ite.mpr ⟨fun _ => Proc.wp_pure.mpr hpost.1, fun _ => Proc.wp_bind.mpr (Proc.wp_get.mpr ?_)⟩
    refine Proc.wp_bind.mpr ((processBootstrapScript_heap _ hpost.1).mono fun sc g₃ h₃ ho₃ => ?_)
    exact Proc.wp_ite.mpr ⟨fun _ => Proc.wp_pure.mpr ho₃, fun _ => Proc.wp_pure.mpr ho₃⟩
  | runRcStartup =>
    cases rc with
    | false => exact Proc.wp_pure.mpr ho
    | true =>
      refine besides (P := (isRc ·)) (.bind (doRunRc_frame _) fun _ => .ite (.pure _) (.pure _)) ?_
      exact Proc.wp_bind.mpr ((hrc _).mono fun _ _ _ ho => Proc.wp_ite.mpr
        ⟨fun _ => Proc.wp_pure.mpr ho, fun _ => Proc.wp_pure.mpr ho⟩)
  | startSessions =>
    rw [switchOf_eq (by decide) (by decide)]
    exact besides stateStartSessions_frame (stateStartSessions_wp owns_start ho)
  | messageLoop =>
    rw [switchOf_eq (by decide) (by decide)]
    refine ((stateMessageLoop_frame how).wp (J := fun h => Owns (Holds g) g.sessionList [] h)
      (fun h e ho hc => Owns.idle ho (heapOp_message hc)) (fun _ ho => ho.safe) ho).mono fun _ g' h' hpost => ?_
    obtain ⟨hkeeps, ho'⟩ := hpost
    rw [show g'.sessionList = g.sessionList from congrArg (·.2.2.2.2) hkeeps]
    refine ho'.congr fun path => ?_
    simp only [Holds, script_of_eq (congrArg (·.2.2.1) hkeeps) (congrArg (·.2.2.2.1) hkeeps)]
  | stopSessions | failure =>
    rw [switchOf_eq (by decide) (by decide)]
    exact Proc.wp_pure.mpr ho
  | runRcShutdown =>
    cases rc with
    | false => exact Proc.wp_pure.mpr ho
    | true =>
      refine besides (P := (isRc ·)) (.bind (doRunRc_frame _) fun _ => .pure _) ?_
      exact Proc.wp_bind.mpr ((hrc _).mono fun _ _ _ ho => Proc.wp_pure.mpr ho)
  | runSShutdown =>
    rw [switchOf_eq (by decide) (by decide)]
    refine Proc.wp_bind.mpr (Proc.wp_get.mpr (Proc.wp_bind.mpr
      ((processBootstrapScript_heap _ ho).mono fun sc g' h' ho' => ?_)))
    exact Proc.wp_ite.mpr ⟨fun _ => Proc.wp_pure.mpr ho', fun _ => Proc.wp_pure.mpr ho'⟩
  | reaper =>
    rw [switchOf_eq (by decide) (by decide)]
    exact besides stateReaper_frame (stateReaper_heap ho)
  | shutdown =>
    rw [switchOf_eq (by decide) (by decide)]
    refine Proc.wp_bind.mpr (Proc.wp_bind.mpr (Proc.wp_get.mpr (Proc.wp_bind.mpr
      (wp_syscall.mpr fun r e _ => ?_))))
    have ho' := Owns.idle (e := ⟨.shutdownOs g.shutdownHow, (r, e)⟩) ho rfl
    exact ⟨ho'.safe, Proc.wp_iter (J := fun _ _ h => Owns (Holds g) g.sessionList [] h)
      (fun _ _ _ ho => Proc.wp_pure.mpr ho) _ () _ _ ho'⟩

theorem mainRound_heap {A : List (Event sys) → Event sys → Prop} (rc : Bool) {s : InitState}
    (hat : HeapAt s g h) : Proc.Wp A HeapSafe (mainRound (switchOf how fuel rc) s) g h fun x g' h' =>
      ∀ s', x = .again s' → HeapAt s' g' h' := by
  refine Proc.wp_bind.mpr (((switch_heap rc hat).and_returns (R := fun s' _ => rank s < rank s')
    fun _ _ _ hr => switch_rank hr).mono fun s' g' h' hpost => Proc.wp_pure.mpr fun _ he => ?_)
  cases he
  refine ⟨hpost.1, ?_⟩
  rintro rfl
  exact absurd hpost.2 (Nat.not_lt_zero _)

theorem heapAt_initial (req : List UInt8) (err : Int) : HeapAt .runSStartup (Globals.initial req err) [] := by
  have hnone : ∀ path, ¬ Holds (Globals.initial req err) path := by
    rintro path ⟨slot, -, hs⟩
    cases slot <;> cases hs
  refine ⟨⟨safe_nil, by simp [Globals.initial, SessionTable.empty], by simp [Globals.initial, SessionTable.empty],
    by simp, List.nodup_nil, by simp, fun _ _ _ _ hl => (not_live_nil hl).elim, fun path => ?_,
    fun _ _ _ _ hl => (not_live_nil hl).elim⟩, fun _ => hnone⟩
  exact iff_of_false not_live_nil (hnone path)

/-- Whatever the answers, with the rc scripts or without, no run of `main` allocates a block that is
live or frees one twice, and each block that a call frees, reads its arguments from or stores its
result in is live, as is one that the pointer to a block that is freed is read from. -/
theorem mainLoop_heapSafe (how : List UInt8 → Int) (fuel n : Nat) (rc : Bool) (req : List UInt8) (err : Int)
    {q : Prog sys (Out Unit × Globals)}
    (hs : (mainLoop (switchOf how fuel rc) n .runSStartup (Globals.initial req err)).Steps t q) :
    Safe (heapOps t) := by
  have hw : Proc.Wp (fun _ _ => True) HeapSafe (mainLoop (switchOf how fuel rc) n .runSStartup)
      (Globals.initial req err) [] fun _ _ _ => True := by
    refine Proc.wp_iter (J := HeapAt) (fun s g h hat => (mainRound_heap rc hat).mono fun x g' h' hx => ?_) n
      _ _ _ (heapAt_initial req err)
    cases x with
    | again s' => exact hx s' rfl
    | done _ => trivial
  exact hw.invariant hs (fun _ _ _ _ => trivial) safe_nil

/-- The whole run with the rc scripts, which allocates the blocks of two scripts and of a session, and
frees those of the session. -/
theorem mainLoop_heapSafe_wholeRun : ∃ q,
    (mainLoop (switchOf firstByte 3 true) 9 .runSStartup (Globals.initial [0] 0)).Steps (wholeRun true) q ∧
    Safe (heapOps (wholeRun true)) := by
  have hs : ∃ q, (mainLoop (switchOf firstByte 3 true) 9 .runSStartup (Globals.initial [0] 0)).Steps
      (wholeRun true) q := by decide +kernel
  obtain ⟨q, hs⟩ := hs
  exact ⟨q, hs, mainLoop_heapSafe firstByte 3 9 true [0] 0 hs⟩

theorem visits_heap {rc : Bool} {s : InitState} {req : List UInt8} {err : Int}
    (hv : Visits (switchOf how fuel rc) .runSStartup (Globals.initial req err) t s g) : HeapAt s g t := by
  have := hv.invariant (J := HeapAt) (fun s g h t s' g' hat hr =>
    (mainRound_heap (A := fun _ _ => True) rc hat).runs hr (fun _ _ _ _ => trivial) s' rfl) (heapAt_initial req err)
  exact this

theorem live_of_held (ho : Owns (Holds g) g.sessionList [] h) (hb : held g b) : Live (heapOps h) b := by
  cases b with
  | script path => exact (ho.scripts path).mpr hb
  | session id | device id | getty id | argv id =>
    obtain ⟨sp, hsp, rfl⟩ := hb
    exact ho.live sp hsp _ (by simp [sessionBlocks])

theorem held_of_live (ho : Owns (Holds g) g.sessionList [] h) (hu : Unbroken h) (hb : Live (heapOps h) b) :
    held g b := by
  have hsession : ∀ {id}, b ∈ sessionBlocks id → ∃ sp ∈ g.sessionList.entries, sp.id = id := fun hmem =>
    (ho.kept hu _ b hmem hb).resolve_left List.not_mem_nil
  cases b with
  | script path => exact (ho.scripts path).mp hb
  | session id | device id | getty id | argv id => exact hsession (by simp [sessionBlocks])

/-- Where `main` enters a state, each block that its globals point to is live; and if the setup of no
session has failed after its struct and its device were allocated, no other block is. -/
theorem mainLoop_noLeak (how : List UInt8 → Int) (fuel : Nat) (rc : Bool) (req : List UInt8) (err : Int)
    {s : InitState} (hv : Visits (switchOf how fuel rc) .runSStartup (Globals.initial req err) t s g) :
    (∀ b, held g b → Live (heapOps t) b) ∧ (Unbroken t → ∀ b, Live (heapOps t) b → held g b) :=
  have ho := (visits_heap hv).1
  ⟨fun _ => live_of_held ho, fun hu _ => held_of_live ho hu⟩

/-- The calls up to the message loop with two empty scripts and one session. -/
def untilStarted : List (Event sys) :=
  [] ++ (loadsScript PATH_S_STARTUP [] ++ loadsScript PATH_S_SHUTDOWN []) ++ [] ++ startsSession

/-- Where the message loop is entered, the blocks of the two scripts and of the session are all that is
live. -/
theorem mainLoop_noLeak_session : ∃ g, Visits (switchOf (fun _ => 0) 3 false) .runSStartup
      (Globals.initial [] 0) untilStarted .messageLoop g ∧
    (∀ b, Live (heapOps untilStarted) b ↔ held g b) ∧ Live (heapOps untilStarted) (.device 0) := by
  have hload : (mainRound (switchOf (fun _ => 0) 3 false) .runSStartup (Globals.initial [] 0)).Runs
      (loadsScript PATH_S_STARTUP [] ++ loadsScript PATH_S_SHUTDOWN []) (.ok (.again .runRcStartup), _) :=
    .cons (.cons (.cons (.cons (.cons (.cons (.cons (.cons (.cons (.cons (.nil _))))))))))
  have hscripts : Visits (switchOf (fun _ => 0) 3 false) .runSStartup (Globals.initial [] 0)
      ([] ++ (loadsScript PATH_S_STARTUP [] ++ loadsScript PATH_S_SHUTDOWN []) ++ []) .startSessions _ :=
    .snoc (.snoc .nil hload) (.nil _)
  have hv : Visits (switchOf (fun _ => 0) 3 false) .runSStartup (Globals.initial [] 0)
      untilStarted .messageLoop _ :=
    .snoc hscripts (.cons (.cons (.cons (.cons (.cons (.cons (.cons (.cons (.cons (.cons (.nil _)))))))))))
  have hleak := mainLoop_noLeak (fun _ => 0) 3 false [] 0 hv
  have hlive : ∀ b, Live (heapOps untilStarted) b ↔ held _ b := fun b =>
    ⟨hleak.2 (by unfold Unbroken; decide +kernel) b, hleak.1 b⟩
  exact ⟨_, hv, hlive, (hlive (.device 0)).mpr ⟨_, .head _, rfl⟩⟩

end Cheviot.Proof
