import Cheviot.Proof.Phases
import Cheviot.Spec.Heap

/-!
# sysinit closes its files

`load_bootstrap_file` closes the file that it has opened, whichever of its calls fails
(`loadBootstrapFile_files`), and nothing else in sysinit does anything with a file (`fileOp_other`). So in
any run of `main` each descriptor is closed once and not used after that, and no file is open when it
makes another call (`mainLoop_files`): in particular, none of them is left to a child.
-/

namespace Cheviot.Proof

open Framework Cheviot.Sysinit Cheviot.Spec
open Framework.HeapOp

variable {how : List UInt8 → Int} {fuel : Nat} {rc : Bool} {g g' : Globals} {s : InitState}
  {h t : List (Event sys)} {e : Event sys} {fd : Int}

/-! ## One more call -/

theorem fileOps_idle (he : fileOp e = none) : fileOps (h ++ [e]) = fileOps h := by
  rw [fileOps, List.filterMap_append, List.filterMap_cons_none he, List.filterMap_nil, List.append_nil, fileOps]

theorem fileOps_some {op : HeapOp Int} (he : fileOp e = some op) : fileOps (h ++ [e]) = fileOps h ++ [op] := by
  rw [fileOps, List.filterMap_append, List.filterMap_cons_some he, List.filterMap_nil, fileOps]

/-- Descriptors are used only while they are open, and are closed before a call that is not about the
file that is open. -/
structure FilesWell (t : List (Event sys)) : Prop where
  safe : Safe (fileOps t)
  closed : ∀ before e after, t = before ++ e :: after → isOnFile e.call = false →
    ∀ fd, ¬ Live (fileOps before) fd

/-- The file that is open, if there is one. -/
structure Opened (o : Option Int) (h : List (Event sys)) : Prop where
  well : FilesWell h
  live : ∀ fd, Live (fileOps h) fd ↔ o = some fd

theorem FilesWell.snoc (hw : FilesWell h) (hop : ∀ op, fileOp e = some op → Allowed (fileOps h) op)
    (hclosed : isOnFile e.call = false → ∀ fd, ¬ Live (fileOps h) fd) : FilesWell (h ++ [e]) where
  safe := by
    cases he : fileOp e with
    | none =>
      rw [fileOps_idle he]
      exact hw.safe
    | some op =>
      rw [fileOps_some he]
      exact safe_snoc.mpr ⟨hw.safe, hop op he⟩
  closed before e' after h' := by
    rcases snoc_eq_append_cons h' with ⟨rfl, rfl⟩ | ⟨after, rfl⟩
    · exact hclosed
    · exact hw.closed before e' after rfl

theorem Opened.not_live (ho : Opened none h) (fd : Int) : ¬ Live (fileOps h) fd := by
  rw [ho.live]
  exact Option.some_ne_none fd ∘ Eq.symm

theorem Opened.idle {o : Option Int} (ho : Opened o h) (he : fileOp e = none)
    (hcall : o = none ∨ isOnFile e.call) : Opened o (h ++ [e]) where
  well := ho.well.snoc (fun op hop => by rw [he] at hop; cases hop) fun hnot fd => by
    rcases hcall with rfl | hcall
    · exact ho.not_live fd
    · rw [hcall] at hnot
      cases hnot
  live fd := by rw [fileOps_idle he, ho.live]

/-- A file is opened. -/
theorem Opened.open (ho : Opened none h) (he : fileOp e = some (.alloc fd)) : Opened (some fd) (h ++ [e]) where
  well := ho.well.snoc (fun op hop => by
    obtain rfl := Option.some.inj (he.symm.trans hop)
    exact ho.not_live fd) fun _ => ho.not_live
  live fd' := by
    rw [fileOps_some he, live_alloc, Option.some_inj, eq_comm]
    exact or_iff_left (ho.not_live fd')

/-- The file that is open is looked at. -/
theorem Opened.use (ho : Opened (some fd) h) (he : fileOp e = some (.use [fd])) (hcall : isOnFile e.call) :
    Opened (some fd) (h ++ [e]) where
  well := ho.well.snoc (fun op hop => by
    obtain rfl := Option.some.inj (he.symm.trans hop)
    exact List.forall_mem_singleton.mpr ((ho.live fd).mpr rfl)) fun hnot => by rw [hcall] at hnot; cases hnot
  live fd' := by rw [fileOps_some he, live_use, ho.live]

/-- The file that is open is closed. -/
theorem Opened.close (ho : Opened (some fd) h) (he : fileOp e = some (.free fd)) (hcall : isOnFile e.call) :
    Opened none (h ++ [e]) where
  well := ho.well.snoc (fun op hop => by
    obtain rfl := Option.some.inj (he.symm.trans hop)
    exact (ho.live fd).mpr rfl) fun hnot => by rw [hcall] at hnot; cases hnot
  live fd' := by
    rw [fileOps_some he, live_free, ho.live, Option.some_inj]
    exact iff_of_false (fun ⟨heq, hne⟩ => hne heq.symm) (fun heq => by cases heq)

/-! ## Loading a script -/

/-- `load_bootstrap_file` closes its file, whatever fails. -/
theorem loadBootstrapFile_files {A : List (Event sys) → Event sys → Prop} (path : Str) (slot : Slot)
    (ho : Opened none h) : Proc.Wp A FilesWell (loadBootstrapFile path slot) g h fun _ _ h' => Opened none h' := by
  refine Proc.wp_bind.mpr (wp_syscall.mpr fun fd e _ => ?_)
  by_cases hfd : fd < 0
  · have ho₁ := ho.idle (e := ⟨.open path, (fd, e)⟩) (if_pos hfd) (.inl rfl)
    exact ⟨ho₁.well, Proc.wp_ite.mpr ⟨fun _ => Proc.wp_pure.mpr ho₁, fun hnot => absurd hfd hnot⟩⟩
  have ho₁ := ho.open (e := ⟨.open path, (fd, e)⟩) (if_neg hfd)
  refine ⟨ho₁.well, Proc.wp_ite.mpr ⟨fun hpos => absurd hpos hfd, fun _ => ?_⟩⟩
  refine Proc.wp_bind.mpr (wp_syscall.mpr fun st e _ => ?_)
  have ho₂ := ho₁.use (e := ⟨.fstat fd, (st, e)⟩) rfl rfl
  refine ⟨ho₂.well, Proc.wp_ite.mpr ⟨fun _ => ?_, fun _ => ?_⟩⟩
  · refine Proc.wp_bind.mpr (wp_syscall.mpr fun r e _ => ?_)
    have ho₃ := ho₂.close (e := ⟨.close fd, (r, e)⟩) rfl rfl
    exact ⟨ho₃.well, Proc.wp_pure.mpr ho₃⟩
  · refine Proc.wp_bind.mpr (wp_syscall.mpr fun block e _ => ?_)
    have ho₃ := ho₂.idle (e := ⟨.malloc (.script path) (.chars (st.2 + 1)), (block, e)⟩) rfl (.inr rfl)
    refine ⟨ho₃.well, ?_⟩
    cases block with
    | none =>
      refine Proc.wp_bind.mpr (wp_syscall.mpr fun r e _ => ?_)
      have ho₄ := ho₃.close (e := ⟨.close fd, (r, e)⟩) rfl rfl
      exact ⟨ho₄.well, Proc.wp_pure.mpr ho₄⟩
    | some block =>
      refine Proc.wp_bind.mpr (wp_syscall.mpr fun data e _ => ?_)
      have ho₄ := ho₃.use (e := ⟨.read fd (.script path) st.2, (data, e)⟩) rfl rfl
      refine ⟨ho₄.well, Proc.wp_bind.mpr (wp_syscall.mpr fun r e _ => ?_)⟩
      have ho₅ := ho₄.close (e := ⟨.close fd, (r, e)⟩) rfl rfl
      exact ⟨ho₅.well, Proc.wp_bind.mpr (Proc.wp_modify.mpr (Proc.wp_pure.mpr ho₅))⟩

/-! ## Runs of `main` -/

/-- Only the calls that load a script do anything with a file. -/
theorem fileOp_other (hc : isLoad e.call = false) : fileOp e = none := by
  obtain ⟨c, r⟩ := e
  cases c <;> first | rfl | cases hc

/-- Only the first state loads a script. -/
theorem callsOf_load {c : Call} (hs : s ≠ .runSStartup) (hc : callsOf rc s c) : isLoad c = false := by
  by_contra hload
  rw [Bool.not_eq_false] at hload
  unfold isLoad at hload
  split at hload <;> first
    | (cases s <;> cases rc <;> first | exact hs rfl | cases hc)
    | cases hload

/-- No state leaves a file open. -/
theorem switch_files {A : List (Event sys) → Event sys → Prop} (rc : Bool) (s : InitState) (g : Globals)
    (ho : Opened none h) : Proc.Wp A FilesWell (switchOf how fuel rc s) g h fun _ _ h' => Opened none h' := by
  have hother : ∀ h e, Opened none h → isLoad e.call = false → Opened none (h ++ [e]) := fun h e ho hc =>
    ho.idle (fileOp_other hc) (.inl rfl)
  by_cases hs : s = .runSStartup
  · subst hs
    rw [switchOf_eq (by decide) (by decide)]
    refine Proc.wp_bind.mpr ((loadBootstrapFile_files _ _ ho).mono fun sc g₁ h₁ ho₁ => ?_)
    refine Proc.wp_ite.mpr ⟨fun _ => Proc.wp_pure.mpr ho₁, fun _ => ?_⟩
    refine Proc.wp_bind.mpr ((loadBootstrapFile_files _ _ ho₁).mono fun sc g₂ h₂ ho₂ => ?_)
    refine Proc.wp_ite.mpr ⟨fun _ => Proc.wp_pure.mpr ho₂, fun _ => Proc.wp_bind.mpr (Proc.wp_get.mpr ?_)⟩
    refine Proc.wp_bind.mpr (((processBootstrapScript_frame _).wp (J := Opened none)
      (fun h e ho hc => hother h e ho (@callsOf_load rc .runSShutdown _ (by decide) hc))
      (fun _ ho => ho.well) ho₂).mono fun sc g₃ h₃ hpost => ?_)
    exact Proc.wp_ite.mpr ⟨fun _ => Proc.wp_pure.mpr hpost.2, fun _ => Proc.wp_pure.mpr hpost.2⟩
  · exact (Prog.wp_of_steps (P := fun e => isLoad e.call = false) (R := fun _ => True) (J := Opened none)
      (fun t q hsteps => ⟨fun e he => callsOf_load hs (switch_calls hsteps e he), fun _ _ => trivial⟩)
      hother (fun _ ho => ho.well) ho).mono fun _ _ hx _ _ => hx.2

theorem opened_initial : Opened none [] where
  well := ⟨safe_nil, fun _ _ _ h => by simp at h⟩
  live fd := iff_of_false not_live_nil (by simp)

/-- Whatever the answers, with the rc scripts or without, no run of `main` reads from the descriptor of a
script where that is not open, closes one twice, or makes a call that is not about the script that is
open before that is closed. -/
theorem mainLoop_files (how : List UInt8 → Int) (fuel n : Nat) (rc : Bool) (req : List UInt8) (err : Int)
    {q : Prog sys (Out Unit × Globals)}
    (hs : (mainLoop (switchOf how fuel rc) n .runSStartup (Globals.initial req err)).Steps t q) :
    Safe (fileOps t) ∧ ∀ before e after, t = before ++ e :: after → isOnFile e.call = false →
      ∀ fd, ¬ Live (fileOps before) fd := by
  have hw : Proc.Wp (fun _ _ => True) FilesWell (mainLoop (switchOf how fuel rc) n .runSStartup)
      (Globals.initial req err) [] fun _ _ _ => True := by
    refine Proc.wp_iter (J := fun _ _ h => Opened none h) (fun s g h ho => ?_) n _ _ _ opened_initial
    exact Proc.wp_bind.mpr ((switch_files rc s g ho).mono fun s' g' h' ho' => Proc.wp_pure.mpr ho')
  have hwell := hw.invariant hs (fun _ _ _ _ => trivial) opened_initial.well
  exact ⟨hwell.safe, hwell.closed⟩

/-- The calls that load s.startup where `malloc` fails. -/
def noMemory : List (Event sys) :=
  [⟨.open PATH_S_STARTUP, (3, 0)⟩, ⟨.fstat 3, ((0, 8), 0)⟩,
    ⟨.malloc (.script PATH_S_STARTUP) (.chars 9), (none, 12)⟩, ⟨.close 3, (0, 0)⟩]

/-- The whole run with the rc scripts, which has closed its two scripts before the first command, and a
run whose `malloc` for s.startup fails. -/
theorem mainLoop_files_wholeRun :
    (∃ q, (mainLoop (switchOf firstByte 3 true) 9 .runSStartup (Globals.initial [0] 0)).Steps (wholeRun true) q ∧
      Safe (fileOps (wholeRun true)) ∧
      ∀ fd, ¬ Live (fileOps (loadsScript PATH_S_STARTUP "createport".toList ++
        loadsScript PATH_S_SHUTDOWN "sleep 1".toList)) fd) ∧
    ∃ q, (mainLoop (switchOf firstByte 3 true) 9 .runSStartup (Globals.initial [0] 0)).Steps
        (noMemory ++ [⟨.shutdownOs 0, (0, 0)⟩]) q ∧ ∀ fd, ¬ Live (fileOps noMemory) fd := by
  have hs : ∃ q, (mainLoop (switchOf firstByte 3 true) 9 .runSStartup (Globals.initial [0] 0)).Steps
      (wholeRun true) q := by decide +kernel
  have hm : ∃ q, (mainLoop (switchOf firstByte 3 true) 9 .runSStartup (Globals.initial [0] 0)).Steps
      (noMemory ++ [⟨.shutdownOs 0, (0, 0)⟩]) q := by decide +kernel
  obtain ⟨q, hs⟩ := hs
  obtain ⟨q', hm⟩ := hm
  obtain ⟨hsafe, hclosed⟩ := mainLoop_files firstByte 3 9 true [0] 0 hs
  exact ⟨⟨q, hs, hsafe, hclosed _ _ _ rfl rfl⟩, q', hm,
    (mainLoop_files firstByte 3 9 true [0] 0 hm).2 noMemory ⟨.shutdownOs 0, (0, 0)⟩ [] rfl rfl⟩

end Cheviot.Proof
