import Cheviot.Proof.Heap
import Cheviot.Proof.Terminals

/-!
# Where the children come from

The children that a run of `main` forks are those it should: each getty is of a terminal that
`getttyent` has told of (`mainLoop_told`), and a shell runs one of the rc scripts, and a `start` a
program (`mainLoop_proper`). With what is known of the children's code this is `children_run`: in any
order of the steps of sysinit and its children.
-/

namespace Cheviot.Proof

open Framework Cheviot.Sysinit Cheviot.Spec

variable {how : List UInt8 → Int} {fuel : Nat} {rc : Bool} {g g' : Globals} {l l' : SessionTable} {sp : Session}
  {typ : Ttyent} {t h : List (Event Sysinit.sys)} {e : Event Sysinit.sys}

/-! ## What the ttys file has told -/

theorem fromTtys_append {device : Str} {argv : List Str} (hf : FromTtys t device argv)
    (u : List (Event Sysinit.sys)) : FromTtys (t ++ u) device argv := by
  obtain ⟨hne, typ, hmem, hactive, hdevice, hargv⟩ := hf
  refine ⟨hne, typ, ?_, hactive, hdevice, hargv⟩
  rw [ttys, List.filterMap_append]
  exact List.mem_append_left _ hmem

/-- Each getty that has been forked is of a terminal that the ttys file has told of. -/
def GettysTold (h : List (Event Sysinit.sys)) : Prop :=
  ∀ e ∈ h, ∀ id device argv, e.call = .fork (.getty id device argv) → FromTtys h device argv

/-- So is each session of the table. -/
structure Told (l : SessionTable) (h : List (Event Sysinit.sys)) : Prop where
  gettys : GettysTold h
  sessions : ∀ sp ∈ l.entries, FromTtys h sp.seDevice sp.seGettyArgv

theorem gettysTold_snoc (hh : GettysTold h)
    (he : ∀ id device argv, e.call = .fork (.getty id device argv) → FromTtys h device argv) :
    GettysTold (h ++ [e]) := by
  intro e' hmem id device argv hc
  rcases List.mem_append.mp hmem with hmem | hmem
  · exact fromTtys_append (hh e' hmem id device argv hc) _
  · rw [List.mem_singleton.mp hmem] at hc
    exact fromTtys_append (he id device argv hc) _

theorem Told.snoc (ho : Told l h)
    (he : ∀ id device argv, e.call = .fork (.getty id device argv) → FromTtys h device argv) :
    Told l (h ++ [e]) :=
  ⟨gettysTold_snoc ho.gettys he, fun sp hsp => fromTtys_append (ho.sessions sp hsp) _⟩

/-- A call that forks no getty. -/
theorem Told.idle (ho : Told l h) (he : forksGetty e.call = none) : Told l (h ++ [e]) :=
  ho.snoc fun id device argv hc => by
    rw [hc] at he
    cases he

/-- Sessions of the same terminals. -/
theorem Told.of_sessions (ho : Told l h) (hl : ∀ sp ∈ l'.entries, ∃ sp' ∈ l.entries,
    sp.seDevice = sp'.seDevice ∧ sp.seGettyArgv = sp'.seGettyArgv) : Told l' h := by
  refine ⟨ho.gettys, fun sp hsp => ?_⟩
  obtain ⟨sp', hsp', hdevice, hargv⟩ := hl sp hsp
  rw [hdevice, hargv]
  exact ho.sessions sp' hsp'

theorem Told.remEntry (ho : Told l h) (sp : Session) : Told (l.remEntry sp) h :=
  ho.of_sessions fun sp' hsp' => ⟨sp', (mem_remEntry hsp').1, rfl, rfl⟩

theorem Told.restart (ho : Told l h) (id : Nat) (pid : Option Pid) : Told (restarted l id pid) h := by
  cases pid with
  | none => exact ho
  | some pid =>
    refine ho.of_sessions fun sp hsp => ?_
    rcases mem_setProcess hsp with ⟨hsp, -⟩ | ⟨sp', hsp', -, rfl⟩
    · exact ⟨sp, hsp, rfl, rfl⟩
    · exact ⟨sp', hsp', rfl, rfl⟩

/-- A getty is forked for a session of the table. -/
theorem Told.fork (ho : Told l h) (hsp : sp ∈ l.entries) (pid : Option Pid) (err : Int) :
    Told (restarted l sp.id pid) (h ++ [⟨.fork (.getty sp.id sp.seDevice sp.seGettyArgv), (pid, err)⟩]) := by
  refine (ho.restart sp.id pid).snoc fun id device argv hc => ?_
  cases hc
  exact ho.sessions sp hsp

/-! ## The sessions -/

/-- A session that has been added has a command line with a word. -/
theorem setupRun_words {id : Nat} (hr : SetupRun id (commandLine typ) t true) : words (commandLine typ) ≠ [] := by
  cases hr with
  | argv e hargv =>
    cases hargv with
    | words n v e hword =>
      obtain ⟨x, hx⟩ := Option.ne_none_iff_exists'.mp hword
      rw [(words_of_strtok_some hx).1]
      exact List.cons_ne_nil _ _

theorem allocRun_told {i : Nat} {r : Option Session} (hr : AllocRun i typ l t r l') (ho : Told l h)
    (htyp : some typ ∈ ttys h) : Told l' h := by
  cases hr with
  | refused _ | noSession _ _ | noDevice _ _ _ _ _ _ => exact ho
  | noArgv n v s e e' _ _ _ _ => exact ho.remEntry _
  | added n v s e e' hactive hsetup =>
    refine ⟨ho.gettys, fun sp hsp => ?_⟩
    rw [addTail_entries rfl] at hsp
    rcases List.mem_append.mp hsp with hsp | hsp
    · exact ho.sessions sp hsp
    · rw [List.mem_singleton.mp hsp]
      exact ⟨setupRun_words hsetup, typ, htyp, hactive, rfl, rfl⟩

theorem allocRun_noFork {i : Nat} {r : Option Session} (hr : AllocRun i typ l t r l') :
    ∀ e ∈ t, forksGetty e.call = none := by
  have hargv : ∀ {id command t r}, ArgvRun id command t r → ∀ e ∈ t, forksGetty e.call = none := by
    intro id command t r hr
    cases hr <;> simp [forksGetty]
  have hsetup : ∀ {id command t ok}, SetupRun id command t ok → ∀ e ∈ t, forksGetty e.call = none := by
    intro id command t ok hr
    cases hr with
    | noLine e => simp [forksGetty]
    | noArgv e e' hr => simpa [forksGetty, or_imp, forall_and] using hargv hr
    | argv e hr => simpa [forksGetty] using hargv hr
  cases hr with
  | refused _ | noSession _ _ | noDevice _ _ _ _ _ _ => simp [forksGetty]
  | noArgv n v s e e' _ _ hr hfrees =>
    have hfree := fun e he => forksGetty_free (hfrees.isFree e he)
    simpa [forksGetty, or_imp, forall_and] using And.intro (hsetup hr) hfree
  | added n v s e e' _ hr => simpa [forksGetty] using hsetup hr

theorem sys_nonempty (c : Call) : Nonempty (Sysinit.sys.Ret c) := by
  cases c <;> first
    | exact ⟨((0, 0), 0)⟩
    | exact ⟨(none, 0)⟩
    | exact ⟨((), 0)⟩
    | exact ⟨(false, 0)⟩
    | exact ⟨(⟨0, 0, false⟩, 0)⟩
    | exact ⟨(.none 0, 0)⟩
    | exact ⟨((0, []), 0)⟩
    | exact ⟨(.none, 0)⟩
    | exact ⟨(0, 0)⟩

/-- `alloc_session` adds the session of a terminal that is on, or none. -/
theorem allocSession_told {A : List (Event Sysinit.sys) → Event Sysinit.sys → Prop} {i : Nat}
    (ho : Told g.sessionList h) (htyp : some typ ∈ ttys h) :
    Proc.Wp A GettysTold (allocSession i typ) g h fun _ g' h' => Told g'.sessionList h' := by
  have hcalls : ∀ t q, (allocSession i typ g).Steps t q → (∀ e ∈ t, forksGetty e.call = none) ∧
      ∀ x, q = .ret x → ∀ a, x.1 = .ok a → ∃ t, AllocRun i typ g.sessionList t a x.2.sessionList := by
    refine fun t q hs => ⟨Prog.calls_of_runs sys_nonempty (fun u x hx => ?_) hs, ?_⟩
    · obtain ⟨r, ho⟩ := allocSession_total i typ _ _ _ _ hx
      obtain ⟨o, g'⟩ := x
      obtain rfl : o = .ok r := ho
      exact allocRun_noFork (allocSession_cases hx)
    · rintro ⟨o, g'⟩ rfl a rfl
      exact ⟨t, allocSession_cases hs⟩
  refine (Prog.wp_of_steps (J := fun h => Told g.sessionList h ∧ some typ ∈ ttys h) hcalls
    (fun h e hJ he => ⟨hJ.1.idle he, ?_⟩) (fun _ hJ => hJ.1.gettys) ⟨ho, htyp⟩).mono fun x h' hx a ha => ?_
  · rw [ttys, List.filterMap_append]
    exact List.mem_append_left _ hJ.2
  · obtain ⟨t, hr⟩ := hx.1 a ha
    exact allocRun_told hr hx.2.1 hx.2.2

theorem told_start {A : List (Event Sysinit.sys) → Event Sysinit.sys → Prop} :
    StartInvariant A GettysTold Told where
  holds _ _ ho := ho.gettys
  ttys _ _ e ho he := ho.idle (by rcases he with he | he | he <;> rw [he] <;> rfl)
  alloc g h i typ e ho := allocSession_told ho (by
    rw [ttys, List.filterMap_append]
    exact List.mem_append_right _ List.mem_cons_self)
  fork _ _ _ pid e ho hsp := ho.fork hsp pid e

theorem told_rc {A : List (Event Sysinit.sys) → Event Sysinit.sys → Prop} :
    RcInvariant A GettysTold Told where
  holds _ _ ho := ho.gettys
  idle _ _ _ ho _ he := ho.idle (forksGetty_idleRc he)
  collect g h pid status e ho _ := by
    have ho' := ho.idle (e := ⟨.waitpid true, (some (pid, status), e)⟩) rfl
    refine ⟨ho'.gettys, collectProcess_wp (J := Told g.sessionList) (fun h e ho he => ho.idle (forksGetty_free he))
      (fun _ ho => ho.gettys) ho' (fun _ => ho') (fun sp _ _ g' h' hg ho => hg ▸ ho.remEntry sp)
      fun sp hfind _ r err _ => ?_⟩
    have hfork := ho'.fork (findSession_some hfind).1 r err
    exact ⟨hfork.gettys, fun g' hg => hg ▸ hfork⟩

/-! ## Runs of `main` -/

theorem forksGetty_load {c : Call} (hc : isLoad c) : forksGetty c = none := by
  cases c <;> first | rfl | cases hc

theorem forksGetty_message {c : Call} (hc : isMessage c) : forksGetty c = none := by
  cases c <;> first | rfl | cases hc

theorem forksGetty_reap {c : Call} (hc : isReap c) : forksGetty c = none := by
  cases c <;> first | rfl | cases hc

/-- Where `main` is about to enter a state. -/
def ToldAt (s : InitState) (g : Globals) (h : List (Event Sysinit.sys)) : Prop :=
  GettysTold h ∧ (rank s < 7 → Told g.sessionList h)

/-- The states up to the reaper that neither start nor collect a session leave the table alone. -/
theorem switch_table {s : InitState} (hs : s ∈ [.runSStartup, .messageLoop, .stopSessions, .runSShutdown]) :
    Proc.Frame (fun c => forksGetty c = none) (·.sessionList) (switchOf how fuel rc s) := by
  have hscript : ∀ buf, Proc.Frame (fun c => forksGetty c = none) (·.sessionList) (processBootstrapScript fuel buf) :=
    fun buf => ((processBootstrapScript_frame buf).part (·.2.2.2.1)).mono fun _ hc => forksGetty_command hc
  simp only [List.mem_cons, List.not_mem_nil, or_false] at hs
  rcases hs with rfl | rfl | rfl | rfl
  · rw [switchOf_eq (by decide) (by decide)]
    have load : ∀ path slot, Proc.Frame (fun c => forksGetty c = none) (·.sessionList) (loadBootstrapFile path slot) :=
      fun path slot => ((loadBootstrapFile_frame path slot).part (·.2.2.2.1)).mono fun _ hc => forksGetty_load hc
    exact .bind (load _ _) fun _ => .ite (.pure _) (.bind (load _ _) fun _ => .ite (.pure _)
      (.bind .get fun _ => .bind (hscript _) fun _ => .ite (.pure _) (.pure _)))
  · rw [switchOf_eq (by decide) (by decide)]
    exact ((stateMessageLoop_frame how).part (·.2.2.2.2)).mono fun _ hc => forksGetty_message hc
  · rw [switchOf_eq (by decide) (by decide)]
    exact .pure _
  · rw [switchOf_eq (by decide) (by decide)]
    exact .bind .get fun _ => .bind (hscript _) fun _ => .ite (.pure _) (.pure _)

/-- The last states start no session, and collect none to start it again. -/
theorem forksGetty_late {s : InitState} {c : Call} (hs : 7 ≤ rank s) (hc : callsOf rc s c) : forksGetty c = none := by
  cases s with
  | reaper => exact forksGetty_reap hc
  | shutdown => cases c <;> first | rfl | cases hc
  | failure => cases hc
  | _ => exact absurd hs (by decide)

/-- What has been told of the gettys holds after each of the states, if it did before it. -/
theorem switch_told {A : List (Event Sysinit.sys) → Event Sysinit.sys → Prop} {s : InitState} (hat : ToldAt s g h) :
    Proc.Wp A GettysTold (switchOf how fuel rc s) g h fun _ g' h' =>
      GettysTold h' ∧ (rank s < 7 → Told g'.sessionList h') := by
  obtain ⟨hh, htold⟩ := hat
  by_cases hlate : 7 ≤ rank s
  · have hcalls : ∀ t q, (switchOf how fuel rc s g).Steps t q → (∀ e ∈ t, forksGetty e.call = none) ∧
        ∀ x, q = .ret x → True := fun t q hs =>
      ⟨fun e he => forksGetty_late hlate (switch_calls hs e he), fun _ _ => trivial⟩
    refine (Prog.wp_of_steps hcalls (fun h e hh he => gettysTold_snoc hh fun _ _ _ hc => ?_) (fun _ hh => hh)
      hh).mono fun x h' hx a _ => ⟨hx.2, fun hlt => absurd hlate (Nat.not_le.mpr hlt)⟩
    rw [hc] at he
    cases he
  · have ho := htold (Nat.lt_of_not_le hlate)
    suffices hw : Proc.Wp A GettysTold (switchOf how fuel rc s) g h fun _ g' h' => Told g'.sessionList h' from
      hw.mono fun _ g' h' ho' => ⟨ho'.gettys, fun _ => ho'⟩
    have table : s ∈ [.runSStartup, .messageLoop, .stopSessions, .runSShutdown] →
        Proc.Wp A GettysTold (switchOf how fuel rc s) g h fun _ g' h' => Told g'.sessionList h' := fun hs =>
      ((switch_table hs).wp (J := Told g.sessionList) (fun _ _ ho he => ho.idle he) (fun _ ho => ho.gettys) ho).mono
        fun _ g' h' hpost => hpost.1 ▸ hpost.2
    have hrc : ∀ path, Proc.Wp A GettysTold (doRunRc fuel path) g h fun _ g' h' => Told g'.sessionList h' :=
      fun path => doRunRc_wp fuel path told_rc ho
    cases s with
    | runSStartup | messageLoop | stopSessions | runSShutdown => exact table (by decide)
    | startSessions =>
      rw [switchOf_eq (by decide) (by decide)]
      exact stateStartSessions_wp told_start ho
    | runRcStartup =>
      cases rc with
      | false => exact Proc.wp_pure.mpr ho
      | true =>
        exact Proc.wp_bind.mpr ((hrc _).mono fun _ _ _ ho => Proc.wp_ite.mpr
          ⟨fun _ => Proc.wp_pure.mpr ho, fun _ => Proc.wp_pure.mpr ho⟩)
    | runRcShutdown =>
      cases rc with
      | false => exact Proc.wp_pure.mpr ho
      | true => exact Proc.wp_bind.mpr ((hrc _).mono fun _ _ _ ho => Proc.wp_pure.mpr ho)
    | reaper | failure | shutdown => exact absurd (by decide) hlate

/-- Each getty that a run of `main` forks is of a terminal that is on, of which `getttyent` has told. -/
theorem mainLoop_told {n : Nat} {req : List UInt8} {err : Int} {q : Prog Sysinit.sys (Out Unit × Globals)}
    (hs : (mainLoop (switchOf how fuel rc) n .runSStartup (Globals.initial req err)).Steps t q) : GettysTold t := by
  have hnone : GettysTold [] := fun _ he => absurd he List.not_mem_nil
  have hw : Proc.Wp (fun _ _ => True) GettysTold (mainLoop (switchOf how fuel rc) n .runSStartup)
      (Globals.initial req err) [] fun _ _ _ => True := by
    refine Proc.wp_iter (J := ToldAt) (fun s g h hat => ?_) n _ _ _
      ⟨hnone, fun _ => ⟨hnone, fun _ hsp => absurd hsp List.not_mem_nil⟩⟩
    refine Proc.wp_bind.mpr (((switch_told hat).and_returns (R := fun s' _ => rank s < rank s')
      fun _ _ _ hr => switch_rank hr).mono fun s' g' h' hpost => Proc.wp_pure.mpr ⟨hpost.1.1, fun hlt => ?_⟩)
    exact hpost.1.2 (Nat.lt_trans hpost.2 hlt)
  exact hw.invariant hs (fun _ _ _ _ => trivial) hnone

/-! ## Shells and programs -/

/-- The command line of a child that is no getty: the shell on one of the rc scripts, or a program. -/
def Proper (c : Call) : Prop :=
  (∀ argv, c = .fork (.rc argv) → ∃ path ∈ [PATH_RC_STARTUP, PATH_RC_SHUTDOWN], argv = [PATH_SHELL, path]) ∧
    ∀ session argv, c = .fork (.start session argv) → argv ≠ []

theorem proper_of {c : Call} (hrc : ∀ argv, c ≠ .fork (.rc argv))
    (hstart : ∀ session argv, c ≠ .fork (.start session argv)) :
    Proper c := ⟨fun argv hc => absurd hc (hrc argv), fun session argv hc => absurd hc (hstart session argv)⟩

/-- Code whose calls are proper. -/
abbrev RunsProper {α : Type} (p : Sys α) : Prop := Proc.Frame Proper (fun _ => ()) p

theorem proper_syscall {c : Call} (h : Proper c) : RunsProper (syscall c) := syscall_frame h fun _ _ => rfl

theorem sTokenize_proper (line : Option Nat) : RunsProper (sTokenize line) :=
  .bind (.modify fun _ => rfl) fun _ => .bind .get fun _ => .bind (.orFault _) fun _ =>
    .bind (.orFault _) fun _ => .bind (.modify fun _ => rfl) fun _ => .pure _

theorem storeArgs_proper : ∀ n t, RunsProper (storeArgs n t)
  | 0, _ => .pure _
  | n + 1, t => .bind (sTokenize_proper none) fun tok => .bind (.modify fun _ => rfl) fun _ => by
    cases tok with
    | none => exact .pure _
    | some _ => exact storeArgs_proper n (t + 1)

/-- The strings of an array whose first entry is not NULL. -/
theorem argvStrings_ne_nil {buf : Vector Char 256} {n p : Nat} {ps : Vector (Option Nat) (n + 1)} {argv : List Str}
    (hp : ps[0] = some p) (h : argvStrings buf ps.toList = some argv) : argv ≠ [] := by
  obtain ⟨q, qs, hqs⟩ := List.exists_cons_of_length_eq_add_one (ps.length_toList)
  have hq : q = ps[0] := by
    have hzero : ps.toList[0]? = some ps[0] := by simp
    rw [hqs] at hzero
    exact Option.some.inj hzero
  rw [hqs, hq, hp, argvStrings] at h
  obtain ⟨_, -, rfl⟩ := Option.map_eq_some_iff.mp h
  exact List.cons_ne_nil _ _

theorem sCmdStart_proper (session : Bool) : RunsProper (sCmdStart session) := by
  refine .bind (storeArgs_proper _ _) fun _ => .bind .get fun g => ?_
  split
  · exact .pure _
  · rename_i p hp
    cases hargv : argvStrings g.linebuf g.startArgv.toList with
    | none => exact .ret (x := fun g => (.fault, g)) (fun _ => rfl) fun _ => rfl
    | some argv =>
      rw [Proc.orFault_some, pure_bind]
      refine .bind (proper_syscall ⟨by simp, fun _ _ hc => ?_⟩) fun pid => ?_
      · cases hc
        exact argvStrings_ne_nil hp hargv
      · cases pid <;> exact .pure _

/-- A handler that takes an operand, or gives up. -/
theorem operand_proper {f : Option Nat → Sys Int} (hnone : f none = pure (-1))
    (hsome : ∀ q, RunsProper (f (some q))) : RunsProper (sTokenize none >>= f) :=
  .bind (sTokenize_proper none) fun tok => by
    cases tok with
    | none => rw [hnone]; exact .pure _
    | some q => exact hsome q

theorem sCmdMknod_proper : RunsProper sCmdMknod :=
  have call : ∀ {path : Str} {st : Stat}, RunsProper (syscall (.mknod2 path 0 st)) :=
    proper_syscall (by simp [Proper])
  operand_proper rfl fun _ => operand_proper rfl fun _ => operand_proper rfl fun _ =>
    .bind .get fun _ => .ite call (.ite call (.pure _))

theorem sCmdWaitfor_proper : RunsProper (sCmdWaitfor fuel) := by
  refine .bind (sTokenize_proper none) fun tok => ?_
  cases tok with
  | none => exact .exit _
  | some q =>
    refine .bind (.iter (fun _ => .bind .get fun _ => ?_) fuel ()) fun _ => .pure _
    exact .bind (proper_syscall (by simp [Proper])) fun _ => .ite (.pure _)
      (.bind (proper_syscall (by simp [Proper])) fun _ => .pure _)

theorem twoOperands_proper {c : Str → Str → Sys Int} (hc : ∀ a b, RunsProper (c a b)) : RunsProper (twoOperands c) :=
  operand_proper rfl fun _ => operand_proper rfl fun _ => .bind .get fun _ => hc _ _

theorem sCmdCreateport_proper : RunsProper sCmdCreateport :=
  .bind (proper_syscall (by simp [Proper])) fun _ => .bind (.modify fun _ => rfl) fun _ =>
    .ite (.pure _) (.bind (proper_syscall (by simp [Proper])) fun _ => .bind (.modify fun _ => rfl) fun _ =>
      .ite (.pure _) (.pure _))

theorem dispatch_proper (cmd : Str) : RunsProper (dispatch fuel cmd) := by
  have drop : ∀ {p : Sys Int}, RunsProper p → RunsProper (do let _ ← p) := fun h => .bind h fun _ => .pure _
  refine .ite (drop (sCmdStart_proper _)) (.ite (drop sCmdWaitfor_proper) (.ite (drop sCmdMknod_proper) ?_))
  refine .ite (drop (operand_proper rfl fun _ => .bind .get fun _ => ?_)) (.ite (drop (operand_proper rfl fun _ =>
    .bind .get fun _ => ?_)) (.ite (drop (twoOperands_proper fun _ _ => ?_)) (.ite (drop (twoOperands_proper
      fun _ _ => ?_)) (.ite (drop sCmdCreateport_proper) (.pure _)))))
  · exact .bind (proper_syscall (by simp [Proper])) fun _ => .pure _
  · exact proper_syscall (by simp [Proper])
  · exact proper_syscall (by simp [Proper])
  · exact proper_syscall (by simp [Proper])

theorem sReadline_proper : RunsProper sReadline :=
  .bind (.modify fun _ => rfl) fun _ => .bind .get fun _ => .bind (.orFault _) fun _ =>
    .ite (.pure _) (.bind (.orFault _) fun _ => .bind (.orFault _) fun _ => .bind (.orFault _)
      fun _ => .bind (.modify fun _ => rfl) fun _ => .pure _)

/-- A script starts programs, each with the tokens of its line. -/
theorem processBootstrapScript_proper (buf : Option (List Char)) : RunsProper (processBootstrapScript fuel buf) := by
  cases buf with
  | none => exact .pure _
  | some buf =>
    refine .bind (.modify fun _ => rfl) fun _ => .bind (.iter (fun _ => .bind sReadline_proper fun line => ?_) _ _)
      fun _ => .pure _
    cases line with
    | none => exact .pure _
    | some line =>
      refine .bind (sTokenize_proper _) fun cmd => .bind .get fun g => ?_
      cases cmd with
      | none => exact .pure _
      | some cmd => exact .ite (.pure _) (.ite (.pure _) (.bind (dispatch_proper _) fun _ => .pure _))

/-- The shells and programs that a state of `main` forks have the command lines they should. -/
theorem switch_proper (s : InitState) : RunsProper (switchOf how fuel rc s) := by
  have of : ∀ {α γ : Type} {P : Call → Bool} {proj : Globals → γ} {p : Sys α}, Proc.Frame (P ·) proj p →
      (∀ argv, P (.fork (.rc argv)) = false) → (∀ session argv, P (.fork (.start session argv)) = false) →
      RunsProper p := fun hp hrc hstart => (hp.part fun _ => ()).mono fun c hc => proper_of
    (fun argv he => by rw [he, hrc] at hc; cases hc) fun session argv he => by rw [he, hstart] at hc; cases hc
  have hrc : ∀ path ∈ [PATH_RC_STARTUP, PATH_RC_SHUTDOWN], RunsProper (doRunRc fuel path) := fun path hpath =>
    ((doRunRc_calls path).part fun _ => ()).mono fun c hc => ⟨fun argv he => ⟨path, hpath, hc.2 argv he⟩,
      fun session argv he => by rw [he] at hc; cases hc.1⟩
  cases s with
  | runSStartup =>
    rw [switchOf_eq (by decide) (by decide)]
    have load : ∀ path slot, RunsProper (loadBootstrapFile path slot) := fun path slot =>
      of (loadBootstrapFile_frame path slot) (fun _ => rfl) fun _ _ => rfl
    exact .bind (load _ _) fun _ => .ite (.pure _) (.bind (load _ _) fun _ => .ite (.pure _)
      (.bind .get fun _ => .bind (processBootstrapScript_proper _) fun _ => .ite (.pure _) (.pure _)))
  | runRcStartup =>
    cases rc with
    | false => exact .pure _
    | true => exact .bind (hrc _ (by simp)) fun _ => .ite (.pure _) (.pure _)
  | startSessions =>
    rw [switchOf_eq (by decide) (by decide)]
    exact of stateStartSessions_frame (fun _ => rfl) fun _ _ => rfl
  | messageLoop =>
    rw [switchOf_eq (by decide) (by decide)]
    exact of (stateMessageLoop_frame how) (fun _ => rfl) fun _ _ => rfl
  | stopSessions | failure =>
    rw [switchOf_eq (by decide) (by decide)]
    exact .pure _
  | runRcShutdown =>
    cases rc with
    | false => exact .pure _
    | true => exact .bind (hrc _ (by simp)) fun _ => .pure _
  | runSShutdown =>
    rw [switchOf_eq (by decide) (by decide)]
    exact .bind .get fun _ => .bind (processBootstrapScript_proper _) fun _ => .ite (.pure _) (.pure _)
  | reaper =>
    rw [switchOf_eq (by decide) (by decide)]
    exact of stateReaper_frame (fun _ => rfl) fun _ _ => rfl
  | shutdown =>
    rw [switchOf_eq (by decide) (by decide)]
    exact .bind (.bind .get fun _ => .bind (proper_syscall (by simp [Proper])) fun _ =>
      .iter (fun _ => .pure _) _ _) fun _ => .pure _

theorem mainLoop_proper (n : Nat) (s : InitState) : RunsProper (mainLoop (switchOf how fuel rc) n s) :=
  .iter (fun s => .bind (switch_proper s) fun _ => .pure _) n s

/-! ## sysinit and its children -/

/-- `init_sysinit` returns to the first process alone, and to no one but root. -/
theorem initSysinit_ok {t : List (Event initSys)} (h : (initSysinit ()).Runs t (.ok (), ())) :
    ⟨.getuid, (0 : Int)⟩ ∈ t ∧ ⟨.getpid, (1 : Int)⟩ ∈ t := by
  rw [initSysinit, Proc.runs_call_bind] at h
  obtain ⟨uid, t, rfl, h⟩ := h
  rw [Proc.ite_apply] at h
  split at h
  · cases (Prog.runs_ret.mp h).2
  · rename_i huid
    rw [Proc.runs_call_bind] at h
    obtain ⟨pid, t, rfl, h⟩ := h
    rw [Proc.ite_apply] at h
    split at h
    · cases (Prog.runs_ret.mp h).2
    · rename_i hpid
      rw [← not_not.mp huid, ← not_not.mp hpid]
      exact ⟨List.mem_cons_self, List.mem_cons_of_mem _ List.mem_cons_self⟩

/-- The calls of the states of `main`, in a run of the whole. -/
theorem filterMap_stateCall (t₁ : List (Event initSys)) (t₂ : List (Event Sysinit.sys)) :
    (t₁.map Event.inl ++ t₂.map Event.inr : List (Event wholeSys)).filterMap stateCall = t₂ := by
  rw [List.filterMap_append, List.filterMap_map, List.filterMap_map]
  have hinl : (stateCall ∘ Event.inl : Event initSys → Option (Event Sysinit.sys)) = fun _ => none := rfl
  have hinr : (stateCall ∘ Event.inr : Event Sysinit.sys → Option (Event Sysinit.sys)) = some := rfl
  rw [hinl, hinr, List.filterMap_some]
  simp

/-- A child is of a fork of a state of `main`. -/
theorem forkedChild_stateCall {e : Event wholeSys} {child : Child} (he : forkedChild e = some child) :
    ∃ e', stateCall e = some e' ∧ e'.call = .fork child := by
  obtain ⟨c, r⟩ := e
  cases c with
  | inl c => cases he
  | inr c =>
    refine ⟨⟨c, r⟩, rfl, ?_⟩
    cases c with
    | fork child' =>
      obtain ⟨pid, err⟩ := r
      cases pid with
      | none => cases he
      | some pid => exact congrArg Call.fork (Option.some.inj he)
    | _ => cases he

/-- A child has been forked by the states of `main`, which only root's first process enters. -/
theorem child_forked {n : Nat} {req : List UInt8} {err : Int} {l : List (PoolLabel wholeSys childSys)}
    {s : Pool wholeSys childSys Child (Out Unit) (Out Unit × Unit) Unit} {child : Child}
    (h : Pool.Run forkKernel ⟨sysinitMain (switchOf how fuel rc) n req err, [], ()⟩ l s)
    (hchild : child ∈ s.children.map (·.1)) : IsRoot (parentCalls l) ∧
      (∃ e ∈ (parentCalls l).filterMap stateCall, e.call = .fork child) ∧
      ∃ q, (mainLoop (switchOf how fuel rc) n .runSStartup (Globals.initial req err)).Steps
        ((parentCalls l).filterMap stateCall) q := by
  rw [h.forked] at hchild
  obtain ⟨e, he, hfork⟩ := List.mem_filterMap.mp hchild
  obtain ⟨e', hcall, hchild⟩ := forkedChild_stateCall hfork
  have hmem : e' ∈ (parentCalls l).filterMap stateCall := List.mem_filterMap.mpr ⟨e, he, hcall⟩
  rcases Proc.steps_andThen h.parent with ⟨t₁, p', ht, -⟩ | ⟨t₁, t₂, _, _, q, ht, hinit, hmain, -⟩
  · have hnone := filterMap_stateCall t₁ []
    rw [List.map_nil, List.append_nil, ← ht] at hnone
    rw [hnone] at hmem
    cases hmem
  · obtain ⟨huid, hpid⟩ := initSysinit_ok hinit
    have hcalls := filterMap_stateCall t₁ t₂
    rw [← ht] at hcalls
    refine ⟨?_, ⟨e', hmem, hchild⟩, q, by rw [hcalls]; exact hmain⟩
    rw [IsRoot, ht]
    exact ⟨List.mem_append_left _ (List.mem_map_of_mem (f := Event.inl) huid),
      List.mem_append_left _ (List.mem_map_of_mem (f := Event.inl) hpid)⟩

/-- In any order of the steps of sysinit and its children, with the rc scripts or without: a child that
is about to run a program is the getty of a terminal that is on, of which `getttyent` has told, and has
that terminal; or the shell on an rc script, with the console and two of its signals ignored; or the
program of a `start`. A child that runs none exits, with a status that tells which call has failed. And
only root's first process forks any. -/
theorem children_run (how : List UInt8 → Int) (fuel n : Nat) (rc : Bool) (req : List UInt8) (err : Int)
    {l : List (PoolLabel wholeSys childSys)} {s : Pool wholeSys childSys Child (Out Unit) (Out Unit × Unit) Unit}
    (h : Pool.Run forkKernel ⟨sysinitMain (switchOf how fuel rc) n req err, [], ()⟩ l s) {i : Nat} {child : Child}
    {q : Prog childSys (Out Unit × Unit)} (hi : s.children[i]? = some (child, q)) : IsRoot (parentCalls l) ∧
      (∀ path argv k, q = .call (.execve path argv) k →
        Executes ((parentCalls l).filterMap stateCall) (childCalls i l) path argv child) ∧
      ∀ o, q = .ret (o, ()) → ExitsTold child (childCalls i l) o := by
  have hmem : child ∈ s.children.map (·.1) := List.mem_map.mpr ⟨_, List.mem_of_getElem? hi, rfl⟩
  obtain ⟨hroot, ⟨e, he, hcall⟩, p, hmain⟩ := child_forked h hmem
  have hproper := (mainLoop_proper n _).calls hmain e he
  have hsteps : (child.code ()).Steps (childCalls i l) q := (h.child i).1 child q hi
  have hargv : argvOf child ≠ [] := by
    cases child with
    | start session argv => exact hproper.2 session argv hcall
    | getty id device argv => exact (mainLoop_told hmain e he id device argv hcall).1
    | rc argv =>
      obtain ⟨path, -, rfl⟩ := hproper.1 argv hcall
      exact List.cons_ne_nil _ _
  refine ⟨hroot, ?_, ?_⟩
  · rintro path argv k rfl
    cases child with
    | start session argv' =>
      obtain ⟨rfl, hpath, hfiles⟩ := startChild_execs hsteps
      exact ⟨rfl, hpath, hfiles⟩
    | getty id device argv' =>
      obtain ⟨rfl, hpath, hfiles⟩ := gettyChild_execs hsteps
      exact ⟨rfl, hpath, mainLoop_told hmain e he id device argv hcall, hfiles⟩
    | rc argv' =>
      obtain ⟨rfl, hpath, hignored, hfiles⟩ := rcChild_execs hsteps
      exact ⟨rfl, hpath, hproper.1 argv hcall, hignored, hfiles⟩
  · rintro o rfl
    exact (child_exits hsteps).resolve_left fun hfault => hargv hfault.2

/-- The calls of `main` with two empty scripts, up to the fork of the shell. -/
def shellForked : List (Event Sysinit.sys) :=
  loadsScript PATH_S_STARTUP [] ++ loadsScript PATH_S_SHUTDOWN [] ++
    [⟨.fork (.rc [PATH_SHELL, PATH_RC_STARTUP]), (some 41, 0)⟩]

/-- The calls of the shell's child, up to its program. -/
def shellCalls : List (Event childSys) :=
  [⟨.ignore .tstp, (0 : Int)⟩, ⟨.ignore .hup, (0 : Int)⟩] ++ openCalls PATH_CONSOLE 41 0 20 0 ++
    loginCalls 20 (-1) 0 0 0 1 2 ++ [⟨.sigprocmask, (0 : Int)⟩]

/-- The shell is about to run /etc/rc.startup on the console. -/
theorem children_run_shell : ∃ l s, Pool.Run forkKernel
      ⟨sysinitMain (switchOf (fun _ => 0) 2 true) 3 [] 0, [], ()⟩ l s ∧ IsRoot (parentCalls l) ∧
    Executes ((parentCalls l).filterMap stateCall) (childCalls 0 l) PATH_SHELL [PATH_SHELL, PATH_RC_STARTUP]
      (.rc [PATH_SHELL, PATH_RC_STARTUP]) := by
  have hinit : (initSysinit ()).Runs initCalls (.ok (), ()) := .cons (.cons (.cons (.cons (.cons (.cons (.nil _))))))
  have hmain : ∃ q, (mainLoop (switchOf (fun _ => 0) 2 true) 3 .runSStartup (Globals.initial [] 0)).Steps
      shellForked q :=
    ⟨_, .cons (.cons (.cons (.cons (.cons (.cons (.cons (.cons (.cons (.cons (.cons (.nil _)))))))))))⟩
  have hchild : ∃ k, ((Child.rc [PATH_SHELL, PATH_RC_STARTUP]).code ()).Steps shellCalls
      (.call (.execve PATH_SHELL [PATH_SHELL, PATH_RC_STARTUP]) k) :=
    ⟨_, .cons (.cons (.cons (.cons (.cons (.cons (.cons (.cons (.cons (.cons (.cons (.cons (.cons
      (.nil _)))))))))))))⟩
  obtain ⟨p, hmain⟩ := hmain
  obtain ⟨k, hchild⟩ := hchild
  have hwhole : (sysinitMain (switchOf (fun _ => 0) 2 true) 3 [] 0).Steps
      (initCalls.map Event.inl ++ shellForked.map Event.inr) _ := Prog.Runs.bind hinit.inl (hmain.inr.bind _)
  have hforked : Pool.Run forkKernel ⟨sysinitMain (switchOf (fun _ => 0) 2 true) 3 [] 0, [], ()⟩ _ _ :=
    Pool.run_parent hwhole fun _ _ => trivial
  have hrun := hforked.append (Pool.run_child (i := 0) rfl hchild fun _ _ => trivial)
  obtain ⟨hroot, hexecs, -⟩ := children_run (fun _ => 0) 2 3 true [] 0 hrun (i := 0) rfl
  exact ⟨_, _, hrun, hroot, hexecs _ _ k rfl⟩

end Cheviot.Proof
