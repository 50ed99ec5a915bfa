import Cheviot.Framework.Ends
import Cheviot.Proof.Alloc
import Cheviot.Proof.Lines
import Cheviot.Proof.Loading
import Cheviot.Proof.Phases
import Cheviot.Proof.Program

/-!
# Process 1 goes on

No state of `main` but the two that run scripts exits or faults (`switch_stays`), and these do so only
at a line that makes them (`processLines_ends`). So whatever the answers are, `main` goes on until
`shutdown_os`, unless a script has a `waitfor` without an operand, or a line that does not fit
(`mainLoop_ends`), or `init_sysinit` refuses to go on (`sysinitMain_ends`).
-/

namespace Cheviot.Proof

open Framework Cheviot.Sysinit Cheviot.Spec

variable {how : List UInt8 → Int} {fuel : Nat} {rc : Bool} {g g' : Globals} {s : InitState}
  {h t : List (Event sys)}

/-! ## The states that run no script -/

theorem syscall_stays (c : Call) : Proc.Stays (syscall c) := (syscall_total c).stays

theorem pure_stays {σ α : Type} (a : α) : Proc.Stays (pure a : Proc sys σ α) := (Proc.Total.pure a).stays

theorem stateStartSessions_stays : Proc.Stays (stateStartSessions fuel) := by
  refine .bind (syscall_stays _) fun _ => .bind (syscall_stays _) fun _ => .bind (.iter (fun i => ?_) _ _) fun _ =>
    .bind (syscall_stays _) fun _ => .bind Proc.Total.get.stays fun g => .ite (pure_stays _) (.iter (fun i => ?_) _ _)
  · refine .bind (syscall_stays _) fun typ => ?_
    cases typ with
    | none => exact pure_stays _
    | some typ => exact .bind (allocSession_total i typ).stays fun _ => pure_stays _
  · refine .bind Proc.Total.get.stays fun g => ?_
    cases g.sessionList.entries[i]? with
    | none => exact pure_stays _
    | some sp =>
      refine .ite (pure_stays _) (.bind (syscall_stays _) fun pid => ?_)
      cases pid with
      | none => exact pure_stays _
      | some pid => exact .bind (Proc.Total.modify _).stays fun _ => pure_stays _

theorem handleMessage_stays (msgid : Int) (req : Iorequest) : Proc.Stays (handleMessage how msgid req) := by
  have reply : ∀ c : Call, Proc.Stays (do let _ ← syscall c; pure () : Sys Unit) := fun c =>
    .bind (syscall_stays c) fun _ => pure_stays _
  refine .bind Proc.Total.get.stays fun g => ?_
  split
  · split
    · exact .bind (syscall_stays _) fun _ => .bind (Proc.Total.modify _).stays fun _ =>
        .bind (Proc.Total.modify _).stays fun _ => .bind (Proc.Total.modify _).stays fun _ => reply _
    · exact reply _
  · exact reply _

theorem stateMessageLoop_stays : Proc.Stays (stateMessageLoop how fuel) := by
  have hdrain : Proc.Stays (drainRound how) := by
    refine .bind Proc.Total.get.stays fun g => .bind (syscall_stays _) fun m => ?_
    cases m with
    | none _ => exact pure_stays _
    | got msgid req => exact .bind (handleMessage_stays msgid req) fun _ => pure_stays _
  refine .bind Proc.Total.get.stays fun _ => .bind (syscall_stays _) fun _ =>
    .bind (.iter (fun _ => ?_) _ _) fun _ => pure_stays _
  exact .bind Proc.Total.get.stays fun _ => .ite (pure_stays _) (.bind (Proc.Total.modify _).stays fun _ =>
    .bind (syscall_stays _) fun _ => .ite (.bind (.iter (fun _ => hdrain) _ _) fun _ => pure_stays _) (pure_stays _))

theorem doRunRc_stays (path : Str) : Proc.Stays (doRunRc fuel path) := by
  refine .bind (syscall_stays _) fun pid => ?_
  cases pid with
  | none =>
    refine .bind (.iter (fun _ => .bind (syscall_stays _) fun r => ?_) _ _) fun _ => pure_stays _
    cases r <;> exact pure_stays _
  | some pid =>
    refine .bind (.iter (fun _ => .bind (syscall_stays _) fun r => ?_) _ _) fun status => ?_
    · cases r with
      | none => exact .bind Proc.Total.get.stays fun _ => .ite (pure_stays _) (pure_stays _)
      | some x =>
        exact .bind (collectProcess_total x.1 x.2).stays fun _ =>
          .ite (.bind (syscall_stays _) fun _ => pure_stays _) (.ite (pure_stays _) (pure_stays _))
    · split <;> exact pure_stays _

theorem stateReaper_stays : Proc.Stays (stateReaper fuel) := by
  refine .bind (Proc.Total.modify _).stays fun _ => .bind (syscall_stays _) fun _ => .bind Proc.Total.get.stays fun _ =>
    .ite (pure_stays _) (.bind (.iter (fun _ => .bind (syscall_stays _) fun r => ?_) _ _) fun _ => pure_stays _)
  have hrest : Proc.Stays (do
      let g ← Proc.get
      if g.errno ≠ ECHILD then pure (.again ()) else pure (.done ()) : Sys (Proc.Round Unit Unit)) :=
    .bind Proc.Total.get.stays fun _ => .ite (pure_stays _) (pure_stays _)
  cases r with
  | none => exact hrest
  | some x => exact .bind (collectProcess_total x.1 x.2).stays fun _ => hrest

/-- Only the states that run scripts can end. -/
theorem switch_stays (hs : s ≠ .runSStartup) (hs' : s ≠ .runSShutdown) : Proc.Stays (switchOf how fuel rc s) := by
  cases s with
  | runSStartup => exact absurd rfl hs
  | runSShutdown => exact absurd rfl hs'
  | runRcStartup =>
    cases rc with
    | false => exact pure_stays _
    | true => exact .bind (doRunRc_stays _) fun _ => .ite (pure_stays _) (pure_stays _)
  | runRcShutdown =>
    cases rc with
    | false => exact pure_stays _
    | true => exact .bind (doRunRc_stays _) fun _ => pure_stays _
  | startSessions =>
    rw [switchOf_eq (by decide) (by decide)]
    exact stateStartSessions_stays
  | messageLoop =>
    rw [switchOf_eq (by decide) (by decide)]
    exact stateMessageLoop_stays
  | reaper =>
    rw [switchOf_eq (by decide) (by decide)]
    exact stateReaper_stays
  | shutdown =>
    rw [switchOf_eq (by decide) (by decide)]
    exact .bind (.bind Proc.Total.get.stays fun _ => .bind (syscall_stays _) fun _ =>
      .iter (fun _ => pure_stays _) _ _) fun _ => pure_stays _
  | stopSessions | failure =>
    rw [switchOf_eq (by decide) (by decide)]
    exact pure_stays _

/-! ## The scripts -/

theorem issue_stays (c : Call) : Proc.Stays (issue c) :=
  .bind (Proc.Total.call (S := sys) c).stays fun _ => pure_stays _

theorem instr_stays (i : Instr) : Proc.Stays (i.run fuel) := by
  have perform : ∀ c, Proc.Stays (perform c) := fun c => .bind (issue_stays c) fun _ => pure_stays _
  cases i with
  | waitfor path =>
    exact .iter (fun _ => .bind (issue_stays _) fun _ => .ite (pure_stays _)
      (.bind (issue_stays _) fun _ => pure_stays _)) _ _
  | createport =>
    exact .bind (issue_stays _) fun _ => .bind (Proc.Total.modify _).stays fun _ =>
      .ite (pure_stays _) (.bind (issue_stays _) fun _ => (Proc.Total.modify _).stays)
  | _ => exact perform _

/-- Only a `waitfor` without an operand ends the interpreter. -/
theorem runTokens_stays {bare : Effect} {ts : List Str} (hbare : ts ≠ ["waitfor".toList]) :
    Proc.Stays (runTokens fuel bare ts) := by
  rw [runTokens_instr hbare]
  cases instr ts with
  | none => exact pure_stays _
  | some i => exact instr_stays i

/-- A round of the loop on a line: it goes on with the next line, or is cut off in a `waitfor`, unless the
line is a `waitfor` without an operand, or does not fit. -/
theorem processLine_ends {str : Str} {o : Out (Proc.Round Unit Unit)} (hat : SrcAt g str) (hne : str ≠ [])
    (hr : (processLine fuel g).Runs t (o, g')) :
    (o = .ok (.again ()) ∧ SrcAt g' (str.dropWhile (!isEol ·)).tail ∧ ¬ IsBareWaitfor (str.takeWhile (!isEol ·))) ∨
    o = .timeout ∨ (o = .exited (-1) ∧ IsBareWaitfor (str.takeWhile (!isEol ·))) ∨
    (o = .fault ∧ 255 < (str.takeWhile (!isEol ·)).length) := by
  by_cases hfit : (str.takeWhile (!isEol ·)).length ≤ 255
  · have hreads : Reads str g ⟨g.portid, g.kq⟩ := ⟨⟨rfl, rfl⟩, hat⟩
    obtain ⟨⟨o', p'⟩, hspec, ho, hleft⟩ := (processLine_ok fuel hreads hne hfit).runs hr
    by_cases hbare : IsBareWaitfor (str.takeWhile (!isEol ·))
    · rw [runTokens_bare hbare, Proc.exit_apply] at hspec
      obtain ⟨-, he⟩ := Prog.runs_ret.mp hspec
      obtain ⟨rfl, -⟩ := Prod.mk.inj he
      cases o with
      | exited code => exact .inr (.inr (.inl ⟨congrArg Out.exited ho, hbare⟩))
      | _ => exact ho.elim
    · rcases runTokens_stays hbare _ _ _ _ hspec with ⟨u, rfl⟩ | rfl
      · cases o with
        | ok r => exact .inl ⟨congrArg Out.ok ho, hleft.srcAt, hbare⟩
        | _ => exact ho.elim
      · cases o with
        | timeout => exact .inr (.inl rfl)
        | _ => exact ho.elim
  · obtain ⟨g₁, hread⟩ := sReadline_long hat (Nat.not_le.mp hfit)
    rw [processLine, Proc.bind_apply, hread] at hr
    obtain ⟨-, he⟩ := Prog.runs_ret.mp hr
    exact .inr (.inr (.inr ⟨(Prod.mk.inj he).1, Nat.not_le.mp hfit⟩))

/-- The loop over the lines of a script: it comes to the end of the script, or is cut off in a `waitfor`,
or ends at one of the lines that are read. -/
theorem processLines_ends {str : Str} {o : Out Unit} (n : Nat) (hat : SrcAt g str) (hlen : str.length < n)
    (hr : (Proc.iter (fun _ => processLine fuel) n () g).Runs t (o, g')) :
    o = .ok () ∨ o = .timeout ∨ (o = .exited (-1) ∧ ∃ l ∈ linesRead (lines str), IsBareWaitfor l) ∨
    (o = .fault ∧ ∃ l ∈ linesRead (lines str), 255 < l.length) := by
  induction n generalizing g str t with
  | zero => exact absurd hlen (Nat.not_lt_zero _)
  | succ n ih =>
    rw [Proc.iter, Proc.bind_apply, Prog.runs_bind] at hr
    obtain ⟨t₁, t₂, ⟨o₁, g₁⟩, rfl, h₁, h₂⟩ := hr
    by_cases hne : str = []
    · subst hne
      obtain ⟨g₂, hread, -⟩ := sReadline_end hat
      rw [processLine, Proc.bind_apply, hread] at h₁
      obtain ⟨-, he⟩ := Prog.runs_ret.mp h₁
      obtain ⟨rfl, -⟩ := Prod.mk.inj he
      exact .inl (Prod.mk.inj (Prog.runs_ret.mp h₂).2).1
    · have hfirst : str.takeWhile (!isEol ·) ∈ linesRead (lines str) := by
        rw [lines_eq hne]
        exact List.mem_cons_self
      rcases processLine_ends hat hne h₁ with ⟨rfl, hrest, hbare⟩ | rfl | ⟨rfl, hbare⟩ | ⟨rfl, hlong⟩
      · have hshort : (str.dropWhile (!isEol ·)).tail.length < n := by
          have hdrop := List.length_dropWhile_le (!isEol ·) str
          have hpos := List.length_pos_iff.mpr hne
          rw [List.length_tail]
          omega
        have hmore : ∀ l ∈ linesRead (lines (str.dropWhile (!isEol ·)).tail), l ∈ linesRead (lines str) := by
          rw [lines_eq hne, linesRead, if_neg hbare]
          exact fun l hl => List.mem_cons_of_mem _ hl
        rcases ih hrest hshort h₂ with ho | ho | ⟨ho, l, hl, hP⟩ | ⟨ho, l, hl, hP⟩
        · exact .inl ho
        · exact .inr (.inl ho)
        · exact .inr (.inr (.inl ⟨ho, l, hmore l hl, hP⟩))
        · exact .inr (.inr (.inr ⟨ho, l, hmore l hl, hP⟩))
      · exact .inr (.inl (Prod.mk.inj (Prog.runs_ret.mp h₂).2).1)
      · exact .inr (.inr (.inl ⟨(Prod.mk.inj (Prog.runs_ret.mp h₂).2).1, _, hfirst, hbare⟩))
      · exact .inr (.inr (.inr ⟨(Prod.mk.inj (Prog.runs_ret.mp h₂).2).1, _, hfirst, hlong⟩))

theorem processBootstrapScript_ends {buf : List Char} {o : Out Int} (hnul : NUL ∈ buf)
    (hr : (processBootstrapScript fuel (some buf) g).Runs t (o, g')) :
    (∃ sc, o = .ok sc) ∨ o = .timeout ∨
    (o = .exited (-1) ∧ ∃ l ∈ linesRead (lines (scriptText buf)), IsBareWaitfor l) ∨
    (o = .fault ∧ ∃ l ∈ linesRead (lines (scriptText buf)), 255 < l.length) := by
  obtain ⟨r, hbuf⟩ := exists_eq_takeWhile_ne_append hnul
  have hat : SrcAt { g with src := ⟨buf, 0⟩ } (scriptText buf) := ⟨r, hbuf, notMem_takeWhile_ne _ _⟩
  rw [processBootstrapScript, Proc.runs_modify_bind, Proc.bind_apply, Prog.runs_bind] at hr
  obtain ⟨t₁, t₂, ⟨o₁, g₁⟩, rfl, h₁, h₂⟩ := hr
  have hlen : (scriptText buf).length < buf.length + 1 := Nat.lt_succ_of_le (List.takeWhile_prefix _).length_le
  rcases processLines_ends _ hat hlen h₁ with rfl | rfl | ⟨rfl, hl⟩ | ⟨rfl, hl⟩ <;>
    have ho := (Prod.mk.inj (Prog.runs_ret.mp h₂).2).1
  · exact .inl ⟨0, ho⟩
  · exact .inr (.inl ho)
  · exact .inr (.inr (.inl ⟨ho, hl⟩))
  · exact .inr (.inr (.inr ⟨ho, hl⟩))

/-! ## The states -/

/-- Each script that is loaded has the NUL that ends it. -/
def Terminated (g : Globals) : Prop := ∀ slot buf, script g slot = some buf → NUL ∈ buf

/-- How code of `main` ends: it returns with `P`, or goes on in a loop, unless a script ends it. -/
def EndsAs {α : Type} (P : α → Globals → Prop) : Out α → Globals → Prop
  | .ok a, g => P a g
  | .timeout, _ => True
  | .exited code, g => code = -1 ∧ HasBareWaitfor g
  | .fault, g => HasLongLine g

/-- Where the scripts are. -/
def scripts (g : Globals) : Option (List Char) × Option (List Char) := (g.sStartupScript, g.sShutdownScript)

theorem script_of_scripts (h : scripts g' = scripts g) (slot : Slot) : script g' slot = script g slot := by
  cases slot with
  | startup => exact congrArg Prod.fst h
  | shutdown => exact congrArg Prod.snd h

theorem Terminated.keep (hterm : Terminated g) (h : scripts g' = scripts g) : Terminated g' := fun slot buf hbuf =>
  hterm slot buf (script_of_scripts h slot ▸ hbuf)

theorem Terminated.load {path : Str} {slot : Slot} {o : Out Int} (hterm : Terminated g)
    (hr : (loadBootstrapFile path slot g).Runs t (o, g')) : Terminated g' := by
  have hsame : ∀ e, Terminated { g with errno := e } := fun e => hterm.keep rfl
  cases loadBootstrapFile_cases hr with
  | loaded hfd hst =>
    intro slot' buf hbuf
    by_cases hslot : slot' = slot
    · subst hslot
      rw [script_setScript] at hbuf
      obtain rfl := Option.some.inj hbuf
      exact List.mem_append_right _ (List.mem_singleton.mpr rfl)
    · refine hsame 0 slot' buf ?_
      rw [← hbuf]
      cases slot <;> cases slot' <;> first | rfl | exact absurd rfl hslot
  | _ => exact hsame _

theorem loadBootstrapFile_total (path : Str) (slot : Slot) : Proc.Total (loadBootstrapFile path slot) := by
  intro g t o g' hr
  cases loadBootstrapFile_cases hr <;> exact ⟨_, rfl⟩

/-- No state but the first one loads a script. -/
theorem switch_scripts {o : Out InitState} (hs : s ≠ .runSStartup) (hr : (switchOf how fuel rc s g).Runs t (o, g')) :
    scripts g' = scripts g := by
  have hsessions : ∀ {P : Call → Prop} {p : Sys InitState}, Proc.Frame P besidesSessions p →
      (p g).Runs t (o, g') → scripts g' = scripts g := fun hp hr =>
    (hp.part fun x => (x.2.2.2.2.1, x.2.2.2.2.2)).keeps hr
  have hrc : ∀ path, Proc.Frame (isRc ·) besidesSessions (doRunRc fuel path) := doRunRc_frame
  cases s with
  | runSStartup => exact absurd rfl hs
  | runRcStartup =>
    cases rc with
    | false => exact hsessions (P := fun _ => True) (.pure _) hr
    | true => exact hsessions (.bind (hrc _) fun _ => .ite (.pure _) (.pure _)) hr
  | runRcShutdown =>
    cases rc with
    | false => exact hsessions (P := fun _ => True) (.pure _) hr
    | true => exact hsessions (.bind (hrc _) fun _ => .pure _) hr
  | startSessions =>
    rw [switchOf_eq (by decide) (by decide)] at hr
    exact hsessions stateStartSessions_frame hr
  | messageLoop =>
    rw [switchOf_eq (by decide) (by decide)] at hr
    exact ((stateMessageLoop_frame how).part fun x => (x.2.2.1, x.2.2.2.1)).keeps hr
  | reaper =>
    rw [switchOf_eq (by decide) (by decide)] at hr
    exact hsessions stateReaper_frame hr
  | stopSessions | failure =>
    rw [switchOf_eq (by decide) (by decide)] at hr
    exact hsessions (P := fun _ => True) (.pure _) hr
  | runSShutdown =>
    rw [switchOf_eq (by decide) (by decide)] at hr
    have hframe : Proc.Frame (isCommand ·) besidesPorts (stateRunSShutdown fuel) :=
      .bind .get fun _ => .bind (processBootstrapScript_frame _) fun _ => .ite (.pure _) (.pure _)
    exact (hframe.part fun x => (x.2.1, x.2.2.1)).keeps hr
  | shutdown =>
    rw [switchOf_eq (by decide) (by decide)] at hr
    have hframe : Proc.Frame (fun _ => True) scripts (mainSwitch how fuel .shutdown) :=
      .bind (.bind .get fun _ => .bind (syscall_frame trivial fun _ _ => rfl) fun _ =>
        .iter (fun _ => .pure _) _ _) fun _ => .pure _
    exact hframe.keeps hr

/-- A script, and the state that follows it. -/
theorem runScript_ends (slot : Slot) {next : Int → Sys InitState} {o : Out InitState}
    (hnext : ∀ sc, ∃ s, next sc = pure s) (hterm : Terminated g)
    (hr : ((processBootstrapScript fuel (script g slot) >>= next) g).Runs t (o, g')) :
    EndsAs (fun _ g' => Terminated g') o g' := by
  rw [Proc.bind_apply, Prog.runs_bind] at hr
  obtain ⟨t₁, t₂, ⟨o₁, g₁⟩, rfl, h₁, h₂⟩ := hr
  have hkeeps : scripts g₁ = scripts g :=
    ((processBootstrapScript_frame _).part fun x => (x.2.1, x.2.2.1)).keeps h₁
  have hline : ∀ {P : Str → Prop} {buf : List Char}, script g slot = some buf →
      (∃ l ∈ linesRead (lines (scriptText buf)), P l) → HasLine P g₁ := fun hbuf hl =>
    ⟨slot, _, (script_of_scripts hkeeps slot).trans hbuf, hl⟩
  have hok : ∀ sc, (next sc g₁).Runs t₂ (o, g') → EndsAs (fun _ g' => Terminated g') o g' := fun sc h₂ => by
    obtain ⟨s, hs⟩ := hnext sc
    rw [hs] at h₂
    obtain ⟨rfl, rfl⟩ := Prod.mk.inj (Prog.runs_ret.mp h₂).2
    exact hterm.keep hkeeps
  cases hbuf : script g slot with
  | none =>
    rw [hbuf] at h₁
    obtain ⟨-, he⟩ := Prog.runs_ret.mp h₁
    obtain ⟨rfl, -⟩ := Prod.mk.inj he
    exact hok (-1) h₂
  | some buf =>
    rw [hbuf] at h₁
    rcases processBootstrapScript_ends (hterm slot buf hbuf) h₁ with ⟨sc, rfl⟩ | rfl | ⟨rfl, hl⟩ | ⟨rfl, hl⟩
    · exact hok sc h₂
    · obtain ⟨rfl, rfl⟩ := Prod.mk.inj (Prog.runs_ret.mp h₂).2
      trivial
    · obtain ⟨rfl, rfl⟩ := Prod.mk.inj (Prog.runs_ret.mp h₂).2
      exact ⟨rfl, hline hbuf hl⟩
    · obtain ⟨rfl, rfl⟩ := Prod.mk.inj (Prog.runs_ret.mp h₂).2
      exact hline hbuf hl

theorem switch_ends {o : Out InitState} (hterm : Terminated g) (hr : (switchOf how fuel rc s g).Runs t (o, g')) :
    EndsAs (fun _ g' => Terminated g') o g' := by
  by_cases hs : s = .runSStartup
  · subst hs
    rw [switchOf_eq (by decide) (by decide), mainSwitch] at hr
    obtain ⟨t₁, t₂, sc₁, g₁, rfl, h₁, hr⟩ := (loadBootstrapFile_total _ _).runs_bind hr
    have hterm₁ := hterm.load h₁
    by_cases hsc₁ : sc₁ ≠ 0
    · rw [if_pos hsc₁] at hr
      obtain ⟨rfl, rfl⟩ := Prod.mk.inj (Prog.runs_ret.mp hr).2
      exact hterm₁
    rw [if_neg hsc₁] at hr
    obtain ⟨t₂, t₃, sc₂, g₂, rfl, h₂, hr⟩ := (loadBootstrapFile_total _ _).runs_bind hr
    have hterm₂ := hterm₁.load h₂
    by_cases hsc₂ : sc₂ ≠ 0
    · rw [if_pos hsc₂] at hr
      obtain ⟨rfl, rfl⟩ := Prod.mk.inj (Prog.runs_ret.mp hr).2
      exact hterm₂
    rw [if_neg hsc₂, Proc.runs_get_bind] at hr
    exact runScript_ends .startup (fun sc => by split <;> exact ⟨_, rfl⟩) hterm₂ hr
  by_cases hs' : s = .runSShutdown
  · subst hs'
    rw [switchOf_eq (by decide) (by decide), mainSwitch, stateRunSShutdown, Proc.runs_get_bind] at hr
    exact runScript_ends .shutdown (fun sc => by split <;> exact ⟨_, rfl⟩) hterm hr
  · rcases switch_stays hs hs' _ _ _ _ hr with ⟨s', rfl⟩ | rfl
    · exact hterm.keep (switch_scripts hs hr)
    · trivial

/-! ## Runs of `main` -/

theorem terminated_initial (req : List UInt8) (err : Int) : Terminated (Globals.initial req err) := by
  intro slot buf hbuf
  cases slot <;> cases hbuf

/-- Whatever the answers, with the rc scripts or without, a run of `main` goes on until it is cut off in a
loop: it never returns, and it exits or leaves `linebuf` only at a line of a script that it has loaded,
with -1 at a `waitfor` without an operand and at one of more than 255 characters. -/
theorem mainLoop_ends (how : List UInt8 → Int) (fuel n : Nat) (rc : Bool) (req : List UInt8) (err : Int)
    {o : Out Unit} (hr : (mainLoop (switchOf how fuel rc) n .runSStartup (Globals.initial req err)).Runs t (o, g)) :
    o = .timeout ∨ (o = .exited (-1) ∧ HasBareWaitfor g) ∨ (o = .fault ∧ HasLongLine g) := by
  have hround : ∀ s g h, Terminated g → Proc.EndsIn (fun _ _ => True) (fun _ => True)
      (mainRound (switchOf how fuel rc) s) g h fun o g' _ =>
        EndsAs (fun x g' => Terminated g' ∧ ∃ s', x = .again s') o g' := fun s g h hterm => by
    refine Proc.endsIn_bind.mpr ((Proc.endsIn_of_runs (fun _ => trivial) fun t o g' hr => switch_ends hterm hr).mono
      fun o g' h' ho => ?_)
    cases o with
    | ok s' =>
      rw [Proc.onEnd]
      exact Proc.endsIn_pure.mpr ⟨ho, s', rfl⟩
    | _ => exact ho
  have hloop : Proc.EndsIn (fun _ _ => True) (fun _ => True)
      (mainLoop (switchOf how fuel rc) n .runSStartup) (Globals.initial req err) [] fun o g' _ =>
        EndsAs (fun _ _ => False) o g' := by
    refine Proc.endsIn_iter (J := fun _ g _ => Terminated g) (fun _ _ _ _ => trivial) (fun s g h hterm => ?_)
      n _ _ _ (terminated_initial req err)
    refine (hround s g h hterm).mono fun o g' h' ho => ?_
    cases o with
    | ok x =>
      obtain ⟨hterm', s', rfl⟩ := ho
      exact hterm'
    | _ => exact ho
  have hend := (hloop.steps hr fun _ _ _ _ => trivial).2 o g rfl
  cases o with
  | ok _ => exact hend.elim
  | timeout => exact .inl rfl
  | exited code => exact .inr (.inl ⟨congrArg Out.exited hend.1, hend.2⟩)
  | fault => exact .inr (.inr ⟨rfl, hend⟩)

/-! ## Runs of sysinit -/

/-- `init_sysinit` exits with 1 where it refuses, and else it returns. -/
theorem initSysinit_ends {t : List (Event initSys)} {o : Out Unit} {u : Unit}
    (h : (initSysinit ()).Runs t (o, u)) : Refuses t ∧ o = .exited EXIT_FAILURE ∨ o = .ok () := by
  obtain ⟨uid, t₁, rfl, h₁⟩ := Proc.runs_call_bind.mp h
  rw [Proc.ite_apply] at h₁
  split at h₁
  · next huid =>
    obtain ⟨rfl, ho⟩ := Prog.runs_ret.mp h₁
    exact .inl ⟨.inl ⟨uid, huid, rfl⟩, congrArg Prod.fst ho⟩
  · next huid =>
    obtain rfl : uid = (0 : Int) := not_not.mp huid
    obtain ⟨pid, t₂, rfl, h₂⟩ := Proc.runs_call_bind.mp h₁
    rw [Proc.ite_apply] at h₂
    split at h₂
    · next hpid =>
      obtain ⟨rfl, ho⟩ := Prog.runs_ret.mp h₂
      exact .inl ⟨.inr ⟨pid, hpid, rfl⟩, congrArg Prod.fst ho⟩
    · obtain ⟨_, _, rfl, h₃⟩ := Proc.runs_call_bind.mp h₂
      obtain ⟨_, _, rfl, h₄⟩ := Proc.runs_call_bind.mp h₃
      obtain ⟨_, _, rfl, h₅⟩ := Proc.runs_call_bind.mp h₄
      obtain ⟨_, _, rfl, h₆⟩ := Proc.runs_call_bind.mp h₅
      exact .inr (congrArg Prod.fst (Prog.runs_ret.mp h₆).2)

/-- Whatever the answers, with the rc scripts or without, sysinit never returns. It exits with 1 where
`init_sysinit` finds that it is not root or not process 1, before any other call. Once that has returned,
a run goes on until it is cut off in a loop, or ends at a line of a script that `main` has loaded: with
-1 at a `waitfor` without an operand, and outside `linebuf` at a line of more than 255 characters. -/
theorem sysinitMain_ends (how : List UInt8 → Int) (fuel n : Nat) (rc : Bool) (req : List UInt8) (err : Int)
    {t : List (Event wholeSys)} {o : Out Unit}
    (hr : (sysinitMain (switchOf how fuel rc) n req err).Runs t o) :
    (∃ t₀, t = t₀.map Event.inl ∧ Refuses t₀ ∧ o = .exited EXIT_FAILURE) ∨
      ∃ t₀ t₁ g, t = t₀.map Event.inl ++ t₁.map Event.inr ∧ (initSysinit ()).Runs t₀ (.ok (), ()) ∧
        (mainLoop (switchOf how fuel rc) n .runSStartup (Globals.initial req err)).Runs t₁ (o, g) ∧
        (o = .timeout ∨ (o = .exited (-1) ∧ HasBareWaitfor g) ∨ (o = .fault ∧ HasLongLine g)) := by
  rcases Proc.steps_andThen hr with ⟨t₀, p', rfl, hinit, hnot, hend⟩ | ⟨t₀, t₁, u, _, q', rfl, hinit, hmain, hend⟩
  · obtain ⟨o', u, rfl, hcode⟩ := hend o rfl
    rcases initSysinit_ends hinit with ⟨hrefuses, rfl⟩ | rfl
    · exact .inl ⟨t₀, rfl, hrefuses, (hcode _).mpr rfl⟩
    · exact absurd rfl (hnot () u)
  · obtain ⟨g, rfl⟩ := hend o rfl
    exact .inr ⟨t₀, t₁, g, rfl, hinit, hmain, mainLoop_ends how fuel n rc req err hmain⟩

/-- With "waitfor" for s.startup process 1 exits with -1, and process 7 exits with 1. -/
theorem sysinitMain_ends_waitfor :
    (∃ t₀ t₁ g, initCalls.map Event.inl ++ (loadsScript PATH_S_STARTUP "waitfor".toList ++
        loadsScript PATH_S_SHUTDOWN []).map Event.inr = t₀.map Event.inl ++ t₁.map Event.inr ∧
      (initSysinit ()).Runs t₀ (.ok (), ()) ∧
      (mainLoop (switchOf (fun _ => 0) 2 true) 3 .runSStartup (Globals.initial [] 0)).Runs t₁ (.exited (-1), g) ∧
      HasBareWaitfor g) ∧
    ∃ t₀ : List (Event initSys), [(⟨.getuid, (0 : Int)⟩ : Event initSys), ⟨.getpid, (7 : Int)⟩].map Event.inl =
      t₀.map (Event.inl (T := sys)) ∧ Refuses t₀ := by
  have hr : (sysinitMain (switchOf (fun _ => 0) 2 true) 3 [] 0).Runs
      (initCalls.map Event.inl ++ (loadsScript PATH_S_STARTUP "waitfor".toList ++
        loadsScript PATH_S_SHUTDOWN []).map Event.inr) (.exited (-1)) :=
    .cons (.cons (.cons (.cons (.cons (.cons (.cons (.cons (.cons (.cons (.cons (.cons (.cons (.cons (.cons (.cons
      (.nil _))))))))))))))))
  have hr' : (sysinitMain (switchOf (fun _ => 0) 2 true) 3 [] 0).Runs
      ([(⟨.getuid, (0 : Int)⟩ : Event initSys), ⟨.getpid, (7 : Int)⟩].map Event.inl) (.exited 1) :=
    .cons (.cons (.nil _))
  constructor
  · rcases sysinitMain_ends (fun _ => 0) 2 3 true [] 0 hr with ⟨_, -, -, h⟩ | ⟨t₀, t₁, g, ht, hinit, hmain, h⟩
    · cases h
    · rcases h with h | ⟨-, h⟩ | ⟨h, -⟩
      · cases h
      · exact ⟨t₀, t₁, g, ht, hinit, hmain, h⟩
      · cases h
  · rcases sysinitMain_ends (fun _ => 0) 2 3 true [] 0 hr' with ⟨t₀, ht, h, -⟩ | ⟨_, _, _, -, -, -, h⟩
    · exact ⟨t₀, ht, h⟩
    · rcases h with h | ⟨h, -⟩ | ⟨h, -⟩ <;> cases h

end Cheviot.Proof
