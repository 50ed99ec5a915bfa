import Cheviot.Proof.Sysinfo

/-!
# The buffers and the replies of sysinfo

Where a request has just the size of `req_buf`, its NUL is written behind the buffer
(`cmdSendio_full`); every other request stays in it (`cmdSendio_withinBuffer`).

The status that `cmd_sendio` replies with is the length of the response, whatever
`writemsg` returned. It says what was transferred exactly if all of the response was
(`cmdSendio_reports`).
-/

namespace Cheviot.Proof

open Framework Cheviot.Sysinfo Cheviot.Spec
open Cheviot.Sysinit (Str NUL store)

variable {ARG_MAX : Nat} {g g' : Globals ARG_MAX} {portid msgid : Int} {req : Iorequest}
  {t : List (Event sys)} {o : Out Unit}

/-! ## The buffers -/

theorem syscall_fits {c : Call} (hc : readFits ARG_MAX c) :
    Proc.Frame (readFits ARG_MAX ·) (fun _ => ()) (syscall c : Sys ARG_MAX c.Result) :=
  .bind (.call hc) fun _ => .bind (.modify fun _ => rfl) fun _ => .pure _

theorem runCommand_fits (cmd : Option Nat) :
    Proc.Frame (readFits ARG_MAX ·) (fun _ => ()) (runCommand cmd : Sys ARG_MAX Unit) := by
  refine .bind .get fun g => ?_
  split
  · exact .modify fun _ => rfl
  · exact .modify fun _ => rfl
  · exact .ite (.pure _) (.ite (.modify fun _ => rfl) (.ite (.modify fun _ => rfl) (.pure _)))

theorem answerRequest_fits (portid msgid : Int) (size : Nat) :
    Proc.Frame (readFits ARG_MAX ·) (fun _ => ()) (answerRequest portid msgid size : Sys ARG_MAX Unit) :=
  .bind .get fun _ => .bind (.orFault _) fun _ => .bind (.orFault _) fun _ => .bind (.orFault _) fun _ =>
    .bind (.modify fun _ => rfl) fun _ => .bind (runCommand_fits _) fun _ => .bind .get fun _ =>
    .bind (.orFault _) fun _ => .bind (syscall_fits rfl) fun _ => .bind (syscall_fits rfl) fun _ => .pure _

theorem cmdSendio_fits (portid msgid : Int) (req : Iorequest) :
    Proc.Frame (readFits ARG_MAX ·) (fun _ => ()) (cmdSendio portid msgid req : Sys ARG_MAX Unit) := by
  rw [cmdSendio]
  dsimp only
  by_cases hlong : req.ssize > ARG_MAX
  · rw [if_pos hlong]
    exact .bind (syscall_fits rfl) fun _ => .pure _
  · rw [if_neg hlong]
    exact .bind (syscall_fits (decide_eq_true (Nat.le_of_not_lt hlong))) fun _ =>
      .bind (.modify fun _ => rfl) fun _ => answerRequest_fits portid msgid req.ssize

/-- There is no room for the NUL of a request that fills the buffer. -/
theorem cmdSendio_full (portid msgid : Int) (hsize : req.ssize = ARG_MAX) (g : Globals ARG_MAX)
    (r : (Int × List Char) × Bool) :
    ∃ g', (cmdSendio portid msgid req g).Runs [⟨.readmsg portid msgid req.ssize, r⟩] (.fault, g') := by
  have hstore : ∀ buf : Vector Char ARG_MAX, store buf req.ssize NUL = none := fun buf =>
    dif_neg (Nat.not_lt.mpr hsize.ge)
  refine ⟨{ g with shutdown := g.shutdown || r.2, reqBuf := copied g.reqBuf (r.1.2.take req.ssize) }, ?_⟩
  rw [cmdSendio, if_neg (Nat.not_lt.mpr hsize.le), Proc.bind_apply, syscall_apply, Prog.call_bind]
  refine .cons ?_
  simp only [Prog.ret_bind, Proc.next_ok, Proc.bind_apply, Proc.modify_apply, answerRequest, Proc.get_apply,
    hstore, Proc.orFault_none, Proc.fault_apply, Proc.next_fault]
  exact .nil _

theorem cmdSendio_refused (hlong : ARG_MAX < req.ssize)
    (h : (cmdSendio portid msgid req g).Runs t (o, g')) :
    o = .ok () ∧ t.map (·.call) = [.replymsg portid msgid (-E2BIG)] ∧
      g'.reqBuf = g.reqBuf ∧ g'.respBuf = g.respBuf := by
  rw [cmdSendio, if_pos hlong, Proc.bind_apply, syscall_apply, Prog.call_bind, Prog.runs_call] at h
  obtain ⟨r, t', rfl, h⟩ := h
  obtain ⟨rfl, h⟩ := Prog.runs_ret.mp h
  cases h
  exact ⟨rfl, rfl, rfl, rfl⟩

/-- A request stays in the buffer, or is refused, exactly if its size is not that of the
buffer. -/
theorem cmdSendio_withinBuffer (portid msgid : Int) (req : Iorequest) (g : Globals ARG_MAX) :
    WithinBuffer portid msgid req g ↔ req.ssize ≠ ARG_MAX := by
  constructor
  · intro h hsize
    obtain ⟨g', hrun⟩ := cmdSendio_full portid msgid hsize g ((0, []), false)
    exact h.noFault _ g' hrun
  · intro hsize
    refine ⟨fun t q h e he => (cmdSendio_fits portid msgid req).calls h e he, fun t g' h => ?_,
      fun hlong t o g' h => (cmdSendio_refused (by omega) h).2⟩
    rcases Nat.lt_or_gt_of_ne hsize with hlt | hgt
    · obtain ⟨-, -, -, -, ho⟩ := cmdSendio_runs_cases hlt h
      cases ho
    · cases (cmdSendio_refused hgt h).1

/-- A request of as many bytes as the buffer has. -/
theorem fullRequest_outside : ¬ WithinBuffer 0 1 ⟨.sendio, 4096, 0⟩ (Globals.initial 4096 0 0) := by
  intro h
  have hsize : (⟨.sendio, 4096, 0⟩ : Iorequest).ssize = 4096 := rfl
  obtain ⟨g', hrun⟩ := cmdSendio_full 0 1 hsize (Globals.initial 4096 0 0) ((0, []), false)
  exact h.noFault _ g' hrun

/-! ## Reports -/

/-- What the client is told, by what `writemsg` returned. -/
theorem sendioTrace_reports {size rsize : Nat} {text : Str} {r : (Int × List Char) × Bool}
    {r' r'' : Int × Bool} : Reports rsize (sendioTrace portid msgid size text r r' r'') ↔
      text.length = r'.1.toNat ∧ text.length ≤ rsize ∧ 0 ≤ r'.1 := by
  have hsum : ((sendioTrace portid msgid size text r r' r'').map transferred).sum = r'.1.toNat := by
    simp [sendioTrace, transferred]
  have hfails : (∃ e ∈ sendioTrace portid msgid size text r r' r'', failsToWrite e) ↔ r'.1 < 0 := by
    simp [sendioTrace, failsToWrite]
  rw [Reports, hsum, hfails]
  constructor
  · intro h
    obtain ⟨hsay, herr⟩ := h portid msgid text.length r'' (by simp [sendioTrace])
    obtain ⟨heq, hle⟩ := hsay (Int.natCast_nonneg _)
    exact ⟨Int.ofNat.inj heq, Int.ofNat_le.mp hle, by omega⟩
  · rintro ⟨heq, hle, hpos⟩ portid' msgid' status x hmem
    obtain ⟨⟨-, -, rfl⟩, -⟩ : (portid' = portid ∧ msgid' = msgid ∧ status = text.length) ∧ x = r'' := by
      simpa [sendioTrace] using hmem
    omega

/-- The client is told what it got of the answer to what it sent, or that it got none, exactly if
`writemsg` transfers all of it. -/
theorem cmdSendio_reports (hsize : req.ssize < ARG_MAX)
    (h : (cmdSendio portid msgid req g).Runs t (o, g')) {data : List Char}
    (hdata : ∀ e ∈ t, delivers data e) (hwrite : ∀ e ∈ t, writesAtMost req.rsize e) :
    Reports req.rsize t ↔
      ∀ e ∈ t, transfers (response ARG_MAX (heard g.reqBuf data req.ssize)).length e := by
  obtain ⟨r, r', r'', rfl, -⟩ := cmdSendio_runs_cases hsize h
  obtain rfl : r.1.2 = data := of_decide_eq_true (hdata _ List.mem_cons_self)
  have hroom : r'.1 ≤ req.rsize := of_decide_eq_true (hwrite _ (List.mem_cons_of_mem _ List.mem_cons_self))
  have hall : ∀ n : Nat, (∀ e ∈ sendioTrace portid msgid req.ssize
      (response ARG_MAX (heard g.reqBuf r.1.2 req.ssize)) r r' r'', transfers n e) ↔ r'.1 = n := fun n => by
    simp [sendioTrace, transfers]
  rw [sendioTrace_reports, hall]
  omega

/-- A request for `help`, of whose answer so many bytes are written. -/
def helpTrace (written : Nat) : List (Event sys) :=
  sendioTrace 0 1 4 helpText ((4, ['h', 'e', 'l', 'p']), false) (written, false) (0, false)

theorem helpTrace_runs (rsize written : Nat) : ∃ g' : Globals 4096,
    (cmdSendio 0 1 ⟨.sendio, 4, rsize⟩ (Globals.initial 4096 0 0)).Runs (helpTrace written) (.ok (), g') := by
  have hsize : (⟨.sendio, 4, rsize⟩ : Iorequest).ssize < 4096 := show 4 < 4096 by decide
  obtain ⟨g', hrun, -⟩ := cmdSendio_runs 0 1 hsize (Globals.initial 4096 0 0) ((4, ['h', 'e', 'l', 'p']), false)
    (written, false) (0, false)
  have hheard : heard (Globals.initial 4096 0 0).reqBuf ['h', 'e', 'l', 'p'] 4 = ['h', 'e', 'l', 'p'] :=
    heard_eq (Nat.le_refl 4) (by decide)
  rw [response_eq (Nat.le_refl 4096), hheard] at hrun
  exact ⟨g', hrun⟩

/-- All of the answer is transferred, to a client with room for it. -/
theorem cmdSendio_reports_help : Reports 4096 (helpTrace helpText.length) := by
  obtain ⟨g', hrun⟩ := helpTrace_runs 4096 helpText.length
  have hdata : ∀ e ∈ helpTrace helpText.length, delivers ['h', 'e', 'l', 'p'] e := by decide
  refine (cmdSendio_reports (by decide) hrun hdata (by decide)).mpr ?_
  rw [response_eq (Nat.le_refl 4096), heard_eq (Nat.le_refl 4) (by decide)]
  decide

/-- A client without room gets nothing, and is told that it got all of the answer. -/
theorem helpUnreported : ∃ g' : Globals 4096,
    (cmdSendio 0 1 ⟨.sendio, 4, 0⟩ (Globals.initial 4096 0 0)).Runs (helpTrace 0) (.ok (), g') ∧
    (∀ e ∈ helpTrace 0, writesAtMost 0 e) ∧ ¬ Reports 0 (helpTrace 0) := by
  obtain ⟨g', hrun⟩ := helpTrace_runs 0 0
  refine ⟨g', hrun, by decide, fun h => ?_⟩
  have hlen := (sendioTrace_reports.mp h).2.1
  exact absurd hlen (by decide)

end Cheviot.Proof
