import Cheviot.Framework.Wp
import Cheviot.Spec.Machine

/-!
# What each state of `main` calls and leaves alone

A frame for each function of the states, whatever the answers and also where it
faults or exits: the scripts that are loaded, the port and the queue, the
shutdown flag and the sessions are each written in one place only.
-/

namespace Cheviot.Proof

open Framework Cheviot.Sysinit Cheviot.Spec

variable {fuel : Nat}

/-! ## A call -/

theorem runs_syscall {c : Call} {g g' : Globals} {t : List (Event sys)} {r : c.Result} :
    (syscall c g).Runs t (.ok r, g') ↔ ∃ e, t = [⟨c, (r, e)⟩] ∧ g' = { g with errno := e } := by
  rw [syscall_apply, Prog.runs_call]
  constructor
  · rintro ⟨⟨r', e⟩, t', rfl, h⟩
    obtain ⟨rfl, h⟩ := Prog.runs_ret.mp h
    cases h
    exact ⟨e, rfl, rfl⟩
  · rintro ⟨e, rfl, rfl⟩
    exact ⟨(r, e), [], rfl, .nil _⟩

theorem runs_syscall_bind {α : Type} {c : Call} {f : c.Result → Sys α} {g : Globals} {r : c.Result}
    {e : Int} {t : List (Event sys)} {x : Out α × Globals}
    (h : (f r { g with errno := e }).Runs t x) :
    ((syscall c >>= f) g).Runs (⟨c, (r, e)⟩ :: t) x := .cons h

/-- A run of a call and what follows it, from its first call. -/
theorem runs_syscall_bind_iff {α : Type} {c : Call} {f : c.Result → Sys α} {g : Globals}
    {t : List (Event sys)} {x : Out α × Globals} :
    ((syscall c >>= f) g).Runs t x ↔
      ∃ r e t', t = ⟨c, (r, e)⟩ :: t' ∧ (f r { g with errno := e }).Runs t' x := by
  rw [Proc.bind_apply, syscall_apply, Prog.call_bind, Prog.runs_call]
  constructor
  · rintro ⟨⟨r, e⟩, t', rfl, h⟩
    exact ⟨r, e, t', rfl, h⟩
  · rintro ⟨r, e, t', rfl, h⟩
    exact ⟨(r, e), t', rfl, h⟩

theorem steps_syscall_bind {α : Type} {c : Call} {f : c.Result → Sys α} {g : Globals}
    {t : List (Event sys)} {q : Prog sys (Out α × Globals)}
    (h : ((syscall c >>= f) g).Steps t q) :
    t = [] ∨ ∃ r e t', t = ⟨c, (r, e)⟩ :: t' ∧ (f r { g with errno := e }).Steps t' q := by
  rw [Proc.bind_apply, syscall_apply, Prog.call_bind, Prog.steps_call] at h
  rcases h with ⟨rfl, -⟩ | ⟨⟨r, e⟩, t', rfl, h⟩
  · exact .inl rfl
  · exact .inr ⟨r, e, t', rfl, h⟩

theorem wp_syscall {A : List (Event sys) → Event sys → Prop} {I : List (Event sys) → Prop} {c : Call}
    {g : Globals} {h : List (Event sys)} {Q : c.Result → Globals → List (Event sys) → Prop} :
    @Proc.Wp sys Globals (no_index c.Result) A I (syscall c) g h Q ↔ ∀ r e, A h ⟨c, (r, e)⟩ →
      I (h ++ [⟨c, (r, e)⟩]) ∧ Q r { g with errno := e } (h ++ [⟨c, (r, e)⟩]) := by
  rw [Proc.Wp, syscall_apply, Prog.wp_call]
  constructor
  · intro hw r e ha
    exact ⟨(hw (r, e) ha).1, Prog.wp_ret.mp (hw (r, e) ha).2 r rfl⟩
  · rintro hw ⟨r, e⟩ ha
    refine ⟨(hw r e ha).1, .ret fun a ho => ?_⟩
    cases ho
    exact (hw r e ha).2

theorem returns_syscall {α : Type} {c : Call} {f : c.Result → Sys α} {g : Globals}
    {Q : α → Globals → Prop} (h : ∀ r e, Proc.Returns (f r) { g with errno := e } Q) :
    Proc.Returns (syscall c >>= f) g Q := by
  refine Proc.returns_bind.mpr fun t r g' hr => ?_
  obtain ⟨e, -, rfl⟩ := runs_syscall.mp hr
  exact h r e

theorem syscall_frame {γ : Type} {P : Call → Prop} {proj : Globals → γ} {c : Call} (h : P c)
    (he : ∀ g e, proj { g with errno := e } = proj g) : Proc.Frame P proj (syscall c) :=
  .bind (.call h) fun _ => .bind (.modify fun g => he g _) fun _ => .pure _

theorem syscall_total (c : Call) : Proc.Total (syscall c) :=
  .bind (.call (S := sys) c) fun _ => .bind (.modify _) fun _ => .pure _

/-! ## Loading -/

/-- What the load of a script leaves alone. -/
def besidesScripts (g : Globals) : Int × Int × Bool × SessionTable × Int :=
  (g.portid, g.kq, g.shutdown, g.sessionList, g.shutdownHow)

theorem loadBootstrapFile_frame (path : Str) (slot : Slot) :
    Proc.Frame (isLoad ·) besidesScripts (loadBootstrapFile path slot) := by
  have call : ∀ {c : Call}, isLoad c → Proc.Frame (isLoad ·) besidesScripts (syscall c) :=
    fun h => syscall_frame h fun _ _ => rfl
  refine .bind (call rfl) fun fd => .ite (.pure _) (.bind (call rfl) fun st => ?_)
  refine .ite (.bind (call rfl) fun _ => .pure _) (.bind (call rfl) fun block => ?_)
  cases block with
  | none => exact .bind (call rfl) fun _ => .pure _
  | some block =>
    refine .bind (call rfl) fun data => .bind (call rfl) fun _ => .bind (.modify fun g => ?_) fun _ =>
      .pure _
    cases slot <;> rfl

/-! ## Scripts -/

/-- What a script leaves alone. -/
def besidesPorts (g : Globals) :
    Bool × Option (List Char) × Option (List Char) × SessionTable × Int :=
  (g.shutdown, g.sStartupScript, g.sShutdownScript, g.sessionList, g.shutdownHow)

/-- What a line that is no `createport` leaves alone. -/
def besidesLine (g : Globals) :
    (Int × Int) × Bool × Option (List Char) × Option (List Char) × SessionTable × Int :=
  ((g.portid, g.kq), besidesPorts g)

theorem sTokenize_frame (line : Option Nat) :
    Proc.Frame (isPlain ·) besidesLine (sTokenize line) :=
  .bind (.modify fun _ => rfl) fun _ => .bind .get fun _ => .bind (.orFault _) fun _ =>
    .bind (.orFault _) fun _ => .bind (.modify fun _ => rfl) fun _ => .pure _

theorem plain_frame {c : Call} (h : isPlain c) :
    Proc.Frame (isPlain ·) besidesLine (syscall c) := syscall_frame h fun _ _ => rfl

theorem storeArgs_frame : ∀ n t, Proc.Frame (isPlain ·) besidesLine (storeArgs n t)
  | 0, _ => .pure _
  | n + 1, t => .bind (sTokenize_frame none) fun tok => .bind (.modify fun _ => rfl) fun _ => by
    cases tok with
    | none => exact .pure _
    | some _ => exact storeArgs_frame n (t + 1)

theorem sCmdStart_frame (session : Bool) :
    Proc.Frame (isPlain ·) besidesLine (sCmdStart session) := by
  refine .bind (storeArgs_frame _ _) fun _ => .bind .get fun g => ?_
  split
  · exact .pure _
  · refine .bind (.orFault _) fun argv => .bind (plain_frame rfl) fun pid => ?_
    cases pid <;> exact .pure _

/-- A handler that takes an operand, or gives up. -/
theorem operand_frame {f : Option Nat → Sys Int} (hnone : f none = pure (-1))
    (hsome : ∀ q, Proc.Frame (isPlain ·) besidesLine (f (some q))) :
    Proc.Frame (isPlain ·) besidesLine (sTokenize none >>= f) :=
  .bind (sTokenize_frame none) fun tok => by
    cases tok with
    | none => rw [hnone]; exact .pure _
    | some q => exact hsome q

theorem sCmdMknod_frame : Proc.Frame (isPlain ·) besidesLine sCmdMknod :=
  operand_frame rfl fun _ => operand_frame rfl fun _ => operand_frame rfl fun _ =>
    .bind .get fun _ => .ite (plain_frame rfl) (.ite (plain_frame rfl) (.pure _))

theorem sCmdChdir_frame : Proc.Frame (isPlain ·) besidesLine sCmdChdir :=
  operand_frame rfl fun _ => .bind .get fun _ => plain_frame rfl

theorem waitMounted_frame (q : Nat) :
    Proc.Frame (isPlain ·) besidesLine (waitMounted fuel q) :=
  .iter (fun _ => .bind .get fun _ => .bind (plain_frame rfl) fun _ =>
    .ite (.pure _) (.bind (plain_frame rfl) fun _ => .pure _)) fuel ()

theorem sCmdWaitfor_frame : Proc.Frame (isPlain ·) besidesLine (sCmdWaitfor fuel) :=
  .bind (sTokenize_frame none) fun tok => by
    cases tok with
    | none => exact .exit _
    | some q => exact .bind (waitMounted_frame q) fun _ => .pure _

theorem sCmdSleep_frame : Proc.Frame (isPlain ·) besidesLine sCmdSleep :=
  operand_frame rfl fun _ => .bind .get fun _ => .bind (plain_frame rfl) fun _ => .pure _

theorem twoOperands_frame {c : Str → Str → Sys Int}
    (hc : ∀ a b, Proc.Frame (isPlain ·) besidesLine (c a b)) :
    Proc.Frame (isPlain ·) besidesLine (twoOperands c) :=
  operand_frame rfl fun _ => operand_frame rfl fun _ => .bind .get fun _ => hc _ _

theorem sReadline_frame : Proc.Frame (isPlain ·) besidesLine sReadline :=
  .bind (.modify fun _ => rfl) fun _ => .bind .get fun _ => .bind (.orFault _) fun _ =>
    .ite (.pure _) (.bind (.orFault _) fun _ => .bind (.orFault _) fun _ => .bind (.orFault _)
      fun _ => .bind (.modify fun _ => rfl) fun _ => .pure _)

theorem command_of_plain {α : Type} {p : Sys α} (h : Proc.Frame (isPlain ·) besidesLine p) :
    Proc.Frame (isCommand ·) besidesPorts p :=
  (h.part (·.2)).mono fun c hc => by simp [isCommand, hc]

theorem sCmdCreateport_frame : Proc.Frame (isCommand ·) besidesPorts sCmdCreateport :=
  have command_frame : ∀ {c : Call}, isCommand c →
      Proc.Frame (isCommand ·) besidesPorts (syscall c) := fun h => syscall_frame h fun _ _ => rfl
  .bind (command_frame rfl) fun _ => .bind (.modify fun _ => rfl) fun _ =>
    .ite (.pure _) (.bind (command_frame rfl) fun _ => .bind (.modify fun _ => rfl) fun _ =>
      .ite (.pure _) (.pure _))

theorem dispatch_frame (cmd : Str) :
    Proc.Frame (isCommand ·) besidesPorts (dispatch fuel cmd) := by
  have drop : ∀ {p : Sys Int}, Proc.Frame (isCommand ·) besidesPorts p →
      Proc.Frame (isCommand ·) besidesPorts (do let _ ← p) := fun h => .bind h fun _ => .pure _
  have plain : ∀ {p : Sys Int}, Proc.Frame (isPlain ·) besidesLine p →
      Proc.Frame (isCommand ·) besidesPorts (do let _ ← p) := fun h => drop (command_of_plain h)
  exact .ite (plain (sCmdStart_frame _)) (.ite (plain sCmdWaitfor_frame) (.ite (plain sCmdMknod_frame)
    (.ite (plain sCmdSleep_frame) (.ite (plain sCmdChdir_frame)
      (.ite (plain (twoOperands_frame fun _ _ => plain_frame rfl))
        (.ite (plain (twoOperands_frame fun _ _ => plain_frame rfl))
          (.ite (drop sCmdCreateport_frame) (.pure _))))))))

theorem processLine_frame : Proc.Frame (isCommand ·) besidesPorts (processLine fuel) :=
  .bind (command_of_plain sReadline_frame) fun line => by
    cases line with
    | none => exact .pure _
    | some line =>
      refine .bind (command_of_plain (sTokenize_frame _)) fun cmd => .bind .get fun g => ?_
      cases cmd with
      | none => exact .pure _
      | some cmd =>
        exact .ite (.pure _) (.ite (.pure _) (.bind (dispatch_frame _) fun _ => .pure _))

theorem processBootstrapScript_frame (buf : Option (List Char)) :
    Proc.Frame (isCommand ·) besidesPorts (processBootstrapScript fuel buf) := by
  cases buf with
  | none => exact .pure _
  | some buf =>
    exact .bind (.modify fun _ => rfl) fun _ => .bind (.iter (fun _ => processLine_frame) _ _) fun _ =>
      .pure _

/-! ## Sessions -/

/-- What the sessions leave alone. -/
def besidesSessions (g : Globals) : Int × Int × Bool × Int × Option (List Char) × Option (List Char) :=
  (g.portid, g.kq, g.shutdown, g.shutdownHow, g.sStartupScript, g.sShutdownScript)

section

variable {P : Call → Prop}

theorem besidesSessions_syscall {c : Call} (h : P c) :
    Proc.Frame P besidesSessions (syscall c) := syscall_frame h fun _ _ => rfl

theorem freeSession_frame (h : ∀ b, P (.free b)) (sp : Session) :
    Proc.Frame P besidesSessions (freeSession sp) := by
  have free : ∀ b, Proc.Frame P besidesSessions (syscall (.free b)) :=
    fun b => besidesSessions_syscall (h b)
  exact .bind (.modify fun _ => rfl) fun _ => .bind (free _) fun _ =>
    .ite (.bind (free _) fun _ => .bind (free _) fun _ => free _) (free _)

theorem freeSession_total (sp : Session) : Proc.Total (freeSession sp) :=
  .bind (.modify _) fun _ => .bind (syscall_total _) fun _ =>
    .ite (.bind (syscall_total _) fun _ => .bind (syscall_total _) fun _ => syscall_total _)
      (syscall_total _)

theorem collectProcess_frame (hfree : ∀ b, P (.free b))
    (hfork : ∀ id device argv, P (.fork (.getty id device argv))) (pid : Pid) (status : Status) :
    Proc.Frame P besidesSessions (collectProcess pid status) :=
  .bind .get fun g => .ite (.pure _) <| by
    cases findSession g.sessionList.entries pid with
    | none => exact .pure _
    | some sp =>
      refine .ite (freeSession_frame hfree sp) (.bind (besidesSessions_syscall (hfork ..)) fun r => ?_)
      cases r with
      | none => exact .pure _
      | some pid => exact .modify fun _ => rfl

theorem collectProcess_total (pid : Pid) (status : Status) :
    Proc.Total (collectProcess pid status) := by
  refine .bind .get fun g => .ite (.pure _) ?_
  cases findSession g.sessionList.entries pid with
  | none => exact .pure _
  | some sp =>
    refine .ite (freeSession_total sp) (.bind (syscall_total _) fun r => ?_)
    cases r with
    | none => exact .pure _
    | some pid => exact .modify _

end

theorem session_frame {c : Call} (h : isSession c) :
    Proc.Frame (isSession ·) besidesSessions (syscall c) := besidesSessions_syscall h

theorem constructArgv_frame (id : Nat) (command : Str) :
    Proc.Frame (isSession ·) besidesSessions (constructArgv id command) :=
  .bind (session_frame rfl) fun argv => by
    cases argv with
    | none => exact .pure _
    | some argv =>
      dsimp only
      cases strtok command with
      | none => exact .bind (session_frame rfl) fun _ => .pure _
      | some x =>
        refine .bind (.iter (fun y => .ite ?_ .fault) _ _) fun _ => .pure _
        cases strtok y.2 <;> exact .pure _

theorem setupargv_frame (sp : Session) (typ : Ttyent) :
    Proc.Frame (isSession ·) besidesSessions (setupargv sp typ) := by
  refine .ite (.bind (session_frame rfl) fun _ => .bind (session_frame rfl) fun _ => ?_) ?_
  all_goals
    refine .bind (session_frame rfl) fun ok => .ite (.bind (constructArgv_frame _ _) fun argv => ?_)
      (.pure _)
    cases argv with
    | none => exact .bind (session_frame rfl) fun _ => .pure _
    | some argv => exact .pure _

theorem allocSession_frame (sessionIndex : Nat) (typ : Ttyent) :
    Proc.Frame (isSession ·) besidesSessions (allocSession sessionIndex typ) := by
  refine .ite (.pure _) (.bind .get fun g => .bind (session_frame rfl) fun sp => ?_)
  cases sp with
  | none => exact .pure _
  | some sp =>
    refine .bind (session_frame rfl) fun ok => .ite (.bind (setupargv_frame _ _) fun r => ?_)
      (.bind (session_frame rfl) fun _ => .pure _)
    cases r with
    | error sp => exact .bind (freeSession_frame (fun _ => rfl) sp) fun _ => .pure _
    | ok sp => exact .bind (.modify fun _ => rfl) fun _ => .pure _

theorem startSession_frame (startedSessionCnt sp : Nat) :
    Proc.Frame (isSession ·) besidesSessions (startSession startedSessionCnt sp) :=
  .bind .get fun g => by
    cases g.sessionList.entries[sp]? with
    | none => exact .pure _
    | some s =>
      refine .ite (.pure _) (.bind (session_frame rfl) fun pid => ?_)
      cases pid with
      | none => exact .pure _
      | some pid => exact .bind (.modify fun _ => rfl) fun _ => .pure _

theorem stateStartSessions_frame :
    Proc.Frame (isSession ·) besidesSessions (stateStartSessions fuel) := by
  refine .bind (session_frame rfl) fun _ => .bind (session_frame rfl) fun _ =>
    .bind (.iter (fun i => .bind (session_frame rfl) fun typ => ?_) _ _) fun _ =>
    .bind (session_frame rfl) fun _ => .bind .get fun g =>
    .ite (.pure _) (.iter (startSession_frame 0) _ _)
  cases typ with
  | none => exact .pure _
  | some typ => exact .bind (allocSession_frame i typ) fun _ => .pure _

/-! ## The message loop -/

/-- What the message loop leaves alone. -/
def besidesMessages (g : Globals) : Int × Int × Option (List Char) × Option (List Char) × SessionTable :=
  (g.portid, g.kq, g.sStartupScript, g.sShutdownScript, g.sessionList)

section

variable (how : List UInt8 → Int)

theorem message_frame {c : Call} (h : isMessage c) :
    Proc.Frame (isMessage ·) besidesMessages (syscall c) := syscall_frame h fun _ _ => rfl

theorem handleMessage_frame (msgid : Int) (req : Iorequest) :
    Proc.Frame (isMessage ·) besidesMessages (handleMessage how msgid req) := by
  refine .bind .get fun g => ?_
  obtain ⟨cmd, subclass⟩ := req
  cases cmd with
  | other n => exact .bind (message_frame rfl) fun _ => .pure _
  | sendio =>
    cases subclass with
    | other n => exact .bind (message_frame rfl) fun _ => .pure _
    | sysinit =>
      exact .bind (message_frame rfl) fun r => .bind (.modify fun _ => rfl) fun _ =>
        .bind (.modify fun _ => rfl) fun _ => .bind (.modify fun _ => rfl) fun _ =>
        .bind (message_frame rfl) fun _ => .pure _

theorem drainRound_frame : Proc.Frame (isMessage ·) besidesMessages (drainRound how) :=
  .bind .get fun g => .bind (message_frame rfl) fun m => by
    cases m with
    | none sc => exact .pure _
    | got msgid req => exact .bind (handleMessage_frame how msgid req) fun _ => .pure _

theorem stateMessageLoop_frame :
    Proc.Frame (isMessage ·) besidesMessages (stateMessageLoop how fuel) := by
  refine .bind .get fun g => .bind (message_frame rfl) fun _ =>
    .bind (.iter (fun _ => .bind .get fun g => .ite (.pure _) (.bind (.modify fun _ => rfl) fun _ =>
      .bind (message_frame rfl) fun ev => ?_)) _ _) fun _ => .pure _
  exact .ite (.bind (.iter (fun _ => drainRound_frame how) _ _) fun _ => .pure _) (.pure _)

end

/-! ## Collecting processes -/

theorem collect_frame {c : Call} (h : isCollect c) :
    Proc.Frame (isCollect ·) besidesSessions (syscall c) := besidesSessions_syscall h

theorem reapRound_frame : Proc.Frame (isCollect ·) besidesSessions reapRound := by
  refine .bind (collect_frame rfl) fun r => ?_
  cases r with
  | none => exact .bind .get fun g => .ite (.pure _) (.pure _)
  | some x =>
    exact .bind (collectProcess_frame (fun _ => rfl) (fun _ _ _ => rfl) x.1 x.2) fun _ =>
      .bind .get fun _ => .ite (.pure _) (.pure _)

theorem stateReaper_frame : Proc.Frame (isCollect ·) besidesSessions (stateReaper fuel) :=
  .bind (.modify fun _ => rfl) fun _ => .bind (collect_frame rfl) fun _ => .bind .get fun _ =>
    .ite (.pure _) (.bind (.iter (fun _ => reapRound_frame) _ _) fun _ => .pure _)

end Cheviot.Proof
