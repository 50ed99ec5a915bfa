import Cheviot.Proof.Main
import Cheviot.Spec.Port

/-!
# The message loop

`state_message_loop` on its port, whatever the clients do. The invariant of
both of its loops is `Loop`: all that was taken from the port has been
answered, and `shutdown` tells whether a request for it was among that. Within
a round of the inner loop one message is outstanding (`Handling`).
-/

namespace Cheviot.Proof

open Framework Cheviot.Sysinit Cheviot.Spec

variable {how : List UInt8 → Int} {fuel : Nat} {g g' : Globals} {p : Int} {m : Message}
  {t h : List (Event sys)} {e : Event sys}

/-! ## What one more call does -/

theorem dequeued_append (p : Int) (t t' : List (Event sys)) :
    dequeued p (t ++ t') = dequeued p t ++ dequeued p t' := List.filterMap_append

theorem replied_append (p : Int) (t t' : List (Event sys)) :
    replied p (t ++ t') = replied p t ++ replied p t' := List.filterMap_append

theorem dequeued_snoc (p : Int) (t : List (Event sys)) (e : Event sys) :
    dequeued p (t ++ [e]) = dequeued p t ++ (takes p e).toList := by
  rw [dequeued_append]
  cases he : takes p e <;> simp [dequeued, he]

theorem replied_snoc (p : Int) (t : List (Event sys)) (e : Event sys) :
    replied p (t ++ [e]) = replied p t ++ (sends p e).toList := by
  rw [replied_append]
  cases he : sends p e <;> simp [replied, he]

theorem takes_quiet (he : isQuiet e.call) : takes p e = none := by
  obtain ⟨c, r⟩ := e
  cases c <;> first | rfl | cases he

theorem sends_quiet (he : isQuiet e.call) : sends p e = none := by
  obtain ⟨c, r⟩ := e
  cases c <;> first | rfl | cases he

/-- No other call takes a message from the port. -/
theorem takes_ne (he : e.call ≠ .getmsg p) : takes p e = none := by
  obtain ⟨c, r⟩ := e
  cases c with
  | getmsg p' =>
    obtain ⟨m, e⟩ := r
    cases m with
    | got msgid req => exact if_neg fun hp => he (by rw [hp])
    | none sc => rfl
  | _ => rfl

/-- One more call, which takes or waits for a message only if that is in order. -/
theorem orderly_snoc (ho : Orderly p h) (hport : onPort p e.call)
    (hreplies : replied p (h ++ [e]) <+: (dequeued p (h ++ [e])).map Message.reply)
    (hsettled : isGetmsg e.call ∨ isKevent e.call → Settled p h)
    (hwaits : isKevent e.call → ∀ m ∈ dequeued p h, ¬ m.IsShutdown) : Orderly p (h ++ [e]) where
  onPort := List.forall_mem_append.mpr ⟨ho.onPort, List.forall_mem_singleton.mpr hport⟩
  replies := hreplies
  settled t₁ e' t₂ ht := by
    rcases snoc_eq_append_cons ht with ⟨rfl, rfl⟩ | ⟨t₃, ht⟩
    · exact hsettled
    · exact ho.settled t₁ e' t₃ ht
  waits t₁ e' t₂ ht := by
    rcases snoc_eq_append_cons ht with ⟨rfl, rfl⟩ | ⟨t₃, ht⟩
    · exact hwaits
    · exact ho.waits t₁ e' t₃ ht

/-- One more call that neither takes nor answers a message. -/
theorem orderly_quiet (ho : Orderly p h) (hport : onPort p e.call) (htakes : takes p e = none)
    (hsends : sends p e = none) (hsettled : isGetmsg e.call ∨ isKevent e.call → Settled p h)
    (hwaits : isKevent e.call → ∀ m ∈ dequeued p h, ¬ m.IsShutdown) : Orderly p (h ++ [e]) := by
  refine orderly_snoc ho hport ?_ hsettled hwaits
  rw [dequeued_snoc, replied_snoc, htakes, hsends]
  simpa using ho.replies

theorem settled_quiet (hs : Settled p h) (htakes : takes p e = none) (hsends : sends p e = none) :
    Settled p (h ++ [e]) := by
  rw [Settled, dequeued_snoc, replied_snoc, htakes, hsends]
  simpa [Settled] using hs

/-! ## A message -/

/-- The message `m` has been taken and has no reply yet; all others have theirs. -/
def Handling (p : Int) (m : Message) (h : List (Event sys)) : Prop :=
  ∃ l, dequeued p h = l ++ [m] ∧ replied p h = l.map Message.reply

/-- The reply that the message is to get settles it. -/
theorem Handling.replymsg {status : Int} (hm : Handling p m h) (ho : Orderly p h)
    (hreply : m.reply = (m.msgid, status)) (r : Int × Int) :
    Orderly p (h ++ [⟨.replymsg p m.msgid status, r⟩]) ∧
      Settled p (h ++ [⟨.replymsg p m.msgid status, r⟩]) ∧
      dequeued p (h ++ [⟨.replymsg p m.msgid status, r⟩]) = dequeued p h := by
  obtain ⟨l, hl, hl'⟩ := hm
  have htakes : dequeued p (h ++ [⟨.replymsg p m.msgid status, r⟩]) = dequeued p h := by
    rw [dequeued_snoc]; exact List.append_nil _
  have hsettled : Settled p (h ++ [⟨.replymsg p m.msgid status, r⟩]) := by
    rw [Settled, htakes, replied_snoc, sends, if_pos rfl, hl, hl', List.map_append, List.map_singleton,
      hreply]
    rfl
  exact ⟨orderly_snoc ho (by simp [onPort]) (hsettled ▸ List.prefix_rfl) (by simp [isGetmsg, isKevent])
    (by simp [isKevent]), hsettled, htakes⟩

/-- The body of the inner loop answers the message, and sets the flag for a
shutdown if that is what it asks for. -/
theorem handleMessage_wp (hp : g.portid = p) (hm : Handling p m h) (ho : Orderly p h) :
    Proc.Wp (fun _ _ => True) (Orderly p) (handleMessage how m.msgid m.req) g h fun _ g' h' =>
      g'.portid = p ∧ Orderly p h' ∧ Settled p h' ∧ dequeued p h' = dequeued p h ∧
        (g'.shutdown = true ↔ g.shutdown = true ∨ m.IsShutdown) := by
  subst hp
  have other : ¬ m.IsShutdown → Proc.Wp (fun _ _ => True) (Orderly g.portid)
      (do let _ ← syscall (.replymsg g.portid m.msgid (-ENOTSUP))) g h fun _ g' h' =>
        g'.portid = g.portid ∧ Orderly g.portid h' ∧ Settled g.portid h' ∧
        dequeued g.portid h' = dequeued g.portid h ∧
        (g'.shutdown = true ↔ g.shutdown = true ∨ m.IsShutdown) := by
    intro hshut
    refine Proc.wp_bind.mpr (wp_syscall.mpr fun r e _ => ?_)
    obtain ⟨ho', hs', hd'⟩ := hm.replymsg ho (by rw [Message.reply, if_neg hshut]) (r, e)
    exact ⟨ho', Proc.wp_pure.mpr ⟨rfl, ho', hs', hd', by simp [hshut]⟩⟩
  refine Proc.wp_bind.mpr (Proc.wp_get.mpr ?_)
  cases hcmd : m.req.cmd with
  | other n => exact other fun hshut => nomatch hcmd.symm.trans hshut.1
  | sendio =>
    cases hsub : m.req.subclass with
    | other n => exact other fun hshut => nomatch hsub.symm.trans hshut.2
    | sysinit =>
      have hshut : m.IsShutdown := ⟨hcmd, hsub⟩
      refine Proc.wp_bind.mpr (wp_syscall.mpr fun r e _ => ?_)
      have ho₁ : Orderly g.portid
          (h ++ [⟨.readmsg g.portid m.msgid g.sysinitReq.length, (r, e)⟩]) :=
        orderly_quiet ho (by simp [onPort]) rfl rfl (by simp [isGetmsg, isKevent]) (by simp [isKevent])
      have hm₁ : Handling g.portid m
          (h ++ [⟨.readmsg g.portid m.msgid g.sysinitReq.length, (r, e)⟩]) := by
        obtain ⟨l, hl, hl'⟩ := hm
        exact ⟨l, by rw [dequeued_snoc, hl]; exact List.append_nil _,
          by rw [replied_snoc, hl']; exact List.append_nil _⟩
      refine ⟨ho₁, ?_⟩
      simp only [Proc.wp_bind, Proc.wp_modify, wp_syscall, Proc.wp_pure]
      intro r₂ e₂ _
      obtain ⟨ho', hs', hd'⟩ := hm₁.replymsg ho₁ (by rw [Message.reply, if_pos hshut]) (r₂, e₂)
      refine ⟨ho', trivial, ho', hs', ?_, by simp [hshut]⟩
      rw [hd', dequeued_snoc]
      exact List.append_nil _

/-! ## The loops -/

/-- The invariant of the loops. -/
structure Loop (p : Int) (g : Globals) (h : List (Event sys)) : Prop where
  portid_eq : g.portid = p
  orderly : Orderly p h
  settled : Settled p h
  shutdown_iff : g.shutdown = true ↔ ∃ m ∈ dequeued p h, m.IsShutdown

/-- The last message that was asked for was not there. -/
def Drained (p : Int) (h : List (Event sys)) : Prop :=
  ∃ t₁ sc e t₂, h = t₁ ++ ⟨.getmsg p, (.none sc, e)⟩ :: t₂ ∧ ∀ e' ∈ t₂, ¬ isGetmsg e'.call

/-- A call that neither takes nor answers a message keeps the invariant. -/
theorem Loop.quiet (hl : Loop p g h) (hg : g'.portid = g.portid ∧ g'.shutdown = g.shutdown)
    (hport : onPort p e.call) (htakes : takes p e = none) (hsends : sends p e = none)
    (hwaits : isKevent e.call → g.shutdown = false) : Loop p g' (h ++ [e]) where
  portid_eq := hg.1.trans hl.portid_eq
  orderly := orderly_quiet hl.orderly hport htakes hsends (fun _ => hl.settled) fun he m hm hshut => by
    rw [← Bool.not_eq_true, hl.shutdown_iff] at hwaits
    exact hwaits he ⟨m, hm, hshut⟩
  settled := settled_quiet hl.settled htakes hsends
  shutdown_iff := by
    rw [hg.2, dequeued_snoc, htakes]
    simpa using hl.shutdown_iff

theorem drainRound_wp (hl : Loop p g h) :
    Proc.Wp (fun _ _ => True) (Orderly p) (drainRound how) g h fun x g' h' => Loop p g' h' ∧
      match x with
      | .again _ => True
      | .done _ => Drained p h' := by
  obtain rfl := hl.portid_eq
  refine Proc.wp_bind.mpr (Proc.wp_get.mpr (Proc.wp_bind.mpr (wp_syscall.mpr fun r e _ => ?_)))
  cases r with
  | none sc =>
    have hl' : Loop g.portid { g with errno := e } (h ++ [⟨.getmsg g.portid, (.none sc, e)⟩]) :=
      hl.quiet ⟨rfl, rfl⟩ (by simp [onPort]) rfl rfl (by simp [isKevent])
    exact ⟨hl'.orderly, Proc.wp_pure.mpr ⟨hl', h, sc, e, [], rfl, by simp⟩⟩
  | got msgid req =>
    have hd : dequeued g.portid (h ++ [⟨.getmsg g.portid, (.got msgid req, e)⟩]) =
        dequeued g.portid h ++ [⟨msgid, req⟩] := by
      rw [dequeued_snoc, takes, if_pos rfl]; rfl
    have hr : replied g.portid (h ++ [⟨.getmsg g.portid, (.got msgid req, e)⟩]) =
        (dequeued g.portid h).map Message.reply := by
      rw [replied_snoc, hl.settled]; exact List.append_nil _
    have ho : Orderly g.portid (h ++ [⟨.getmsg g.portid, (.got msgid req, e)⟩]) :=
      orderly_snoc hl.orderly (by simp [onPort])
        (by rw [hr, hd, List.map_append]; exact List.prefix_append ..) (fun _ => hl.settled)
        (by simp [isKevent])
    refine ⟨ho, Proc.wp_bind.mpr ?_⟩
    refine (handleMessage_wp (g := { g with errno := e }) (m := ⟨msgid, req⟩) rfl ⟨_, hd, hr⟩
      ho).mono fun _ g' h' hpost => ?_
    obtain ⟨hp', ho', hs', hd', hshut⟩ := hpost
    refine Proc.wp_pure.mpr ⟨⟨hp', ho', hs', hshut.trans ?_⟩, trivial⟩
    rw [hd', hd, hl.shutdown_iff]
    simp [or_and_right, exists_or]

/-- The inner loop, which ends only when there is no message left. -/
theorem drain_wp (n : Nat) (hl : Loop p g h) :
    Proc.Wp (fun _ _ => True) (Orderly p) (Proc.iter (fun _ => drainRound how) n ()) g h
      fun _ g' h' => Loop p g' h' ∧ Drained p h' := by
  refine Proc.wp_iter (J := fun _ g h => Loop p g h) (fun _ g h hl => ?_) n () g h hl
  refine (drainRound_wp hl).mono fun x g' h' hx => ?_
  cases x with
  | again _ => exact hx.1
  | done _ => exact hx

theorem messageRound_wp (hl : Loop p g h) (hd : g.shutdown = true → Drained p h) :
    Proc.Wp (fun _ _ => True) (Orderly p) (messageRound how fuel) g h fun x g' h' =>
      match x with
      | .again _ => Loop p g' h' ∧ (g'.shutdown = true → Drained p h')
      | .done _ => Loop p g' h' ∧ g'.shutdown = true ∧ Drained p h' := by
  refine Proc.wp_bind.mpr (Proc.wp_get.mpr (Proc.wp_ite.mpr ⟨fun hshut => ?_, fun hshut => ?_⟩))
  · exact Proc.wp_pure.mpr ⟨hl, hshut, hd hshut⟩
  · refine Proc.wp_bind.mpr (Proc.wp_modify.mpr (Proc.wp_bind.mpr (wp_syscall.mpr fun ev e _ => ?_)))
    have hl' : Loop p { { g with errno := 0 } with errno := e } (h ++ [⟨.kevent g.kq, (ev, e)⟩]) :=
      hl.quiet ⟨rfl, rfl⟩ rfl rfl rfl fun _ => by simpa using hshut
    refine ⟨hl'.orderly, Proc.wp_ite.mpr ⟨fun _ => ?_, fun _ => ?_⟩⟩
    · refine Proc.wp_bind.mpr ((drain_wp fuel hl').mono fun _ g' h' hpost => ?_)
      exact Proc.wp_pure.mpr ⟨hpost.1, fun _ => hpost.2⟩
    · exact Proc.wp_pure.mpr ⟨hl', fun h => absurd h hshut⟩

/-- The function, from globals whose flag is clear. -/
theorem stateMessageLoop_wp (how : List UInt8 → Int) (fuel : Nat) (hg : g.shutdown = false) :
    Proc.Wp (fun _ _ => True) (Orderly g.portid) (stateMessageLoop how fuel) g [] fun s g' h' =>
      s = .stopSessions ∧ Loop g.portid g' h' ∧ g'.shutdown = true ∧ Drained g.portid h' := by
  have hl : Loop g.portid g [] := {
    portid_eq := rfl
    orderly := ⟨by simp, List.prefix_rfl, by simp, by simp⟩
    settled := rfl
    shutdown_iff := by simp [hg, dequeued] }
  refine Proc.wp_bind.mpr (Proc.wp_get.mpr (Proc.wp_bind.mpr (wp_syscall.mpr fun r e _ => ?_)))
  have hl' : Loop g.portid { g with errno := e } ([] ++ [⟨.keventAdd g.kq g.portid, (r, e)⟩]) :=
    hl.quiet ⟨rfl, rfl⟩ (by simp [onPort]) rfl rfl (by simp [isKevent])
  refine ⟨hl'.orderly, Proc.wp_bind.mpr (Proc.wp_iter
    (J := fun _ g' h => Loop g.portid g' h ∧ (g'.shutdown = true → Drained g.portid h))
    (fun _ g' h' hJ => ?_) fuel () _ _ ⟨hl', fun hshut => ?_⟩)⟩
  · refine (messageRound_wp hJ.1 hJ.2).mono fun x g' h' hx => ?_
    cases x with
    | again _ => exact hx
    | done _ => exact Proc.wp_pure.mpr ⟨rfl, hx⟩
  · rw [show g.shutdown = true from hshut] at hg
    cases hg

/-! ## Where a run ends -/

/-- What a run of the body of the inner loop is: a request for a shutdown is read
and accepted, anything else is refused. -/
theorem handleMessage_cases {o : Out Unit}
    (hr : (handleMessage how m.msgid m.req g).Runs t (o, g')) :
    (m.IsShutdown ∧ ∃ r₁ r₂, t = [⟨.readmsg g.portid m.msgid g.sysinitReq.length, r₁⟩,
        ⟨.replymsg g.portid m.msgid 0, r₂⟩] ∧
      g' = { g with sysinitReq := overlay g.sysinitReq r₁.1.2,
                    shutdownHow := how (overlay g.sysinitReq r₁.1.2),
                    shutdown := true, errno := r₂.2 }) ∨
    (¬ m.IsShutdown ∧ ∃ r, t = [⟨.replymsg g.portid m.msgid (-ENOTSUP), r⟩] ∧
      g' = { g with errno := r.2 }) := by
  have other : ((do let _ ← syscall (.replymsg g.portid m.msgid (-ENOTSUP)) : Sys Unit) g).Runs
      t (o, g') → ∃ r, t = [⟨.replymsg g.portid m.msgid (-ENOTSUP), r⟩] ∧ g' = { g with errno := r.2 } := by
    intro h
    simp only [Proc.bind_apply, syscall_apply, Prog.call_bind, Prog.ret_bind, Proc.next_ok,
      Prog.runs_call] at h
    obtain ⟨r, t, rfl, h⟩ := h
    obtain ⟨rfl, -, rfl⟩ := Proc.runs_pure.mp h
    exact ⟨r, rfl, rfl⟩
  rw [handleMessage, Proc.runs_get_bind] at hr
  cases hcmd : m.req.cmd with
  | other n =>
    rw [hcmd] at hr
    exact .inr ⟨fun hshut => (nomatch hcmd.symm.trans hshut.1), other hr⟩
  | sendio =>
    rw [hcmd] at hr
    cases hsub : m.req.subclass with
    | other n =>
      rw [hsub] at hr
      exact .inr ⟨fun hshut => (nomatch hsub.symm.trans hshut.2), other hr⟩
    | sysinit =>
      rw [hsub] at hr
      simp only [Proc.bind_apply, syscall_apply, Prog.call_bind, Prog.ret_bind, Proc.next_ok,
        Proc.modify_apply, Prog.runs_call] at hr
      obtain ⟨r₁, t₁, rfl, r₂, t₂, rfl, hr⟩ := hr
      obtain ⟨rfl, -, rfl⟩ := Proc.runs_pure.mp hr
      exact .inl ⟨⟨hcmd, hsub⟩, r₁, r₂, rfl, rfl⟩

/-- The body of the inner loop sends one reply, the one the message is to get. -/
theorem handleMessage_replies {o : Out Unit}
    (hr : (handleMessage how m.msgid m.req g).Runs t (o, g')) :
    g'.portid = g.portid ∧ dequeued g.portid t = [] ∧ replied g.portid t = [m.reply] := by
  rcases handleMessage_cases hr with ⟨hshut, r₁, r₂, rfl, rfl⟩ | ⟨hshut, r, rfl, rfl⟩
  · exact ⟨rfl, rfl, by
      simp [replied, sends, List.filterMap_cons, Message.reply, if_pos hshut]⟩
  · exact ⟨rfl, rfl, by simp [replied, sends, Message.reply, if_neg hshut]⟩

/-- A run that leaves the port as it was, and no message without a reply. -/
def Settles (g : Globals) (t : List (Event sys)) (g' : Globals) : Prop :=
  g'.portid = g.portid ∧ Settled g.portid t

theorem settles_chains : Proc.Chains Settles where
  nil _ := ⟨rfl, rfl⟩
  append h h' := ⟨h'.1.trans h.1, by
    have hs := h'.2
    rw [h.1] at hs
    rw [Settled, dequeued_append, replied_append, h.2, hs, List.map_append]⟩

/-- What its own calls and the rounds of its inner loop do, the function does. -/
theorem stateMessageLoop_leads {R : Globals → List (Event sys) → Globals → Prop}
    (hR : Proc.Chains R) (hadd : ∀ kq portid, Proc.Leads R (syscall (.keventAdd kq portid)))
    (herrno : Proc.Leads R (Proc.modify fun g : Globals => { g with errno := 0 }))
    (hwait : ∀ kq, Proc.Leads R (syscall (.kevent kq))) (hdrain : Proc.Leads R (drainRound how)) :
    Proc.Leads R (stateMessageLoop how fuel) := by
  have pure : ∀ {α : Type} (a : α), Proc.Leads R (pure a : Sys α) := .pure hR
  have hround : Proc.Leads R (messageRound how fuel) :=
    .bind hR (.get hR) fun g => .ite (pure _)
      (.bind hR herrno fun _ => .bind hR (hwait g.kq) fun ev => .ite
        (.bind hR (.iter hR (fun _ => hdrain) _ _) fun _ => pure _) (pure _))
  exact .bind hR (.get hR) fun g => .bind hR (hadd g.kq g.portid) fun _ =>
    .bind hR (.iter hR (fun _ => hround) _ _) fun _ => pure _

/-- What `getmsg` and the body of the inner loop do, a round of it does. -/
theorem drainRound_leads {R : Globals → List (Event sys) → Globals → Prop} (hR : Proc.Chains R)
    (htake : ∀ portid, Proc.Leads R (syscall (.getmsg portid)))
    (hhandle : ∀ msgid req, Proc.Leads R (handleMessage how msgid req)) :
    Proc.Leads R (drainRound how) := by
  refine .bind hR (.get hR) fun g => .bind hR (htake g.portid) fun m => ?_
  cases m with
  | none sc => exact .pure hR _
  | got msgid req => exact .bind hR (hhandle msgid req) fun _ => .pure hR _

theorem drainRound_settles : Proc.Leads Settles (drainRound how) := by
  intro g t o g' hr
  rw [drainRound, Proc.runs_get_bind] at hr
  simp only [Proc.bind_apply, syscall_apply, Prog.call_bind, Prog.ret_bind, Proc.next_ok,
    Prog.runs_call] at hr
  obtain ⟨⟨r, e⟩, t, rfl, hr⟩ := hr
  cases r with
  | none sc =>
    obtain ⟨rfl, -, rfl⟩ := Proc.runs_pure.mp hr
    exact ⟨rfl, rfl⟩
  | got msgid req =>
    obtain ⟨t₁, t₂, ⟨o₁, g₁⟩, rfl, h₁, h₂⟩ := Prog.runs_bind.mp hr
    obtain ⟨hp, hd, hreplied⟩ := handleMessage_replies (m := ⟨msgid, req⟩) h₁
    obtain ⟨rfl, rfl⟩ : t₂ = [] ∧ g' = g₁ := by
      cases o₁ <;>
      · obtain ⟨rfl, h⟩ := Prog.runs_ret.mp h₂
        cases h
        exact ⟨rfl, rfl⟩
    have hhead : dequeued g.portid [⟨.getmsg g.portid, (.got msgid req, e)⟩] = [⟨msgid, req⟩] := by
      simp [dequeued, takes]
    refine ⟨hp, ?_⟩
    rw [Settled, List.append_nil, ← List.singleton_append, dequeued_append, replied_append, hhead, hd,
      hreplied]
    rfl

/-- Code that neither asks for messages nor answers any. -/
theorem settles_of_frame {α : Type} {c : Sys α} (hc : Proc.Frame (isQuiet ·) (·.portid) c) :
    Proc.Leads Settles c := hc.leads fun g t g' hq hk => by
  have htakes : dequeued g.portid t = [] := List.filterMap_eq_nil_iff.mpr fun e he =>
    takes_quiet (hq e he)
  have hsends : replied g.portid t = [] := List.filterMap_eq_nil_iff.mpr fun e he =>
    sends_quiet (hq e he)
  exact ⟨hk, by rw [Settled, htakes, hsends]; rfl⟩

/-- Wherever a run ends, all that was taken from the port has been answered. -/
theorem stateMessageLoop_settles : Proc.Leads Settles (stateMessageLoop how fuel) := by
  have quiet : ∀ {c : Call}, isQuiet c → Proc.Leads Settles (syscall c) := fun h =>
    settles_of_frame (syscall_frame h fun _ _ => rfl)
  exact stateMessageLoop_leads settles_chains (fun _ _ => quiet rfl)
    (settles_of_frame (.modify fun _ => rfl)) (fun _ => quiet rfl) drainRound_settles

/-! ## The protocol -/

/-- The states before the message loop has been entered. -/
def beforeMessages : InitState → Bool
  | .runSStartup | .runRcStartup | .startSessions | .messageLoop => true
  | _ => false

theorem stateRunSStartup_keeps {o : Out InitState} (hr : (stateRunSStartup fuel g).Runs t (o, g')) :
    g'.shutdown = g.shutdown := by
  have hload : ∀ path slot, Proc.Frame (fun _ => True) (·.shutdown) (loadBootstrapFile path slot) :=
    fun path slot => ((loadBootstrapFile_frame path slot).part (·.2.2.1)).mono fun _ _ => trivial
  have hscript : ∀ buf, Proc.Frame (fun _ => True) (·.shutdown) (processBootstrapScript fuel buf) :=
    fun buf => ((processBootstrapScript_frame buf).part (·.1)).mono fun _ _ => trivial
  have hframe : Proc.Frame (fun _ => True) (·.shutdown) (stateRunSStartup fuel) :=
    .bind (hload _ _) fun _ => .ite (.pure _) (.bind (hload _ _) fun _ => .ite (.pure _)
      (.bind .get fun _ => .bind (hscript _) fun _ => .ite (.pure _) (.pure _)))
  exact hframe.keeps hr

/-- The flag is clear where `main` enters the message loop. -/
theorem visits_shutdown {g₀ : Globals} {s : InitState} (hg : g₀.shutdown = false)
    (hv : Visits (mainSwitch how fuel) .runSStartup g₀ t s g) :
    beforeMessages s → g.shutdown = false := by
  induction hv with
  | nil => exact fun _ => hg
  | @snoc s₁ s₂ g₁ g₂ t₁ t₂ hv hr ih =>
    intro hs
    have hrun := runs_mainRound.mp hr
    cases s₁ with
    | runSStartup => exact (stateRunSStartup_keeps hrun).trans (ih rfl)
    | runRcStartup =>
      obtain ⟨-, -, rfl⟩ := Proc.runs_pure.mp hrun
      exact ih rfl
    | startSessions =>
      have hkeeps : g₂.shutdown = g₁.shutdown :=
        congrArg (·.2.2.1) (stateStartSessions_frame.keeps hrun)
      exact hkeeps.trans (ih rfl)
    | messageLoop =>
      obtain rfl := stateMessageLoop_ok _ _ _ _ hrun
      cases hs
    | stopSessions | runRcShutdown | failure =>
      obtain ⟨-, rfl, -⟩ := Proc.runs_pure_ok.mp hrun
      cases hs
    | runSShutdown =>
      rcases stateRunSShutdown_next _ _ _ _ hrun with rfl | rfl <;> cases hs
    | reaper =>
      obtain rfl := stateReaper_ok _ _ _ _ hrun
      cases hs
    | shutdown =>
      obtain ⟨_, _, _, _, _, hs, _⟩ := Proc.runs_bind_ok.mp hrun
      exact (stateShutdown_never _ _ _ _ hs).elim

theorem events_append (l l' : List Label) : events (l ++ l') = events l ++ events l' :=
  List.filterMap_append

/-- The messages that were there and those that came are those that were taken
and those that are left. -/
theorem portRun_conserves {q q' : Multiset Message} {l : List Label} (hr : PortRun p q l q') :
    q + puts l = dequeued p (events l) + q' := by
  induction hr with
  | nil q => simp [puts, events, dequeued]
  | @cons q q₁ q₂ x l hs _ ih =>
    cases hs with
    | put _ m =>
      show q + (m ::ₘ (puts l : Multiset Message)) = dequeued p (events l) + q₂
      rw [← ih, Multiset.add_cons, Multiset.cons_add]
    | got _ msgid req e =>
      have hd : dequeued p (events (.sys ⟨.getmsg p, (.got msgid req, e)⟩ :: l)) =
          ⟨msgid, req⟩ :: dequeued p (events l) := by
        simp [dequeued, events, takes]
      rw [hd, ← Multiset.cons_coe, Multiset.cons_add, Multiset.cons_add]
      exact congrArg _ ih
    | empty e => exact ih
    | other _ e he =>
      have hd : dequeued p (events (.sys e :: l)) = dequeued p (events l) :=
        List.filterMap_cons_none (takes_ne he)
      rw [hd]
      exact ih

theorem portRun_append {q q' : Multiset Message} {l l' : List Label} (hr : PortRun p q (l ++ l') q') :
    ∃ q₁, PortRun p q l q₁ ∧ PortRun p q₁ l' q' := by
  induction l generalizing q with
  | nil => exact ⟨q, .nil q, hr⟩
  | cons x l ih =>
    cases hr with
    | cons hs hr =>
      obtain ⟨q₁, h₁, h₂⟩ := ih hr
      exact ⟨q₁, .cons hs h₁, h₂⟩

/-- A call of the server in a run of the server and the clients. -/
theorem events_split {l : List Label} {t₁ t₂ : List (Event sys)} (h : events l = t₁ ++ e :: t₂) :
    ∃ l₁ l₂, l = l₁ ++ .sys e :: l₂ ∧ events l₁ = t₁ ∧ events l₂ = t₂ := by
  obtain ⟨l₁, l₂, rfl, h₁, h₂⟩ := List.filterMap_eq_append_iff.mp h
  obtain ⟨l₃, x, l₄, rfl, h₃, hx, h₄⟩ := List.filterMap_eq_cons_iff.mp h₂
  cases x with
  | put m => cases hx
  | sys e' =>
    obtain rfl : e' = e := Option.some.inj hx
    refine ⟨l₁ ++ l₃, l₄, by simp, ?_, h₄⟩
    rw [events_append, show events l₃ = [] from List.filterMap_eq_nil_iff.mpr h₃, List.append_nil]
    exact h₁

/-- Nothing is taken from a port that is empty, nor without a `getmsg`. -/
theorem dequeued_last {portid sc e : Int} {t₁ t₂ : List (Event sys)} (hlast : ∀ x ∈ t₂, ¬ isGetmsg x.call) :
    dequeued portid (t₁ ++ ⟨.getmsg portid, (.none sc, e)⟩ :: t₂) = dequeued portid t₁ := by
  have hrest : dequeued portid (⟨.getmsg portid, (.none sc, e)⟩ :: t₂) = [] := by
    refine List.filterMap_eq_nil_iff.mpr fun x hx => ?_
    rcases List.mem_cons.mp hx with rfl | hx
    · rfl
    · exact takes_ne fun hc => hlast x hx (by rw [hc]; rfl)
  rw [dequeued_append, hrest, List.append_nil]

/-- The protocol of the message loop, on a port that clients put messages on at
any moment. Each message that it takes gets one reply, its own, before the next
one is taken; a request for a shutdown is accepted, and anything else is
refused; it returns only when it has taken such a request and found no message
left, and every message that was there by then has been answered. -/
theorem stateMessageLoop_protocol (how : List UInt8 → Int) (fuel : Nat) :
    (∀ req err t g, Visits (mainSwitch how fuel) .runSStartup (Globals.initial req err) t
      .messageLoop g → g.shutdown = false) ∧
    ∀ g, g.shutdown = false → ∀ q l q' x, PortRun g.portid q l q' →
      (stateMessageLoop how fuel g).Steps (events l) x →
      Orderly g.portid (events l) ∧
      (∀ o g', x = .ret (o, g') → Settled g.portid (events l)) ∧
      ∀ s g', x = .ret (.ok s, g') → s = .stopSessions ∧
        (∃ m ∈ dequeued g.portid (events l), m.IsShutdown) ∧
        ∃ l₁ e l₂, l = l₁ ++ .sys ⟨.getmsg g.portid, (.none 0, e)⟩ :: l₂ ∧
          (∀ e ∈ events l₂, ¬ isGetmsg e.call) ∧
          (replied g.portid (events l) : Multiset (Int × Int)) =
            Multiset.map Message.reply (q + puts l₁) := by
  refine ⟨fun req err t g hv => visits_shutdown rfl hv rfl, fun g hg q l q' x hp hs => ?_⟩
  have hw := stateMessageLoop_wp how fuel hg
  have hall : ∀ t, Admits (fun _ _ => True) ([] : List (Event sys)) t := fun _ _ _ _ _ => trivial
  have horderly : Orderly g.portid (events l) := by
    have hstart : Orderly g.portid [] := ⟨by simp, List.prefix_rfl, by simp, by simp⟩
    simpa using hw.invariant hs (hall _) hstart
  refine ⟨horderly, fun o g' hx => (stateMessageLoop_settles _ _ _ _ (hx ▸ hs)).2, fun s g' hx => ?_⟩
  subst hx
  obtain ⟨rfl, hl, hshut, t₁, sc, e, t₂, ht, hlast⟩ := hw.runs hs (hall _)
  rw [List.nil_append] at hl ht
  obtain ⟨l₁, l₂, rfl, rfl, rfl⟩ := events_split ht
  obtain ⟨q₁, hp₁, hp₂⟩ := portRun_append hp
  -- the port was empty at that moment, so that all that came before it had been taken
  obtain ⟨rfl, rfl⟩ : sc = 0 ∧ q₁ = 0 := by
    cases hp₂ with
    | cons hstep _ =>
      cases hstep with
      | empty => exact ⟨rfl, rfl⟩
      | other _ _ he => exact absurd rfl he
  have htaken : dequeued g.portid (events (l₁ ++ .sys ⟨.getmsg g.portid, (.none 0, e)⟩ :: l₂)) =
      dequeued g.portid (events l₁) := by
    rw [ht, dequeued_last hlast]
  refine ⟨rfl, hl.shutdown_iff.mp hshut, l₁, e, l₂, rfl, hlast, ?_⟩
  rw [portRun_conserves hp₁, Multiset.add_zero, Multiset.map_coe, hl.settled, htaken]

/-- A request for a shutdown comes while the loop waits, and another message
while it handles the request. -/
def twoMessages : List Label :=
  [.sys ⟨.keventAdd 0 0, (0, 0)⟩, .put ⟨7, ⟨.sendio, .sysinit⟩⟩,
    .sys ⟨.kevent 0, (⟨1, 0, true⟩, 0)⟩, .sys ⟨.getmsg 0, (.got 7 ⟨.sendio, .sysinit⟩, 0)⟩,
    .put ⟨8, ⟨.other 3, .other 0⟩⟩, .sys ⟨.readmsg 0 7 1, ((1, [2]), 0)⟩,
    .sys ⟨.replymsg 0 7 0, (0, 0)⟩, .sys ⟨.getmsg 0, (.got 8 ⟨.other 3, .other 0⟩, 0)⟩,
    .sys ⟨.replymsg 0 8 (-ENOTSUP), (0, 0)⟩, .sys ⟨.getmsg 0, (.none 0, 0)⟩]

theorem stateMessageLoop_protocol_two : Orderly 0 (events twoMessages) ∧
    Settled 0 (events twoMessages) ∧ ∃ m ∈ dequeued 0 (events twoMessages), m.IsShutdown := by
  have hp : PortRun 0 0 twoMessages 0 :=
    .cons (.other _ _ (by simp)) <| .cons (.put _ _) <| .cons (.other _ _ (by simp)) <|
    .cons (.got 0 7 _ 0) <| .cons (.put _ _) <| .cons (.other _ _ (by simp)) <|
    .cons (.other _ _ (by simp)) <| .cons (.got 0 8 _ 0) <| .cons (.other _ _ (by simp)) <|
    .cons (.empty 0) <| .nil 0
  have hs : (stateMessageLoop (fun _ => 0) 3 (Globals.initial [0] 0)).Steps (events twoMessages)
      (.ret (.ok .stopSessions, { Globals.initial [0] 0 with shutdown := true, sysinitReq := [2] })) :=
    .cons (.cons (.cons (.cons (.cons (.cons (.cons (.cons (.nil _))))))))
  obtain ⟨ho, hsettled, hret⟩ :=
    (stateMessageLoop_protocol (fun _ => 0) 3).2 (Globals.initial [0] 0) rfl 0 _ 0 _ hp hs
  exact ⟨ho, hsettled _ _ rfl, (hret _ _ rfl).2.1⟩

end Cheviot.Proof
