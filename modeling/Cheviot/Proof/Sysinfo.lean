import Cheviot.Proof.Answers

/-!
# The sysinfo server

`cmd_sendio` as the calls it makes (`cmdSendio_eq`): the text is the answer to the
bytes that are delivered and those that the buffer holds after them. From this:

* `main_serves`: where all bytes are delivered, each message is answered once, in order,
  with its own answer; `main_answers` says what the calls of such a run are;
* `serveMessage_independent`: the answer does not depend on earlier requests exactly if the
  bytes that are delivered tell it.
-/

namespace Cheviot.Proof

open Framework Cheviot.Sysinfo Cheviot.Spec
open Cheviot.Sysinit (Str NUL store cstr ENOTSUP)

variable {ARG_MAX fuel : Nat} {g g' : Globals ARG_MAX} {portid kq msgid : Int} {req : Iorequest}
  {t u : List (Event sys)}

/-! ## `cmd_sendio` -/

/-- What a request of `size` bytes is taken for, of which `data` is delivered. -/
def heard (buf : Vector Char ARG_MAX) (data : List Char) (size : Nat) : List Char :=
  (copied buf (data.take size)).toList.take size

/-- The response buffer after the command has been run. -/
theorem runCommand_eq (hpos : 0 < ARG_MAX) {cmd : Option Nat} {w : Option Str}
    (hcmd : cmd.map (cstr g.reqBuf) = w) (hw : w ≠ some []) (hresp : IsCstr g.respBuf 0 []) :
    ∃ respBuf, runCommand cmd g = .ret (.ok (), { g with respBuf := respBuf }) ∧
      IsCstr respBuf 0 ((textFor w).take (ARG_MAX - 1)) := by
  have hrespond : ∀ w', ∃ respBuf : Vector Char ARG_MAX,
      respond (textFor w') g = .ret (.ok (), { g with respBuf := respBuf }) ∧
        IsCstr respBuf 0 ((textFor w').take (ARG_MAX - 1)) := fun w' =>
    ⟨strlcpy g.respBuf (textFor w'), rfl, strlcpy_isCstr g.respBuf (textFor_plain w').1 hpos⟩
  have hsilent : ∃ respBuf, (pure () : Sys ARG_MAX Unit) g = .ret (.ok (), { g with respBuf := respBuf }) ∧
      IsCstr respBuf 0 (List.take (ARG_MAX - 1) []) := ⟨g.respBuf, rfl, by rwa [List.take_nil]⟩
  rw [runCommand, Proc.bind_apply, Proc.get_apply, Prog.ret_bind, Proc.next_ok, hcmd]
  match w, hw with
  | none, _ => exact hrespond none
  | some (c :: cs), _ =>
    dsimp only
    by_cases hcomment : (c :: cs).head? = some '#'
    · rw [if_pos hcomment, textFor_other fun hmem => commands_noComment _ hmem hcomment]
      exact hsilent
    · rw [if_neg hcomment, textFor, Proc.ite_apply, Proc.ite_apply]
      split
      · exact hrespond (some "help".toList)
      · split
        · exact hrespond (some "getinfo".toList)
        · exact hsilent

theorem firstWord_ne_nil (s : Str) : firstWord s ≠ some [] := by
  rcases firstWord_cases s with ⟨-, h⟩ | ⟨w, tail, h, hw, -⟩
  · rw [h]
    exact nofun
  · rw [h]
    exact fun he => hw (Option.some.inj he)

theorem response_eq (hmax : 4096 ≤ ARG_MAX) (bytes : List Char) :
    response ARG_MAX bytes = answer bytes := by
  have hlong : (answer bytes).length < 4096 := (textFor_plain _).2
  rw [response, List.take_of_length_le (by omega)]

/-- Once a request of `size` bytes has been read, the answer to what the buffer holds is
written, as far as it fits, and the message replied to. A request without spaces is left
in the buffer as it is. -/
theorem answerRequest_eq (portid msgid : Int) {size : Nat} (hsize : size < ARG_MAX)
    (g : Globals ARG_MAX) : ∃ reqBuf respBuf,
      (answerRequest portid msgid size g =
        .call (.writemsg portid msgid (response ARG_MAX (g.reqBuf.toList.take size))) fun r =>
          .call (.replymsg portid msgid (response ARG_MAX (g.reqBuf.toList.take size)).length) fun r' =>
            .ret (.ok (), { g with
              reqBuf := reqBuf, respBuf := respBuf, shutdown := g.shutdown || r.2 || r'.2 })) ∧
      (' ' ∉ g.reqBuf.toList.take size →
        ∃ rest, reqBuf.toList = g.reqBuf.toList.take size ++ NUL :: rest) := by
  obtain ⟨buf₁, p, buf₂, hstore, htok, hcmd, hkeep⟩ := parse_eq hsize g.reqBuf
  have hpos : 0 < ARG_MAX := Nat.zero_lt_of_lt hsize
  have hresp : IsCstr (g.respBuf.set 0 NUL hpos) 0 [] := isCstr_set rfl List.not_mem_nil hpos
  have hstore' : store g.respBuf 0 NUL = some (g.respBuf.set 0 NUL hpos) := dif_pos hpos
  obtain ⟨respBuf, hrun, htext⟩ := runCommand_eq
    (g := { g with reqBuf := buf₂, respBuf := g.respBuf.set 0 NUL hpos }) hpos hcmd (firstWord_ne_nil _) hresp
  rw [← answer, ← response] at htext
  have htake : respBuf.toList.take (response ARG_MAX (g.reqBuf.toList.take size)).length =
      response ARG_MAX (g.reqBuf.toList.take size) := htext.take_eq
  refine ⟨buf₂, respBuf, ?_, hkeep⟩
  simp only [answerRequest, Proc.bind_apply, Proc.get_apply, Prog.ret_bind, Proc.next_ok, hstore,
    hstore', Proc.orFault_some, Proc.pure_apply, htok, Proc.modify_apply, hrun, strlen_eq htext]
  rw [htake]
  rfl

/-- What `cmd_sendio` does, where the request is smaller than the buffer: it reads it,
writes the response to what the buffer then holds, and replies. -/
theorem cmdSendio_eq (portid msgid : Int) (hsize : req.ssize < ARG_MAX) (g : Globals ARG_MAX) :
    ∃ reqBuf respBuf : (Int × List Char) × Bool → Vector Char ARG_MAX,
      (cmdSendio portid msgid req g = .call (.readmsg portid msgid req.ssize) fun r =>
        .call (.writemsg portid msgid (response ARG_MAX (heard g.reqBuf r.1.2 req.ssize))) fun r' =>
          .call (.replymsg portid msgid (response ARG_MAX (heard g.reqBuf r.1.2 req.ssize)).length)
            fun r'' => .ret (.ok (), { g with reqBuf := reqBuf r, respBuf := respBuf r,
                                              shutdown := g.shutdown || r.2 || r'.2 || r''.2 })) ∧
      ∀ r, ' ' ∉ heard g.reqBuf r.1.2 req.ssize →
        ∃ rest, (reqBuf r).toList = heard g.reqBuf r.1.2 req.ssize ++ NUL :: rest := by
  choose reqBuf respBuf hrest hkeep using fun r : (Int × List Char) × Bool =>
    answerRequest_eq portid msgid hsize { g with
      shutdown := g.shutdown || r.2, reqBuf := copied g.reqBuf (r.1.2.take req.ssize) }
  refine ⟨reqBuf, respBuf, ?_, hkeep⟩
  rw [cmdSendio]
  dsimp only
  rw [if_neg (Nat.not_lt.mpr hsize.le), Proc.bind_apply, syscall_apply, Prog.call_bind]
  exact congrArg _ (funext hrest)

/-! ## The server -/

theorem served_append (ht : Served ARG_MAX portid t) (hu : Served ARG_MAX portid u) :
    Served ARG_MAX portid (t ++ u) := by
  induction hu with
  | nil => rwa [List.append_nil]
  | idle _ he ih =>
    rw [← List.append_assoc]
    exact .idle ih he
  | exchange _ hx ih =>
    rw [← List.append_assoc]
    exact .exchange ih hx

/-- Exchanges, and the first calls of one more. -/
def Serving (ARG_MAX : Nat) (portid : Int) (t : List (Event sys)) : Prop :=
  ∃ t₁ t₂ u, t = t₁ ++ t₂ ∧ Served ARG_MAX portid t₁ ∧ Exchange ARG_MAX portid (t₂ ++ u)

theorem serving_of_served (h : Served ARG_MAX portid t) : Serving ARG_MAX portid t := by
  have hx : Exchange ARG_MAX portid [⟨.getmsg portid, (.got 0 ⟨.other 0, 0, 0⟩, false)⟩,
      ⟨.replymsg portid 0 (-ENOTSUP), (0, false)⟩] := .notSupported nofun
  exact ⟨t, [], _, (List.append_nil t).symm, h, hx⟩

theorem serving_prepend (ht : Served ARG_MAX portid t) (hu : Serving ARG_MAX portid u) :
    Serving ARG_MAX portid (t ++ u) := by
  obtain ⟨t₁, t₂, v, rfl, ht₁, hx⟩ := hu
  exact ⟨t ++ t₁, t₂, v, by rw [List.append_assoc], served_append ht ht₁, hx⟩

/-- The answers that are assumed: requests are delivered whole, and none has just the size
of the buffer. -/
def Regular (ARG_MAX : Nat) (t : List (Event sys)) : Prop := ∀ e ∈ t, readsAll e ∧ otherSize ARG_MAX e

/-- Code that serves messages: at any moment it has answered all of them but the one that it
is at, and where it ends it has answered all of them. -/
def Serves {α : Type} (c : Sys ARG_MAX α) : Prop := ∀ g t q, (c g).Steps t q → Regular ARG_MAX t →
  Serving ARG_MAX g.portid t ∧ ∀ o g', q = .ret (o, g') →
    g'.portid = g.portid ∧ Served ARG_MAX g.portid t ∧ o ≠ .fault

section Serves

variable {α β : Type}

theorem Serves.ret {c : Sys ARG_MAX α} {x : Globals ARG_MAX → Out α × Globals ARG_MAX}
    (hc : ∀ g, c g = .ret (x g)) (hx : ∀ g, (x g).2.portid = g.portid ∧ (x g).1 ≠ .fault) : Serves c := by
  intro g t q hs _
  rw [hc, Prog.steps_ret] at hs
  obtain ⟨rfl, rfl⟩ := hs
  refine ⟨serving_of_served .nil, fun o g' hq => ?_⟩
  have hx := hx g
  rw [Prog.ret.inj hq] at hx
  exact ⟨hx.1, .nil, hx.2⟩

theorem Serves.pure (a : α) : Serves (pure a : Sys ARG_MAX α) := .ret (fun _ => rfl) fun _ => ⟨rfl, nofun⟩

theorem Serves.get : Serves (Proc.get : Sys ARG_MAX (Globals ARG_MAX)) :=
  .ret (fun _ => rfl) fun _ => ⟨rfl, nofun⟩

theorem Serves.exit (code : Int) : Serves (Proc.exit code : Sys ARG_MAX α) :=
  .ret (fun _ => rfl) fun _ => ⟨rfl, nofun⟩

/-- A call that takes no message and answers none. -/
theorem Serves.syscall {c : Call} (hc : ∀ r, isIdle ⟨c, r⟩) :
    Serves (syscall c : Sys ARG_MAX c.Result) := by
  intro g t q hs _
  rw [syscall_apply, Prog.steps_call] at hs
  rcases hs with ⟨rfl, rfl⟩ | ⟨r, t', rfl, hs⟩
  · exact ⟨serving_of_served .nil, nofun⟩
  · obtain ⟨rfl, rfl⟩ := Prog.steps_ret.mp hs
    have hserved : Served ARG_MAX g.portid [⟨c, r⟩] := .idle .nil (hc r)
    refine ⟨serving_of_served hserved, fun o g' hq => ?_⟩
    cases hq
    exact ⟨rfl, hserved, nofun⟩

theorem Serves.bind {c : Sys ARG_MAX α} {f : α → Sys ARG_MAX β} (hc : Serves c)
    (hf : ∀ a, Serves (f a)) : Serves (c >>= f) := by
  intro g t q hs hw
  rcases Prog.steps_bind_cases hs with ⟨c', k, hp', rfl⟩ | ⟨t₁, t₂, ⟨o, g₁⟩, rfl, hp', hf'⟩
  · exact ⟨(hc _ _ _ hp' hw).1, nofun⟩
  · obtain ⟨hw₁, hw₂⟩ := List.forall_mem_append.mp hw
    obtain ⟨-, hend⟩ := hc _ _ _ hp' hw₁
    obtain ⟨hport, hserved, hfault⟩ := hend o g₁ rfl
    cases o with
    | ok a =>
      obtain ⟨hserving, hend'⟩ := hf a g₁ t₂ q hf' hw₂
      rw [hport] at hserving hend'
      refine ⟨serving_prepend hserved hserving, fun o g' hq => ?_⟩
      obtain ⟨hport', hserved', hfault'⟩ := hend' o g' hq
      exact ⟨hport', served_append hserved hserved', hfault'⟩
    | fault => exact absurd rfl hfault
    | _ =>
      obtain ⟨rfl, rfl⟩ := Prog.steps_ret.mp hf'
      rw [List.append_nil]
      refine ⟨serving_of_served hserved, fun o g' hq => ?_⟩
      cases hq
      exact ⟨hport, hserved, nofun⟩

theorem Serves.ite {p : Prop} [Decidable p] {c c' : Sys ARG_MAX α} (hc : Serves c) (hc' : Serves c') :
    Serves (if p then c else c') := by
  split <;> assumption

theorem Serves.iter {body : β → Sys ARG_MAX (Proc.Round β α)} (h : ∀ b, Serves (body b)) :
    ∀ n b, Serves (Proc.iter body n b)
  | 0, _ => .ret (fun _ => rfl) fun _ => ⟨rfl, nofun⟩
  | n + 1, b => (h b).bind fun x => by
    cases x with
    | again b' => exact Serves.iter h n b'
    | done a => exact .pure a

end Serves

/-! ## A message -/

theorem heard_eq {buf : Vector Char ARG_MAX} {data : List Char} {size : Nat}
    (hdata : data.length ≤ size) (hsize : size ≤ ARG_MAX) :
    heard buf data size = data ++ (buf.toList.drop data.length).take (size - data.length) := by
  rw [heard, List.take_of_length_le hdata, copied_toList buf (hdata.trans hsize), List.take_append,
    List.take_of_length_le hdata]

/-- A message that is replied to, and nothing else. -/
def reply (portid msgid status : Int) : Sys ARG_MAX Unit := do
  let _ ← syscall (.replymsg portid msgid status)

theorem serveMessage_other (hcmd : req.cmd ≠ .sendio) :
    serveMessage portid msgid req g = reply portid msgid (-ENOTSUP) g := by
  rw [serveMessage]
  cases h : req.cmd with
  | sendio => exact absurd h hcmd
  | other n => rfl

theorem serveMessage_sendio (hcmd : req.cmd = .sendio) :
    serveMessage portid msgid req g = cmdSendio portid msgid req g := by
  rw [serveMessage, hcmd]

/-- A request that is too long is not read. -/
theorem serveMessage_tooLong (hcmd : req.cmd = .sendio) (hlong : ARG_MAX < req.ssize) :
    serveMessage portid msgid req g = reply portid msgid (-E2BIG) g := by
  rw [serveMessage_sendio hcmd, cmdSendio, if_pos hlong]
  rfl

theorem reply_steps {status : Int} {q : Prog sys (Out Unit × Globals ARG_MAX)}
    (h : (reply portid msgid status g).Steps t q) :
    (t = [] ∧ ∀ x, q ≠ .ret x) ∨
      ∃ r b g', t = [⟨.replymsg portid msgid status, (r, b)⟩] ∧ g'.portid = g.portid ∧
        q = .ret (.ok (), g') := by
  rw [reply, Proc.bind_apply, syscall_apply, Prog.call_bind, Prog.steps_call] at h
  rcases h with ⟨rfl, rfl⟩ | ⟨⟨r, b⟩, t', rfl, h⟩
  · exact .inl ⟨rfl, nofun⟩
  · obtain ⟨rfl, rfl⟩ := Prog.steps_ret.mp h
    exact .inr ⟨r, b, { g with shutdown := g.shutdown || b }, rfl, rfl, rfl⟩

/-- The message that `e` takes is on its way to its answer, and has it where the code
returns. -/
def Answering (portid : Int) (e : Event sys) (g : Globals ARG_MAX) (t : List (Event sys))
    (q : Prog sys (Out Unit × Globals ARG_MAX)) : Prop :=
  (∃ u, Exchange ARG_MAX portid (e :: t ++ u)) ∧
    ∀ o g', q = .ret (o, g') → o = .ok () ∧ g'.portid = g.portid ∧ Exchange ARG_MAX portid (e :: t)

/-- A request that is delivered whole. -/
theorem cmdSendio_steps (hmax : 4096 ≤ ARG_MAX) {b : Bool} {q : Prog sys (Out Unit × Globals ARG_MAX)}
    (hcmd : req.cmd = .sendio) (hlt : req.ssize < ARG_MAX)
    (hs : (cmdSendio portid msgid req g).Steps t q) (hall : ∀ e ∈ t, readsAll e) :
    Answering portid ⟨.getmsg portid, (.got msgid req, b)⟩ g t q := by
  have hx : ∀ (data : List Char) r b₁ r' b₂ r'' b₃, data.length = req.ssize → Exchange ARG_MAX portid
      [⟨.getmsg portid, (.got msgid req, b)⟩, ⟨.readmsg portid msgid req.ssize, ((r, data), b₁)⟩,
        ⟨.writemsg portid msgid (answer data), (r', b₂)⟩,
        ⟨.replymsg portid msgid (answer data).length, (r'', b₃)⟩] :=
    fun data r b₁ r' b₂ r'' b₃ hd => .answered hcmd hlt hd
  obtain ⟨reqBuf, respBuf, heq, -⟩ := cmdSendio_eq portid msgid hlt g
  rw [heq, Prog.steps_call] at hs
  rcases hs with ⟨rfl, rfl⟩ | ⟨⟨⟨r, data⟩, b₁⟩, t, rfl, hs⟩
  · have hd : (List.replicate req.ssize NUL).length = req.ssize := List.length_replicate
    exact ⟨⟨_, hx _ 0 false 0 false 0 false hd⟩, nofun⟩
  have hdata : data.length = req.ssize := of_decide_eq_true (hall _ List.mem_cons_self)
  have hheard : heard g.reqBuf data req.ssize = data := by
    rw [heard_eq hdata.le hlt.le, hdata, Nat.sub_self, List.take_zero, List.append_nil]
  dsimp only at hs
  rw [hheard, response_eq hmax, Prog.steps_call] at hs
  rcases hs with ⟨rfl, rfl⟩ | ⟨⟨r', b₂⟩, t, rfl, hs⟩
  · exact ⟨⟨_, hx data r b₁ 0 false 0 false hdata⟩, nofun⟩
  rw [Prog.steps_call] at hs
  rcases hs with ⟨rfl, rfl⟩ | ⟨⟨r'', b₃⟩, t, rfl, hs⟩
  · exact ⟨⟨_, hx data r b₁ r' b₂ 0 false hdata⟩, nofun⟩
  obtain ⟨rfl, rfl⟩ := Prog.steps_ret.mp hs
  refine ⟨⟨[], by rw [List.append_nil]; exact hx data r b₁ r' b₂ r'' b₃ hdata⟩, fun o g' hq => ?_⟩
  cases hq
  exact ⟨rfl, rfl, hx data r b₁ r' b₂ r'' b₃ hdata⟩

theorem serveMessage_steps (hmax : 4096 ≤ ARG_MAX) {b : Bool}
    {q : Prog sys (Out Unit × Globals ARG_MAX)}
    (h : (serveMessage portid msgid req g).Steps t q)
    (hw : Regular ARG_MAX (⟨.getmsg portid, (.got msgid req, b)⟩ :: t)) :
    Answering portid ⟨.getmsg portid, (.got msgid req, b)⟩ g t q := by
  -- a reply is all there is
  have hreply : ∀ status, (∀ r b', Exchange ARG_MAX portid [⟨.getmsg portid, (.got msgid req, b)⟩,
      ⟨.replymsg portid msgid status, (r, b')⟩]) → (reply portid msgid status g).Steps t q →
      Answering portid ⟨.getmsg portid, (.got msgid req, b)⟩ g t q := by
    intro status hx hs
    rcases reply_steps hs with ⟨rfl, hq⟩ | ⟨r, b', g₁, rfl, hport, rfl⟩
    · exact ⟨⟨_, hx 0 false⟩, fun o g' hq' => absurd hq' (hq _)⟩
    · refine ⟨⟨[], by rw [List.append_nil]; exact hx r b'⟩, fun o g' hq' => ?_⟩
      cases hq'
      exact ⟨rfl, hport, hx r b'⟩
  obtain ⟨⟨-, hother⟩, hw'⟩ := List.forall_mem_cons.mp hw
  by_cases hcmd : req.cmd = .sendio
  · rcases Nat.lt_trichotomy req.ssize ARG_MAX with hlt | heq | hgt
    · rw [serveMessage_sendio hcmd] at h
      exact cmdSendio_steps hmax hcmd hlt h fun e he => (hw' e he).1
    · have : decide (req.cmd ≠ .sendio ∨ req.ssize ≠ ARG_MAX) = true := hother
      simp [hcmd, heq] at this
    · rw [serveMessage_tooLong hcmd hgt] at h
      exact hreply (-E2BIG) (fun r b' => .tooBig hcmd hgt) h
  · rw [serveMessage_other hcmd] at h
    exact hreply (-ENOTSUP) (fun r b' => .notSupported hcmd) h

theorem drainRound_serves (hmax : 4096 ≤ ARG_MAX) :
    Serves (drainRound : Sys ARG_MAX (Proc.Round Unit Int)) := by
  intro g t q hs hw
  rw [drainRound, Proc.bind_apply, Proc.get_apply, Prog.ret_bind, Proc.next_ok, Proc.bind_apply,
    syscall_apply, Prog.call_bind, Prog.steps_call] at hs
  rcases hs with ⟨rfl, rfl⟩ | ⟨⟨m, b⟩, t, rfl, hs⟩
  · exact ⟨serving_of_served .nil, nofun⟩
  cases m with
  | none sc =>
    obtain ⟨rfl, rfl⟩ := Prog.steps_ret.mp hs
    have hserved : Served ARG_MAX g.portid [⟨.getmsg g.portid, (.none sc, b)⟩] := .idle .nil rfl
    refine ⟨serving_of_served hserved, fun o g' hq => ?_⟩
    cases hq
    exact ⟨rfl, hserved, nofun⟩
  | got msgid req =>
    rw [Prog.ret_bind, Proc.next_ok] at hs
    rcases Prog.steps_bind_cases hs with ⟨c, k, hs', rfl⟩ | ⟨t₁, t₂, ⟨o, g₁⟩, rfl, hs', hend⟩
    · obtain ⟨⟨u, hx⟩, -⟩ := serveMessage_steps hmax hs' hw
      exact ⟨⟨[], _, u, rfl, .nil, hx⟩, nofun⟩
    · obtain ⟨-, h⟩ := serveMessage_steps hmax hs' fun e he => hw e (by
        rw [← List.cons_append]
        exact List.mem_append_left _ he)
      obtain ⟨rfl, hport, hx⟩ := h o g₁ rfl
      obtain ⟨rfl, rfl⟩ := Prog.steps_ret.mp hend
      rw [List.append_nil]
      have hserved : Served ARG_MAX g.portid (⟨.getmsg g.portid, (.got msgid req, b)⟩ :: t₁) :=
        .exchange .nil hx
      refine ⟨serving_of_served hserved, fun o g' hq => ?_⟩
      cases hq
      exact ⟨hport, hserved, nofun⟩

theorem main_regular (hmax : 4096 ≤ ARG_MAX) : Serves (main fuel : Sys ARG_MAX Unit) := by
  have hround : Serves (mainRound fuel : Sys ARG_MAX (Proc.Round Unit Unit)) :=
    .bind .get fun g => .ite (.pure _) (.bind (.syscall fun _ => rfl) fun ev => .ite
      (.bind (.iter (fun _ => drainRound_serves hmax) _ _) fun sc => .ite (.exit _) (.pure _)) (.pure _))
  exact .bind (.syscall fun _ => rfl) fun sc => .ite (.exit _) (.bind .get fun g =>
    .bind (.syscall fun _ => rfl) fun _ => .bind (.iter (fun _ => hround) _ _) fun _ => .exit _)

/-- Where requests are delivered whole, and none has just the size of the buffer, each
message is answered once, in the order in which they are taken, and with its own answer:
at any moment all but the last one have been, and all of them where sysinfo exits, which
is the only way in which it ends. -/
theorem main_serves (hmax : 4096 ≤ ARG_MAX) {q : Prog sys (Out Unit × Globals ARG_MAX)}
    (h : (main fuel g).Steps t q) (hread : ∀ e ∈ t, readsAll e) (hsize : ∀ e ∈ t, otherSize ARG_MAX e) :
    (∃ t₁ t₂ u, t = t₁ ++ t₂ ∧ Served ARG_MAX g.portid t₁ ∧ Exchange ARG_MAX g.portid (t₂ ++ u)) ∧
      ∀ o g', q = .ret (o, g') → Served ARG_MAX g.portid t ∧ o ≠ .fault := by
  obtain ⟨hserving, hend⟩ := main_regular hmax g t q h fun e he => ⟨hread e he, hsize e he⟩
  exact ⟨hserving, fun o g' hq => (hend o g' hq).2⟩

/-! ## Runs that serve messages -/

/-- The calls for a message of which all bytes are delivered and written. -/
def messageCalls (ARG_MAX : Nat) (portid : Int) (m : Msg Iorequest Char) : List (Event sys) :=
  ⟨.getmsg portid, (.got m.msgid m.req, false)⟩ ::
    if m.req.cmd ≠ .sendio then [⟨.replymsg portid m.msgid (-ENOTSUP), (0, false)⟩]
    else if ARG_MAX < m.req.ssize then [⟨.replymsg portid m.msgid (-E2BIG), (0, false)⟩]
    else [⟨.readmsg portid m.msgid m.req.ssize, ((m.req.ssize, m.body), false)⟩,
      ⟨.writemsg portid m.msgid (answer m.body), ((answer m.body).length, false)⟩,
      ⟨.replymsg portid m.msgid (answer m.body).length, (0, false)⟩]

/-- The calls of sysinfo for messages that all wait when it asks for the first one, up to SIGTERM. -/
def servedRun (ARG_MAX : Nat) (portid kq : Int) (ms : List (Msg Iorequest Char)) : List (Event sys) :=
  [⟨.sigaction, (0, false)⟩, ⟨.keventAdd kq portid, (0, false)⟩, ⟨.kevent kq, (⟨1, portid, true⟩, false)⟩] ++
    (ms.flatMap (messageCalls ARG_MAX portid) ++ [⟨.getmsg portid, (.none 0, true)⟩])

/-- The port, the queue and the flag are as they were. -/
def SamePlace (g g' : Globals ARG_MAX) : Prop :=
  g'.portid = g.portid ∧ g'.kq = g.kq ∧ g'.shutdown = g.shutdown

theorem reply_runs (portid msgid status : Int) (g : Globals ARG_MAX) :
    (reply portid msgid status g).Runs [⟨.replymsg portid msgid status, (0, false)⟩] (.ok (), g) := by
  have hrun : (reply portid msgid status g).Runs [⟨.replymsg portid msgid status, (0, false)⟩]
      (.ok (), { g with shutdown := g.shutdown || false }) := .cons (.nil _)
  rwa [Bool.or_false] at hrun

/-- A message is answered where `getmsg` takes it, and nothing but the buffers is changed. -/
theorem drainRound_answers (hmax : 4096 ≤ ARG_MAX) {m : Msg Iorequest Char} (hm : IsWhole ARG_MAX m)
    (g : Globals ARG_MAX) : ∃ g', SamePlace g g' ∧
      (drainRound g).Runs (messageCalls ARG_MAX g.portid m) (.ok (.again ()), g') := by
  have hround : ∀ {u : List (Event sys)} {g'}, (serveMessage g.portid m.msgid m.req g).Runs u (.ok (), g') →
      (drainRound g).Runs (⟨.getmsg g.portid, (.got m.msgid m.req, false)⟩ :: u) (.ok (.again ()), g') := by
    intro u g' hserve
    have hserve' := Prog.Runs.bind (f := Proc.next fun _ => pure (Proc.Round.again (α := Int) ())) hserve (.nil _)
    rw [List.append_nil] at hserve'
    have hsame : ({ g with shutdown := g.shutdown || false } : Globals ARG_MAX) = g := by rw [Bool.or_false]
    rw [← hsame] at hserve'
    exact .cons hserve'
  rw [messageCalls]
  by_cases hcmd : m.req.cmd = .sendio
  · obtain ⟨hbody, hsize⟩ := hm hcmd
    rw [if_neg (not_not.mpr hcmd)]
    rcases Nat.lt_or_gt_of_ne hsize with hlt | hgt
    · rw [if_neg (Nat.not_lt.mpr hlt.le)]
      obtain ⟨reqBuf, respBuf, heq, -⟩ := cmdSendio_eq g.portid m.msgid hlt g
      have hheard : heard g.reqBuf m.body m.req.ssize = m.body := by
        rw [heard_eq hbody.le hlt.le, hbody, Nat.sub_self, List.take_zero, List.append_nil]
      let r : (Int × List Char) × Bool := ((m.req.ssize, m.body), false)
      refine ⟨{ g with
        reqBuf := reqBuf r, respBuf := respBuf r, shutdown := g.shutdown || false || false || false },
        ⟨rfl, rfl, by simp⟩, hround ?_⟩
      rw [serveMessage_sendio hcmd, heq]
      refine .cons ?_
      dsimp only
      rw [hheard, response_eq hmax]
      exact .cons (.cons (.nil _))
    · rw [if_pos hgt]
      exact ⟨g, ⟨rfl, rfl, rfl⟩, hround (by rw [serveMessage_tooLong hcmd hgt]; exact reply_runs ..)⟩
  · rw [if_pos hcmd]
    exact ⟨g, ⟨rfl, rfl, rfl⟩, hround (by rw [serveMessage_other hcmd]; exact reply_runs ..)⟩

/-- The inner loop, where there is no message after those. -/
theorem drain_answers (hmax : 4096 ≤ ARG_MAX) (b : Bool) {ms : List (Msg Iorequest Char)}
    (hms : ∀ m ∈ ms, IsWhole ARG_MAX m) {n : Nat} (hn : ms.length < n) (g : Globals ARG_MAX) :
    ∃ g', g'.shutdown = (g.shutdown || b) ∧
      (Proc.iter (fun _ => drainRound) n () g).Runs (ms.flatMap (messageCalls ARG_MAX g.portid) ++
        [⟨.getmsg g.portid, (.none 0, b)⟩]) (.ok 0, g') := by
  induction ms generalizing n g with
  | nil =>
    obtain ⟨n, rfl⟩ : ∃ k, n = k + 1 := ⟨n - 1, by omega⟩
    exact ⟨{ g with shutdown := g.shutdown || b }, rfl, .cons (.nil _)⟩
  | cons m ms ih =>
    obtain ⟨n, rfl⟩ : ∃ k, n = k + 1 := ⟨n - 1, by omega⟩
    obtain ⟨hm, hms⟩ := List.forall_mem_cons.mp hms
    obtain ⟨g₁, ⟨hport, -, hdown⟩, hround⟩ := drainRound_answers hmax hm g
    obtain ⟨g', hdown', hrest⟩ := ih hms (Nat.lt_of_succ_lt_succ hn) g₁
    rw [hport] at hrest
    refine ⟨g', by rw [hdown', hdown], ?_⟩
    rw [List.flatMap_cons, List.append_assoc]
    exact Prog.Runs.bind hround hrest

/-- Whatever messages wait, sysinfo has a run that serves them, and exits where SIGTERM comes then. -/
theorem main_answers (hmax : 4096 ≤ ARG_MAX) (portid kq : Int) {ms : List (Msg Iorequest Char)}
    (hms : ∀ m ∈ ms, IsWhole ARG_MAX m) : ∃ g',
      (main (ms.length + 2) (Globals.initial ARG_MAX portid kq)).Runs (servedRun ARG_MAX portid kq ms)
        (.exited 0, g') := by
  obtain ⟨g', hdown, hdrain⟩ := drain_answers hmax true hms (Nat.lt_add_of_pos_right Nat.two_pos)
    (Globals.initial ARG_MAX portid kq)
  have hserves : (mainRound (ms.length + 2) (Globals.initial ARG_MAX portid kq)).Runs
      (⟨.kevent kq, (⟨1, portid, true⟩, false)⟩ :: (ms.flatMap (messageCalls ARG_MAX portid) ++
        [⟨.getmsg portid, (.none 0, true)⟩])) (.ok (.again ()), g') := by
    have hidle : (Globals.initial ARG_MAX portid kq).shutdown ≠ true := Bool.false_ne_true
    rw [mainRound, Proc.bind_apply, Proc.get_apply, Prog.ret_bind, Proc.next_ok, if_neg hidle, Proc.bind_apply,
      syscall_apply, Prog.call_bind]
    refine .cons ?_
    rw [Prog.ret_bind, Proc.next_ok, if_pos ⟨rfl, rfl, rfl⟩]
    have hagain := Prog.Runs.bind (f := Proc.next fun sc : Int =>
      if sc ≠ 0 then Proc.exit EXIT_FAILURE else pure (Proc.Round.again (α := Unit) ())) hdrain (.nil _)
    rw [List.append_nil] at hagain
    exact hagain
  have hstops : (mainRound (ms.length + 2) g').Runs [] (.ok (.done ()), g') := by
    rw [Bool.or_true] at hdown
    rw [mainRound, Proc.bind_apply, Proc.get_apply, Prog.ret_bind, Proc.next_ok, if_pos hdown]
    exact .nil _
  have hloop : (Proc.iter (fun _ => mainRound (ms.length + 2)) (ms.length + 2) ()
      (Globals.initial ARG_MAX portid kq)).Runs (_ ++ ([] ++ [])) (.ok (), g') :=
    Prog.Runs.bind hserves (Prog.Runs.bind hstops (.nil _))
  have hexit := Prog.Runs.bind (f := Proc.next fun _ => (Proc.exit 0 : Sys ARG_MAX Unit)) hloop (.nil _)
  rw [List.append_nil, List.append_nil, List.append_nil] at hexit
  exact ⟨g', .cons (.cons hexit)⟩

/-- A request with the bytes of a text. -/
def sendioMsg (msgid : Int) (text : String) : Msg Iorequest Char :=
  ⟨msgid, ⟨.sendio, text.toList.length, 4096⟩, text.toList, 4096⟩

/-- Requests for `help`, for nothing, for `getinfo` and for an unknown command, one that is too long, and
a message with another command. -/
def sixMsgs : List (Msg Iorequest Char) :=
  [sendioMsg 1 "help", sendioMsg 2 "  ", sendioMsg 3 " getinfo now", sendioMsg 4 "reboot",
    ⟨5, ⟨.sendio, 5000, 4096⟩, List.replicate 5000 'x', 4096⟩, ⟨6, ⟨.other 5, 0, 0⟩, [], 0⟩]

/-- The calls for a request that is read whole and answered with a text. -/
def answeredCalls (msgid : Int) (text : String) (reply : Str) : List (Event sys) :=
  [⟨.getmsg 0, (.got msgid ⟨.sendio, text.toList.length, 4096⟩, false)⟩,
    ⟨.readmsg 0 msgid text.toList.length, ((text.toList.length, text.toList), false)⟩,
    ⟨.writemsg 0 msgid reply, (reply.length, false)⟩, ⟨.replymsg 0 msgid reply.length, (0, false)⟩]

/-- The calls for the six messages. -/
def sixServed : List (Event sys) :=
  [⟨.sigaction, (0, false)⟩, ⟨.keventAdd 0 0, (0, false)⟩, ⟨.kevent 0, (⟨1, 0, true⟩, false)⟩] ++
    answeredCalls 1 "help" helpText ++ answeredCalls 2 "  " errorText ++
    answeredCalls 3 " getinfo now" getinfoText ++ answeredCalls 4 "reboot" [] ++
    [⟨.getmsg 0, (.got 5 ⟨.sendio, 5000, 4096⟩, false)⟩, ⟨.replymsg 0 5 (-E2BIG), (0, false)⟩,
      ⟨.getmsg 0, (.got 6 ⟨.other 5, 0, 0⟩, false)⟩, ⟨.replymsg 0 6 (-ENOTSUP), (0, false)⟩,
      ⟨.getmsg 0, (.none 0, true)⟩]

theorem messageCalls_sendio (msgid : Int) {text : String} {reply : Str} (hlen : text.toList.length ≤ 4096)
    (hreply : answer text.toList = reply) :
    messageCalls 4096 0 (sendioMsg msgid text) = answeredCalls msgid text reply := by
  have hsize : ¬ 4096 < (sendioMsg msgid text).req.ssize := Nat.not_lt.mpr hlen
  have hcmd : ¬ (sendioMsg msgid text).req.cmd ≠ .sendio := not_not.mpr rfl
  rw [messageCalls, if_neg hcmd, if_neg hsize, ← hreply]
  rfl

theorem sixServed_eq : sixServed = servedRun 4096 0 0 sixMsgs := by
  rw [servedRun, sixMsgs, List.flatMap_cons, List.flatMap_cons, List.flatMap_cons, List.flatMap_cons,
    messageCalls_sendio 1 (by decide) (show answer "help".toList = helpText by decide),
    messageCalls_sendio 2 (by decide) (show answer "  ".toList = errorText by decide),
    messageCalls_sendio 3 (by decide) (show answer " getinfo now".toList = getinfoText by decide),
    messageCalls_sendio 4 (by decide) (show answer "reboot".toList = [] by decide)]
  rfl

theorem sixMsgs_whole : ∀ m ∈ sixMsgs, IsWhole 4096 m := by
  intro m hm
  simp only [sixMsgs, List.mem_cons, List.not_mem_nil, or_false] at hm
  rcases hm with rfl | rfl | rfl | rfl | rfl | rfl
  · exact fun _ => ⟨rfl, by decide⟩
  · exact fun _ => ⟨rfl, by decide⟩
  · exact fun _ => ⟨rfl, by decide⟩
  · exact fun _ => ⟨rfl, by decide⟩
  · exact fun _ => ⟨List.length_replicate, by decide⟩
  · exact fun hcmd => by cases hcmd

/-- Each of the six messages is answered with its own answer, and sysinfo exits. -/
theorem main_serves_six : ∃ g', (main 8 (Globals.initial 4096 0 0)).Runs sixServed (.exited 0, g') ∧
    Served 4096 0 sixServed := by
  obtain ⟨g', h⟩ := main_answers (Nat.le_refl 4096) 0 0 sixMsgs_whole
  rw [← sixServed_eq] at h
  exact ⟨g', h, ((main_serves (Nat.le_refl 4096) h (by decide) (by decide)).2 _ _ rfl).1⟩

/-! ## Earlier requests -/

/-- The calls for a request of which `data` is delivered. -/
def sendioCalls (portid msgid : Int) (size : Nat) (text : Str) : List Call :=
  [.readmsg portid msgid size, .writemsg portid msgid text, .replymsg portid msgid text.length]

/-- The calls of `cmd_sendio` for a request that is smaller than the buffer, with their
answers. -/
def sendioTrace (portid msgid : Int) (size : Nat) (text : Str) (r : (Int × List Char) × Bool)
    (r' r'' : Int × Bool) : List (Event sys) :=
  [⟨.readmsg portid msgid size, r⟩, ⟨.writemsg portid msgid text, r'⟩,
    ⟨.replymsg portid msgid text.length, r''⟩]

theorem cmdSendio_runs (portid msgid : Int) (hsize : req.ssize < ARG_MAX) (g : Globals ARG_MAX)
    (r : (Int × List Char) × Bool) (r' r'' : Int × Bool) : ∃ g',
      (cmdSendio portid msgid req g).Runs (sendioTrace portid msgid req.ssize
        (response ARG_MAX (heard g.reqBuf r.1.2 req.ssize)) r r' r'') (.ok (), g') ∧
      (' ' ∉ heard g.reqBuf r.1.2 req.ssize →
        ∃ rest, g'.reqBuf.toList = heard g.reqBuf r.1.2 req.ssize ++ NUL :: rest) := by
  obtain ⟨reqBuf, respBuf, heq, hkeep⟩ := cmdSendio_eq portid msgid hsize g
  refine ⟨{ g with reqBuf := reqBuf r, respBuf := respBuf r,
                   shutdown := g.shutdown || r.2 || r'.2 || r''.2 }, ?_, hkeep r⟩
  rw [heq]
  exact .cons (.cons (.cons (.nil _)))

theorem cmdSendio_runs_cases (hsize : req.ssize < ARG_MAX) {x : Out Unit × Globals ARG_MAX}
    (h : (cmdSendio portid msgid req g).Runs t x) : ∃ r r' r'', t = sendioTrace portid msgid req.ssize
      (response ARG_MAX (heard g.reqBuf r.1.2 req.ssize)) r r' r'' ∧ x.1 = .ok () := by
  obtain ⟨reqBuf, respBuf, heq, -⟩ := cmdSendio_eq portid msgid hsize g
  rw [heq] at h
  obtain ⟨r, t₁, rfl, h₁⟩ := Prog.runs_call.mp h
  obtain ⟨r', t₂, rfl, h₂⟩ := Prog.runs_call.mp h₁
  obtain ⟨r'', t₃, rfl, h₃⟩ := Prog.runs_call.mp h₂
  obtain ⟨rfl, rfl⟩ := Prog.runs_ret.mp h₃
  exact ⟨r, r', r'', rfl, rfl⟩

theorem cmdSendio_calls (hmax : 4096 ≤ ARG_MAX) (hsize : req.ssize < ARG_MAX) {data : List Char}
    {x : Out Unit × Globals ARG_MAX} (h : (cmdSendio portid msgid req g).Runs t x)
    (hd : ∀ e ∈ t, delivers data e) :
    t.map (·.call) = sendioCalls portid msgid req.ssize (answer (heard g.reqBuf data req.ssize)) := by
  obtain ⟨r, r', r'', rfl, -⟩ := cmdSendio_runs_cases hsize h
  have hdata : r.1.2 = data := of_decide_eq_true (hd _ List.mem_cons_self)
  rw [← hdata, ← response_eq hmax]
  rfl

/-- A request of which `data` is delivered, in a run of its own. -/
def sendioRun (portid msgid : Int) (size : Nat) (data : List Char) (text : Str) : List (Event sys) :=
  [⟨.readmsg portid msgid size, ((0, data), false)⟩, ⟨.writemsg portid msgid text, (0, false)⟩,
    ⟨.replymsg portid msgid text.length, (0, false)⟩]

theorem cmdSendio_run (hmax : 4096 ≤ ARG_MAX) (portid msgid : Int) (hsize : req.ssize < ARG_MAX)
    (g : Globals ARG_MAX) (data : List Char) : ∃ g',
      (cmdSendio portid msgid req g).Runs (sendioRun portid msgid req.ssize data
        (answer (heard g.reqBuf data req.ssize))) (.ok (), g') ∧
      (' ' ∉ heard g.reqBuf data req.ssize →
        ∃ rest, g'.reqBuf.toList = heard g.reqBuf data req.ssize ++ NUL :: rest) := by
  rw [← response_eq hmax]
  exact cmdSendio_runs portid msgid hsize g ((0, data), false) (0, false) (0, false)

theorem sendioRun_delivers {size : Nat} {data : List Char} (text : Str) :
    ∀ e ∈ sendioRun portid msgid size data text, delivers data e := by
  simp [sendioRun, delivers]

theorem initial_drop (portid kq : Int) {k : Nat} (hk : k < ARG_MAX) :
    ∃ rest, (Globals.initial ARG_MAX portid kq).reqBuf.toList.drop k = [] ++ NUL :: rest := by
  obtain ⟨m, hm⟩ := Nat.exists_eq_add_of_lt hk
  refine ⟨List.replicate m NUL, ?_⟩
  rw [Globals.initial, Vector.toList_replicate, List.drop_replicate,
    show ARG_MAX - k = m + 1 by omega, List.replicate_succ, List.nil_append]

theorem history_initial : History ARG_MAX portid kq (Globals.initial ARG_MAX portid kq) :=
  ⟨[], .nil, nofun⟩

/-- A request without spaces, served before any other, leaves its bytes in the buffer. -/
theorem history_one (hmax : 4096 ≤ ARG_MAX) (portid kq : Int) {s : Str} (hspace : ' ' ∉ s)
    (hlen : s.length < ARG_MAX) :
    ∃ g, History ARG_MAX portid kq g ∧ ∃ rest, g.reqBuf.toList = s ++ NUL :: rest := by
  have hheard : ∀ buf : Vector Char ARG_MAX, heard buf s s.length = s := fun buf => by
    rw [heard_eq (Nat.le_refl _) hlen.le, Nat.sub_self, List.take_zero, List.append_nil]
  let req : Iorequest := ⟨.sendio, s.length, 0⟩
  have hsize : req.ssize < ARG_MAX := hlen
  obtain ⟨g, hrun, hkeep⟩ := cmdSendio_run hmax portid 1 hsize (Globals.initial ARG_MAX portid kq) s
  have hround : (drainRound (Globals.initial ARG_MAX portid kq)).Runs
      (⟨.getmsg portid, (.got 1 req, false)⟩ :: sendioRun portid 1 req.ssize s
        (answer (heard (Globals.initial ARG_MAX portid kq).reqBuf s req.ssize)))
      (.ok (.again ()), g) := by
    have hserve := Prog.Runs.bind (f := Proc.next fun _ => pure (Proc.Round.again (α := Int) ())) hrun (.nil _)
    rw [List.append_nil] at hserve
    exact .cons hserve
  refine ⟨g, ⟨_, .one hround, ?_⟩, ?_⟩
  · refine List.forall_mem_cons.mpr ⟨⟨rfl, decide_eq_true (.inr hlen)⟩, ?_⟩
    simp [sendioRun, readsPrefix, smaller, req]
  · have := hkeep (by rwa [hheard])
    rwa [hheard] at this

/-- What the buffer holds after a request without NULs makes no difference to what the
request is taken for. -/
theorem answer_heard {buf : Vector Char ARG_MAX} {data s rest : List Char} {size : Nat}
    (hdata : data.length ≤ size) (hsize : size < ARG_MAX) (hs : s.length ≤ size - data.length)
    (hbuf : buf.toList.drop data.length = s ++ NUL :: rest) :
    answer (heard buf data size) = answer (data ++ s) := by
  rw [heard_eq hdata hsize.le, hbuf, List.take_append, List.take_of_length_le hs, ← List.append_assoc,
    answer_take_nul]

/-- One request is enough for another answer, where the bytes that are delivered do not tell
it. -/
theorem tells_of_independent (hmax : 4096 ≤ ARG_MAX) {data : List Char} (hcmd : req.cmd = .sendio)
    (hlt : req.ssize < ARG_MAX) (hdata : data.length ≤ req.ssize)
    (h : Independent ARG_MAX portid kq msgid req data) : Tells data req.ssize := by
  by_contra hnot
  obtain ⟨s, hnul, hspace, hs, hdiff⟩ := answer_of_not_tells hdata hnot
  -- it leaves `s` where this one is not delivered any more
  have hfill : ' ' ∉ List.replicate data.length 'x' ++ s := by simp [hspace]
  have hroom : (List.replicate data.length 'x' ++ s).length < ARG_MAX := by
    rw [List.length_append, List.length_replicate]
    omega
  obtain ⟨g, hg, rest, hbuf⟩ := history_one hmax portid kq hfill hroom
  have hdrop : g.reqBuf.toList.drop data.length = s ++ NUL :: rest := by
    rw [hbuf, List.append_assoc, List.drop_left' List.length_replicate]
  obtain ⟨rest', hinitial⟩ := initial_drop portid kq (hdata.trans_lt hlt)
  obtain ⟨g₁, hrun₁, -⟩ := cmdSendio_run hmax portid msgid hlt (Globals.initial ARG_MAX portid kq) data
  obtain ⟨g₂, hrun₂, -⟩ := cmdSendio_run hmax portid msgid hlt g data
  rw [← serveMessage_sendio hcmd] at hrun₁ hrun₂
  have hcalls := h _ _ history_initial hg _ _ _ _ hrun₁ hrun₂ (sendioRun_delivers _) (sendioRun_delivers _)
  have htext := (Call.writemsg.inj (Option.some.inj (congrArg (·[1]?) hcalls))).2.2
  rw [answer_heard hdata hlt (Nat.zero_le _) hinitial, answer_heard hdata hlt hs hdrop,
    List.append_nil] at htext
  exact hdiff htext.symm

theorem reply_calls {status : Int} {x : Out Unit × Globals ARG_MAX}
    (h : (reply portid msgid status g).Runs t x) : t.map (·.call) = [.replymsg portid msgid status] := by
  rcases reply_steps h with ⟨-, hq⟩ | ⟨r, b, g', rfl, -, -⟩
  · exact absurd rfl (hq x)
  · rfl

/-- The answer to a message does not depend on the messages that were served before it exactly
if, where it is a request that is read, the bytes that are delivered of it tell the answer. -/
theorem serveMessage_independent (hmax : 4096 ≤ ARG_MAX) (portid kq msgid : Int) {data : List Char}
    (hsize : req.cmd = .sendio → req.ssize ≠ ARG_MAX) (hdata : data.length ≤ req.ssize) :
    Independent ARG_MAX portid kq msgid req data ↔
      (req.cmd = .sendio → req.ssize < ARG_MAX → Tells data req.ssize) := by
  refine ⟨fun h hcmd hlt => tells_of_independent hmax hcmd hlt hdata h, fun htells => ?_⟩
  intro g₁ g₂ _ _ t₁ t₂ x₁ x₂ h₁ h₂ hd₁ hd₂
  by_cases hcmd : req.cmd = .sendio
  · rcases Nat.lt_or_gt_of_ne (hsize hcmd) with hlt | hgt
    · have hsame : ∀ g : Globals ARG_MAX, answer (heard g.reqBuf data req.ssize) = answer data := fun g => by
        rw [heard_eq hdata hlt.le]
        exact answer_of_tells (htells hcmd hlt) (List.length_take_le ..)
      rw [serveMessage_sendio hcmd] at h₁ h₂
      rw [cmdSendio_calls hmax hlt h₁ hd₁, cmdSendio_calls hmax hlt h₂ hd₂, hsame, hsame]
    · rw [serveMessage_tooLong hcmd hgt] at h₁ h₂
      rw [reply_calls h₁, reply_calls h₂]
  · rw [serveMessage_other hcmd] at h₁ h₂
    rw [reply_calls h₁, reply_calls h₂]

/-- A request whose first word is delivered as far as the space after it. -/
theorem serveMessage_independent_word :
    Independent 4096 0 0 1 ⟨.sendio, 9, 0⟩ ['h', 'e', 'l', 'p', ' '] := by
  have hdata : ['h', 'e', 'l', 'p', ' '].length ≤ 9 := by decide
  exact (serveMessage_independent (Nat.le_refl 4096) 0 0 1 (fun _ => by decide) hdata).mpr
    fun _ _ => .inr (.inr (.inl (by decide)))

/-- Nothing is delivered of a request of four bytes: it is answered as one without a command,
or as the `help` that another client has sent before it. -/
theorem failedRead_answers : ∃ g g₁ g₂ : Globals 4096, History 4096 0 0 g ∧
    (serveMessage 0 2 ⟨.sendio, 4, 0⟩ (Globals.initial 4096 0 0)).Runs
      (sendioRun 0 2 4 [] errorText) (.ok (), g₁) ∧
    (serveMessage 0 2 ⟨.sendio, 4, 0⟩ g).Runs (sendioRun 0 2 4 [] helpText) (.ok (), g₂) ∧
    errorText ≠ helpText := by
  let req : Iorequest := ⟨.sendio, 4, 0⟩
  have hmax := Nat.le_refl 4096
  have hlt : req.ssize < 4096 := by decide
  have hspace : ' ' ∉ ['h', 'e', 'l', 'p'] := by decide
  have hdata : ([] : List Char).length ≤ req.ssize := Nat.zero_le 4
  have hfits : ['h', 'e', 'l', 'p'].length ≤ req.ssize - ([] : List Char).length := Nat.le_refl 4
  obtain ⟨g, hg, rest, hbuf⟩ := history_one hmax 0 0 hspace hlt
  obtain ⟨rest', hinitial⟩ := initial_drop 0 0 (Nat.zero_lt_of_lt hlt)
  obtain ⟨g₁, h₁, -⟩ := cmdSendio_run hmax 0 2 hlt (Globals.initial 4096 0 0) []
  obtain ⟨g₂, h₂, -⟩ := cmdSendio_run hmax 0 2 hlt g []
  rw [answer_heard hdata hlt (Nat.zero_le _) hinitial] at h₁
  rw [answer_heard hdata hlt hfits hbuf] at h₂
  exact ⟨g, g₁, g₂, hg, h₁, h₂, by decide⟩

end Cheviot.Proof
