import Cheviot.Proof.ScriptLaws
import Cheviot.Proof.Service
import Cheviot.Spec.Boot

/-!
# Nothing runs before the servers it waits for

What a line of a script calls (`runLines_calls`, `waits_runs`), and where a server is mounted
(`server_mounts`), each proved of its program alone. In any run of sysinit and the servers that a
script starts, each mount has been made by one who was started before (`run_mounts`), so that a line
after a `waitfor` makes no call before the path that is waited for has been mounted, by a server
that an earlier line has started: `boot_waits`.
-/

namespace Cheviot.Proof

open Framework Cheviot.Spec
open Cheviot.Sysinit (Str NUL processBootstrapScript)
open Cheviot.Servers (serverSys)

variable {fuel fuel' ARG_MAX : Nat} {tgt : Cheviot.Servers.Target} {SYSINIT_PATH : Str} {program : Str → Option Server}

/-! ## Tokens and lines -/

/-- The characters of a token are those of a line of the script. -/
theorem token_fits {script line tok : Str} (hnul : NUL ∉ script) (hfit : LinesFit script)
    (hline : line ∈ lines script) (htok : tok ∈ tokens line) : NUL ∉ tok ∧ tok.length ≤ 255 := by
  have hpart := infix_of_mem_tokensBy htok
  exact ⟨fun h => hnul (of_mem_pieces hline (hpart.subset h)).1,
    hpart.length_le.trans (hfit line hline)⟩

/-! ## What a line calls -/

/-- A call of the command `cmd` on the operands `ops`: only `start` starts a program, which is its
operands, and only `createport` creates a port. -/
def CallsOf (cmd : Str) (ops : List Str) : Sysinit.Call → Prop
  | .fork (.start _ argv) => cmd = "start".toList ∧ argv = ops
  | .createmsgport .. => cmd = "createport".toList
  | _ => True

theorem issue_frame {P : Sysinit.Call → Prop} {c : Sysinit.Call} (h : P c) :
    Proc.Frame P (fun _ => ()) (issue c) := .bind (.call h) fun _ => .pure _

theorem perform_frame {P : Sysinit.Call → Prop} {c : Sysinit.Call} (h : P c) :
    Proc.Frame P (fun _ => ()) (perform c) := .bind (issue_frame h) fun _ => .pure _

/-- The rounds of a `waitfor` only ask and sleep. -/
def IsPoll : Sysinit.Call → Prop
  | .ismount _ | .nanosleep _ => True
  | _ => False

/-- A round of a `waitfor`. -/
def pollRound (path : Str) : Proc Sysinit.sys Ports (Proc.Round Unit Unit) := do
  let sc ← issue (.ismount path)
  if sc = 1 then
    pure (.done ())
  else
    let _ ← issue (.nanosleep 25000000)
    pure (.again ())

theorem pollRound_frame (path : Str) : Proc.Frame IsPoll (fun _ => ()) (pollRound path) :=
  .bind (issue_frame trivial) fun _ => .ite (.pure _) (.bind (issue_frame trivial) fun _ => .pure _)

theorem IsPoll.callsOf {c : Sysinit.Call} (h : IsPoll c) (cmd : Str) (ops : List Str) :
    CallsOf cmd ops c := by
  cases c <;> first
    | exact trivial
    | cases h

theorem command_frame (cmd : Str) (ops : List Str) :
    Proc.Frame (CallsOf cmd ops) (fun _ => ()) (command fuel (Proc.exit (-1)) cmd ops) := by
  unfold command
  split
  case isTrue hcmd =>
    cases ops with
    | nil => exact .pure _
    | cons op ops => exact perform_frame ⟨hcmd, rfl⟩
  split
  case isTrue =>
    cases ops with
    | nil => exact .exit _
    | cons path ops => exact .iter (fun _ => (pollRound_frame path).mono fun c hc => hc.callsOf _ _) _ _
  split
  case isTrue =>
    split
    · split
      · exact perform_frame trivial
      · exact .pure _
    · exact .pure _
  split
  case isTrue =>
    cases ops with
    | nil => exact .pure _
    | cons op ops => exact perform_frame trivial
  split
  case isTrue =>
    cases ops with
    | nil => exact .pure _
    | cons op ops => exact perform_frame trivial
  split
  case isTrue =>
    split
    · exact perform_frame trivial
    · exact .pure _
  split
  case isTrue =>
    split
    · exact perform_frame trivial
    · exact .pure _
  split
  case isTrue hcmd =>
    refine .bind (issue_frame hcmd) fun portid => .bind (.modify fun _ => rfl) fun _ => ?_
    exact .ite (.pure _) (.bind (issue_frame trivial) fun _ => .modify fun _ => rfl)
  exact .pure _

/-- A call of lines is one of the command of a line. -/
theorem runLines_calls {ls : List Str} {p : Ports} {t : List (Event Sysinit.sys)}
    {q : Prog Sysinit.sys (Out Unit × Ports)} (hs : (runLines fuel ls p).Steps t q) :
    ∀ e ∈ t, ∃ line ∈ ls, ∃ cmd ops, tokens line = cmd :: ops ∧ CallsOf cmd ops e.call := by
  have hframe : Proc.Frame (fun c => ∃ line ∈ ls, ∃ cmd ops, tokens line = cmd :: ops ∧ CallsOf cmd ops c)
      (fun _ => ()) (runLines fuel ls) := by
    clear hs
    induction ls with
    | nil => exact .pure _
    | cons line ls ih =>
      rw [runLines, interpretLines_cons]
      refine .bind ?_ fun _ => ih.mono fun c ⟨line', hline, hc⟩ => ⟨line', List.mem_cons_of_mem _ hline, hc⟩
      cases htoks : tokens line with
      | nil => exact .pure _
      | cons cmd ops =>
        rw [runTokens]
        refine .ite (.pure _) ((command_frame cmd ops).mono fun c hc => ?_)
        exact ⟨line, List.mem_cons_self, cmd, ops, htoks, hc⟩
  exact hframe.calls hs

/-- A line that waits for a mount runs to its end where it is told of the mount. -/
theorem waits_runs {line path : Str} (hw : WaitsFor line path) {p p' : Ports}
    {t : List (Event Sysinit.sys)}
    (hr : (runTokens fuel (Proc.exit (-1)) (tokens line) p).Runs t (.ok (), p')) :
    ∃ t' e, t = t' ++ [e] ∧ tellsMounted path e := by
  obtain ⟨ops, htoks⟩ := hw
  rw [htoks, runTokens, if_neg (by decide)] at hr
  have hpoll : command fuel (Proc.exit (-1)) "waitfor".toList (path :: ops) =
      Proc.iter (fun _ => pollRound path) fuel () := rfl
  rw [hpoll] at hr
  obtain ⟨t₁, t₂, _, p₁, rfl, -, hlast⟩ := Proc.runs_iter hr
  rw [pollRound, Proc.bind_apply, issue_apply, Prog.call_bind, Prog.runs_call] at hlast
  obtain ⟨⟨sc, err⟩, t₃, rfl, hlast⟩ := hlast
  rw [Prog.ret_bind, Proc.next_ok] at hlast
  dsimp only at hlast
  split at hlast
  case isTrue hsc =>
    obtain ⟨rfl, -, -⟩ := Proc.runs_pure.mp hlast
    exact ⟨t₁, _, rfl, err, by rw [hsc]⟩
  case isFalse =>
    rw [Proc.bind_apply, issue_apply, Prog.call_bind, Prog.runs_call] at hlast
    obtain ⟨r, t₄, rfl, hlast⟩ := hlast
    obtain ⟨-, he⟩ := Prog.runs_ret.mp hlast
    cases he

/-- So do the lines up to it. -/
theorem runLines_waits {before : List Str} {w path : Str} (hw : WaitsFor w path) {p p' : Ports}
    {t : List (Event Sysinit.sys)} (hr : (runLines fuel (before ++ [w]) p).Runs t (.ok (), p')) :
    ∃ t' e, t = t' ++ [e] ∧ tellsMounted path e := by
  rw [runLines, interpretLines_append, Proc.runs_bind_ok] at hr
  obtain ⟨t₁, t₂, _, p₁, rfl, -, hr⟩ := hr
  rw [interpretLines_cons, Proc.runs_bind_ok] at hr
  obtain ⟨u₁, u₂, _, p₂, rfl, hwait, hnil⟩ := hr
  obtain ⟨rfl, -⟩ := Prog.runs_ret.mp hnil
  obtain ⟨u, e, rfl, htold⟩ := waits_runs hw hwait
  exact ⟨t₁ ++ u, e, by simp, htold⟩

/-! ## Where a server is mounted -/

theorem serverMain_mounts {σ : Type} {v : Cheviot.Servers.Vars σ}
    {cmdSendio : Int → Int → Cheviot.Sysinfo.Iorequest → Proc Cheviot.Sysinfo.sys σ Unit}
    {start : Int → Int → σ} {argv : List Str} (hargv : ∀ s ∈ argv, NUL ∉ s ∧ s.length ≤ tgt.PATH_MAX)
    {t : List (Event serverSys)} {q : Prog serverSys (Out Unit)}
    (hs : (Cheviot.Servers.serverMain v cmdSendio start tgt fuel argv).Steps t q)
    {e : Event serverSys} (he : e ∈ t) {path : Str} (hm : mountsAt path e) : mountPath argv = some path := by
  obtain ⟨flags, st, portid, -, rfl⟩ := hm
  have hfits : ∀ path, mountPath argv = some path → NUL ∉ path ∧ path.length ≤ tgt.PATH_MAX := fun path h =>
    hargv _ (List.mem_of_getElem? ((readOptions_mountPath tgt argv).trans h))
  have asks : ∀ {t₁ : List (Event Cheviot.Servers.sys)}
      {q : Prog Cheviot.Servers.sys (Out Unit × Cheviot.Servers.Globals tgt)},
      (Cheviot.Servers.init argv (Cheviot.Servers.Globals.initial tgt)).Steps t₁ q →
      (⟨.inl (.createmsgport path flags st), portid⟩ : Event serverSys) ∈ t₁.map Event.inl →
      mountPath argv = some path := fun hinit hmem => by
    obtain ⟨⟨c, r⟩, hmem', heq⟩ := List.mem_map.mp hmem
    cases heq
    exact (init_asks hfits hinit).1 _ _ _ _ hmem'
  rcases Proc.steps_andThen hs with ⟨t₁, p', rfl, hinit, -⟩ | ⟨t₁, t₂, a, g, q', rfl, hinit, -⟩
  · exact asks hinit he
  · rcases List.mem_append.mp he with he | he
    · exact asks hinit he
    · obtain ⟨e', -, heq⟩ := List.mem_map.mp he
      cases heq

/-- A server is mounted at its operand, and nowhere else. -/
theorem server_mounts {server : Server} {argv : List Str} (hargv : ∀ s ∈ argv, NUL ∉ s ∧ s.length ≤ tgt.PATH_MAX)
    {t : List (Event serverSys)} {q : Prog serverSys (Out Unit)}
    (hs : (server.main ARG_MAX tgt fuel argv).Steps t q) {e : Event serverSys} (he : e ∈ t)
    {path : Str} (hm : mountsAt path e) : mountPath argv = some path := by
  cases server <;> exact serverMain_mounts hargv hs he hm

/-! ## Mounts -/

/-- What has made a mount at `path`, after the calls `l`. -/
def Made (SYSINIT_PATH : Str) (program : Str → Option Server) (paths : List Str) (l : List BootLabel)
    (path : Str) : Owner → Prop
  | .boot => path ∈ paths
  | .sysinit => path = SYSINIT_PATH ∧ ∃ e ∈ parentCalls l, createsPort e
  | .server i => ∃ e ∈ childCalls i l, mountsAt path e
  | .other argv => ∃ e ∈ parentCalls l, startedOther program e = some argv

theorem Made.append {paths : List Str} {l : List BootLabel} {path : Str} {owner : Owner}
    (h : Made SYSINIT_PATH program paths l path owner) (l' : List BootLabel) :
    Made SYSINIT_PATH program paths (l ++ l') path owner := by
  cases owner with
  | boot => exact h
  | sysinit =>
    obtain ⟨hpath, e, he, hport⟩ := h
    exact ⟨hpath, e, by rw [parentCalls_append]; exact List.mem_append_left _ he, hport⟩
  | server i =>
    obtain ⟨e, he, hm⟩ := h
    exact ⟨e, by rw [childCalls_append]; exact List.mem_append_left _ he, hm⟩
  | other argv =>
    obtain ⟨e, he, hs⟩ := h
    exact ⟨e, by rw [parentCalls_append]; exact List.mem_append_left _ he, hs⟩

/-- The mount was made at its path, or at another one if mounts have been renamed. -/
def Known (SYSINIT_PATH : Str) (program : Str → Option Server) (paths : List Str) (l : List BootLabel)
    (m : Mount) : Prop :=
  ∃ path, Made SYSINIT_PATH program paths l path m.owner ∧
    ((∀ e ∈ parentCalls l, renames e = false) → path = m.path)

theorem Known.append {paths : List Str} {l : List BootLabel} {m : Mount}
    (h : Known SYSINIT_PATH program paths l m) (l' : List BootLabel) :
    Known SYSINIT_PATH program paths (l ++ l') m := by
  obtain ⟨path, hmade, hpath⟩ := h
  refine ⟨path, hmade.append l', fun hno => hpath fun e he => hno e ?_⟩
  rw [parentCalls_append]
  exact List.mem_append_left _ he

/-- In any run, what has made each mount is known. -/
theorem run_mounted {paths : List Str} {p : Prog Sysinit.sys (Out Int × Sysinit.Globals)}
    {l : List BootLabel}
    {s : Pool Sysinit.sys serverSys (Server × List Str) (Out Int × Sysinit.Globals) (Out Unit) MountTable}
    (hrun : Pool.Run (bootKernel ARG_MAX tgt fuel SYSINIT_PATH program)
      ⟨p, [], MountTable.initial paths⟩ l s) :
    (∀ m ∈ s.shared.mounts, Known SYSINIT_PATH program paths l m) ∧
      ∀ argv ∈ s.shared.others, ∃ e ∈ parentCalls l, startedOther program e = some argv := by
  induction hrun with
  | nil =>
    refine ⟨fun m hm => ?_, by simp [MountTable.initial]⟩
    obtain ⟨path, hpath, rfl⟩ := List.mem_map.mp hm
    exact ⟨path, hpath, fun _ => rfl⟩
  | @snoc l s₁ s₂ x _ hstep ih =>
    obtain ⟨hmounts, hothers⟩ := ih
    have other : ∀ {m : Mount}, s₁.shared.Other m → Known SYSINIT_PATH program paths (l ++ [x]) m := by
      rintro m ⟨argv, hargv, howner⟩
      have hmade : Made SYSINIT_PATH program paths l m.path m.owner := by
        rw [howner]
        exact hothers argv hargv
      exact ⟨m.path, hmade.append _, fun _ => rfl⟩
    cases hstep with
    | parent r hkernel =>
      obtain ⟨-, hnew, hstarted⟩ := hkernel
      refine ⟨fun m hm => ?_, fun argv hargv => ?_⟩
      · rcases hnew m hm with hold | ho | ⟨howner, hpath, hport⟩ | ⟨hren, m', hold, howner⟩
        · exact (hmounts m hold).append _
        · exact other ho
        · refine ⟨m.path, ?_, fun _ => rfl⟩
          rw [howner]
          exact ⟨hpath, _, by rw [parentCalls_parent]; exact List.mem_append_right _ List.mem_cons_self, hport⟩
        · obtain ⟨path, hmade, -⟩ := hmounts m' hold
          refine ⟨path, howner ▸ hmade.append _, fun hno => ?_⟩
          rw [hno _ (by rw [parentCalls_parent]; exact List.mem_append_right _ List.mem_cons_self)] at hren
          cases hren
      · rw [hstarted] at hargv
        rw [parentCalls_parent]
        rcases List.mem_append.mp hargv with hargv | hargv
        · obtain ⟨e, he, hs⟩ := hothers argv hargv
          exact ⟨e, List.mem_append_left _ he, hs⟩
        · exact ⟨_, List.mem_append_right _ List.mem_cons_self, Option.mem_toList.mp hargv⟩
    | @child _ _ _ _ i _ _ _ r _ hkernel =>
      obtain ⟨hnew, hsame⟩ := hkernel
      refine ⟨fun m hm => ?_, fun argv hargv => ?_⟩
      · rcases hnew m hm with hold | ho | ⟨howner, hm'⟩
        · exact (hmounts m hold).append _
        · exact other ho
        · refine ⟨m.path, ?_, fun _ => rfl⟩
          rw [howner]
          exact ⟨_, by rw [childCalls_child]; exact List.mem_append_right _ List.mem_cons_self, hm'⟩
      · rw [parentCalls_child]
        exact hothers argv (hsame ▸ hargv)

/-- The line that has started a program. -/
theorem startedArgv_line {ls : List Str} {e : Event Sysinit.sys} {argv : List Str}
    (hcalls : ∃ line ∈ ls, ∃ cmd ops, tokens line = cmd :: ops ∧ CallsOf cmd ops e.call)
    (hs : startedArgv e = some argv) : ∃ line ∈ ls, tokens line = "start".toList :: argv := by
  obtain ⟨line, hline, cmd, ops, htoks, hcall⟩ := hcalls
  unfold startedArgv at hs
  split at hs
  case h_1 =>
    obtain ⟨hcmd, hops⟩ := hcall
    cases hs
    exact ⟨line, hline, by rw [htoks, hcmd, hops]⟩
  case h_2 => cases hs

/-- What has made a mount was started by a line. -/
theorem Made.provided {paths ls : List Str} {p : Prog Sysinit.sys (Out Int × Sysinit.Globals)}
    {l : List BootLabel}
    {s : Pool Sysinit.sys serverSys (Server × List Str) (Out Int × Sysinit.Globals) (Out Unit) MountTable}
    (hfits : ∀ line ∈ ls, ∀ tok ∈ tokens line, NUL ∉ tok ∧ tok.length ≤ tgt.PATH_MAX)
    (hrun : Pool.Run (bootKernel ARG_MAX tgt fuel SYSINIT_PATH program)
      ⟨p, [], MountTable.initial paths⟩ l s)
    (hcalls : ∀ e ∈ parentCalls l, ∃ line ∈ ls, ∃ cmd ops, tokens line = cmd :: ops ∧ CallsOf cmd ops e.call)
    {path : Str} {owner : Owner} (h : Made SYSINIT_PATH program paths l path owner) :
    Provided SYSINIT_PATH program paths ls l path owner := by
  cases owner with
  | boot => exact .boot h
  | sysinit =>
    obtain ⟨hpath, e, he, hport⟩ := h
    obtain ⟨line, hline, cmd, ops, htoks, hcall⟩ := hcalls e he
    have hcmd : cmd = "createport".toList := by
      unfold createsPort at hport
      split at hport
      case h_1 => exact hcall
      case h_2 => cases hport
    exact .sysinit hline (by rw [htoks, hcmd]) he hport hpath
  | server i =>
    obtain ⟨e, he, hm⟩ := h
    obtain ⟨hsteps, hnone⟩ := hrun.child i
    have hlt : i < s.children.length := by
      by_contra hge
      rw [hnone (Nat.not_lt.mp hge)] at he
      cases he
    obtain ⟨⟨server, argv⟩, q, hget⟩ : ∃ x q, s.children[i]? = some (x, q) :=
      ⟨_, _, List.getElem?_eq_getElem hlt⟩
    have hstarted : (startedServers program l)[i]? = some (server, argv) := by
      have hforked : s.children.map (·.1) = startedServers program l := hrun.forked
      rw [← hforked, List.getElem?_map, hget]
      rfl
    obtain ⟨e', he', hs⟩ := List.mem_filterMap.mp (List.mem_of_getElem? hstarted)
    obtain ⟨argv', hargv', hserver⟩ := Option.bind_eq_some_iff.mp hs
    obtain ⟨server', hprogram, heq⟩ := Option.map_eq_some_iff.mp hserver
    cases heq
    obtain ⟨line, hline, htoks⟩ := startedArgv_line (hcalls e' he') hargv'
    have hargv : ∀ s ∈ argv, NUL ∉ s ∧ s.length ≤ tgt.PATH_MAX := fun tok htok =>
      hfits line hline tok (by rw [htoks]; exact List.mem_cons_of_mem _ htok)
    exact .server hline htoks hprogram (server_mounts hargv (hsteps _ q hget) he hm) hstarted he hm
  | other argv =>
    obtain ⟨e, he, hs⟩ := h
    obtain ⟨hargv, hother⟩ := Option.filter_eq_some_iff.mp hs
    obtain ⟨line, hline, htoks⟩ := startedArgv_line (hcalls e he) hargv
    exact .other hline htoks (Option.isNone_iff_eq_none.mp hother) he hargv

/-- A line that waits starts nothing. -/
theorem provided_before {paths before : List Str} {w path path' : Str} {l : List BootLabel} {owner : Owner}
    (hw : WaitsFor w path) (h : Provided SYSINIT_PATH program paths (before ++ [w]) l path' owner) :
    Provided SYSINIT_PATH program paths before l path' owner := by
  obtain ⟨ops, htoks⟩ := hw
  have hbefore : ∀ {line cmd : Str} {ops' : List Str}, line ∈ before ++ [w] →
      tokens line = cmd :: ops' → cmd ≠ "waitfor".toList → line ∈ before := fun hline htoks' hcmd => by
    rcases List.mem_append.mp hline with hline | hline
    · exact hline
    · rw [List.mem_singleton.mp hline, htoks] at htoks'
      exact absurd (List.cons.inj htoks').1.symm hcmd
  cases h with
  | boot h => exact .boot h
  | sysinit hline htoks he hport hpath =>
    exact .sysinit (hbefore hline htoks (by decide)) htoks he hport hpath
  | server hline htoks hprogram hmount hstarted he hm =>
    exact .server (hbefore hline htoks (by decide)) htoks hprogram hmount hstarted he hm
  | other hline htoks hprogram he hs =>
    exact .other (hbefore hline htoks (by decide)) htoks hprogram he hs

/-! ## The order of starts -/

/-- In any run of sysinit and the servers that a script starts, the lines after a `waitfor` make no
call before sysinit is told that the path is mounted; and then it is, by one who was there or whom a
line before has started. -/
theorem boot_waits {script r path w : Str} {before after paths : List Str} {g : Sysinit.Globals}
    {l : List BootLabel}
    {s : Pool Sysinit.sys serverSys (Server × List Str) (Out Int × Sysinit.Globals) (Out Unit) MountTable}
    (hmax : 255 ≤ tgt.PATH_MAX) (hnul : NUL ∉ script) (hfit : LinesFit script)
    (hrun : Pool.Run (bootKernel ARG_MAX tgt fuel' SYSINIT_PATH program)
      ⟨processBootstrapScript fuel (some (script ++ NUL :: r)) g, [], MountTable.initial paths⟩ l s)
    (hlines : lines script = before ++ w :: after) (hw : WaitsFor w path) :
    (∃ q, (runLines fuel (before ++ [w]) (ports g)).Steps (parentCalls l) q) ∨
      ∃ l₀ e l₂ s₀ p, l = l₀ ++ .parent e :: l₂ ∧ tellsMounted path e ∧
        (runLines fuel (before ++ [w]) (ports g)).Runs (parentCalls l₀ ++ [e]) (.ok (), p) ∧
        Pool.Run (bootKernel ARG_MAX tgt fuel' SYSINIT_PATH program)
          ⟨processBootstrapScript fuel (some (script ++ NUL :: r)) g, [], MountTable.initial paths⟩ l₀ s₀ ∧
        MountedBy SYSINIT_PATH program paths before l₀ s₀.shared path := by
  obtain ⟨q, hsteps, -⟩ := (processBootstrapScript_ok fuel r hnul hfit
    (⟨rfl, rfl⟩ : SamePorts g (ports g))).steps hrun.parent
  have hsplit : before ++ w :: after = (before ++ [w]) ++ after := by simp
  rw [interpret, hlines, hsplit, interpretLines_append, Proc.bind_apply] at hsteps
  rcases Prog.steps_bind.mp hsteps with ⟨q', hq, -⟩ | ⟨t₁, t₂, ⟨o, p⟩, hl, hq, hnext⟩
  · exact .inl ⟨q', hq⟩
  cases o with
  | ok u =>
    refine .inr ?_
    obtain ⟨t, e, rfl, htold⟩ := runLines_waits hw hq
    obtain ⟨l₀, l₂, rfl, hl₀, -⟩ := exists_of_parentCalls (by rw [hl, List.append_assoc]; rfl)
    obtain ⟨s₀, hrun₀, hrest⟩ := Pool.run_append hrun
    obtain ⟨s₁, hrun₁, -⟩ := Pool.run_append (l := [.parent e]) hrest
    obtain ⟨s₀', hnil, hstep⟩ := Pool.run_snoc (l := []) hrun₁
    obtain rfl := Pool.run_nil hnil
    obtain ⟨m, hm, hpath⟩ : ∃ m ∈ s₀'.shared.mounts, m.path = path := by
      cases hstep with
      | parent r hkernel => exact hkernel.1 path htold
    obtain ⟨path', hmade, hsame⟩ := (run_mounted hrun₀).1 m hm
    have hcalls : ∀ e' ∈ parentCalls l₀, ∃ line ∈ before ++ [w], ∃ cmd ops, tokens line = cmd :: ops ∧
        CallsOf cmd ops e'.call := fun e' he' => runLines_calls hq e' (List.mem_append_left _ (hl₀ ▸ he'))
    have hfits : ∀ line ∈ before ++ [w], ∀ tok ∈ tokens line, NUL ∉ tok ∧ tok.length ≤ tgt.PATH_MAX := by
      intro line hline tok htok
      have hmem : line ∈ lines script := by
        rw [hlines, hsplit]
        exact List.mem_append_left _ hline
      obtain ⟨hplain, hlen⟩ := token_fits hnul hfit hmem htok
      exact ⟨hplain, hlen.trans hmax⟩
    exact ⟨l₀, e, l₂, s₀', p, rfl, htold, by rw [hl₀]; exact hq, hrun₀, m, hm, hpath, path',
      provided_before hw (hmade.provided hfits hrun₀ hcalls), fun hno => (hsame hno).trans hpath⟩
  | _ =>
    obtain ⟨rfl, -⟩ := Prog.steps_ret.mp hnext
    rw [List.append_nil] at hl
    exact .inl ⟨_, hl ▸ hq⟩

/-- `s` is syslog. -/
def syslogAtS (name : Str) : Option Server := if name = ['s'] then some .syslog else none

/-- A script that starts syslog, and waits for it. -/
def waitScript : Str := "start s /s\nwaitfor /s\nsleep 1".toList

/-- The calls of sysinit on that script. -/
def waitCalls : List (Event Sysinit.sys) :=
  [⟨.fork (.start false atS), (some 31, 0)⟩, ⟨.ismount ['/', 's'], ((1 : Int), (0 : Int))⟩,
    ⟨.sleep 1#32, ((0 : Int), (0 : Int))⟩]

/-- syslog is started, and mounted before sysinit asks. -/
def waitLabels (st : Sysinit.Stat) : List BootLabel :=
  [.parent ⟨.fork (.start false atS), (some 31, 0)⟩,
    .child 0 ⟨.inl (.createmsgport ['/', 's'] 0 st), (3 : Int)⟩, .parent ⟨.ismount ['/', 's'], ((1 : Int), (0 : Int))⟩,
    .parent ⟨.sleep 1#32, ((0 : Int), (0 : Int))⟩]

/-- The run of `waitLabels`. -/
theorem waitLabels_run : ∃ st s, Pool.Run (bootKernel 4096 target32 1 ['/', 'i'] syslogAtS)
    ⟨processBootstrapScript 1 (some (waitScript ++ [NUL])) (Sysinit.Globals.initial [] 0), [],
      MountTable.initial []⟩ (waitLabels st) s := by
  have hsteps : ∃ q, (processBootstrapScript 1 (some (waitScript ++ [NUL])) (Sysinit.Globals.initial [] 0)).Steps
      waitCalls q := by decide +kernel
  obtain ⟨q, hsteps⟩ := hsteps
  obtain ⟨q₁, hfork, hrest⟩ := Prog.steps_append (t := [_]) hsteps
  obtain ⟨q₂, hask, hsleep⟩ := Prog.steps_append (t := [_]) hrest
  obtain ⟨st, g, hinit, -⟩ := init_runs mountPath_atS (by decide) (show _ ≤ target32.PATH_MAX by decide)
    (show (0 : Int) ≤ 3 by decide) (show (0 : Int) ≤ 4 by decide)
  obtain ⟨q₃, hmount, -⟩ := Prog.steps_append (t := [_]) hinit
  have hserver : ∃ q, (Server.main 4096 target32 1 .syslog atS).Steps
      [⟨.inl (.createmsgport ['/', 's'] 0 st), (3 : Int)⟩] q := ⟨_, hmount.inl.bind _⟩
  obtain ⟨q₄, hserver⟩ := hserver
  -- only `ismount` tells of a mount
  have hsilent : ∀ {x : MountTable} {c : Sysinit.Call} {r : Sysinit.sys.Ret c}, (∀ path, c ≠ .ismount path) →
      startedOther syslogAtS ⟨c, r⟩ = none →
      (bootKernel 4096 target32 1 ['/', 'i'] syslogAtS).parent x ⟨c, r⟩ x := fun hc hother => by
    refine ⟨fun path h => ?_, fun m hm => .inl hm, by rw [hother]; exact (List.append_nil _).symm⟩
    obtain ⟨err, h⟩ := h
    exact absurd (congrArg Event.call h) (hc path)
  have hmounted : (bootKernel 4096 target32 1 ['/', 'i'] syslogAtS).child (MountTable.initial []) 0
      ⟨.inl (.createmsgport ['/', 's'] 0 st), (3 : Int)⟩ ⟨[⟨['/', 's'], .server 0⟩], []⟩ := by
    refine ⟨fun m hm => .inr (.inr ?_), rfl⟩
    rw [List.mem_singleton.mp hm]
    exact ⟨rfl, 0, st, 3, by decide, rfl⟩
  have htold : (bootKernel 4096 target32 1 ['/', 'i'] syslogAtS).parent ⟨[⟨['/', 's'], .server 0⟩], []⟩
      ⟨.ismount ['/', 's'], ((1 : Int), (0 : Int))⟩ ⟨[⟨['/', 's'], .server 0⟩], []⟩ := by
    refine ⟨fun path h => ?_, fun m hm => .inl hm, rfl⟩
    obtain ⟨err, h⟩ := h
    cases h
    exact ⟨_, List.mem_cons_self, rfl⟩
  exact ⟨st, _, (((Pool.Run.nil.snoc (Pool.step_parent hfork (hsilent (by simp) (by decide)))).snoc
    (Pool.step_child rfl hserver hmounted)).snoc (Pool.step_parent hask htold)).snoc
      (Pool.step_parent hsleep (hsilent (by simp) rfl))⟩

/-- sysinit sleeps only after it has been told of the mount. -/
theorem boot_waits_syslog : ∃ st s, Pool.Run (bootKernel 4096 target32 1 ['/', 'i'] syslogAtS)
    ⟨processBootstrapScript 1 (some (waitScript ++ [NUL])) (Sysinit.Globals.initial [] 0), [],
      MountTable.initial []⟩ (waitLabels st) s ∧
    ∃ l₀ e l₂ s₀ p, waitLabels st = l₀ ++ .parent e :: l₂ ∧ tellsMounted ['/', 's'] e ∧
      (runLines 1 (["start s /s".toList] ++ ["waitfor /s".toList])
        (ports (Sysinit.Globals.initial [] 0))).Runs (parentCalls l₀ ++ [e]) (.ok (), p) ∧
      Pool.Run (bootKernel 4096 target32 1 ['/', 'i'] syslogAtS)
        ⟨processBootstrapScript 1 (some (waitScript ++ [NUL])) (Sysinit.Globals.initial [] 0), [],
          MountTable.initial []⟩ l₀ s₀ ∧
      MountedBy ['/', 'i'] syslogAtS [] ["start s /s".toList] l₀ s₀.shared ['/', 's'] := by
  obtain ⟨st, s, hrun⟩ := waitLabels_run
  have hbeyond : ¬ ∃ q, (runLines 1 (["start s /s".toList] ++ ["waitfor /s".toList])
      (ports (Sysinit.Globals.initial [] 0))).Steps waitCalls q := by decide +kernel
  exact ⟨st, s, hrun, (boot_waits (by decide) (by decide) (by decide) hrun
    (show _ = ["start s /s".toList] ++ "waitfor /s".toList :: ["sleep 1".toList] by decide)
      ⟨[], by decide⟩).resolve_left hbeyond⟩

end Cheviot.Proof
