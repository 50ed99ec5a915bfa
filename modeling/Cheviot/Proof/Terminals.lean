import Cheviot.Spec.Terminals

/-!
# The programs that children run

The calls of `login_tty` and `setctty` (`loginTty_cases`, `setctty_cases`), and what they make of the
descriptors (`setctty_onTerminal`). Of each kind of child, what it has done where it is about to run its
program (`gettyChild_execs`, `rcChild_execs`, `startChild_execs`), and why it exits where it runs none
(`child_exits`).
-/

namespace Cheviot.Proof

open Framework Cheviot.Sysinit Cheviot.Spec

variable {t : List (Event childSys)} {o : Out Unit} {x y : Files Str}

theorem mem_standard {n : Int} : n ∈ standard ↔ n = 0 ∨ n = 1 ∨ n = 2 := by
  simp [standard, STDIN_FILENO, STDOUT_FILENO, STDERR_FILENO]

/-! ## `login_tty` -/

/-- The calls of `login_tty` on `fd`, where the terminal is taken. -/
def loginCalls (fd r₁ r₂ r₃ inFd outFd errFd : Int) : List (Event childSys) :=
  [⟨.setsid, r₁⟩, ⟨.setpgrp, r₂⟩, ⟨.ioctlTiocsctty fd, r₃⟩, ⟨.dup2 fd STDIN_FILENO, inFd⟩,
    ⟨.dup2 fd STDOUT_FILENO, outFd⟩, ⟨.dup2 fd STDERR_FILENO, errFd⟩]

/-- The call that `login_tty` makes where it has not replaced all of the three. -/
def loginClose (fd inFd outFd errFd r : Int) : List (Event childSys) :=
  if inFd ≠ STDIN_FILENO ∨ outFd ≠ STDOUT_FILENO ∨ errFd ≠ STDERR_FILENO then [⟨.close fd, r⟩] else []

theorem loginTty_cases {fd : Int} {o : Out Int} (h : (loginTty fd ()).Runs t (o, ())) :
    (∃ r₁ r₂ : Int, o = .ok (-1) ∧ t = [⟨.setsid, r₁⟩, ⟨.setpgrp, r₂⟩, ⟨.ioctlTiocsctty fd, (-1 : Int)⟩]) ∨
      ∃ r₁ r₂ r₃ inFd outFd errFd r, r₃ ≠ -1 ∧ o = .ok 0 ∧
        t = loginCalls fd r₁ r₂ r₃ inFd outFd errFd ++ loginClose fd inFd outFd errFd r := by
  rw [loginTty, Proc.runs_call_bind] at h
  obtain ⟨r₁, t, rfl, h⟩ := h
  rw [Proc.runs_call_bind] at h
  obtain ⟨r₂, t, rfl, h⟩ := h
  rw [Proc.runs_call_bind] at h
  obtain ⟨r₃, t, rfl, h⟩ := h
  rw [Proc.ite_apply] at h
  split at h
  case isTrue hsc =>
    obtain ⟨rfl, rfl, -⟩ := Proc.runs_pure.mp h
    exact .inl ⟨r₁, r₂, rfl, by rw [hsc]⟩
  case isFalse hsc =>
    rw [Proc.runs_call_bind] at h
    obtain ⟨inFd, t, rfl, h⟩ := h
    rw [Proc.runs_call_bind] at h
    obtain ⟨outFd, t, rfl, h⟩ := h
    rw [Proc.runs_call_bind] at h
    obtain ⟨errFd, t, rfl, h⟩ := h
    rw [Proc.ite_apply] at h
    refine .inr ⟨r₁, r₂, r₃, inFd, outFd, errFd, ?_⟩
    split at h
    case isTrue hne =>
      rw [Proc.runs_call_bind] at h
      obtain ⟨r, t, rfl, h⟩ := h
      obtain ⟨rfl, rfl, -⟩ := Proc.runs_pure.mp h
      exact ⟨r, hsc, rfl, by rw [loginClose, if_pos hne]; rfl⟩
    case isFalse heq =>
      obtain ⟨rfl, rfl, -⟩ := Proc.runs_pure.mp h
      exact ⟨0, hsc, rfl, by rw [loginClose, if_neg heq]; rfl⟩

/-- Which descriptors `login_tty` has replaced. -/
theorem replaced_login {fd r₁ r₂ r₃ inFd outFd errFd r n : Int} :
    replaced (loginCalls fd r₁ r₂ r₃ inFd outFd errFd ++ loginClose fd inFd outFd errFd r) n ↔
      inFd = n ∧ n = 0 ∨ outFd = n ∧ n = 1 ∨ errFd = n ∧ n = 2 := by
  have hclose : (loginClose fd inFd outFd errFd r).any (replaces n) = false := by
    rw [loginClose]
    split <;> rfl
  rw [replaced, List.any_append, hclose, Bool.or_false]
  simp only [loginCalls, List.any_cons, List.any_nil, replaces, STDIN_FILENO, STDOUT_FILENO, STDERR_FILENO,
    Bool.or_false, Bool.false_or, Bool.or_eq_true, decide_eq_true_eq]
  omega

/-- What `login_tty` makes of the descriptors. -/
theorem loginCalls_files {name : Str} {fd r₁ r₂ r₃ inFd outFd errFd r : Int} (hfd : 20 ≤ fd)
    (hname : x.fds fd = some name) (hr : r₃ ≠ -1) (ht : t = loginCalls fd r₁ r₂ r₃ inFd outFd errFd ++
      loginClose fd inFd outFd errFd r) (h : Files.Run fileCall x t y) :
    y.tty = some name ∧ (∀ n ∈ standard, y.fds n = if replaced t n then some name else x.fds n) ∧
      y.fds fd = (if standard.all (replaced t) then some name else none) ∧
      ∀ n ∉ standard, n ≠ fd → y.fds n = x.fds n := by
  rw [ht] at h
  obtain ⟨z, hlogin, hclose⟩ := Files.run_append h
  obtain ⟨x₁, h₁, hlogin⟩ := Files.run_cons hlogin
  obtain ⟨x₂, h₂, hlogin⟩ := Files.run_cons hlogin
  obtain ⟨x₃, h₃, hlogin⟩ := Files.run_cons hlogin
  obtain ⟨x₄, h₄, hlogin⟩ := Files.run_cons hlogin
  obtain ⟨x₅, h₅, hlogin⟩ := Files.run_cons hlogin
  obtain ⟨x₆, h₆, hlogin⟩ := Files.run_cons hlogin
  obtain rfl := Files.run_nil hlogin
  have e₂ : x₂.fds = x.fds := by
    cases h₂
    exact Files.step_setsid h₁
  obtain ⟨e₃, htty⟩ := Files.step_setTty h₃
  obtain ⟨tty₄, e₄⟩ : x₄.tty = x₃.tty ∧ ∀ m, x₄.fds m = if inFd = 0 ∧ m = 0 then x₃.fds fd else x₃.fds m :=
    Files.step_dup2 h₄ (by decide)
  obtain ⟨tty₅, e₅⟩ : x₅.tty = x₄.tty ∧ ∀ m, x₅.fds m = if outFd = 1 ∧ m = 1 then x₄.fds fd else x₄.fds m :=
    Files.step_dup2 h₅ (by decide)
  obtain ⟨tty₆, e₆⟩ : z.tty = x₅.tty ∧ ∀ m, z.fds m = if errFd = 2 ∧ m = 2 then x₅.fds fd else x₅.fds m :=
    Files.step_dup2 h₆ (by decide)
  have src₄ : x₄.fds fd = some name := by rw [e₄, if_neg (by omega), e₃, e₂, hname]
  have src₅ : x₅.fds fd = some name := by rw [e₅, if_neg (by omega), src₄]
  have hz : ∀ m, z.fds m = if inFd = m ∧ m = 0 ∨ outFd = m ∧ m = 1 ∨ errFd = m ∧ m = 2 then some name
      else x.fds m := by
    intro m
    rw [e₆, src₅, e₅, src₄, e₄, e₃, e₂, hname]
    split_ifs <;> first
      | rfl
      | omega
  have htty : z.tty = some name := by rw [tty₆, tty₅, tty₄, htty hr, e₂, hname]
  have hstd : ∀ n ∈ standard, z.fds n = if replaced t n then some name else x.fds n := by
    intro n _
    rw [hz]
    refine if_congr ?_ rfl rfl
    rw [ht, replaced_login]
  have hall : standard.all (replaced t) ↔ inFd = 0 ∧ outFd = 1 ∧ errFd = 2 := by
    rw [ht, List.all_eq_true]
    simp [mem_standard, replaced_login]
  rw [loginClose] at hclose
  split at hclose
  case isTrue hne =>
    obtain ⟨y', h₇, hclose⟩ := Files.run_cons hclose
    obtain rfl := Files.run_nil hclose
    obtain ⟨tty₇, e₇⟩ := Files.step_close h₇
    refine ⟨by rw [tty₇, htty], fun n hn => ?_, ?_, fun n hn hne' => ?_⟩
    · have hne' : n ≠ fd := by
        rw [mem_standard] at hn
        omega
      rw [e₇, if_neg hne', hstd n hn]
    · rw [e₇, if_pos rfl, if_neg]
      rw [hall]
      simp only [STDIN_FILENO, STDOUT_FILENO, STDERR_FILENO] at hne
      omega
    · rw [e₇, if_neg hne', hz, if_neg]
      rw [mem_standard] at hn
      omega
  case isFalse heq =>
    obtain rfl := Files.run_nil hclose
    simp only [STDIN_FILENO, STDOUT_FILENO, STDERR_FILENO] at heq
    refine ⟨htty, hstd, ?_, fun n hn hne' => ?_⟩
    · rw [if_pos (hall.mpr (by omega)), hz, if_neg (by omega), hname]
    · rw [hz, if_neg]
      rw [mem_standard] at hn
      omega

/-! ## `setctty` -/

/-- The calls of `setctty` up to `login_tty`. -/
def openCalls (name : Str) (r fd fd' r' : Int) : List (Event childSys) :=
  [⟨.setsid, r⟩, ⟨.open name, fd⟩, ⟨.fcntlDupfd fd 20, fd'⟩, ⟨.close fd, r'⟩]

/-- `setctty` exits where it cannot open its terminal, duplicate it or take it. -/
theorem setctty_cases {name : Str} (h : (setctty name ()).Runs t (o, ())) :
    (∃ r : Int, o = .exited 1 ∧ t = [⟨.setsid, r⟩, ⟨.open name, (-1 : Int)⟩]) ∨
      ∃ r fd fd' r' : Int, fd ≠ -1 ∧
        (o = .exited 1 ∧ fd' = -1 ∧ t = openCalls name r fd fd' r' ∨
          fd' ≠ -1 ∧ ∃ o' t', t = openCalls name r fd fd' r' ++ t' ∧ (loginTty fd' ()).Runs t' (o', ()) ∧
            (o = .exited 2 ∧ o' = .ok (-1) ∨ o = .ok () ∧ o' = .ok 0)) := by
  rw [setctty, Proc.runs_call_bind] at h
  obtain ⟨r, t, rfl, h⟩ := h
  rw [Proc.runs_call_bind] at h
  obtain ⟨fd, t, rfl, h⟩ := h
  rw [Proc.ite_apply] at h
  split at h
  case isTrue hfd =>
    obtain ⟨rfl, he⟩ := Prog.runs_ret.mp h
    cases he
    exact .inl ⟨r, rfl, by rw [hfd]⟩
  case isFalse hfd =>
    refine .inr ⟨r, fd, ?_⟩
    rw [Proc.runs_call_bind] at h
    obtain ⟨fd', t, rfl, h⟩ := h
    rw [Proc.runs_call_bind] at h
    obtain ⟨r', t, rfl, h⟩ := h
    refine ⟨fd', r', hfd, ?_⟩
    rw [Proc.ite_apply] at h
    split at h
    case isTrue hfd' =>
      obtain ⟨rfl, he⟩ := Prog.runs_ret.mp h
      cases he
      exact .inl ⟨rfl, hfd', rfl⟩
    case isFalse hfd' =>
      refine .inr ⟨hfd', ?_⟩
      rw [Proc.bind_apply, Prog.runs_bind] at h
      obtain ⟨t₁, t₂, ⟨o', u⟩, rfl, hlogin, h⟩ := h
      rcases loginTty_cases hlogin with ⟨r₁, r₂, rfl, -⟩ | ⟨r₁, r₂, r₃, a, b, c, r₄, -, rfl, -⟩
      · rw [Proc.next_ok, if_pos rfl] at h
        obtain ⟨rfl, he⟩ := Prog.runs_ret.mp h
        cases he
        exact ⟨_, t₁, by rw [List.append_nil]; rfl, hlogin, .inl ⟨rfl, rfl⟩⟩
      · rw [Proc.next_ok, if_neg (by decide)] at h
        obtain ⟨rfl, he⟩ := Prog.runs_ret.mp h
        cases he
        exact ⟨_, t₁, by rw [List.append_nil]; rfl, hlogin, .inr ⟨rfl, rfl⟩⟩

/-- Where `setctty` returns, the process is on its terminal. -/
theorem setctty_onTerminal {name : Str} (hr : (setctty name ()).Runs t (.ok (), ()))
    (h : Files.Run fileCall x t y) : OnTerminal name t x y := by
  rcases setctty_cases hr with ⟨r, ho, -⟩ | ⟨r, fd, fd', r', hfd, ⟨ho, -⟩ | ⟨hfd', o', t', rfl, hlogin, ho⟩⟩
  · cases ho
  · cases ho
  obtain rfl : o' = .ok 0 := by
    rcases ho with ⟨ho, -⟩ | ⟨-, ho⟩
    · cases ho
    · exact ho
  obtain ⟨z, hopen, hrun⟩ := Files.run_append h
  obtain ⟨x₁, h₁, hopen⟩ := Files.run_cons hopen
  obtain ⟨x₂, h₂, hopen⟩ := Files.run_cons hopen
  obtain ⟨x₃, h₃, hopen⟩ := Files.run_cons hopen
  obtain ⟨x₄, h₄, hopen⟩ := Files.run_cons hopen
  obtain rfl := Files.run_nil hopen
  have e₁ := Files.step_setsid h₁
  obtain ⟨hfree, e₂⟩ := Files.step_open h₂ hfd
  obtain ⟨hmin, hfree', -, e₃⟩ := Files.step_dupFrom h₃ hfd'
  obtain ⟨-, e₄⟩ := Files.step_close h₄
  rw [e₁] at hfree e₂
  have hne : fd' ≠ fd := by
    rintro rfl
    rw [e₂, if_pos rfl] at hfree'
    cases hfree'
  have hfree₀ : x.fds fd' = none := by rw [← hfree', e₂, if_neg hne]
  -- the descriptor that was opened is closed again, and its duplicate stays
  have hz : ∀ m, z.fds m = if m = fd' then some name else x.fds m := by
    intro m
    rw [e₄, e₃, e₂, e₂, if_pos rfl]
    by_cases hm : m = fd
    · rw [if_pos hm, if_neg (by omega), hm, hfree]
    · rw [if_neg hm, if_neg hm]
  obtain ⟨r₁, r₂, r₃, inFd, outFd, errFd, r₄, hr₃, ht'⟩ : ∃ r₁ r₂ r₃ inFd outFd errFd r₄, r₃ ≠ -1 ∧
      t' = loginCalls fd' r₁ r₂ r₃ inFd outFd errFd ++ loginClose fd' inFd outFd errFd r₄ := by
    rcases loginTty_cases hlogin with ⟨_, _, he, -⟩ | ⟨r₁, r₂, r₃, inFd, outFd, errFd, r₄, hr₃, -, ht'⟩
    · cases he
    · exact ⟨r₁, r₂, r₃, inFd, outFd, errFd, r₄, hr₃, ht'⟩
  have hsame : replaced (openCalls name r fd fd' r' ++ t') = replaced t' := by
    funext n
    rw [replaced, List.any_append]
    rfl
  obtain ⟨htty, hstd, hdup, hrest⟩ := loginCalls_files hmin (by rw [hz, if_pos rfl]) hr₃ ht' hrun
  refine ⟨htty, fun n hn => ?_, fd', hmin, hfree₀, ?_, fun n hn hnfd => ?_⟩
  · have hnfd : n ≠ fd' := by
      rw [mem_standard] at hn
      omega
    rw [hstd n hn, hsame, hz, if_neg hnfd]
  · rw [hdup, hsame]
  · rw [hrest n hn hnfd, hz, if_neg hnfd]

/-! ## Children -/

/-- A call that runs no program. -/
def RunsNone (c : ChildCall) : Prop := ∀ path argv, c ≠ .execve path argv

theorem childCall_frame {c : ChildCall} (h : RunsNone c) :
    Proc.Frame RunsNone (fun _ => ()) (Proc.call c : ChildProc Int) := .call (S := childSys) h

theorem loginTty_frame (fd : Int) : Proc.Frame RunsNone (fun _ => ()) (loginTty fd) := by
  refine .bind (childCall_frame (by simp [RunsNone])) fun _ => .bind (childCall_frame (by simp [RunsNone])) fun _ =>
    .bind (childCall_frame (by simp [RunsNone])) fun _ => .ite (.pure _) ?_
  refine .bind (childCall_frame (by simp [RunsNone])) fun _ => .bind (childCall_frame (by simp [RunsNone])) fun _ =>
    .bind (childCall_frame (by simp [RunsNone])) fun _ => ?_
  exact .ite (.bind (childCall_frame (by simp [RunsNone])) fun _ => .pure _) (.pure _)

theorem setctty_frame (name : Str) : Proc.Frame RunsNone (fun _ => ()) (setctty name) := by
  refine .bind (childCall_frame (by simp [RunsNone])) fun _ => .bind (childCall_frame (by simp [RunsNone])) fun _ =>
    .ite (.exit _) ?_
  refine .bind (childCall_frame (by simp [RunsNone])) fun _ => .bind (childCall_frame (by simp [RunsNone])) fun _ =>
    .ite (.exit _) ?_
  exact .bind (loginTty_frame _) fun _ => .ite (.exit _) (.pure _)

section

variable {α β : Type} {p : ChildProc α} {f : α → ChildProc β} {path : Str} {argv argv' : List Str}
  {code : Int} {k : Int → Prog childSys (Out β × Unit)}

/-- A child that is about to run its program has left the code before that. -/
theorem steps_execve (hp : Proc.Frame RunsNone (fun _ => ()) p)
    (h : ((p >>= f) ()).Steps t (.call (.execve path argv) k)) : ∃ t₁ t₂ a, t = t₁ ++ t₂ ∧
      (p ()).Runs t₁ (.ok a, ()) ∧ (f a ()).Steps t₂ (.call (.execve path argv) k) := by
  rw [Proc.bind_apply] at h
  rcases Prog.steps_bind_cases h with ⟨c, k', hc, he⟩ | ⟨t₁, t₂, ⟨o, u⟩, rfl, hr, hf⟩
  · cases he
    exact absurd rfl (hp.calls (hc.trans (.cons (r := (0 : Int)) (.nil _))) _ (List.mem_append_right _
      List.mem_cons_self) path argv)
  · cases o with
    | ok a => exact ⟨t₁, t₂, a, rfl, hr, hf⟩
    | _ =>
      obtain ⟨-, he⟩ := Prog.steps_ret.mp hf
      cases he

/-- The end of a child. -/
theorem steps_run {o : Option Str} {k : Int → Prog childSys (Out Unit × Unit)} (h : ((do
    let path ← Proc.orFault o
    let _ ← Proc.call (S := childSys) (.execve path argv')
    Proc.exit code : ChildProc Unit) ()).Steps t (.call (.execve path argv) k)) :
    t = [] ∧ o = some path ∧ argv = argv' := by
  cases o with
  | none =>
    obtain ⟨-, he⟩ := Prog.steps_ret.mp h
    cases he
  | some path' =>
    rcases Prog.steps_call.mp h with ⟨rfl, he⟩ | ⟨r, t', rfl, hend⟩
    · cases he
      exact ⟨rfl, rfl, rfl⟩
    · obtain ⟨-, he⟩ := Prog.steps_ret.mp hend
      cases he

end

/-- Calls before and after that are not about descriptors change nothing. -/
theorem onTerminal_other {name : Str} {u v : List (Event childSys)} (hu : ∀ e ∈ u, fileCall e = .other)
    (hv : ∀ e ∈ v, fileCall e = .other) (ht : ∀ x y, Files.Run fileCall x t y → OnTerminal name t x y)
    (h : Files.Run fileCall x (u ++ t ++ v) y) : OnTerminal name (u ++ t ++ v) x y := by
  have hnone : ∀ {w : List (Event childSys)}, (∀ e ∈ w, fileCall e = .other) → ∀ n, w.any (replaces n) = false := by
    intro w hw n
    refine List.any_eq_false.mpr fun e he => ?_
    have hother := hw e he
    obtain ⟨c, r⟩ := e
    cases c <;> first
      | exact Bool.false_ne_true
      | cases hother
  have hsame : replaced (u ++ t ++ v) = replaced t := by
    funext n
    rw [replaced, List.any_append, List.any_append, hnone hu, hnone hv, Bool.false_or, Bool.or_false]
    rfl
  obtain ⟨z, hz, hlast⟩ := Files.run_append h
  obtain ⟨w, hfirst, hmid⟩ := Files.run_append hz
  obtain rfl := Files.run_other hfirst hu
  obtain rfl := Files.run_other hlast hv
  obtain ⟨htty, hstd, hrest⟩ := ht _ _ hmid
  exact ⟨htty, by rw [hsame]; exact hstd, by rw [hsame]; exact hrest⟩

theorem runs_childCall {c : ChildCall} {r : Int} (h : (Proc.call c : ChildProc Int) () |>.Runs t (.ok r, ())) :
    t = [⟨c, r⟩] := by
  obtain ⟨r', t', rfl, hret⟩ := Prog.runs_call.mp h
  obtain ⟨rfl, he⟩ := Prog.runs_ret.mp hret
  cases he
  rfl

theorem gettyChild_execs {device path : Str} {argv argv' : List Str} {k : Int → Prog childSys (Out Unit × Unit)}
    (h : (gettyChild device argv ()).Steps t (.call (.execve path argv') k)) :
    argv' = argv ∧ argv.head? = some path ∧ ∀ x y, Files.Run fileCall x t y → OnTerminal device t x y := by
  obtain ⟨t₁, t₂, r, rfl, hmask, h⟩ := steps_execve (childCall_frame (by simp [RunsNone])) h
  obtain ⟨t₂, t₃, u, rfl, hctty, h⟩ := steps_execve (setctty_frame device) h
  obtain ⟨rfl, hpath, rfl⟩ := steps_run h
  obtain rfl := runs_childCall hmask
  refine ⟨rfl, hpath, fun x y hf => ?_⟩
  rw [← List.append_assoc] at hf ⊢
  exact onTerminal_other (by simp [fileCall]) (by simp) (fun x y => setctty_onTerminal hctty) hf

theorem rcChild_execs {path : Str} {argv argv' : List Str} {k : Int → Prog childSys (Out Unit × Unit)}
    (h : (rcChild argv ()).Steps t (.call (.execve path argv') k)) :
    argv' = argv ∧ path = PATH_SHELL ∧ (∀ sig, ∃ r, ⟨.ignore sig, r⟩ ∈ t) ∧
      ∀ x y, Files.Run fileCall x t y → OnTerminal PATH_CONSOLE t x y := by
  obtain ⟨t₁, t₂, r₁, rfl, htstp, h⟩ := steps_execve (childCall_frame (by simp [RunsNone])) h
  obtain ⟨t₂, t₃, r₂, rfl, hhup, h⟩ := steps_execve (childCall_frame (by simp [RunsNone])) h
  obtain ⟨t₃, t₄, u, rfl, hctty, h⟩ := steps_execve (setctty_frame PATH_CONSOLE) h
  obtain ⟨t₄, t₅, r₃, rfl, hmask, h⟩ := steps_execve (childCall_frame (by simp [RunsNone])) h
  obtain ⟨rfl, hpath, rfl⟩ := steps_run (o := some PATH_SHELL) h
  obtain rfl := runs_childCall htstp
  obtain rfl := runs_childCall hhup
  obtain rfl := runs_childCall hmask
  refine ⟨rfl, (Option.some.inj hpath).symm, fun sig => ?_, fun x y hf => ?_⟩
  · cases sig with
    | tstp => exact ⟨r₁, by simp⟩
    | hup => exact ⟨r₂, by simp⟩
  · rw [List.append_nil, ← List.append_assoc, ← List.append_assoc] at hf ⊢
    exact onTerminal_other (by simp [fileCall]) (by simp [fileCall]) (fun x y => setctty_onTerminal hctty) hf

theorem startChild_execs {session : Bool} {path : Str} {argv argv' : List Str}
    {k : Int → Prog childSys (Out Unit × Unit)}
    (h : (startChild session argv ()).Steps t (.call (.execve path argv') k)) :
    argv' = argv ∧ argv.head? = some path ∧
      ∀ x y, Files.Run fileCall x t y → y.fds = x.fds ∧ (session = false → y.tty = x.tty) := by
  cases session with
  | false =>
    obtain ⟨rfl, hpath, rfl⟩ := steps_run h
    refine ⟨rfl, hpath, fun x y hf => ?_⟩
    rw [Files.run_nil hf]
    exact ⟨rfl, fun _ => rfl⟩
  | true =>
    obtain ⟨t₁, t₂, r₁, rfl, hsid, h⟩ := steps_execve (childCall_frame (by simp [RunsNone])) h
    obtain ⟨t₂, t₃, r₂, rfl, hpgrp, h⟩ := steps_execve (childCall_frame (by simp [RunsNone])) h
    obtain ⟨t₃, t₄, r₃, rfl, hctty, h⟩ := steps_execve (childCall_frame (by simp [RunsNone])) h
    obtain ⟨rfl, hpath, rfl⟩ := steps_run h
    obtain rfl := runs_childCall hsid
    obtain rfl := runs_childCall hpgrp
    obtain rfl := runs_childCall hctty
    refine ⟨rfl, hpath, fun x y hf => ⟨?_, (absurd · (by decide))⟩⟩
    obtain ⟨x₁, h₁, hf⟩ := Files.run_cons hf
    obtain ⟨x₂, h₂, hf⟩ := Files.run_cons hf
    obtain ⟨x₃, h₃, hf⟩ := Files.run_cons hf
    obtain rfl := Files.run_nil hf
    have e₂ : x₂ = x₁ := by
      cases h₂
      rfl
    rw [(Files.step_setTty h₃).1, e₂, Files.step_setsid h₁]

/-! ## Exit statuses -/

theorem exitsTold_append {child : Child} (h : ExitsTold child t o) (t₁ t₂ : List (Event childSys)) :
    ExitsTold child (t₁ ++ t ++ t₂) o := by
  obtain ⟨code, c, r, ho, hmem, hexit, hfailed⟩ := h
  exact ⟨code, c, r, ho, List.mem_append_left _ (List.mem_append_right _ hmem), hexit, hfailed⟩

theorem setctty_exits {child : Child} {name : Str} (hopen : ExitsFor child 1 (.open name))
    (h : (setctty name ()).Runs t (o, ())) : o = .ok () ∨ ExitsTold child t o := by
  rcases setctty_cases h with ⟨r, rfl, rfl⟩ | ⟨r, fd, fd', r', -, ⟨rfl, rfl, rfl⟩ | ⟨-, o', t', rfl, hlogin, ho⟩⟩
  · exact .inr ⟨1, .open name, -1, rfl, by simp, hopen, rfl⟩
  · exact .inr ⟨1, .fcntlDupfd fd 20, -1, rfl, by simp [openCalls], .dup, rfl⟩
  · rcases ho with ⟨rfl, rfl⟩ | ⟨rfl, rfl⟩
    · rcases loginTty_cases hlogin with ⟨r₁, r₂, -, rfl⟩ | ⟨_, _, _, _, _, _, _, _, he, -⟩
      · exact .inr ⟨2, .ioctlTiocsctty fd', -1, rfl, by simp, .attach, rfl⟩
      · cases he
    · exact .inl rfl

/-- The end of a child that returns from `execve`. -/
theorem runs_run {child : Child} {o' : Option Str} {argv : List Str} {code : Int}
    (hcode : ∀ p, o' = some p → ExitsFor child code (.execve p argv)) (h : ((do
    let path ← Proc.orFault o'
    let _ ← Proc.call (S := childSys) (.execve path argv)
    Proc.exit code : ChildProc Unit) ()).Runs t (o, ())) :
    o = .fault ∧ o' = none ∨ ExitsTold child t o := by
  cases o' with
  | none =>
    obtain ⟨-, he⟩ := Prog.runs_ret.mp h
    cases he
    exact .inl ⟨rfl, rfl⟩
  | some p =>
    obtain ⟨r, t', rfl, hend⟩ := Prog.runs_call.mp h
    obtain ⟨rfl, he⟩ := Prog.runs_ret.mp hend
    cases he
    exact .inr ⟨code, .execve p argv, r, rfl, by simp, hcode p rfl, rfl⟩

/-- A child that takes a terminal, and then goes on. -/
theorem runs_setctty {child : Child} {name : Str} {f : ChildProc Unit}
    (hopen : ExitsFor child 1 (.open name)) (h : ((setctty name >>= fun _ => f) ()).Runs t (o, ())) :
    ExitsTold child t o ∨ ∃ t₁ t₂, t = t₁ ++ t₂ ∧ (f ()).Runs t₂ (o, ()) := by
  rw [Proc.bind_apply, Prog.runs_bind] at h
  obtain ⟨t₁, t₂, ⟨o', u⟩, rfl, hctty, h⟩ := h
  rcases setctty_exits hopen hctty with rfl | hexit
  · exact .inr ⟨t₁, t₂, rfl, h⟩
  · obtain ⟨code, c, r, rfl, hmem, hexit, hfailed⟩ := hexit
    obtain ⟨rfl, he⟩ := Prog.runs_ret.mp h
    cases he
    exact .inl ⟨code, c, r, rfl, List.mem_append_left _ hmem, hexit, hfailed⟩

/-- A child never goes on in the code of sysinit: where it runs no program it exits, with a status that
tells why, unless its command line is empty. -/
theorem child_exits {child : Child} (h : (child.code ()).Runs t (o, ())) :
    o = .fault ∧ argvOf child = [] ∨ ExitsTold child t o := by
  cases child with
  | start session argv =>
    have ended : ∀ (t₁ : List (Event childSys)) {t₂ : List (Event childSys)}, ((do
        let path ← Proc.orFault argv.head?
        let _ ← Proc.call (S := childSys) (.execve path argv)
        Proc.exit (-2) : ChildProc Unit) ()).Runs t₂ (o, ()) →
        o = .fault ∧ argvOf (.start session argv) = [] ∨ ExitsTold (.start session argv) (t₁ ++ t₂ ++ []) o :=
      fun _ _ h => (runs_run (fun _ _ => .start) h).imp (fun h => ⟨h.1, List.head?_eq_none_iff.mp h.2⟩)
        fun h => exitsTold_append h _ _
    cases session with
    | false => simpa only [List.nil_append, List.append_nil] using ended [] h
    | true =>
      obtain ⟨r₁, t₁, rfl, h₁⟩ := Prog.runs_call.mp h
      obtain ⟨r₂, t₂, rfl, h₂⟩ := Prog.runs_call.mp h₁
      obtain ⟨r₃, t₃, rfl, h₃⟩ := Prog.runs_call.mp h₂
      simpa only [List.append_nil, List.cons_append, List.nil_append] using ended [_, _, _] h₃
  | getty id device argv =>
    obtain ⟨r, t₁, rfl, h₁⟩ := Prog.runs_call.mp h
    rcases runs_setctty .gettyOpen h₁ with hexit | ⟨t₂, t₃, rfl, h₂⟩
    · exact .inr (by simpa using exitsTold_append hexit [_] [])
    · rcases runs_run (fun _ _ => .getty) h₂ with ⟨ho, hnone⟩ | hexit
      · exact .inl ⟨ho, List.head?_eq_none_iff.mp hnone⟩
      · exact .inr (by simpa using exitsTold_append hexit (_ :: t₂) [])
  | rc argv =>
    obtain ⟨r₁, t₁, rfl, h₁⟩ := Prog.runs_call.mp h
    obtain ⟨r₂, t₂, rfl, h₂⟩ := Prog.runs_call.mp h₁
    rcases runs_setctty .rcOpen h₂ with hexit | ⟨t₃, t₄, rfl, h₃⟩
    · exact .inr (by simpa using exitsTold_append hexit [_, _] [])
    · obtain ⟨r₃, t₅, rfl, h₄⟩ := Prog.runs_call.mp h₃
      have hshell : ∀ p, some PATH_SHELL = some p → ExitsFor (.rc argv) 5 (.execve p argv) := fun p hp => by
        obtain rfl := Option.some.inj hp
        exact .rc
      rcases runs_run hshell h₄ with ⟨-, hnone⟩ | hexit
      · cases hnone
      · refine .inr ?_
        have htold := exitsTold_append hexit
          ([⟨.ignore .tstp, r₁⟩, ⟨.ignore .hup, r₂⟩] ++ t₃ ++ [⟨.sigprocmask, r₃⟩]) []
        simpa using htold

end Cheviot.Proof
