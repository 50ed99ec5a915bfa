import Cheviot.Proof.Script

/-!
# Laws of the s scripts

What `process_bootstrap_script` does with a script, by way of the interpreter
of `Spec.Script`:

* `processBootstrapScript_reference`: the code is the reference on exactly the
  scripts without a bare `waitfor`;
* `processBootstrapScript_malformed`: a malformed line does nothing unless it
  is a bare `waitfor`;
* `processBootstrapScript_compose`: scripts compose line by line.
-/

namespace Cheviot.Proof

open Framework Cheviot.Sysinit Cheviot.Spec

variable {g : Globals} {p : Ports} {fuel : Nat}

/-! ## The code and the reference -/

/-- The port and the queue. -/
def ports (g : Globals) : Ports := ⟨g.portid, g.kq⟩

/-- On a script without a bare `waitfor` the code is the reference: it makes the
same calls whatever the answers, and returns 0 where the reference is done. On
a completed run of the reference, it does what the reference does there exactly
if there is no bare `waitfor`. -/
theorem processBootstrapScript_reference {script : Str} (hnul : NUL ∉ script)
    (hfit : LinesFit script) (fuel : Nat) (r : List Char) (g : Globals) :
    ((∀ l ∈ lines script, ¬ IsBareWaitfor l) → Prog.Rel (Proc.Ends SamePorts fun sc _ => sc = 0)
      (processBootstrapScript fuel (some (script ++ NUL :: r)) g)
      (interpret fuel skip script (ports g))) ∧
    ∀ t p, (interpret fuel skip script (ports g)).Runs t (.ok (), p) →
      ((∃ g', (processBootstrapScript fuel (some (script ++ NUL :: r)) g).Runs t (.ok 0, g') ∧
        ports g' = p) ↔ ∀ l ∈ lines script, ¬ IsBareWaitfor l) := by
  have hcode := processBootstrapScript_ok fuel r hnul hfit (⟨rfl, rfl⟩ : SamePorts g (ports g))
  have hsame : (∀ l ∈ lines script, ¬ IsBareWaitfor l) →
      interpret fuel (Proc.exit (-1)) script = interpret fuel skip script :=
    fun hbare => interpretLines_congr hbare
  refine ⟨fun hbare => hsame hbare ▸ hcode, fun t p ht => ⟨?_, fun hbare => ?_⟩⟩
  · rintro ⟨g', hrun, -⟩ l hl hbare
    exact processBootstrapScript_bare fuel r hnul hfit hl hbare hrun
  · rw [← hsame hbare] at ht
    obtain ⟨g', hrun, hR⟩ := processBootstrapScript_runs fuel r hnul hfit ⟨rfl, rfl⟩ ht
    exact ⟨g', hrun, by rw [ports, hR.portid_eq, hR.kq_eq]⟩

/-- The script "sleep 1": the code sleeps and returns. -/
theorem processBootstrapScript_reference_sleep :
    ∃ g', (processBootstrapScript 0 (some ("sleep 1".toList ++ [NUL])) (Globals.initial [] 0)).Runs
      [⟨.sleep 1, (0, 0)⟩] (.ok 0, g') ∧ ports g' = ⟨0, 0⟩ := by
  have hrun : (interpret 0 skip "sleep 1".toList (ports (Globals.initial [] 0))).Runs
      [⟨.sleep 1, (0, 0)⟩] (.ok (), ⟨0, 0⟩) := .cons (.nil _)
  exact ((processBootstrapScript_reference (by decide) (by decide) 0 [] (Globals.initial [] 0)).2
    _ _ hrun).mpr (by decide)

/-- The script "waitfor, sleep 1": the reference sleeps, the code exits. -/
theorem waitfor_ends_script :
    LinesFit "waitfor\nsleep 1".toList ∧
    (interpret 1 skip "waitfor\nsleep 1".toList ⟨0, 0⟩).Runs [⟨.sleep 1, (0, 0)⟩] (.ok (), ⟨0, 0⟩) ∧
    ∃ g', processBootstrapScript 1 (some ("waitfor\nsleep 1".toList ++ [NUL])) (Globals.initial [] 0)
      = .ret (.exited (-1), g') := by
  refine ⟨by decide, .cons (.nil _), ?_⟩
  have hports : SamePorts (Globals.initial [] 0) ⟨0, 0⟩ := ⟨rfl, rfl⟩
  have hcode := processBootstrapScript_ok 1 [] (by decide : NUL ∉ "waitfor\nsleep 1".toList)
    (by decide) hports
  have hlines : lines "waitfor\nsleep 1".toList = "waitfor".toList :: lines "sleep 1".toList := by
    decide
  rw [interpret_cons hlines, runTokens_bare (by decide)] at hcode
  obtain ⟨⟨o, g'⟩, e, ho, -⟩ := Prog.Rel.eq_ret hcode
  cases o with
  | exited code => exact ⟨g', by rw [e, show code = -1 from ho]⟩
  | _ => exact ho.elim

/-! ## Malformed lines -/

/-- The same calls whatever the answers, the same end, and the same port and
queue left. -/
def SameEffects (x y : Prog sys (Out Int × Globals)) : Prop :=
  Prog.Rel (Proc.Ends (fun g g' => ports g = ports g') Eq) x y

/-- Two codes of the same meaning. -/
theorem sameEffects_of_rel {x y : Prog sys (Out Int × Globals)} {q : Prog sys (Out Unit × Ports)}
    (hx : Prog.Rel (Proc.Ends SamePorts fun sc _ => sc = 0) x q)
    (hy : Prog.Rel (Proc.Ends SamePorts fun sc _ => sc = 0) y q) : SameEffects x y := by
  refine (hx.trans hy.symm).mono fun a b ⟨c, ⟨ho, hR⟩, ho', hR'⟩ => ?_
  obtain ⟨o, g⟩ := a
  obtain ⟨o', g'⟩ := b
  obtain ⟨o'', p⟩ := c
  have hp : ports g = ports g' := by
    rw [ports, ports, hR.portid_eq, hR.kq_eq, hR'.portid_eq, hR'.kq_eq]
  cases o <;> cases o'' <;> cases o' <;> first
    | exact ho.elim
    | exact ho'.elim
    | exact ⟨ho.trans ho'.symm, hp⟩
    | exact ⟨trivial, hp⟩

/-- Scripts with the same meaning have the same effects, from any globals with
the same port and queue. -/
theorem sameEffects_of_interpret {script script' : Str} {r r' : List Char} {g g' : Globals}
    (hnul : NUL ∉ script) (hnul' : NUL ∉ script') (hfit : LinesFit script)
    (hfit' : LinesFit script') (hports : ports g = ports g')
    (h : interpret fuel (Proc.exit (-1)) script = interpret fuel (Proc.exit (-1)) script') :
    SameEffects (processBootstrapScript fuel (some (script ++ NUL :: r)) g)
      (processBootstrapScript fuel (some (script' ++ NUL :: r')) g') := by
  have h₁ := processBootstrapScript_ok fuel r hnul hfit (⟨rfl, rfl⟩ : SamePorts g (ports g))
  have h₂ := processBootstrapScript_ok fuel r' hnul' hfit' (⟨rfl, rfl⟩ : SamePorts g' (ports g'))
  rw [h, hports] at h₁
  exact sameEffects_of_rel h₁ h₂

/-- The round of the loop on a malformed line. -/
theorem processLine_malformed {line s : Str} {after : List Str} (hmal : IsMalformed (tokens line))
    (hs : SrcAt g s) (hlines : lines s = line :: after) (hfit : line.length ≤ 255) :
    (∃ g' s', processLine fuel g = .ret (.ok (.again ()), g') ∧ SrcAt g' s' ∧ lines s' = after ∧
      ports g' = ports g) ↔ ¬ IsBareWaitfor line := by
  have hne : s ≠ [] := by rintro rfl; cases hlines
  have e := lines_eq hne
  rw [hlines] at e
  obtain ⟨rfl, rfl⟩ := List.cons.inj e
  have hround := processLine_ok fuel (⟨⟨rfl, rfl⟩, hs⟩ : Reads s g (ports g)) hne hfit
  constructor
  · rintro ⟨g', s', hrun, -⟩ hbare
    rw [hrun, runTokens_bare hbare] at hround
    cases hround with | ret h => exact h.1.elim
  · intro hbare
    rw [runTokens_malformed hmal hbare] at hround
    obtain ⟨⟨o, g'⟩, hrun, ho, hR⟩ := Prog.Rel.eq_ret hround
    cases o with
    | ok r =>
      obtain rfl : r = .again () := ho
      exact ⟨g', _, hrun, hR.srcAt, rfl, by rw [ports, hR.portid_eq, hR.kq_eq]⟩
    | _ => exact ho.elim

/-- A malformed line does nothing exactly if it is not a bare `waitfor`: its
round of the loop makes no call and goes on with the next line; and the script
does what the script without the line does, on every run of the latter. -/
theorem processBootstrapScript_malformed {line : Str} (hmal : IsMalformed (tokens line))
    {script script' : Str} {before after : List Str} (hscript : lines script = before ++ line :: after)
    (hscript' : lines script' = before ++ after) (hnul : NUL ∉ script) (hnul' : NUL ∉ script')
    (hfit : LinesFit script) (fuel : Nat) (r r' : List Char) (g : Globals) :
    (∀ s g, SrcAt g s → lines s = line :: after →
      ((∃ g' s', processLine fuel g = .ret (.ok (.again ()), g') ∧ SrcAt g' s' ∧ lines s' = after ∧
        ports g' = ports g) ↔ ¬ IsBareWaitfor line)) ∧
    (¬ IsBareWaitfor line →
      SameEffects (processBootstrapScript fuel (some (script ++ NUL :: r)) g)
        (processBootstrapScript fuel (some (script' ++ NUL :: r')) g)) ∧
    ∀ t g₁, (processBootstrapScript fuel (some (script' ++ NUL :: r')) g).Runs t (.ok 0, g₁) →
      ((∃ g₂, (processBootstrapScript fuel (some (script ++ NUL :: r)) g).Runs t (.ok 0, g₂) ∧
        ports g₂ = ports g₁) ↔ ¬ IsBareWaitfor line) := by
  have hfit' : LinesFit script' := fun l hl => hfit l <| by
    rw [hscript'] at hl
    rw [hscript]
    exact (List.sublist_cons_self line after).append_left before |>.subset hl
  have hsame : ¬ IsBareWaitfor line →
      interpret fuel (Proc.exit (-1)) script = interpret fuel (Proc.exit (-1)) script' := by
    intro hbare
    rw [interpret, interpret, hscript, hscript', interpretLines_append, interpretLines_append,
      interpretLines_cons, runTokens_malformed hmal hbare]
    rfl
  have heffects : ¬ IsBareWaitfor line →
      SameEffects (processBootstrapScript fuel (some (script ++ NUL :: r)) g)
        (processBootstrapScript fuel (some (script' ++ NUL :: r')) g) := fun hbare =>
    sameEffects_of_interpret hnul hnul' hfit hfit' rfl (hsame hbare)
  refine ⟨fun s g hs hlines => processLine_malformed hmal hs hlines (hfit line (by simp [hscript])),
    heffects, fun t g₁ hrun => ⟨?_, fun hbare => ?_⟩⟩
  · rintro ⟨g₂, hrun', -⟩ hbare
    exact processBootstrapScript_bare fuel r hnul hfit (by simp [hscript]) hbare hrun'
  · obtain ⟨⟨o, g₂⟩, hrun', ho, hports⟩ := (heffects hbare).symm.runs hrun
    cases o with
    | ok sc =>
      obtain rfl : sc = 0 := ho
      exact ⟨g₂, hrun', hports⟩
    | _ => exact ho.elim

/-- The line "chdir" between two others, in its script. -/
theorem processBootstrapScript_malformed_chdir :
    SameEffects
      (processBootstrapScript 0 (some ("sleep 1\nchdir\nsleep 2".toList ++ [NUL])) (Globals.initial [] 0))
      (processBootstrapScript 0 (some ("sleep 1\nsleep 2".toList ++ [NUL])) (Globals.initial [] 0)) :=
  (processBootstrapScript_malformed (by decide : IsMalformed (tokens "chdir".toList))
    (by decide :
      lines "sleep 1\nchdir\nsleep 2".toList = ["sleep 1".toList] ++ "chdir".toList :: ["sleep 2".toList])
    (by decide : lines "sleep 1\nsleep 2".toList = ["sleep 1".toList] ++ ["sleep 2".toList])
    (by decide) (by decide) (by decide) 0 [] [] (Globals.initial [] 0)).2.1 (by decide)

/-- The script "sleep 1, waitfor, sleep 2": after its first line the code exits,
where without the second it sleeps again. -/
theorem waitfor_drops_rest :
    IsMalformed (tokens "waitfor".toList) ∧
    lines "sleep 1\nwaitfor\nsleep 2".toList
      = ["sleep 1".toList] ++ "waitfor".toList :: ["sleep 2".toList] ∧
    (∃ k, processBootstrapScript 0 (some ("sleep 1\nwaitfor\nsleep 2".toList ++ [NUL]))
      (Globals.initial [] 0) = .call (.sleep 1) k ∧ ∀ r, ∃ g, k r = .ret (.exited (-1), g)) ∧
    ∃ g, (processBootstrapScript 0 (some ("sleep 1\nsleep 2".toList ++ [NUL]))
      (Globals.initial [] 0)).Runs [⟨.sleep 1, (0, 0)⟩, ⟨.sleep 2, (0, 0)⟩] (.ok 0, g) := by
  have hports : SamePorts (Globals.initial [] 0) ⟨0, 0⟩ := ⟨rfl, rfl⟩
  have hsleep₁ : runTokens 0 (Proc.exit (-1)) (tokens "sleep 1".toList) = perform (.sleep 1) := by
    rw [show tokens "sleep 1".toList = ["sleep".toList, "1".toList] by decide]; rfl
  refine ⟨by decide, by decide, ?_, ?_⟩
  · have hcode := processBootstrapScript_ok 0 []
      (by decide : NUL ∉ "sleep 1\nwaitfor\nsleep 2".toList) (by decide) hports
    rw [interpret_cons (by decide : lines "sleep 1\nwaitfor\nsleep 2".toList
        = "sleep 1".toList :: lines "waitfor\nsleep 2".toList), hsleep₁,
      interpret_cons (by decide : lines "waitfor\nsleep 2".toList
        = "waitfor".toList :: lines "sleep 2".toList), runTokens_bare (by decide)] at hcode
    obtain ⟨k, e, hk⟩ := Prog.Rel.eq_call hcode
    refine ⟨k, e, fun r => ?_⟩
    obtain ⟨⟨o, g⟩, e', ho, -⟩ := Prog.Rel.eq_ret (hk r)
    cases o with
    | exited code => exact ⟨g, by rw [e', show code = -1 from ho]⟩
    | _ => exact ho.elim
  · have hrun : (interpret 0 (Proc.exit (-1)) "sleep 1\nsleep 2".toList ⟨0, 0⟩).Runs
        [⟨.sleep 1, (0, 0)⟩, ⟨.sleep 2, (0, 0)⟩] (.ok (), ⟨0, 0⟩) := .cons (.cons (.nil _))
    obtain ⟨g, hrun', -⟩ := processBootstrapScript_runs 0 []
      (by decide : NUL ∉ "sleep 1\nsleep 2".toList) (by decide) hports hrun
    exact ⟨g, hrun'⟩

/-! ## Composing scripts -/

theorem interpret_activeLines (bare : Effect) (script : Str) :
    interpret fuel bare script = interpretLines fuel bare (activeLines script) :=
  interpretLines_filter.symm

/-- A terminator between two scripts separates their lines. -/
theorem activeLines_append {c : Char} (hc : isEol c) (s t : Str) :
    activeLines (s ++ c :: t) = activeLines s ++ activeLines t := by
  obtain ⟨e, he, h⟩ := pieces_append_sep (p := isEol) hc t s
  have hidle : e.filter (¬ IsIdle ·) = [] := by
    rw [List.filter_eq_nil_iff]
    intro l hl
    rw [he l hl]
    decide
  rw [activeLines, lines, h, List.filter_append, List.filter_append, hidle, List.append_nil]
  rfl

theorem linesFit_append {c : Char} (hc : isEol c) {s t : Str} (hs : LinesFit s) (ht : LinesFit t) :
    LinesFit (s ++ c :: t) := fun l hl => by
  rcases of_mem_pieces_append_sep hc hl with h | rfl | h
  · exact hs l h
  · exact Nat.zero_le _
  · exact ht l h

/-- The lines that run a command are among those that are not empty. -/
theorem activeLines_eq_solid (s : Str) :
    activeLines s = (solid isEol s).filter (¬ IsIdle ·) := by
  rw [activeLines, solid, List.filter_filter]
  refine List.filter_congr fun l _ => ?_
  by_cases h : l = []
  · subst h; rfl
  · simp [h]

theorem linesFit_iff_solid {s : Str} : LinesFit s ↔ ∀ l ∈ solid isEol s, l.length ≤ 255 := by
  constructor
  · exact fun h l hl => h l (List.mem_of_mem_filter hl)
  · intro h l hl
    by_cases e : l = []
    · rw [e]; exact Nat.zero_le _
    · exact h l (List.mem_filter.mpr ⟨hl, by simpa using e⟩)

/-- `"\r\n"` for every `"\n"`. -/
def crlf (s : Str) : Str := s.flatMap fun c => if c = '\n' then "\r\n".toList else [c]

theorem solid_crlf (s : Str) : solid isEol (crlf s) = solid isEol s := by
  refine solid_flatMap (fun c hc => ?_) (fun c hc => ?_) s
  · have : c ≠ '\n' := fun e => hc (by rw [e]; decide)
    rw [if_neg this]
  · by_cases h : c = '\n'
    · rw [if_pos h]
      refine ⟨by decide, fun x hx => ?_⟩
      change x ∈ ['\r', '\n'] at hx
      simp only [List.mem_cons, List.not_mem_nil, or_false] at hx
      rcases hx with rfl | rfl <;> rfl
    · rw [if_neg h]; simpa using hc

/-- Spaces alone are an idle line. -/
theorem isIdle_spaces {l : Str} (h : ∀ c ∈ l, c = ' ') : IsIdle l := by
  have : nextToken ' ' '"' l = none := by
    rw [nextToken, List.dropWhile_eq_nil_iff.mpr fun c hc => by simpa using h c hc]
  rw [IsIdle, tokens, tokensBy_of_none this]
  trivial

/-- A line that starts with `#` is idle. -/
theorem isIdle_comment (l : Str) : IsIdle ('#' :: l) := by
  have : nextToken ' ' '"' ('#' :: l) =
      some ('#' :: l.takeWhile (· ≠ ' '), (l.dropWhile (· ≠ ' ')).tail) := by
    simp [nextToken]
  rw [IsIdle, tokens, tokensBy_of_some this]
  exact .inr rfl

/-- An idle line among the others makes no difference. -/
theorem activeLines_insert {s s' line : Str} {before after : List Str}
    (hs : lines s = before ++ after) (hs' : lines s' = before ++ line :: after) (h : IsIdle line) :
    activeLines s = activeLines s' := by
  rw [activeLines, activeLines, hs, hs', List.filter_append, List.filter_append,
    List.filter_cons_of_neg (by simpa using h)]

/-- New contents of the buffers that a script may find dirty. -/
def dirty (linebuf : Vector Char 256) (startArgv : Vector (Option Nat) ARG_SZ) (ch : Option Nat) :
    Sys Unit :=
  Proc.modify fun g => { g with linebuf := linebuf, startArgv := startArgv, ch := ch }

theorem interpret_append {bare : Effect} {c : Char} (hc : isEol c) (s t : Str) :
    interpret fuel bare (s ++ c :: t) = (do interpret fuel bare s; interpret fuel bare t) := by
  simp only [interpret_activeLines, activeLines_append hc, interpretLines_append]

/-- What a terminator between two scripts makes. -/
theorem terminator_ok (fuel : Nat) {s₁ s₂ t : Str}
    (ht : t ∈ ["\n".toList, "\r".toList, "\r\n".toList]) (hnul₁ : NUL ∉ s₁) (hnul₂ : NUL ∉ s₂)
    (hfit₁ : LinesFit s₁) (hfit₂ : LinesFit s₂) :
    NUL ∉ s₁ ++ t ++ s₂ ∧ LinesFit (s₁ ++ t ++ s₂) ∧
      interpret fuel (Proc.exit (-1)) (s₁ ++ t ++ s₂) =
        (do interpret fuel (Proc.exit (-1)) s₁; interpret fuel (Proc.exit (-1)) s₂) := by
  have hnul : NUL ∉ t := by
    revert t; decide
  refine ⟨by simp [hnul₁, hnul₂, hnul], ?_⟩
  have hcr : isEol '\r' := by decide
  have hlf : isEol '\n' := by decide
  have single : ∀ c, isEol c → LinesFit (s₁ ++ [c] ++ s₂) ∧ interpret fuel (Proc.exit (-1))
      (s₁ ++ [c] ++ s₂) = (do interpret fuel (Proc.exit (-1)) s₁; interpret fuel (Proc.exit (-1)) s₂) := by
    intro c hc
    rw [List.append_assoc, List.singleton_append]
    exact ⟨linesFit_append hc hfit₁ hfit₂, interpret_append hc s₁ s₂⟩
  simp only [List.mem_cons, List.not_mem_nil, or_false] at ht
  rcases ht with rfl | rfl | rfl
  · exact single '\n' hlf
  · exact single '\r' hcr
  · have e : s₁ ++ "\r\n".toList ++ s₂ = s₁ ++ '\r' :: ([] ++ '\n' :: s₂) := by
      rw [List.append_assoc]; rfl
    rw [e]
    refine ⟨linesFit_append hcr hfit₁ (linesFit_append hlf (by decide) hfit₂), ?_⟩
    rw [interpret_append hcr, interpret_append hlf, interpret_nil]
    rfl

/-- A script, then a script run with other buffers: the interpreter does not
know them. -/
theorem processBootstrapScript_twice {s₁ s₂ : Str} (hnul₁ : NUL ∉ s₁) (hnul₂ : NUL ∉ s₂)
    (hfit₁ : LinesFit s₁) (hfit₂ : LinesFit s₂) (r₁ r₂ : List Char) (linebuf : Vector Char 256)
    (startArgv : Vector (Option Nat) ARG_SZ) (ch : Option Nat) (h : SamePorts g p) :
    Prog.Rel (Proc.Ends SamePorts fun sc _ => sc = 0)
      ((do
        let _ ← processBootstrapScript fuel (some (s₁ ++ NUL :: r₁))
        dirty linebuf startArgv ch
        processBootstrapScript fuel (some (s₂ ++ NUL :: r₂))) g)
      ((do interpret fuel (Proc.exit (-1)) s₁; interpret fuel (Proc.exit (-1)) s₂) p) :=
  (processBootstrapScript_ok fuel r₁ hnul₁ hfit₁ h).bind fun _ _ hE =>
    Proc.rel_next hE (fun _ _ h => h) fun _ _ _ _ _ h =>
      processBootstrapScript_ok fuel r₂ hnul₂ hfit₂ ⟨h.portid_eq, h.kq_eq⟩

/-- With the other kind of terminator a script is still one whose lines fit. -/
theorem crlf_ok {s : Str} (hnul : NUL ∉ s) (hfit : LinesFit s) : NUL ∉ crlf s ∧ LinesFit (crlf s) := by
  constructor
  · intro hm
    obtain ⟨c, hc, hm⟩ := List.mem_flatMap.mp hm
    split at hm
    · revert hm; decide
    · exact hnul (List.mem_singleton.mp hm ▸ hc)
  · rw [linesFit_iff_solid, solid_crlf]
    exact linesFit_iff_solid.mp hfit

/-- Scripts compose line by line, whatever the buffers hold before each of
them. A blank line, spaces or a comment make no difference, nor does any line
that runs no command, and neither does the kind of terminator. -/
theorem processBootstrapScript_compose {s₁ s₂ : Str} (hnul₁ : NUL ∉ s₁) (hnul₂ : NUL ∉ s₂)
    (hfit₁ : LinesFit s₁) (hfit₂ : LinesFit s₂) (fuel : Nat) (r r₁ r₂ : List Char) (g : Globals) :
    (∀ t ∈ ["\n".toList, "\r".toList, "\r\n".toList], ∀ linebuf startArgv ch,
      SameEffects (processBootstrapScript fuel (some (s₁ ++ t ++ s₂ ++ NUL :: r)) g)
        ((do
          let _ ← processBootstrapScript fuel (some (s₁ ++ NUL :: r₁))
          dirty linebuf startArgv ch
          processBootstrapScript fuel (some (s₂ ++ NUL :: r₂))) g)) ∧
    (activeLines s₁ = activeLines s₂ → ∀ g', ports g = ports g' →
      SameEffects (processBootstrapScript fuel (some (s₁ ++ NUL :: r₁)) g)
        (processBootstrapScript fuel (some (s₂ ++ NUL :: r₂)) g')) ∧
    (∀ before line after, lines s₁ = before ++ after → lines s₂ = before ++ line :: after →
      (∀ c ∈ line, c = ' ') ∨ line.head? = some '#' → ∀ g', ports g = ports g' →
      SameEffects (processBootstrapScript fuel (some (s₁ ++ NUL :: r₁)) g)
        (processBootstrapScript fuel (some (s₂ ++ NUL :: r₂)) g')) ∧
    SameEffects (processBootstrapScript fuel (some (crlf s₁ ++ NUL :: r)) g)
      (processBootstrapScript fuel (some (s₁ ++ NUL :: r₁)) g) := by
  have hactive : activeLines s₁ = activeLines s₂ → ∀ g', ports g = ports g' →
      SameEffects (processBootstrapScript fuel (some (s₁ ++ NUL :: r₁)) g)
        (processBootstrapScript fuel (some (s₂ ++ NUL :: r₂)) g') := fun h g' hports =>
    sameEffects_of_interpret hnul₁ hnul₂ hfit₁ hfit₂ hports
      (by rw [interpret_activeLines, interpret_activeLines, h])
  refine ⟨fun t ht linebuf startArgv ch => ?_, hactive,
    fun before line after h₁ h₂ hline g' hports => ?_, ?_⟩
  · obtain ⟨hnul, hfit, hmeans⟩ := terminator_ok fuel ht hnul₁ hnul₂ hfit₁ hfit₂
    have h := processBootstrapScript_ok fuel r hnul hfit (⟨rfl, rfl⟩ : SamePorts g (ports g))
    rw [hmeans] at h
    exact sameEffects_of_rel h (processBootstrapScript_twice hnul₁ hnul₂ hfit₁ hfit₂ r₁ r₂ linebuf
      startArgv ch ⟨rfl, rfl⟩)
  · refine hactive (activeLines_insert h₁ h₂ ?_) g' hports
    rcases hline with hspaces | hcomment
    · exact isIdle_spaces hspaces
    · obtain ⟨l, rfl⟩ := List.head?_eq_some_iff.mp hcomment
      exact isIdle_comment l
  · obtain ⟨hnul, hfit⟩ := crlf_ok hnul₁ hfit₁
    exact sameEffects_of_interpret hnul hnul₁ hfit hfit₁ rfl (by
      rw [interpret_activeLines, interpret_activeLines, activeLines_eq_solid, activeLines_eq_solid,
        solid_crlf])

/-- "sleep 1" and "sleep 2" with a terminator between them, from dirty buffers. -/
theorem processBootstrapScript_compose_sleep :
    SameEffects
      (processBootstrapScript 0
        (some ("sleep 1".toList ++ "\r\n".toList ++ "sleep 2".toList ++ [NUL])) (Globals.initial [] 0))
      ((do
        let _ ← processBootstrapScript 0 (some ("sleep 1".toList ++ [NUL]))
        dirty (Vector.replicate 256 'x') (Vector.replicate ARG_SZ (some 7)) (some 3)
        processBootstrapScript 0 (some ("sleep 2".toList ++ [NUL]))) (Globals.initial [] 0)) :=
  (processBootstrapScript_compose (by decide : NUL ∉ "sleep 1".toList)
    (by decide : NUL ∉ "sleep 2".toList) (by decide) (by decide) 0 [] [] []
    (Globals.initial [] 0)).1 "\r\n".toList (by decide) _ _ _

end Cheviot.Proof
