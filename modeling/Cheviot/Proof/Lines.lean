import Cheviot.Proof.Script
import Cheviot.Spec.Lines

/-!
# The line reader, call after call

`readLines_ok`: on a script whose lines fit `linebuf`, the calls of `s_readline`
return its lines and then NULL, whatever `s_tokenize` makes of a line before the
next one is read.
-/

namespace Cheviot.Proof

open Framework Cheviot.Sysinit Cheviot.Spec

variable {g : Globals} {script s : Str}

/-! ## The lines of a script -/

/-- Calls of `s_tokenize` on a line leave the script alone. -/
theorem tokenizeTimes_ok (k : Nat) {line : Option Nat} {ch : Nat} (hch : line.or g.ch = some ch)
    (hs : IsCstr g.linebuf ch s) :
    ∃ g', tokenizeTimes k line g = .ret (.ok (), g') ∧ g'.src = g.src := by
  induction k generalizing g line ch s with
  | zero => exact ⟨g, rfl, rfl⟩
  | succ k ih =>
    have hcall := sTokenize_ok line hch hs
    obtain ⟨tok, g₁, ts, e, ⟨ch', s', hch', hs', -⟩, hsrc⟩ : ∃ tok g₁ ts,
        sTokenize line g = .ret (.ok tok, g₁) ∧ TokensLeft g₁ ts ∧ g₁.src = g.src := by
      cases ht : tokens s with
      | nil =>
        rw [ht] at hcall
        obtain ⟨g₁, e, hleft, hT⟩ := hcall
        exact ⟨none, g₁, [], e, hleft, hT.src_eq⟩
      | cons tok toks =>
        rw [ht] at hcall
        obtain ⟨q, g₁, e, hleft, -, hT⟩ := hcall
        exact ⟨some q, g₁, toks, e, hleft, hT.src_eq⟩
    have hor : (none : Option Nat).or g₁.ch = some ch' := hch'
    obtain ⟨g', e', hsrc'⟩ := ih hor hs'
    exact ⟨g', by rw [tokenizeTimes, Proc.bind_apply, e]; exact e', hsrc'.trans hsrc⟩

theorem lines_eq_nil (h : lines s = []) : s = [] := by
  by_contra hs
  rw [lines_eq hs] at h
  cases h

/-- The lines left of a script. -/
theorem readLines_srcAt (uses : Nat → Nat) {i : Nat} (h : SrcAt g s) (hfit : LinesFit s) :
    ∃ g', (∀ n, (lines s).length < n → readLines uses n i g = .ret (.ok (lines s), g')) ∧
      g'.src.buf = g.src.buf := by
  induction hl : lines s generalizing s g i with
  | nil =>
    obtain rfl := lines_eq_nil hl
    obtain ⟨g', e, hsame⟩ := sReadline_end h
    refine ⟨g', fun n hn => ?_, hsame.script⟩
    obtain ⟨n, rfl⟩ : ∃ m, n = m + 1 := Nat.exists_eq_add_one.mpr hn
    rw [readLines, Proc.bind_apply, e]
    rfl
  | cons l ls ih =>
    have hs : s ≠ [] := by rintro rfl; cases hl
    rw [lines_eq hs] at hl
    obtain ⟨rfl, rfl⟩ := List.cons.inj hl
    have hfits : ∀ l ∈ lines s, l.length ≤ 255 := hfit
    rw [lines_eq hs] at hfits
    obtain ⟨g₁, e₁, hline, hrest, hsame⟩ := sReadline_ok h hs (hfits _ List.mem_cons_self)
    obtain ⟨g₂, e₂, hsrc⟩ := tokenizeTimes_ok (uses i) (rfl : (some 0).or g₁.ch = some 0) hline
    have hrest₂ : SrcAt g₂ (s.dropWhile (!isEol ·)).tail := by rw [SrcAt, hsrc]; exact hrest
    obtain ⟨g', e', hbuf⟩ :=
      ih (i := i + 1) hrest₂ (fun l hl => hfits l (List.mem_cons_of_mem _ hl)) rfl
    refine ⟨g', fun n hn => ?_, by rw [hbuf, hsrc, hsame.script]⟩
    obtain ⟨n, rfl⟩ : ∃ m, n = m + 1 := Nat.exists_eq_add_one.mpr (Nat.zero_lt_of_lt hn)
    rw [readLines, Proc.bind_apply, e₁, Prog.ret_bind, Proc.next_ok]
    dsimp only
    rw [Proc.bind_apply, Proc.get_apply, Prog.ret_bind, Proc.next_ok, Proc.bind_apply, e₂,
      Prog.ret_bind, Proc.next_ok, Proc.bind_apply, e' n (Nat.lt_of_succ_lt_succ hn), hline.cstr_eq]
    rfl

/-- From the start of a script whose lines fit `linebuf`, the calls of `s_readline`
return its lines and then NULL, whatever is tokenized between them, and the script
is left as it was. Its lines are the pieces between its line ends, without an empty
last one; with the line ends after them they are the script. -/
theorem readLines_ok (hnul : NUL ∉ script) (hfit : LinesFit script) (r : List Char)
    (uses : Nat → Nat) (hsrc : g.src = ⟨script ++ NUL :: r, 0⟩) :
    (∃ g', (∀ n, (lines script).length < n →
      readLines uses n 0 g = .ret (.ok (lines script), g')) ∧ g'.src.buf = script ++ NUL :: r) ∧
    Split isEol script (lines script) ∧ rejoin (lines script) (script.filter isEol) = script := by
  have h : SrcAt g script := ⟨r, by rw [hsrc]; rfl, hnul⟩
  obtain ⟨g', e, hbuf⟩ := readLines_srcAt uses (i := 0) h hfit
  exact ⟨⟨g', e, by rw [hbuf, hsrc]⟩, split_iff.mpr rfl, rejoin_pieces script⟩

/-- A script with an empty line in it and no line end after the last one. -/
theorem readLines_ok_crlf : ∃ g', readLines (fun _ => 2) 4 0
      { Globals.initial [] 0 with src := ⟨"a b\r\nc".toList ++ [NUL], 0⟩ } =
        .ret (.ok ["a b".toList, [], ['c']], g') ∧
    g'.src.buf = "a b\r\nc".toList ++ [NUL] := by
  have hfit : LinesFit "a b\r\nc".toList := by decide
  obtain ⟨⟨g', e, hbuf⟩, -⟩ := readLines_ok (by decide) hfit [] (fun _ => 2)
    (g := { Globals.initial [] 0 with src := ⟨"a b\r\nc".toList ++ [NUL], 0⟩ }) rfl
  exact ⟨g', e 4 (by decide), hbuf⟩

/-! ## Lines that do not fit -/

/-- Copying a line past the end of `linebuf`. -/
theorem copyLine_long {l r : List Char} (hl : ∀ c ∈ l, c ≠ NUL ∧ ¬ isEol c) :
    ∀ (src dst : Nat) (buf : Vector Char 256), dst ≤ 256 → 256 < dst + l.length →
      copyLine (l ++ r) src dst buf = none := by
  induction l with
  | nil => exact fun src dst buf hle hlt => absurd hlt (Nat.not_lt.mpr hle)
  | cons c l ih =>
    intro src dst buf hle hlt
    obtain ⟨hc, hceol⟩ := hl c List.mem_cons_self
    rw [List.length_cons] at hlt
    have hcond : c ≠ NUL ∧ c ≠ '\r' ∧ c ≠ '\n' := ⟨hc, by simpa [isEol] using hceol⟩
    rw [List.cons_append, copyLine, if_pos hcond]
    by_cases hdst : dst < 256
    · rw [store, dif_pos hdst]
      exact ih (fun c hc => hl c (List.mem_cons_of_mem _ hc)) _ _ _ hdst (by omega)
    · rw [store, dif_neg hdst]

/-- `s_readline` leaves `linebuf` on a line of more than 255 characters: with one of
them or, of exactly 256, with the NUL. -/
theorem sReadline_long (h : SrcAt g s) (hlong : 255 < (s.takeWhile (!isEol ·)).length) :
    ∃ g', sReadline g = .ret (.fault, g') := by
  obtain ⟨r, hr, hnul⟩ := h
  have hl : ∀ c ∈ s.takeWhile (!isEol ·), c ≠ NUL ∧ ¬ isEol c := fun c hc =>
    ⟨fun e => hnul (e ▸ List.takeWhile_subset _ hc), by simpa using List.mem_takeWhile_imp hc⟩
  obtain ⟨e, rest, he, hsplit, -⟩ := lineEnd s r
  obtain ⟨c, hc, hhead⟩ : ∃ c, c ≠ NUL ∧ g.src.rest.head? = some c := by
    obtain ⟨c, cs, rfl⟩ : ∃ c cs, s = c :: cs :=
      List.exists_cons_of_ne_nil (by rintro rfl; simp at hlong)
    exact ⟨c, fun e => hnul (by simp [e]), by rw [hr]; rfl⟩
  generalize s.takeWhile (!isEol ·) = l at *
  refine ⟨{ g with linebuf := g.linebuf.set 255 NUL }, ?_⟩
  by_cases hfull : l.length = 256
  · obtain ⟨buf, hcopy, -⟩ := copyLine_eq (r := rest) hl he g.src.off 0 (g.linebuf.set 255 NUL)
      (by omega)
    rw [← hsplit, ← hr, Nat.zero_add, hfull] at hcopy
    have hget : g.src.buf[g.src.off + 256]? = some e := by
      rw [← List.getElem?_drop]
      show g.src.rest[256]? = some e
      rw [hr, hsplit, ← hfull]
      simp
    simp [sReadline, hhead, hc, hcopy, hget, store]
  · have hcopy := copyLine_long (r := e :: rest) hl g.src.off 0 (g.linebuf.set 255 NUL)
      (Nat.zero_le _) (by omega)
    rw [← hsplit, ← hr] at hcopy
    simp [sReadline, hhead, hc, hcopy]

/-! ### Every line is reached -/

/-- The code returns, if it gets the right answers. -/
def Completes (c : Effect) : Prop := ∀ p, ∃ t p', (c p).Runs t (.ok (), p')

theorem completes_skip : Completes skip := fun p => ⟨[], p, .nil _⟩

theorem completes_perform {c : Call} (r : c.Result × Int) : Completes (perform c) := fun p =>
  ⟨[⟨c, r⟩], p, .cons (.nil _)⟩

theorem completes_ite {b : Prop} [Decidable b] {c d : Effect} (h : b → Completes c)
    (h' : ¬ b → Completes d) : Completes (if b then c else d) := by
  split
  · exact h ‹_›
  · exact h' ‹_›

theorem completes_poll (path : Str) : Completes (poll 1 path) := fun p =>
  ⟨[⟨.ismount path, ((1 : Int), (0 : Int))⟩], p, .cons (.nil _)⟩

theorem completes_createport : Completes createport := fun _ =>
  ⟨[⟨.createmsgport 0 _, ((-1 : Int), (0 : Int))⟩], _, .cons (.nil _)⟩

/-- Only a bare `waitfor` has no way to go on. -/
theorem completes_runTokens {bare : Effect} {ts : List Str} (h : ts ≠ ["waitfor".toList]) :
    Completes (runTokens 1 bare ts) := by
  match ts, h with
  | [], _ => exact completes_skip
  | cmd :: ops, h =>
    refine completes_ite (fun _ => completes_skip) fun _ => ?_
    refine completes_ite (fun _ => ?_) fun _ => ?_
    · match ops with
      | [] => exact completes_skip
      | _ :: _ => exact completes_perform (none, 0)
    refine completes_ite (fun hcmd => ?_) fun _ => ?_
    · match ops with
      | [] => exact absurd (by rw [hcmd]) h
      | path :: _ => exact completes_poll path
    refine completes_ite (fun _ => ?_) fun _ => ?_
    · match ops with
      | [] | [_] | [_, _] => exact completes_skip
      | _ :: mode :: type :: _ =>
        dsimp only
        cases nodeMode mode type with
        | none => exact completes_skip
        | some m => exact completes_perform ((0 : Int), 0)
    refine completes_ite (fun _ => ?_) fun _ => ?_
    · match ops with
      | [] => exact completes_skip
      | _ :: _ => exact completes_perform ((0 : Int), 0)
    refine completes_ite (fun _ => ?_) fun _ => ?_
    · match ops with
      | [] => exact completes_skip
      | _ :: _ => exact completes_perform ((0 : Int), 0)
    refine completes_ite (fun _ => ?_) fun _ => ?_
    · match ops with
      | [] | [_] => exact completes_skip
      | _ :: _ :: _ => exact completes_perform ((0 : Int), 0)
    refine completes_ite (fun _ => ?_) fun _ => ?_
    · match ops with
      | [] | [_] => exact completes_skip
      | _ :: _ :: _ => exact completes_perform ((0 : Int), 0)
    exact completes_ite (fun _ => completes_createport) fun _ => completes_skip

/-- A line that fits, and is no bare `waitfor`, can be followed by the next. -/
theorem processLine_again (h : SrcAt g s) (hs : s ≠ []) (hfit : (s.takeWhile (!isEol ·)).length ≤ 255)
    (hbare : ¬ IsBareWaitfor (s.takeWhile (!isEol ·))) :
    ∃ t g', (processLine 1 g).Runs t (.ok (.again ()), g') ∧
      SrcAt g' (s.dropWhile (!isEol ·)).tail := by
  have hreads : Reads s g ⟨g.portid, g.kq⟩ := ⟨⟨rfl, rfl⟩, h⟩
  obtain ⟨t, p', hrun⟩ := @completes_runTokens (Proc.exit (-1)) _ hbare ⟨g.portid, g.kq⟩
  obtain ⟨⟨o, g'⟩, hcode, ho, hleft⟩ := (processLine_ok 1 hreads hs hfit).symm.runs hrun
  cases o with
  | ok r =>
    obtain rfl : r = .again () := ho
    exact ⟨t, g', hcode, hleft.srcAt⟩
  | _ => exact ho.elim

/-- A line that does not fit is reached, if it is one that is read. -/
theorem long_reached {l : Str} (h : SrcAt g s) (hl : l ∈ linesRead (lines s)) (hlong : 255 < l.length) :
    ∃ t g' g'', Proc.Rounds (fun _ : Unit => processLine 1) () g t () g' ∧
      sReadline g' = .ret (.fault, g'') := by
  induction hn : lines s generalizing s g with
  | nil =>
    rw [hn] at hl
    cases hl
  | cons l₀ ls ih =>
    have hs : s ≠ [] := by rintro rfl; cases hn
    rw [hn] at hl
    rw [lines_eq hs] at hn
    obtain ⟨rfl, rfl⟩ := List.cons.inj hn
    by_cases hfit : (s.takeWhile (!isEol ·)).length ≤ 255
    · have hne : l ≠ s.takeWhile (!isEol ·) := by rintro rfl; omega
      rw [linesRead, List.mem_cons, or_iff_right hne] at hl
      split at hl
      · cases hl
      · rename_i hbare
        obtain ⟨t₁, g₁, hrun, hrest⟩ := processLine_again h hs hfit hbare
        obtain ⟨t, g', g'', hrounds, hfault⟩ := ih hrest hl rfl
        exact ⟨_, g', g'', (Proc.Rounds.one hrun).trans hrounds, hfault⟩
    · obtain ⟨g'', hfault⟩ := sReadline_long h (Nat.not_le.mp hfit)
      exact ⟨[], g, g'', .nil, hfault⟩

/-! ### Lines that fit -/

/-- The lines that are still to be read fit `linebuf`. -/
def LeftFits (g : Globals) : Prop := ∃ s, SrcAt g s ∧ ∀ l ∈ linesRead (lines s), l.length ≤ 255

theorem LeftFits.first {s : Str} (hs : s ≠ []) (h : ∀ l ∈ linesRead (lines s), l.length ≤ 255) :
    (s.takeWhile (!isEol ·)).length ≤ 255 :=
  h _ (by rw [lines_eq hs]; exact List.mem_cons_self)

/-- A round of the loop leaves lines that fit. -/
theorem LeftFits.round {fuel : Nat} {t : List (Event sys)} {g' : Globals} (h : LeftFits g)
    (hrun : (processLine fuel g).Runs t (.ok (.again ()), g')) : LeftFits g' := by
  obtain ⟨s, hat, hfit⟩ := h
  by_cases hs : s = []
  · subst hs
    obtain ⟨g₁, e, -⟩ := sReadline_end hat
    have hdone : processLine fuel g = .ret (.ok (.done ()), g₁) := by
      rw [processLine, Proc.bind_apply, e]
      rfl
    rw [hdone] at hrun
    obtain ⟨-, e⟩ := Prog.runs_ret.mp hrun
    cases e
  · have hreads : Reads s g ⟨g.portid, g.kq⟩ := ⟨⟨rfl, rfl⟩, hat⟩
    obtain ⟨⟨o, p'⟩, hspec, ho, hleft⟩ :=
      (processLine_ok fuel hreads hs (LeftFits.first hs hfit)).runs hrun
    refine ⟨_, hleft.srcAt, ?_⟩
    by_cases hbare : IsBareWaitfor (s.takeWhile (!isEol ·))
    · rw [runTokens_bare hbare, Proc.exit_apply] at hspec
      obtain ⟨-, e⟩ := Prog.runs_ret.mp hspec
      obtain ⟨rfl, -⟩ := Prod.mk.inj e
      exact ho.elim
    · intro l hl
      refine hfit l ?_
      rw [lines_eq hs, linesRead, if_neg hbare]
      exact List.mem_cons_of_mem _ hl

theorem LeftFits.lineFits (h : LeftFits g) : LineFits g := by
  obtain ⟨s, hat, hfit⟩ := h
  by_cases hs : s = []
  · subst hs
    obtain ⟨g', e, -⟩ := sReadline_end hat
    exact ⟨none, g', e, fun _ hp => by cases hp⟩
  · obtain ⟨g', e, ⟨r, hr, -⟩, -⟩ := sReadline_ok hat hs (LeftFits.first hs hfit)
    refine ⟨some 0, g', e, fun p hp => ?_⟩
    cases hp
    exact ⟨_, r, hr⟩

/-- The calls of `s_readline` on a script stay inside `linebuf` exactly if every line
that is read, up to the first bare `waitfor`, has at most 255 characters. -/
theorem readsSafely_iff (hnul : NUL ∉ script) :
    ReadsSafely script ↔ ∀ l ∈ linesRead (lines script), l.length ≤ 255 := by
  constructor
  · intro h l hl
    by_contra hlong
    have hat : SrcAt { Globals.initial [] 0 with src := ⟨script ++ NUL :: [], 0⟩ } script :=
      ⟨[], rfl, hnul⟩
    obtain ⟨t, g', g'', hrounds, hfault⟩ := long_reached hat hl (Nat.not_le.mp hlong)
    obtain ⟨line, g₁, e, -⟩ := h [] _ g' ⟨1, t, hrounds⟩
    rw [hfault] at e
    cases e
  · rintro hfit r g₀ g ⟨fuel, t, hrounds⟩
    have h₀ : LeftFits { g₀ with src := ⟨script ++ NUL :: r, 0⟩ } := ⟨script, ⟨r, rfl, hnul⟩, hfit⟩
    exact (hrounds.invariant (J := fun _ g _ => LeftFits g)
      (fun _ _ _ _ _ _ h hrun => h.round hrun) (h := []) h₀).lineFits

/-- A script of lines of one character. -/
theorem readsSafely_short : ReadsSafely "a\nb".toList :=
  (readsSafely_iff (by decide)).mpr (by decide)

/-- A script of one line of 256 characters. -/
theorem readsSafely_256 : ¬ ReadsSafely (List.replicate 256 'a') := by
  intro h
  have hat : SrcAt { Globals.initial [] 0 with src := ⟨List.replicate 256 'a' ++ NUL :: [], 0⟩ }
      (List.replicate 256 'a') := ⟨[], rfl, fun hm => absurd (List.eq_of_mem_replicate hm) (by decide)⟩
  have hline : (List.replicate 256 'a').takeWhile (!isEol ·) = List.replicate 256 'a' := by
    rw [List.takeWhile_eq_self_iff]
    intro c hc
    rw [List.eq_of_mem_replicate hc]
    rfl
  obtain ⟨g', hfault⟩ := sReadline_long hat (by rw [hline, List.length_replicate]; decide)
  obtain ⟨line, g₁, e, -⟩ := h [] _ _ ⟨0, [], .nil⟩
  rw [hfault] at e
  cases e

end Cheviot.Proof
