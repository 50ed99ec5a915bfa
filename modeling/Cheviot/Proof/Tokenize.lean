import Cheviot.Proof.Cstr
import Cheviot.Spec.Script

/-!
# The line reader and the tokenizer

`tokenizeFrom_ok`: on a line that ends in a NUL inside `linebuf`, `s_tokenize`
returns the next token of the line (`nextToken`), in place; the only character
it can change is one it sets to NUL, at or after its cursor, so that strings
handed out before stay what they were (`cstr_set`). `sReadline_ok`: on a
script whose next line fits `linebuf`, `s_readline` puts that line there.
-/

namespace Cheviot.Proof

open Framework Cheviot.Sysinit Cheviot.Spec

/-! ## The tokenizer's two loops -/

theorem skipSpaces_eq {s r : Str} (hs : NUL ∉ s) (ch : Nat) :
    skipSpaces (s ++ NUL :: r) ch = some (ch + (s.takeWhile (· = ' ')).length) := by
  induction s generalizing ch with
  | nil => simp [skipSpaces]
  | cons c s ih =>
    rw [List.mem_cons, not_or] at hs
    rw [List.cons_append, skipSpaces, if_neg (Ne.symm hs.1)]
    by_cases hc : c = ' '
    · simp only [hc, ne_eq, not_true, if_false, ih hs.2, List.takeWhile_cons, decide_true, if_true,
        List.length_cons]
      congr 1
      omega
    · simp [hc]

theorem scanToken_eq {sep : Char} {s r : Str} (hs : NUL ∉ s) (ch : Nat) :
    scanToken sep (s ++ NUL :: r) ch =
      if s.dropWhile (· ≠ sep) = [] then some (ch + s.length, none)
      else some (ch + (s.takeWhile (· ≠ sep)).length + 1, some (ch + (s.takeWhile (· ≠ sep)).length)) := by
  induction s generalizing ch with
  | nil => simp [scanToken]
  | cons c s ih =>
    rw [List.mem_cons, not_or] at hs
    rw [List.cons_append, scanToken, if_neg (Ne.symm hs.1)]
    by_cases hc : c = sep
    · simp [hc]
    · rw [if_neg hc, ih hs.2]
      simp only [ne_eq, hc, not_false_eq_true, decide_true, List.dropWhile_cons_of_pos,
        List.takeWhile_cons_of_pos, List.length_cons]
      split
      · simp only [Option.some.injEq, Prod.mk.injEq, and_true]; omega
      · simp only [Option.some.injEq, Prod.mk.injEq]; omega

section

variable {n : Nat} {buf : Vector Char n} {p ch : Nat} {s : Str}

/-- The token that starts at `p`, in place: the character that ends it is set
to NUL. -/
theorem takeToken_ok (sep : Char) (h : IsCstr buf p s) :
    ∃ ch, ∃ hq : p + (s.takeWhile (· ≠ sep)).length < n,
      takeToken buf sep p = some (some p, ch, buf.set _ NUL hq) ∧
      IsCstr (buf.set _ NUL hq) p (s.takeWhile (· ≠ sep)) ∧
      IsCstr (buf.set _ NUL hq) ch (s.dropWhile (· ≠ sep)).tail ∧
      p + (s.takeWhile (· ≠ sep)).length ≤ ch ∧
      ch + (s.dropWhile (· ≠ sep)).tail.length = p + s.length := by
  have e := List.takeWhile_append_dropWhile (p := (· ≠ sep)) (l := s)
  obtain ⟨r, hr, hs⟩ := id h
  rw [takeToken, hr, scanToken_eq hs]
  cases hd : s.dropWhile (· ≠ sep) with
  | nil =>
    have hall : s.takeWhile (· ≠ sep) = s := by rw [hd, List.append_nil] at e; exact e
    have hend : IsCstr buf (p + s.length) [] :=
      IsCstr.append (s := s) (by rwa [List.append_nil])
    rw [hall]
    refine ⟨p + s.length, h.lt, ?_, ?_, ?_, Nat.le_refl _, rfl⟩
    · rw [h.set_nul_self h.lt]
      rfl
    · rw [h.set_nul_self h.lt]
      exact h
    · rw [h.set_nul_self h.lt]
      exact hend
  | cons c rest =>
    rw [hd] at e
    generalize hk : s.takeWhile (· ≠ sep) = tok at *
    rw [← e] at h ⊢
    have hlt : p + tok.length < n := by
      have := h.lt
      rw [List.length_append, List.length_cons] at this
      omega
    have hrest : IsCstr buf (p + tok.length + 1) rest := IsCstr.append (s := [c]) h.append
    refine ⟨p + tok.length + 1, hlt, ?_, h.set_nul hlt,
      hrest.set_before hlt (Nat.lt_succ_self _) NUL, Nat.le_succ _, ?_⟩
    · simp [store, hlt]
    · simp only [List.tail_cons, List.length_append, List.length_cons]
      omega

/-- What `s_tokenize` does on the line left at its cursor: the next token, and
a NUL where it ends. -/
theorem tokenizeFrom_ok (h : IsCstr buf ch s) :
    match nextSpan ' ' '"' ch s with
    | none => tokenizeFrom buf ch = some (none, ch + s.length, buf) ∧ IsCstr buf (ch + s.length) []
    | some (x, rest) => ∃ ch', ∃ hq : x.stop < n,
        tokenizeFrom buf ch = some (some x.start, ch', buf.set x.stop NUL hq) ∧
        IsCstr (buf.set x.stop NUL hq) x.start x.text ∧ IsCstr (buf.set x.stop NUL hq) ch' rest ∧
        ch ≤ x.start ∧ x.stop ≤ ch' ∧ ch' + rest.length = ch + s.length := by
  have e := List.takeWhile_append_dropWhile (p := (· = ' ')) (l := s)
  have h₁ : IsCstr buf (ch + (s.takeWhile (· = ' ')).length) (s.dropWhile (· = ' ')) :=
    IsCstr.append (by rw [e]; exact h)
  have hlen : (s.takeWhile (· = ' ')).length + (s.dropWhile (· = ' ')).length = s.length := by
    rw [← List.length_append, e]
  obtain ⟨r, hr, hs⟩ := h
  obtain ⟨r₁, hr₁, hs₁⟩ := id h₁
  unfold nextSpan
  cases hd : s.dropWhile (· = ' ') with
  | nil =>
    rw [hd] at h₁ hr₁ hlen
    rw [List.length_nil, Nat.add_zero] at hlen
    rw [hlen] at h₁ hr₁
    exact ⟨by simp [tokenizeFrom, hr, skipSpaces_eq hs, hlen, hr₁], h₁⟩
  | cons c cs =>
    rw [hd] at h₁ hr₁ hs₁ hlen
    rw [List.length_cons] at hlen
    have hc : c ≠ NUL := fun e => hs₁ (by simp [e])
    generalize hch : ch + (s.takeWhile (· = ' ')).length = ch₁ at *
    by_cases hq : c = '"'
    · obtain ⟨ch', hlt, h₂, htok, hrest, hle, hend⟩ :=
        takeToken_ok '"' (IsCstr.append (s := [c]) (t := cs) h₁)
      have hn : ('"' : Char) ≠ NUL := by decide
      simp only [hq, if_true]
      refine ⟨ch', hlt, ?_, htok, hrest, by omega, hle, ?_⟩
      · simpa [tokenizeFrom, hr, skipSpaces_eq hs, hch, hr₁, hq, hn, Span.stop] using h₂
      · rw [hend, List.length_singleton]
        omega
    · obtain ⟨ch', hlt, h₂, htok, hrest, hle, hend⟩ := takeToken_ok ' ' h₁
      simp only [hq, if_false]
      refine ⟨ch', hlt, ?_, htok, hrest, by omega, hle, ?_⟩
      · simpa [tokenizeFrom, hr, skipSpaces_eq hs, hch, hr₁, hc, hq, Span.stop] using h₂
      · rw [hend, List.length_cons]
        omega

end

/-! ## The line reader -/

/-- The characters left of the script are `s`, with the NUL that ends it. -/
def SrcAt (g : Globals) (s : Str) : Prop := ∃ r, g.src.rest = s ++ NUL :: r ∧ NUL ∉ s

/-- Copying a line of the script to `linebuf`. -/
theorem copyLine_eq {l : Str} {e : Char} {r : List Char} (hl : ∀ c ∈ l, c ≠ NUL ∧ ¬ isEol c)
    (he : e = NUL ∨ isEol e) : ∀ (src dst : Nat) (buf : Vector Char 256), dst + l.length ≤ 256 →
    ∃ buf', copyLine (l ++ e :: r) src dst buf = some (src + l.length, dst + l.length, buf') ∧
      buf'.toList = buf.toList.take dst ++ l ++ buf.toList.drop (dst + l.length) := by
  induction l with
  | nil =>
    intro src dst buf _
    refine ⟨buf, ?_, by simp⟩
    rw [List.nil_append, copyLine, if_neg]
    · simp
    · rintro ⟨h₁, h₂, h₃⟩
      exact he.elim h₁ fun he => by simp [isEol, h₂, h₃] at he
  | cons c l ih =>
    intro src dst buf hdst
    obtain ⟨hc, hceol⟩ := hl c List.mem_cons_self
    rw [List.length_cons] at hdst
    have hlt : dst < 256 := by omega
    obtain ⟨buf', h, hbuf⟩ := ih (fun c hc => hl c (List.mem_cons_of_mem _ hc)) (src + 1) (dst + 1)
      (buf.set dst c hlt) (by omega)
    refine ⟨buf', ?_, ?_⟩
    · have hcond : c ≠ NUL ∧ c ≠ '\r' ∧ c ≠ '\n' := ⟨hc, by simpa [isEol] using hceol⟩
      rw [List.cons_append, copyLine, if_pos hcond, store, dif_pos hlt]
      simp only [h, List.length_cons, Option.some.injEq, Prod.mk.injEq, and_true]
      omega
    · have hd : dst < buf.toList.length := by simpa using hlt
      rw [hbuf, Vector.toList_set, List.take_set, List.drop_set_of_lt (by omega),
        List.take_succ_eq_append_getElem hd, List.set_append_right _ _ (by simp),
        List.length_take_of_le (Nat.le_of_lt hd), Nat.sub_self]
      simp only [List.set_cons_zero, List.append_assoc, List.cons_append, List.nil_append,
        List.length_cons, Nat.add_assoc, Nat.add_comm 1]

/-- What `s_readline` and `s_tokenize` leave alone. -/
structure SameButLine (g g' : Globals) : Prop where
  portid : g'.portid = g.portid
  kq : g'.kq = g.kq
  script : g'.src.buf = g.src.buf

theorem sReadline_end {g : Globals} (h : SrcAt g []) :
    ∃ g', sReadline g = .ret (.ok none, g') ∧ SameButLine g g' := by
  obtain ⟨r, hr, -⟩ := h
  refine ⟨{ g with linebuf := g.linebuf.set 255 NUL }, ?_, ⟨rfl, rfl, rfl⟩⟩
  simp [sReadline, hr]

/-- The character that ends the first line of a script, and what `s_readline`
leaves of the script. -/
theorem lineEnd (s r : Str) : ∃ e rest, (e = NUL ∨ isEol e) ∧
    s ++ NUL :: r = s.takeWhile (!isEol ·) ++ e :: rest ∧
    (if e ≠ NUL then rest else e :: rest) = (s.dropWhile (!isEol ·)).tail ++ NUL :: r := by
  have hsplit := List.takeWhile_append_dropWhile (p := (!isEol ·)) (l := s)
  cases hd : s.dropWhile (!isEol ·) with
  | nil =>
    rw [hd, List.append_nil] at hsplit
    exact ⟨NUL, r, .inl rfl, by rw [hsplit], by simp⟩
  | cons e rest =>
    have heol : isEol e := by
      have := List.head_dropWhile_not (!isEol ·) (by rw [hd]; simp : s.dropWhile (!isEol ·) ≠ [])
      simpa [hd] using this
    have hne : e ≠ NUL := fun h => by rw [h] at heol; exact absurd heol (by decide)
    refine ⟨e, rest ++ NUL :: r, .inr heol, ?_, by simp [hne]⟩
    rw [hd] at hsplit
    rw [← List.cons_append, ← List.append_assoc, hsplit]

/-- `s_readline` puts the next line of the script in `linebuf`. -/
theorem sReadline_ok {g : Globals} {s : Str} (h : SrcAt g s) (hs : s ≠ [])
    (hfit : (s.takeWhile (!isEol ·)).length ≤ 255) :
    ∃ g', sReadline g = .ret (.ok (some 0), g') ∧ IsCstr g'.linebuf 0 (s.takeWhile (!isEol ·)) ∧
      SrcAt g' (s.dropWhile (!isEol ·)).tail ∧ SameButLine g g' := by
  obtain ⟨r, hr, hnul⟩ := h
  have hl : ∀ c ∈ s.takeWhile (!isEol ·), c ≠ NUL ∧ ¬ isEol c := fun c hc =>
    ⟨fun e => hnul (e ▸ List.takeWhile_subset _ hc), by simpa using List.mem_takeWhile_imp hc⟩
  have hrestnul : NUL ∉ (s.dropWhile (!isEol ·)).tail := fun hm =>
    hnul ((List.dropWhile_sublist _).subset (List.mem_of_mem_tail hm))
  obtain ⟨e, rest, he, hsplit, hleft⟩ := lineEnd s r
  obtain ⟨c, hc, hhead⟩ : ∃ c, c ≠ NUL ∧ g.src.rest.head? = some c := by
    obtain ⟨c, cs, rfl⟩ := List.exists_cons_of_ne_nil hs
    exact ⟨c, fun e => hnul (by simp [e]), by rw [hr]; rfl⟩
  generalize s.takeWhile (!isEol ·) = l at *
  generalize (s.dropWhile (!isEol ·)).tail = left at *
  have hlt : l.length < 256 := by omega
  obtain ⟨buf, hcopy, hbuf⟩ := copyLine_eq (r := rest) hl he g.src.off 0 (g.linebuf.set 255 NUL)
    (by omega)
  rw [← hsplit, ← hr, Nat.zero_add] at hcopy
  have hget : g.src.buf[g.src.off + l.length]? = some e := by
    rw [← List.getElem?_drop]
    show g.src.rest[l.length]? = some e
    rw [hr, hsplit]
    simp
  refine ⟨{ g with
      linebuf := buf.set l.length NUL hlt
      src := { g.src with
        off := if e ≠ NUL then g.src.off + l.length + 1 else g.src.off + l.length } },
    ?_, isCstr_set hbuf (fun hm => (hl _ hm).1 rfl) hlt, ⟨r, ?_, hrestnul⟩, ⟨rfl, rfl, rfl⟩⟩
  · simp [sReadline, hhead, hc, hcopy, hget, store, hlt]
  · have hdrop : g.src.rest.drop l.length = e :: rest := by rw [hr, hsplit, List.drop_left]
    have hrest := congrArg List.tail hdrop
    simp only [Cursor.rest, List.drop_drop, List.tail_drop, List.tail_cons] at hdrop hrest
    rw [← hleft]
    split
    · exact hrest
    · exact hdrop

end Cheviot.Proof
