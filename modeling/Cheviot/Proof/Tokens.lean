import Cheviot.Proof.Tokenize
import Cheviot.Spec.Tokens

/-!
# The tokenizer, call after call

`tokenizeCall_ok`: the calls of `s_tokenize` on a line return its tokens in
place, one after the other, and then NULL for ever; each leaves the tokens
handed out before as they were, and changes nothing but what ends a token. What
one call does to a line of which `k` tokens are taken (`Scanned`) is
`scanned_next`.
-/

namespace Cheviot.Proof

open Framework Cheviot.Sysinit Cheviot.Spec

variable {n : Nat} {buf : Vector Char n} {p k : Nat} {line : Str} {m : Scanner n}

/-- On `linebuf` it is the same code. -/
theorem sTokenize_eq (line : Option Nat) (g : Globals) : sTokenize line g =
    match Scanner.tokenize ⟨g.linebuf, g.ch⟩ line with
    | none => .ret (.fault, { g with ch := line.or g.ch })
    | some (tok, m) => .ret (.ok tok, { g with ch := m.ch, linebuf := m.buf }) := by
  simp only [sTokenize, Scanner.tokenize, Proc.bind_apply, Proc.modify_apply, Proc.get_apply,
    Prog.ret_bind, Proc.next_ok, Option.bind_eq_bind]
  cases line.or g.ch with
  | none => rfl
  | some ch =>
    simp only [Proc.orFault_some, Proc.pure_apply, Prog.ret_bind, Proc.next_ok, Option.bind_some]
    cases tokenizeFrom g.linebuf ch <;> rfl

/-- The first `k` tokens of the line at index `p` are strings of the array, which
was `buf` and has a NUL where each of them ends. -/
structure Closed (buf : Vector Char n) (p : Nat) (line : Str) (k : Nat) (m : Scanner n) : Prop where
  strings : ∀ x ∈ (spans p line).take k, IsCstr m.buf x.start x.text
  bytes : ∀ i (h : i < n), m.buf[i] =
    if i ∈ ((spans p line).take k).map Span.stop then NUL else buf[i]

/-- The first `k` tokens of the line have been handed out. -/
structure Handed (buf : Vector Char n) (p : Nat) (line : Str) (k : Nat) (m : Scanner n) : Prop
    extends Closed buf p line k m where
  cursor : ∃ ch, m.ch = some ch ∧ p ≤ ch ∧ ch ≤ p + line.length

/-- The same, with the cursor at `ch` and `rest` of the line from there on. -/
structure Scanned (buf : Vector Char n) (p : Nat) (line : Str) (k : Nat) (ch : Nat) (rest : Str)
    (m : Scanner n) : Prop extends Closed buf p line k m where
  at_ch : m.ch = some ch
  cstr : IsCstr m.buf ch rest
  le : p ≤ ch
  last : ch + rest.length = p + line.length
  left : spans ch rest = (spans p line).drop k
  before : ∀ x ∈ (spans p line).take k, x.stop ≤ ch

theorem take_succ_of_length_le {α : Type} {l : List α} (h : l.length ≤ k) : l.take (k + 1) = l.take k := by
  rw [List.take_of_length_le h, List.take_of_length_le (Nat.le_succ_of_le h)]

/-- Where there are no more tokens, nothing more is to be closed. -/
theorem Closed.all (h : Closed buf p line k m) (hall : (spans p line).length ≤ k) (ch : Option Nat) :
    Closed buf p line (k + 1) ⟨m.buf, ch⟩ := by
  have htake := take_succ_of_length_le hall
  exact ⟨htake ▸ h.strings, htake ▸ h.bytes⟩

/-- One more token is closed by a NUL after it. -/
theorem Closed.next {x : Span Char} (h : Closed buf p line k m)
    (htake : (spans p line).take (k + 1) = (spans p line).take k ++ [x]) (hlt : x.stop < n)
    (htok : IsCstr (m.buf.set x.stop NUL hlt) x.start x.text)
    (hbefore : ∀ y ∈ (spans p line).take k, y.stop ≤ x.stop) (ch : Option Nat) :
    Closed buf p line (k + 1) ⟨m.buf.set x.stop NUL hlt, ch⟩ := by
  constructor
  · rw [htake]
    intro y hy
    rcases List.mem_append.mp hy with hy | hy
    · exact (h.strings y hy).set_after hlt (hbefore y hy)
    · exact List.mem_singleton.mp hy ▸ htok
  · intro i hi
    rw [htake, List.map_append, Vector.getElem_set]
    by_cases hx : x.stop = i
    · rw [if_pos hx, if_pos (List.mem_append_right _ (by simp [hx]))]
    · rw [if_neg hx, h.bytes i hi]
      simp [Ne.symm hx]

/-- A call at the end of the line takes nothing. -/
theorem scanned_end {ch : Nat} {rest : Str} (h : Scanned buf p line k ch rest m)
    (hn : nextSpan ' ' '"' ch rest = none) :
    ∃ m' ch' rest', m.tokenize none = some (((spans p line)[k]?).map Span.start, m') ∧
      Scanned buf p line (k + 1) ch' rest' m' := by
  have hcall := tokenizeFrom_ok h.cstr
  have hleft := h.left
  rw [spans, spansBy_eq, hn] at hleft
  rw [hn] at hcall
  obtain ⟨e, hend⟩ := hcall
  have hall : (spans p line).length ≤ k := List.drop_eq_nil_iff.mp hleft.symm
  refine ⟨⟨m.buf, some (ch + rest.length)⟩, ch + rest.length, [], ?_, h.all hall _, rfl, hend,
    h.le.trans (Nat.le_add_right ..), h.last, ?_, ?_⟩
  · rw [List.getElem?_eq_none hall]
    simp [Scanner.tokenize, h.at_ch, e]
  · rw [← List.drop_drop, ← hleft]
    rfl
  · rw [take_succ_of_length_le hall]
    exact fun x hx => (h.before x hx).trans (Nat.le_add_right ..)

/-- A call takes the next token, if there is one. -/
theorem scanned_next {ch : Nat} {rest : Str} (h : Scanned buf p line k ch rest m) :
    ∃ m' ch' rest', m.tokenize none = some (((spans p line)[k]?).map Span.start, m') ∧
      Scanned buf p line (k + 1) ch' rest' m' := by
  cases hn : nextSpan ' ' '"' ch rest with
  | none => exact scanned_end h hn
  | some y =>
    obtain ⟨x, rest'⟩ := y
    have hcall := tokenizeFrom_ok h.cstr
    have hleft := h.left
    rw [spans, spansBy_eq, hn] at hleft
    rw [hn] at hcall
    obtain ⟨ch', hlt, e, htok, hrest, hle, hstop, hlast⟩ := hcall
    have hget : (spans p line)[k]? = some x := by
      rw [← List.head?_drop, ← hleft]
      rfl
    have htake : (spans p line).take (k + 1) = (spans p line).take k ++ [x] := by
      rw [List.take_add_one, hget]
      rfl
    have hbefore : ∀ y ∈ (spans p line).take k, y.stop ≤ x.stop := fun y hy =>
      ((h.before y hy).trans hle).trans (Nat.le_add_right ..)
    refine ⟨⟨m.buf.set x.stop NUL hlt, some ch'⟩, ch', rest', ?_,
      h.toClosed.next htake hlt htok hbefore _, rfl, hrest,
      h.le.trans (hle.trans ((Nat.le_add_right ..).trans hstop)), hlast.trans h.last, ?_, ?_⟩
    · rw [hget]
      simp [Scanner.tokenize, h.at_ch, e]
    · have hnext : ch' = ch + (rest.length - rest'.length) := by
        have := nextSpan_length hn
        omega
      rw [spans, hnext, ← List.drop_drop, ← hleft]
      rfl
    · rw [htake]
      intro y hy
      rcases List.mem_append.mp hy with hy | hy
      · exact (hbefore y hy).trans hstop
      · exact List.mem_singleton.mp hy ▸ hstop

/-- Call `j` takes token `j`, if there is one. -/
theorem tokenizeCall_scanned (h : IsCstr buf p line) (ch : Option Nat) (j : Nat) :
    ∃ m ch' rest, tokenizeCall ⟨buf, ch⟩ p j = some (((spans p line)[j]?).map Span.start, m) ∧
      Scanned buf p line (j + 1) ch' rest m := by
  induction j with
  | zero =>
    have h₀ : Scanned buf p line 0 p line ⟨buf, some p⟩ :=
      ⟨⟨by simp, by simp⟩, rfl, h, Nat.le_refl _, rfl, rfl, by simp⟩
    exact scanned_next h₀
  | succ j ih =>
    obtain ⟨m, ch', rest, e, hm⟩ := ih
    rw [tokenizeCall, e]
    exact scanned_next hm

/-- The tokens in their places are the tokens. -/
theorem map_text_spans (p : Nat) (line : Str) : (spans p line).map Span.text = tokens line :=
  map_text_spansBy p line

/-- The calls of `s_tokenize` on a line, the first of the line and the others with
NULL, return its tokens in place, in order, and then NULL on every call. After each
of them the cursor is in the line, every token handed out is the string at its
pointer, and the array is as it was but for a NUL where each of those tokens ends:
at its separator, or at the NUL of the line. -/
theorem tokenizeCall_ok (h : IsCstr buf p line) :
    (spans p line).map Span.text = tokens line ∧ (∀ x ∈ spans p line, x.In p line) ∧
    ∀ (ch : Option Nat) (j : Nat), ∃ m,
      tokenizeCall ⟨buf, ch⟩ p j = some (((spans p line)[j]?).map Span.start, m) ∧
      Handed buf p line (j + 1) m := by
  refine ⟨map_text_spans p line, fun x hx => spansBy_in hx, fun ch j => ?_⟩
  obtain ⟨m, ch', rest, e, hm⟩ := tokenizeCall_scanned h ch j
  exact ⟨m, e, hm.toClosed, ch', hm.at_ch, hm.le, hm.last ▸ Nat.le_add_right ..⟩

/-- A line with an empty token between two others. -/
def mixed : Vector Char 7 := #v['a', ' ', '"', '"', ' ', 'b', NUL]

/-- Its third call, after which all three tokens are there. -/
theorem tokenizeCall_ok_mixed : ∃ m, tokenizeCall ⟨mixed, none⟩ 0 2 = some (some 5, m) ∧
    cstr m.buf 0 = ['a'] ∧ cstr m.buf 3 = [] ∧ cstr m.buf 5 = ['b'] := by
  have hline : IsCstr mixed 0 ['a', ' ', '"', '"', ' ', 'b'] := ⟨[], rfl, by decide⟩
  obtain ⟨m, e, hm⟩ := (tokenizeCall_ok hline).2.2 none 2
  have hstring := fun x hx => (hm.strings x hx).cstr_eq
  exact ⟨m, e, hstring ⟨0, ' ', ['a']⟩ (by decide), hstring ⟨3, '"', []⟩ (by decide),
    hstring ⟨5, ' ', ['b']⟩ (by decide)⟩

/-! ## What a line can express -/

/-- The calls on a line return its tokens. -/
theorem produces_tokens (h : IsCstr buf p line) (ch : Option Nat) :
    Produces ⟨buf, ch⟩ p (tokens line) := by
  intro j
  obtain ⟨m, ch', rest, e, hm⟩ := tokenizeCall_scanned h ch j
  refine ⟨_, m, e, ?_⟩
  rw [← map_text_spans p line, List.getElem?_map, Option.map_map]
  cases hx : (spans p line)[j]? with
  | none => rfl
  | some x =>
    have hmem : x ∈ (spans p line).take (j + 1) :=
      List.mem_of_getElem? (by rw [List.getElem?_take_of_lt (Nat.lt_succ_self j), hx])
    exact congrArg some (hm.strings x hmem).cstr_eq

/-- They return nothing else. -/
theorem produces_unique {ts ts' : List Str} (h : Produces m p ts) (h' : Produces m p ts') :
    ts = ts' := by
  refine List.ext_getElem? fun j => ?_
  obtain ⟨tok, m₁, e, ht⟩ := h j
  obtain ⟨tok', m₂, e', ht'⟩ := h' j
  obtain ⟨rfl, rfl⟩ := Prod.mk.inj (Option.some.inj (e.symm.trans e'))
  rw [← ht, ht']

/-- `s_tokenize` splits the line into the strings, wherever it is. -/
def SplitsInto (line : Str) (ts : List Str) : Prop :=
  ∀ (n : Nat) (buf : Vector Char n) (p : Nat) (ch : Option Nat), IsCstr buf p line →
    Produces ⟨buf, ch⟩ p ts

/-- A line by itself. -/
def lineBuf (line : Str) : Vector Char (line.length + 1) := ⟨(line ++ [NUL]).toArray, by simp⟩

theorem isCstr_lineBuf (h : NUL ∉ line) : IsCstr (lineBuf line) 0 line := ⟨[], rfl, h⟩

theorem splitsInto_iff {ts : List Str} (h : NUL ∉ line) : SplitsInto line ts ↔ tokens line = ts := by
  constructor
  · intro hs
    exact produces_unique (produces_tokens (isCstr_lineBuf h) none) (hs _ _ _ _ (isCstr_lineBuf h))
  · rintro rfl n buf p ch hline
    exact produces_tokens hline ch

theorem isText_nul (h : IsText line) : NUL ∉ line := fun hm => (h NUL hm).1 rfl

/-- The strings on a line, with those that have a quote as they are. -/
theorem isText_writeTokens {ts : List Str} (h : ∀ tok ∈ ts, IsText tok) :
    IsText (writeTokens ' ' '"' ts) := by
  intro c hc
  rcases of_mem_writeTokens hc with rfl | rfl | ⟨tok, htok, hc⟩
  · decide
  · decide
  · exact h tok htok c hc

theorem writeTokens_eq_quoted {ts : List Str} (h : ∀ tok ∈ ts, '"' ∉ tok) :
    writeTokens ' ' '"' ts = quoted ts := by
  rw [writeTokens, quoted]
  congr 1
  exact List.map_congr_left fun tok htok => if_neg (h tok htok)

/-- A list of strings is what `s_tokenize` splits some line into exactly if each of
them has no `"`, or is not empty, has no space and does not start with `"`. Strings
without `"` are what it splits the line into that has each of them in quotes. -/
theorem expressible_iff {ts : List Str} (hts : ∀ tok ∈ ts, IsText tok) :
    ((∃ line, IsText line ∧ SplitsInto line ts) ↔ ∀ tok ∈ ts, Expressible tok) ∧
    ((∀ tok ∈ ts, '"' ∉ tok) → IsText (quoted ts) ∧ SplitsInto (quoted ts) ts) := by
  have htext := isText_writeTokens hts
  have hback : (∀ tok ∈ ts, Expressible tok) → SplitsInto (writeTokens ' ' '"' ts) ts := fun h =>
    (splitsInto_iff (isText_nul htext)).mpr (tokensBy_writeTokens (by decide) h)
  refine ⟨⟨?_, fun h => ⟨_, htext, hback h⟩⟩, fun h => ?_⟩
  · rintro ⟨line, hline, hs⟩ tok htok
    rw [← (splitsInto_iff (isText_nul hline)).mp hs] at htok
    exact isToken_of_mem htok
  · rw [← writeTokens_eq_quoted h]
    exact ⟨htext, hback fun tok htok => .inl (h tok htok)⟩

/-- An empty string and one with a space. -/
theorem expressible_iff_spaces : (∃ line, IsText line ∧ SplitsInto line [[], ['a', ' ', 'b']]) ∧
    SplitsInto "\"\" \"a b\"".toList [[], ['a', ' ', 'b']] :=
  have h := expressible_iff (by decide : ∀ tok ∈ [[], ['a', ' ', 'b']], IsText tok)
  have hquote : ∀ tok ∈ [[], ['a', ' ', 'b']], '"' ∉ tok := by simp
  ⟨h.1.mpr fun tok htok => .inl (hquote tok htok), (h.2 hquote).2⟩

end Cheviot.Proof
