import Cheviot.Framework.Text

/-!
# Tokens

`tokensBy sep quote` splits a list into tokens: runs of `sep` separate them, and
a token that starts with `quote` runs to the next `quote` or the end.

* `spansBy`: the tokens in their places, each with what ends it (`spansBy_in`).
* `isToken_of_mem`, `tokensBy_writeTokens`: a list of tokens is one that has no
  other than `IsToken`, and each of these lists can be written and read back.
-/

namespace Framework

variable {α : Type} [DecidableEq α]

/-! ## Tokens -/

section

variable (sep quote : α)

/-- The first token of a list and what is left after it, if there is one. -/
def nextToken (l : List α) : Option (List α × List α) :=
  match l.dropWhile (· = sep) with
  | [] => none
  | c :: cs =>
    if c = quote then some (cs.takeWhile (· ≠ quote), (cs.dropWhile (· ≠ quote)).tail)
    else some ((c :: cs).takeWhile (· ≠ sep), ((c :: cs).dropWhile (· ≠ sep)).tail)

/-- The first `n` tokens of a list. -/
def tokensUpTo : Nat → List α → List (List α)
  | 0, _ => []
  | n + 1, l =>
    match nextToken sep quote l with
    | none => []
    | some (tok, rest) => tok :: tokensUpTo n rest

/-- The tokens of a list, which has no more of them than elements. -/
def tokensBy (l : List α) : List (List α) := tokensUpTo sep quote l.length l

end

variable {sep quote : α}

/-- A token takes at least an element. -/
theorem nextToken_length {l tok rest : List α} (h : nextToken sep quote l = some (tok, rest)) :
    rest.length < l.length := by
  have hd : (l.dropWhile (· = sep)).length ≤ l.length := List.length_dropWhile_le _ _
  have ht : ∀ (q : α → Bool) (cs : List α), (cs.dropWhile q).tail.length ≤ cs.length - 1 :=
    fun q cs => by
      rw [List.length_tail]
      have := List.length_dropWhile_le q cs
      omega
  unfold nextToken at h
  split at h
  · cases h
  · rename_i c cs hc
    rw [hc, List.length_cons] at hd
    split at h <;> simp only [Option.some.injEq, Prod.mk.injEq] at h <;> rw [← h.2]
    · have := ht (· ≠ quote) cs; omega
    · have := ht (· ≠ sep) (c :: cs); rw [List.length_cons] at this; omega

/-! ## Where the tokens are -/

/-- A token in its place: the index of its first element, what ends it and the token. -/
structure Span (α : Type) where
  start : Nat
  close : α
  text : List α
  deriving DecidableEq, Repr

/-- The index of what ends a token. -/
def Span.stop (x : Span α) : Nat := x.start + x.text.length

variable (sep quote) in
/-- The first token of a list that starts at index `i`, and what is left after it. -/
def nextSpan (i : Nat) (l : List α) : Option (Span α × List α) :=
  match l.dropWhile (· = sep) with
  | [] => none
  | c :: cs =>
    if c = quote then
      some (⟨i + (l.takeWhile (· = sep)).length + 1, quote, cs.takeWhile (· ≠ quote)⟩,
        (cs.dropWhile (· ≠ quote)).tail)
    else
      some (⟨i + (l.takeWhile (· = sep)).length, sep, (c :: cs).takeWhile (· ≠ sep)⟩,
        ((c :: cs).dropWhile (· ≠ sep)).tail)

variable (sep quote) in
/-- The first `n` tokens of a list that starts at index `i`. -/
def spansUpTo : Nat → Nat → List α → List (Span α)
  | 0, _, _ => []
  | n + 1, i, l =>
    match nextSpan sep quote i l with
    | none => []
    | some (x, rest) => x :: spansUpTo n (i + (l.length - rest.length)) rest

variable (sep quote) in
/-- The tokens of a list that starts at index `i`, in their places. -/
def spansBy (i : Nat) (l : List α) : List (Span α) := spansUpTo sep quote l.length i l

theorem nextToken_eq (i : Nat) (l : List α) :
    nextToken sep quote l = (nextSpan sep quote i l).map fun x => (x.1.text, x.2) := by
  unfold nextToken nextSpan
  cases l.dropWhile (· = sep) with
  | nil => rfl
  | cons c cs => by_cases h : c = quote <;> simp [h]

theorem map_text_spansUpTo (n i : Nat) (l : List α) :
    (spansUpTo sep quote n i l).map Span.text = tokensUpTo sep quote n l := by
  induction n generalizing i l with
  | zero => rfl
  | succ n ih =>
    rw [spansUpTo, tokensUpTo, nextToken_eq i]
    cases nextSpan sep quote i l with
    | none => rfl
    | some x => simp [ih]

/-- The tokens in their places are the tokens. -/
theorem map_text_spansBy (i : Nat) (l : List α) :
    (spansBy sep quote i l).map Span.text = tokensBy sep quote l := map_text_spansUpTo _ _ _

theorem nextSpan_length {i : Nat} {l rest : List α} {x : Span α}
    (h : nextSpan sep quote i l = some (x, rest)) : rest.length < l.length := by
  have htok : nextToken sep quote l = some (x.text, rest) := by rw [nextToken_eq i, h]; rfl
  exact nextToken_length htok

theorem spansUpTo_congr {n m i : Nat} {l : List α} (hn : l.length ≤ n) (hm : l.length ≤ m) :
    spansUpTo sep quote n i l = spansUpTo sep quote m i l := by
  induction n generalizing m i l with
  | zero =>
    obtain rfl := List.length_eq_zero_iff.mp (Nat.le_zero.mp hn)
    cases m <;> rfl
  | succ n ih =>
    cases m with
    | zero =>
      obtain rfl := List.length_eq_zero_iff.mp (Nat.le_zero.mp hm)
      rfl
    | succ m =>
      rw [spansUpTo, spansUpTo]
      cases h : nextSpan sep quote i l with
      | none => rfl
      | some x =>
        have := nextSpan_length h
        exact congrArg (x.1 :: ·) (ih (by omega) (by omega))

theorem spansBy_eq (i : Nat) (l : List α) : spansBy sep quote i l =
    match nextSpan sep quote i l with
    | none => []
    | some (x, rest) => x :: spansBy sep quote (i + (l.length - rest.length)) rest := by
  rw [spansBy, spansUpTo_congr (Nat.le_refl _) (Nat.le_succ l.length), spansUpTo]
  cases h : nextSpan sep quote i l with
  | none => rfl
  | some x => exact congrArg (x.1 :: ·) (spansUpTo_congr (Nat.le_of_lt (nextSpan_length h)) (Nat.le_refl _))

/-! ## One token after the other -/

/-- There are no more tokens than elements, so that no more are asked for in vain. -/
theorem tokensUpTo_congr {n m : Nat} {l : List α} (hn : l.length ≤ n) (hm : l.length ≤ m) :
    tokensUpTo sep quote n l = tokensUpTo sep quote m l := by
  rw [← map_text_spansUpTo n 0, spansUpTo_congr hn hm, map_text_spansUpTo]

theorem tokensUpTo_eq {n : Nat} {l : List α} (h : l.length ≤ n) :
    tokensUpTo sep quote n l = tokensBy sep quote l := tokensUpTo_congr h (Nat.le_refl _)

theorem tokensBy_eq (l : List α) : tokensBy sep quote l =
    match nextToken sep quote l with
    | none => []
    | some (tok, rest) => tok :: tokensBy sep quote rest := by
  rw [← tokensUpTo_eq (Nat.le_succ l.length), tokensUpTo]
  cases h : nextToken sep quote l with
  | none => rfl
  | some x =>
    show _ :: _ = _ :: _
    rw [tokensUpTo_eq (Nat.le_of_lt (nextToken_length h))]

theorem tokensBy_of_none {l : List α} (h : nextToken sep quote l = none) :
    tokensBy sep quote l = [] := by
  rw [tokensBy_eq, h]

theorem tokensBy_of_some {l tok rest : List α} (h : nextToken sep quote l = some (tok, rest)) :
    tokensBy sep quote l = tok :: tokensBy sep quote rest := by
  rw [tokensBy_eq, h]

/-- The tokens, from the first one in its place. -/
theorem tokensBy_eq_span (i : Nat) (l : List α) : tokensBy sep quote l =
    match nextSpan sep quote i l with
    | none => []
    | some (x, rest) => x.text :: tokensBy sep quote rest := by
  rw [tokensBy_eq, nextToken_eq i]
  cases nextSpan sep quote i l <;> rfl

/-! ## What is around a token -/

/-- The token is in the list that starts at index `i`, and what follows it there,
if anything does, is what ends it. -/
def Span.In (x : Span α) (i : Nat) (l : List α) : Prop :=
  ∃ front tail, l = front ++ (x.text ++ tail) ∧ x.start = i + front.length ∧
    ∀ c ∈ tail.head?, c = x.close

/-- Where the first token is, and what is left after it. -/
theorem nextSpan_in {i : Nat} {l rest : List α} {x : Span α}
    (h : nextSpan sep quote i l = some (x, rest)) :
    ∃ front tail, l = front ++ (x.text ++ tail) ∧ x.start = i + front.length ∧ rest = tail.tail ∧
      ∀ c ∈ tail.head?, c = x.close := by
  have e := List.takeWhile_append_dropWhile (p := (· = sep)) (l := l)
  have hclose : ∀ {s : List α} {d c : α}, c ∈ (s.dropWhile (· ≠ d)).head? → c = d := fun {s d c} hc => by
    obtain ⟨t, ht⟩ := List.head?_eq_some_iff.mp hc
    exact eq_of_dropWhile_ne ht
  unfold nextSpan at h
  cases hd : l.dropWhile (· = sep) with
  | nil => rw [hd] at h; cases h
  | cons c cs =>
    rw [hd] at h e
    by_cases hq : c = quote
    · simp only [hq, if_true, Option.some.injEq, Prod.mk.injEq] at h
      obtain ⟨rfl, rfl⟩ := h
      refine ⟨l.takeWhile (· = sep) ++ [quote], cs.dropWhile (· ≠ quote), ?_, ?_, rfl, fun _ => hclose⟩
      · rw [List.takeWhile_append_dropWhile, List.append_assoc, List.singleton_append, ← hq, e]
      · rw [List.length_append, List.length_singleton, Nat.add_assoc]
    · simp only [hq, if_false, Option.some.injEq, Prod.mk.injEq] at h
      obtain ⟨rfl, rfl⟩ := h
      refine ⟨l.takeWhile (· = sep), (c :: cs).dropWhile (· ≠ sep), ?_, rfl, rfl, fun _ => hclose⟩
      rw [List.takeWhile_append_dropWhile, e]

/-- Every token is where it is said to be. -/
theorem spansBy_in {i : Nat} {l : List α} {x : Span α} (h : x ∈ spansBy sep quote i l) : x.In i l := by
  induction hn : l.length using Nat.strongRecOn generalizing i l with
  | ind n ih =>
    rw [spansBy_eq] at h
    cases hx : nextSpan sep quote i l with
    | none => rw [hx] at h; cases h
    | some y =>
      obtain ⟨y, rest⟩ := y
      rw [hx] at h
      obtain ⟨front, tail, hl, hstart, hrest, hclose⟩ := nextSpan_in hx
      rcases List.mem_cons.mp h with rfl | h
      · exact ⟨front, tail, hl, hstart, hclose⟩
      · obtain ⟨front', tail', hl', hstart', hclose'⟩ :=
          ih _ (hn ▸ nextSpan_length hx) h rfl
        obtain ⟨before, hb⟩ : rest <:+ l := by
          rw [hl, hrest]
          exact (List.tail_suffix _).trans ((List.suffix_append _ _).trans (List.suffix_append _ _))
        refine ⟨before ++ front', tail', by rw [← hb, hl', List.append_assoc], ?_, hclose'⟩
        rw [hstart', ← hb, List.length_append, List.length_append]
        omega

/-- A token is a part of the list. -/
theorem infix_of_mem_tokensBy {l tok : List α} (h : tok ∈ tokensBy sep quote l) : tok <:+: l := by
  rw [← map_text_spansBy 0] at h
  obtain ⟨x, hx, rfl⟩ := List.mem_map.mp h
  obtain ⟨front, tail, hl, -⟩ := spansBy_in hx
  exact ⟨front, tail, by rw [hl, List.append_assoc]⟩

/-- There are no more tokens than elements. -/
theorem length_tokensBy_le (l : List α) : (tokensBy sep quote l).length ≤ l.length := by
  have : ∀ (n : Nat) (l : List α), (tokensUpTo sep quote n l).length ≤ n := by
    intro n
    induction n with
    | zero => intro l; exact Nat.le_refl 0
    | succ n ih =>
      intro l
      rw [tokensUpTo]
      split
      · exact Nat.zero_le _
      · exact Nat.succ_le_succ (ih _)
  exact this _ _

/-! ## Writing a list of tokens -/

variable (sep quote) in
/-- What a token can be: without `quote`, or not empty, without `sep` and with
`quote` only after its first element. -/
def IsToken (tok : List α) : Prop := quote ∉ tok ∨ (tok ≠ [] ∧ sep ∉ tok ∧ tok.head? ≠ some quote)

instance (tok : List α) : Decidable (IsToken sep quote tok) := inferInstanceAs (Decidable (_ ∨ _))

variable (quote) in
/-- A token as it is written: in quotes, unless it has one. -/
def writeToken (tok : List α) : List α := if quote ∈ tok then tok else quote :: (tok ++ [quote])

variable (sep quote) in
/-- A list that has the tokens. -/
def writeTokens (ts : List (List α)) : List α := [sep].intercalate (ts.map (writeToken quote))

theorem nextToken_isToken {l tok rest : List α} (h : nextToken sep quote l = some (tok, rest)) :
    IsToken sep quote tok := by
  unfold nextToken at h
  cases hd : l.dropWhile (· = sep) with
  | nil => rw [hd] at h; cases h
  | cons c cs =>
    have hc : c ≠ sep := by
      have := List.head?_dropWhile_not (· = sep) l
      rw [hd] at this
      simpa using this
    rw [hd] at h
    by_cases hq : c = quote
    · simp only [hq, if_true, Option.some.injEq, Prod.mk.injEq] at h
      rw [← h.1]
      exact .inl (notMem_takeWhile_ne _ _)
    · simp only [hq, if_false, Option.some.injEq, Prod.mk.injEq] at h
      rw [← h.1]
      refine .inr ⟨?_, notMem_takeWhile_ne _ _, ?_⟩
      · simp [hc]
      · simpa [hc] using hq

/-- The tokens of a list are tokens. -/
theorem isToken_of_mem {l tok : List α} (h : tok ∈ tokensBy sep quote l) : IsToken sep quote tok := by
  induction hn : l.length using Nat.strongRecOn generalizing l with
  | ind n ih =>
    rw [tokensBy_eq] at h
    cases hx : nextToken sep quote l with
    | none => rw [hx] at h; cases h
    | some x =>
      rw [hx] at h
      rcases List.mem_cons.mp h with rfl | h
      · exact nextToken_isToken hx
      · exact ih _ (hn ▸ nextToken_length hx) h rfl

theorem tokensBy_sep (l : List α) : tokensBy sep quote (sep :: l) = tokensBy sep quote l := by
  have hskip : nextToken sep quote (sep :: l) = nextToken sep quote l := by simp [nextToken]
  rw [tokensBy_eq, hskip, ← tokensBy_eq]

/-- A token that is written, at the end or before a `sep`, is read back. -/
theorem tokensBy_writeToken (hne : sep ≠ quote) {tok l : List α} (h : IsToken sep quote tok)
    (hl : ∀ c ∈ l.head?, c = sep) :
    tokensBy sep quote (writeToken quote tok ++ l) = tok :: tokensBy sep quote l := by
  by_cases hq : quote ∈ tok
  · obtain ⟨hnil, hsep, hhead⟩ := h.resolve_left (not_not_intro hq)
    obtain ⟨c, cs, rfl⟩ := List.exists_cons_of_ne_nil hnil
    have hc : c ≠ sep := fun e => hsep (by simp [e])
    have hcq : c ≠ quote := by simpa using hhead
    have hstop : l.takeWhile (· ≠ sep) = [] := by
      cases l with
      | nil => rfl
      | cons d l => simp [hl d rfl]
    have htake : (c :: cs ++ l).takeWhile (· ≠ sep) = c :: cs := by
      rw [takeWhile_ne_append hsep, hstop, List.append_nil]
    have hdrop : (c :: cs ++ l).dropWhile (· ≠ sep) = l := by
      have e := List.takeWhile_append_dropWhile (p := (· ≠ sep)) (l := c :: cs ++ l)
      rw [htake] at e
      exact List.append_cancel_left e
    have hnext : nextToken sep quote (c :: cs ++ l) = some (c :: cs, l.tail) := by
      rw [nextToken, List.cons_append, List.dropWhile_cons_of_neg (by simpa using hc)]
      dsimp only
      rw [if_neg hcq, ← List.cons_append, htake, hdrop]
    rw [writeToken, if_pos hq, tokensBy_of_some hnext]
    cases l with
    | nil => rfl
    | cons d l => rw [hl d rfl, List.tail_cons, tokensBy_sep]
  · have hnext : nextToken sep quote (quote :: (tok ++ [quote]) ++ l) = some (tok, l) := by
      have htake : (tok ++ quote :: l).takeWhile (· ≠ quote) = tok := by
        rw [takeWhile_ne_append_cons, takeWhile_ne_self hq]
      have hdrop : (tok ++ quote :: l).dropWhile (· ≠ quote) = quote :: l := by
        have e := List.takeWhile_append_dropWhile (p := (· ≠ quote)) (l := tok ++ quote :: l)
        rw [htake] at e
        exact List.append_cancel_left e
      rw [nextToken, List.cons_append, List.dropWhile_cons_of_neg (by simpa using hne.symm)]
      dsimp only
      rw [if_pos rfl, List.append_assoc, List.singleton_append, htake, hdrop, List.tail_cons]
    rw [writeToken, if_neg hq, tokensBy_of_some hnext]

/-- The tokens that are written are read back. -/
theorem tokensBy_writeTokens (hne : sep ≠ quote) {ts : List (List α)}
    (h : ∀ tok ∈ ts, IsToken sep quote tok) :
    tokensBy sep quote (writeTokens sep quote ts) = ts := by
  induction ts with
  | nil => rfl
  | cons tok ts ih =>
    have ih := ih fun t ht => h t (List.mem_cons_of_mem _ ht)
    have htok := h tok List.mem_cons_self
    cases ts with
    | nil =>
      have := tokensBy_writeToken hne (l := []) htok (by simp)
      rw [List.append_nil] at this
      rw [writeTokens, List.map_singleton, List.intercalate_singleton, this]
      rfl
    | cons tok' ts =>
      rw [writeTokens, List.map_cons, List.map_cons, List.intercalate_cons_cons, ← List.map_cons,
        List.append_assoc, List.singleton_append, tokensBy_writeToken hne htok (by simp), tokensBy_sep]
      exact congrArg (tok :: ·) ih

theorem of_mem_writeTokens {ts : List (List α)} {c : α} (h : c ∈ writeTokens sep quote ts) :
    c = sep ∨ c = quote ∨ ∃ tok ∈ ts, c ∈ tok := by
  have htok : ∀ tok : List α, c ∈ writeToken quote tok → c = quote ∨ c ∈ tok := fun tok hc => by
    unfold writeToken at hc
    split at hc
    · exact .inr hc
    · simp only [List.mem_cons, List.mem_append, List.not_mem_nil, or_false] at hc
      exact hc.elim .inl Or.symm
  induction ts with
  | nil => cases h
  | cons tok ts ih =>
    cases ts with
    | nil =>
      rw [writeTokens, List.map_singleton, List.intercalate_singleton] at h
      exact .inr ((htok tok h).imp_right fun hc => ⟨tok, List.mem_cons_self, hc⟩)
    | cons tok' ts =>
      rw [writeTokens, List.map_cons, List.map_cons, List.intercalate_cons_cons, ← List.map_cons,
        List.mem_append, List.mem_append, List.mem_singleton] at h
      rcases h with (h | h) | h
      · exact .inr ((htok tok h).imp_right fun hc => ⟨tok, List.mem_cons_self, hc⟩)
      · exact .inl h
      · exact (ih h).imp_right (Or.imp_right fun ⟨t, ht, hc⟩ => ⟨t, List.mem_cons_of_mem _ ht, hc⟩)

end Framework
