import Mathlib.Data.List.TakeWhile

/-!
# Lines and words

`takeWhile (· ≠ c)` is what a list holds before the first `c`; what comes after it
does not count (`takeWhile_ne_append_cons`).

`pieces p` splits a list at every element that satisfies `p`, without an empty
last piece after a final separator (`split_iff`). `pieces_append_sep`: splitting at a
separator splits the pieces, but for empty ones; so what is in the pieces that
are not empty (`solid`) composes exactly (`solid_append_sep`), and does not
change when separators are doubled (`solid_flatMap`).

`set_fill`: words that are stored one after the other from an index on, and an end
after them.
-/

namespace Framework

variable {α : Type}

/-! ## Up to an element -/

section Until

variable [DecidableEq α] {c : α} {s : List α}

theorem notMem_takeWhile_ne (c : α) (s : List α) : c ∉ s.takeWhile (· ≠ c) := fun h => by
  simpa using List.mem_takeWhile_imp h

theorem eq_of_dropWhile_ne {d : α} {t : List α} (h : s.dropWhile (· ≠ c) = d :: t) : d = c := by
  have := List.head?_dropWhile_not (· ≠ c) s
  rw [h] at this
  simpa using this

theorem takeWhile_ne_append (h : c ∉ s) (t : List α) :
    (s ++ t).takeWhile (· ≠ c) = s ++ t.takeWhile (· ≠ c) :=
  List.takeWhile_append_of_pos fun d hd => by simpa using fun he : d = c => h (he ▸ hd)

theorem takeWhile_ne_self (h : c ∉ s) : s.takeWhile (· ≠ c) = s := by
  have := takeWhile_ne_append h []
  rwa [List.append_nil, List.takeWhile_nil, List.append_nil] at this

theorem takeWhile_ne_append_of_mem (h : c ∈ s) (t : List α) :
    (s ++ t).takeWhile (· ≠ c) = s.takeWhile (· ≠ c) := by
  rw [List.takeWhile_append, if_neg fun hlen => ?_]
  have heq := (List.takeWhile_prefix (· ≠ c)).eq_of_length hlen
  exact notMem_takeWhile_ne c s (by rwa [heq])

/-- What comes after the element does not count. -/
theorem takeWhile_ne_append_cons (c : α) (s t : List α) :
    (s ++ c :: t).takeWhile (· ≠ c) = s.takeWhile (· ≠ c) := by
  by_cases h : c ∈ s
  · exact takeWhile_ne_append_of_mem h _
  · rw [takeWhile_ne_append h, takeWhile_ne_self h, List.takeWhile_cons_of_neg (by simp),
      List.append_nil]

/-- A list, split at the first such element. -/
theorem exists_eq_takeWhile_ne_append (h : c ∈ s) : ∃ t, s = s.takeWhile (· ≠ c) ++ c :: t := by
  cases hdrop : s.dropWhile (· ≠ c) with
  | nil => simpa using List.dropWhile_eq_nil_iff.mp hdrop c h
  | cons d t =>
    obtain rfl := eq_of_dropWhile_ne hdrop
    exact ⟨t, by rw [← hdrop, List.takeWhile_append_dropWhile]⟩

end Until

/-! ## Pieces -/

/-- The pieces of a list between the elements that satisfy `p`. -/
def pieces (p : α → Bool) : List α → List (List α)
  | [] => []
  | c :: cs =>
    if p c then [] :: pieces p cs
    else
      match pieces p cs with
      | [] => [[c]]
      | l :: ls => (c :: l) :: ls

section Pieces

variable {p : α → Bool}

@[simp] theorem pieces_nil : pieces p [] = [] := rfl

/-- The first piece, and the pieces of what follows its separator. -/
theorem pieces_eq : ∀ {s : List α}, s ≠ [] →
    pieces p s = s.takeWhile (!p ·) :: pieces p (s.dropWhile (!p ·)).tail
  | c :: cs, _ => by
    by_cases h : p c
    · simp [pieces, h]
    · by_cases hcs : cs = []
      · subst hcs; simp [pieces, h]
      · have ih := pieces_eq hcs
        simp only [pieces, h, ih]
        simp [h]

/-- Splitting at a separator splits the pieces, but for empty ones. -/
theorem pieces_append_sep {c : α} (hc : p c) (t : List α) : ∀ s : List α,
    ∃ e, (∀ l ∈ e, l = []) ∧ pieces p (s ++ c :: t) = pieces p s ++ e ++ pieces p t
  | [] => ⟨[[]], by simp, by simp [pieces, hc]⟩
  | d :: s => by
    obtain ⟨e, he, h⟩ := pieces_append_sep hc t s
    by_cases hd : p d
    · exact ⟨e, he, by simp [pieces, hd, h]⟩
    · by_cases hs : s = []
      · exact ⟨[], by simp, by subst hs; simp [pieces, hd, hc]⟩
      · obtain ⟨l, ls, hl⟩ : ∃ l ls, pieces p s = l :: ls := ⟨_, _, pieces_eq hs⟩
        exact ⟨e, he, by simp [pieces, hd, h, hl]⟩

/-- A piece of two lists with a separator between them is a piece of one of
them, or empty. -/
theorem of_mem_pieces_append_sep {c : α} (hc : p c) {s t l : List α}
    (hl : l ∈ pieces p (s ++ c :: t)) : l ∈ pieces p s ∨ l = [] ∨ l ∈ pieces p t := by
  obtain ⟨e, he, h⟩ := pieces_append_sep hc t s
  rw [h] at hl
  simp only [List.mem_append] at hl
  rcases hl with (hl | hl) | hl
  · exact .inl hl
  · exact .inr (.inl (he l hl))
  · exact .inr (.inr hl)

/-- A property of lists holds of a list without separators, and of a list
without separators, a separator and a list it holds of. -/
theorem piecesInduction (p : α → Bool) {P : List α → Prop} (base : ∀ s, (∀ x ∈ s, ¬ p x) → P s)
    (sep : ∀ l c s, (∀ x ∈ l, ¬ p x) → p c → P s → P (l ++ c :: s)) (s : List α) : P s := by
  induction hn : s.length using Nat.strongRecOn generalizing s with
  | ind n ih =>
    have hl : ∀ x ∈ s.takeWhile (!p ·), ¬ p x := fun x hx => by
      simpa using List.mem_takeWhile_imp hx
    cases h : s.dropWhile (!p ·) with
    | nil => exact base s fun x hx => by simpa using List.dropWhile_eq_nil_iff.mp h x hx
    | cons c s' =>
      have e : s = s.takeWhile (!p ·) ++ c :: s' := by rw [← h, List.takeWhile_append_dropWhile]
      have hc : p c := by
        have := List.head_dropWhile_not (!p ·) (by rw [h]; simp : s.dropWhile (!p ·) ≠ [])
        simpa [h] using this
      have hlt : s'.length < n := by
        rw [← hn, e]; simp only [List.length_append, List.length_cons]; omega
      rw [e]
      exact sep _ c s' hl hc (ih _ hlt s' rfl)

/-- The list is the lists `ls`, each with the separator that ended it, but the last
one, which is not empty if nothing ended it. -/
inductive Split (p : α → Bool) : List α → List (List α) → Prop where
  | nil : Split p [] []
  | last {l : List α} : l ≠ [] → (∀ x ∈ l, ¬ p x) → Split p l [l]
  | sep {l s : List α} {c : α} {ls : List (List α)} : (∀ x ∈ l, ¬ p x) → p c → Split p s ls →
      Split p (l ++ c :: s) (l :: ls)

/-- A first piece that a separator ends. -/
theorem pieces_append_cons {l : List α} {c : α} (hl : ∀ x ∈ l, ¬ p x) (hc : p c) (s : List α) :
    pieces p (l ++ c :: s) = l :: pieces p s := by
  have hne : l ++ c :: s ≠ [] := by simp
  have hall : ∀ x ∈ l, !p x := fun x hx => by simpa using hl x hx
  rw [pieces_eq hne, List.takeWhile_append_of_pos hall, List.dropWhile_append_of_pos hall,
    List.takeWhile_cons_of_neg (by simp [hc]), List.dropWhile_cons_of_neg (by simp [hc]),
    List.append_nil, List.tail_cons]

/-- A last piece that nothing ends. -/
theorem pieces_of_forall_not {l : List α} (hne : l ≠ []) (hl : ∀ x ∈ l, ¬ p x) : pieces p l = [l] := by
  have hall : ∀ x ∈ l, !p x := fun x hx => by simpa using hl x hx
  rw [pieces_eq hne, List.takeWhile_eq_self_iff.mpr hall, List.dropWhile_eq_nil_iff.mpr hall]
  rfl

/-- What is in a piece is in the list, and is no separator. -/
theorem of_mem_pieces {s l : List α} {x : α} (hl : l ∈ pieces p s) (hx : x ∈ l) : x ∈ s ∧ ¬ p x := by
  induction s using piecesInduction p generalizing l with
  | base s hs =>
    by_cases hne : s = []
    · subst hne
      cases hl
    · rw [pieces_of_forall_not hne hs, List.mem_singleton] at hl
      exact hl ▸ ⟨hl ▸ hx, hs x (hl ▸ hx)⟩
  | sep l' c s hl' hc ih =>
    rw [pieces_append_cons hl' hc, List.mem_cons] at hl
    rcases hl with rfl | hl
    · exact ⟨List.mem_append_left _ hx, hl' x hx⟩
    · obtain ⟨hmem, hnot⟩ := ih hl hx
      exact ⟨List.mem_append_right _ (List.mem_cons_of_mem _ hmem), hnot⟩

/-- A list is split in one way. -/
theorem split_iff {s : List α} {ls : List (List α)} : Split p s ls ↔ ls = pieces p s := by
  constructor
  · intro h
    induction h with
    | nil => rfl
    | last hne hl => rw [pieces_of_forall_not hne hl]
    | sep hl hc _ ih => rw [pieces_append_cons hl hc, ih]
  · rintro rfl
    induction s using piecesInduction p with
    | base s hs =>
      by_cases hne : s = []
      · subst hne
        exact .nil
      · rw [pieces_of_forall_not hne hs]
        exact .last hne hs
    | sep l c s hl hc ih =>
      rw [pieces_append_cons hl hc]
      exact .sep hl hc ih

/-- Pieces and what ended them, one after the other. -/
def rejoin : List (List α) → List α → List α
  | [], _ => []
  | l :: ls, [] => l ++ rejoin ls []
  | l :: ls, c :: cs => l ++ c :: rejoin ls cs

/-- The pieces with the separators after them are the list. -/
theorem rejoin_pieces (s : List α) : rejoin (pieces p s) (s.filter p) = s := by
  have h : Split p s (pieces p s) := split_iff.mpr rfl
  generalize pieces p s = ls at h
  induction h with
  | nil => rfl
  | last hne hl =>
    rw [List.filter_eq_nil_iff.mpr hl]
    exact List.append_nil _
  | sep hl hc _ ih =>
    rw [List.filter_append, List.filter_eq_nil_iff.mpr hl, List.nil_append, List.filter_cons_of_pos hc,
      rejoin, ih]

end Pieces

/-! ## Pieces that are not empty -/

/-- The pieces of a list that are not empty. -/
def solid (p : α → Bool) (s : List α) : List (List α) := (pieces p s).filter (· ≠ [])

section Solid

variable {p : α → Bool}

/-- The first piece that is not empty, and those after it. -/
theorem solid_eq (s : List α) : solid p s =
    match s.dropWhile p with
    | [] => []
    | c :: cs => (c :: cs).takeWhile (!p ·) :: solid p ((c :: cs).dropWhile (!p ·)).tail := by
  induction s with
  | nil => rfl
  | cons c s ih =>
    by_cases hc : p c
    · have hskip : solid p (c :: s) = solid p s := by simp [solid, pieces, hc]
      rw [hskip, ih, List.dropWhile_cons_of_pos hc]
    · rw [List.dropWhile_cons_of_neg hc, solid, pieces_eq (List.cons_ne_nil c s),
        List.filter_cons_of_pos (by simp [hc])]
      rfl

/-- The first piece that is not empty. -/
theorem head?_solid (s : List α) : (solid p s).head? =
    if s.dropWhile p = [] then none else some ((s.dropWhile p).takeWhile (!p ·)) := by
  rw [solid_eq]
  cases s.dropWhile p <;> rfl

theorem solid_eq_nil {s : List α} : solid p s = [] ↔ ∀ c ∈ s, p c := by
  rw [solid_eq, ← List.dropWhile_eq_nil_iff]
  cases s.dropWhile p <;> simp

theorem solid_append_sep {c : α} (hc : p c) (s t : List α) :
    solid p (s ++ c :: t) = solid p s ++ solid p t := by
  obtain ⟨e, he, h⟩ := pieces_append_sep hc t s
  have : e.filter (· ≠ []) = [] := by
    rw [List.filter_eq_nil_iff]
    exact fun l hl => by simpa using he l hl
  rw [solid, h, List.filter_append, List.filter_append, this, List.append_nil]
  rfl

/-- Each piece but the last has a separator after it. -/
theorem length_solid_le (s : List α) : 2 * (solid p s).length ≤ s.length + 1 := by
  have hpiece : ∀ l : List α, (∀ x ∈ l, ¬ p x) → (solid p l).length ≤ 1 ∧ (l = [] → solid p l = []) :=
    fun l hl => by
      by_cases hne : l = []
      · subst hne
        exact ⟨Nat.zero_le _, fun _ => rfl⟩
      · rw [solid, pieces_of_forall_not hne hl]
        exact ⟨List.length_filter_le _ _, fun h => absurd h hne⟩
  induction s using piecesInduction p with
  | base s hs =>
    obtain ⟨hone, hnil⟩ := hpiece s hs
    cases s with
    | nil => exact Nat.zero_le _
    | cons c s => rw [List.length_cons]; omega
  | sep l c s hl hc ih =>
    obtain ⟨hone, hnil⟩ := hpiece l hl
    rw [solid_append_sep hc, List.length_append, List.length_append, List.length_cons]
    cases l with
    | nil => rw [hnil rfl, List.length_nil]; omega
    | cons d l => rw [List.length_cons]; omega

/-- Replacing every separator by one or more separators, and nothing else,
keeps the pieces that are not empty. -/
theorem solid_flatMap {f : α → List α} (hf : ∀ c, ¬ p c → f c = [c])
    (hs : ∀ c, p c → f c ≠ [] ∧ ∀ x ∈ f c, p x) (s : List α) :
    solid p (s.flatMap f) = solid p s := by
  have keep : ∀ l : List α, (∀ x ∈ l, ¬ p x) → l.flatMap f = l := fun l hl => by
    induction l with
    | nil => rfl
    | cons a l ih =>
      rw [List.flatMap_cons, hf a (hl a List.mem_cons_self),
        ih fun x hx => hl x (List.mem_cons_of_mem _ hx), List.singleton_append]
  have strip : ∀ (l u t : List α), u ≠ [] → (∀ x ∈ u, p x) →
      solid p (l ++ (u ++ t)) = solid p l ++ solid p t := by
    intro l u t hu hp
    induction u generalizing l with
    | nil => exact absurd rfl hu
    | cons a u ih =>
      rw [List.cons_append, solid_append_sep (hp a List.mem_cons_self)]
      congr 1
      by_cases e : u = []
      · subst e; rfl
      · simpa [solid] using ih [] e fun x hx => hp x (List.mem_cons_of_mem _ hx)
  induction s using piecesInduction p with
  | base s h => rw [keep s h]
  | sep l c s hl hc ih =>
    rw [List.flatMap_append, keep l hl, List.flatMap_cons, strip l _ _ (hs c hc).1 (hs c hc).2,
      solid_append_sep hc, ih]

end Solid

/-! ## Words stored one after the other -/

section Store

variable {l : List α} {i : Nat}

theorem take_succ_set (h : i < l.length) (y : α) : (l.set i y).take (i + 1) = l.take i ++ [y] := by
  have hset : i < (l.set i y).length := by rwa [List.length_set]
  rw [List.take_succ_eq_append_getElem hset, List.take_set_of_le (Nat.le_refl _),
    List.getElem_set_self]

/-- The last element that is stored, `e`. -/
theorem set_eq_fill (h : i < l.length) (e : α) : l.set i e = l.take i ++ [] ++ e :: l.drop (i + 1) := by
  rw [List.set_eq_take_append_cons_drop, if_pos h, List.append_nil]

/-- An element that is stored before the others. -/
theorem set_fill (h : i < l.length) (y e : α) (ys : List α) (k : Nat) :
    (l.set i y).take (i + 1) ++ ys ++ e :: (l.set i y).drop (i + 1 + k + 1) =
      l.take i ++ y :: ys ++ e :: l.drop (i + (k + 1) + 1) := by
  have hdrop : i + 1 + k + 1 = i + (k + 1) + 1 := by omega
  rw [take_succ_set h, List.drop_set_of_lt (by omega), hdrop, List.append_assoc (l.take i),
    List.singleton_append]

end Store

end Framework
