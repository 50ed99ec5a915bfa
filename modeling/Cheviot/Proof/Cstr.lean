import Cheviot.Framework.Text
import Cheviot.Impl.Sysinit.RunS

/-!
# C strings in an array

`IsCstr buf p s`: the string `s` is at index `p` of an array, with the NUL that ends
it. A NUL that is stored after a string leaves it as it is (`cstr_set`).
-/

namespace Cheviot.Proof

open Framework Cheviot.Sysinit

/-- The C string at index `p` is `s`, and its NUL is inside the array. -/
def IsCstr {n : Nat} (buf : Vector Char n) (p : Nat) (s : Str) : Prop :=
  ∃ r, charsFrom buf p = s ++ NUL :: r ∧ NUL ∉ s

variable {n : Nat} {buf : Vector Char n} {p q : Nat} {s t : Str}

theorem IsCstr.cstr_eq (h : IsCstr buf p s) : cstr buf p = s := by
  obtain ⟨r, hr, hs⟩ := h
  rw [cstr, hr, takeWhile_ne_append_cons, takeWhile_ne_self hs]

theorem IsCstr.take_eq (h : IsCstr buf p s) : (charsFrom buf p).take s.length = s := by
  obtain ⟨r, hr, -⟩ := h
  rw [hr, List.take_left]

theorem charsFrom_add (buf : Vector Char n) (p k : Nat) :
    charsFrom buf (p + k) = (charsFrom buf p).drop k := by
  rw [charsFrom, charsFrom, List.drop_drop]

theorem IsCstr.append (h : IsCstr buf p (s ++ t)) : IsCstr buf (p + s.length) t := by
  obtain ⟨r, hr, hs⟩ := h
  refine ⟨r, ?_, fun ht => hs (List.mem_append_right _ ht)⟩
  rw [charsFrom_add, hr, List.append_assoc, List.drop_left]

theorem IsCstr.lt (h : IsCstr buf p s) : p + s.length < n := by
  obtain ⟨r, hr, -⟩ := h
  have := congrArg List.length hr
  simp only [charsFrom, List.length_drop, Vector.length_toList, List.length_append,
    List.length_cons] at this
  omega

theorem charsFrom_set (hq : q < n) (c : Char) : charsFrom (buf.set q c hq) p =
    if q < p then charsFrom buf p else (charsFrom buf p).set (q - p) c := by
  rw [charsFrom, Vector.toList_set, List.drop_set]
  rfl

/-- Setting a character to NUL after a string keeps the string. -/
theorem cstr_set (hq : q < n) (h : p + (cstr buf p).length ≤ q) :
    cstr (buf.set q NUL hq) p = cstr buf p := by
  unfold cstr at h ⊢
  rw [charsFrom_set, if_neg (by omega)]
  have e := List.takeWhile_append_dropWhile (p := (· ≠ NUL)) (l := charsFrom buf p)
  have hnul := notMem_takeWhile_ne NUL (charsFrom buf p)
  generalize (charsFrom buf p).takeWhile (· ≠ NUL) = s at *
  rw [← e, List.set_append_right _ _ (by omega), takeWhile_ne_append hnul]
  cases hd : (charsFrom buf p).dropWhile (· ≠ NUL) with
  | nil => simp
  | cons c r =>
    obtain rfl := eq_of_dropWhile_ne hd
    cases q - p - s.length with
    | zero => simp
    | succ k => simp

/-- What is stored before a string leaves it as it is. -/
theorem IsCstr.set_before (h : IsCstr buf p s) (hq : q < n) (hlt : q < p) (c : Char) :
    IsCstr (buf.set q c hq) p s := by
  obtain ⟨r, hr, hs⟩ := h
  exact ⟨r, by rw [charsFrom_set, if_pos hlt, hr], hs⟩

/-- A NUL that is stored after a string leaves it as it is. -/
theorem IsCstr.set_after (h : IsCstr buf p s) (hq : q < n) (hle : p + s.length ≤ q) :
    IsCstr (buf.set q NUL hq) p s := by
  obtain ⟨r, hr, hs⟩ := h
  rw [IsCstr, charsFrom_set, if_neg (by omega), hr, List.set_append_right _ _ (by omega)]
  cases q - p - s.length with
  | zero => exact ⟨r, rfl, hs⟩
  | succ k => exact ⟨r.set k NUL, rfl, hs⟩

/-- A NUL that is stored in a string ends it there. -/
theorem IsCstr.set_nul (h : IsCstr buf p (s ++ t)) (hq : p + s.length < n) :
    IsCstr (buf.set (p + s.length) NUL hq) p s := by
  obtain ⟨r, hr, hs⟩ := h
  refine ⟨(t ++ NUL :: r).tail, ?_, fun hmem => hs (List.mem_append_left _ hmem)⟩
  rw [charsFrom_set, if_neg (Nat.not_lt.mpr (Nat.le_add_right ..)), Nat.add_sub_cancel_left, hr,
    List.append_assoc, List.set_append_right _ _ (Nat.le_refl _), Nat.sub_self]
  cases t <;> rfl

/-- A NUL that is stored after the characters of a string makes it a C string. -/
theorem isCstr_set {r : List Char} (h : buf.toList = s ++ r) (hs : NUL ∉ s) (hlt : s.length < n) :
    IsCstr (buf.set s.length NUL hlt) 0 s := by
  have hr : r ≠ [] := by
    rintro rfl
    have := congrArg List.length h
    rw [List.append_nil, Vector.length_toList] at this
    omega
  obtain ⟨c, cs, rfl⟩ := List.exists_cons_of_ne_nil hr
  refine ⟨cs, ?_, hs⟩
  rw [charsFrom, Vector.toList_set, h, List.drop_zero, List.set_append_right _ _ (Nat.le_refl _), Nat.sub_self,
    List.set_cons_zero]

/-- The NUL that ends a string is stored to no effect. -/
theorem IsCstr.set_nul_self (h : IsCstr buf p s) (hq : p + s.length < n) :
    buf.set (p + s.length) NUL hq = buf := by
  obtain ⟨r, hr, -⟩ := h
  have hnul : buf.toList[p + s.length]? = some NUL := by
    rw [← List.getElem?_drop, ← charsFrom, hr, List.getElem?_append_right (Nat.le_refl _), Nat.sub_self]
    rfl
  rw [Vector.getElem?_toList, Vector.getElem?_eq_getElem hq] at hnul
  rw [← Option.some.inj hnul]
  exact Vector.set_getElem_self hq

end Cheviot.Proof
