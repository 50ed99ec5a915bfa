import Mathlib.Data.List.Basic

/-!
# getopt

`getopt` as POSIX has it, over any option string: options are read one at a time from
`argv[optind]` on. Several of them may share an element, and an option's argument is what
follows it in its element or, where nothing does, the next element.

`Getopt.scan` is the loop that reads all options. `operands` says element by element what
is left for it to leave: where the loop ends, the elements from `optind` on are the
operands (`Getopt.scan_operands`).
-/

namespace Framework

/-- Whether an option takes an argument, or none for one that the option string does not
have. -/
def optionArg (optstring : List Char) (c : Char) : Option Bool :=
  if c = ':' then none
  else
    match optstring.dropWhile (· ≠ c) with
    | [] => none
    | _ :: rest => some (rest.head? = some ':')

/-- What `getopt` keeps between calls: `optind`, `optarg`, and the options that are left of
an element that it has begun. -/
structure Getopt where
  optind : Nat
  optarg : Option (List Char)
  place : List Char
  deriving DecidableEq, Repr

namespace Getopt

/-- Before the first call. -/
def start : Getopt := ⟨1, none, []⟩

/-- The options of an element, which has none if it is an operand or ends the options. -/
def group : List Char → List Char
  | '-' :: cs => if cs = ['-'] then [] else cs
  | _ => []

/-- The options from the next one to the last of its element. -/
def next (argv : List (List Char)) (s : Getopt) : List Char :=
  if s.place = [] then (argv[s.optind]?.map group).getD [] else s.place

/-- The option `c`, with `cs` after it in its element. -/
def take (optstring : List Char) (argv : List (List Char)) (s : Getopt) (c : Char)
    (cs : List Char) : Char × Getopt :=
  if optionArg optstring c = some true then
    if cs ≠ [] then (c, ⟨s.optind + 1, some cs, []⟩)
    else
      match argv[s.optind + 1]? with
      | some arg => (c, ⟨s.optind + 2, some arg, []⟩)
      | none => (if optstring.head? = some ':' then ':' else '?', ⟨s.optind + 2, s.optarg, []⟩)
  else
    (if optionArg optstring c = none then '?' else c,
      if cs ≠ [] then { s with place := cs } else { s with optind := s.optind + 1, place := [] })

/-- `getopt(argc, argv, optstring)`, or none for -1. -/
def getopt (optstring : List Char) (argv : List (List Char)) (s : Getopt) : Option Char × Getopt :=
  match next argv s with
  | [] => (none, if argv[s.optind]? = some ['-', '-'] then { s with optind := s.optind + 1 } else s)
  | c :: cs => (some (take optstring argv s c cs).1, (take optstring argv s c cs).2)

/-! ## One option -/

/-- Whether the last of the options takes the next element as its argument. -/
def takesNext (optstring : List Char) : List Char → Bool
  | [] => false
  | c :: cs => if optionArg optstring c = some true then cs = [] else takesNext optstring cs

variable {optstring : List Char} {argv : List (List Char)} {s s' : Getopt} {c : Char} {cs : List Char}

/-- An option, and what is left: the others of its element, or the elements after it and
after its argument. -/
theorem take_cases (optstring : List Char) (argv : List (List Char)) (s : Getopt) (c : Char)
    (cs : List Char) :
    (cs ≠ [] ∧ takesNext optstring (c :: cs) = takesNext optstring cs ∧
      (take optstring argv s c cs).2 = { s with place := cs }) ∨
    ((take optstring argv s c cs).2.place = [] ∧
      (take optstring argv s c cs).2.optind = s.optind + 1 + (takesNext optstring (c :: cs)).toNat) := by
  by_cases harg : optionArg optstring c = some true
  · right
    rw [take, if_pos harg, takesNext, if_pos harg]
    by_cases hcs : cs = []
    · rw [if_neg (not_not.mpr hcs)]
      cases argv[s.optind + 1]? <;> simp [hcs]
    · simp [hcs]
  · rw [take, if_neg harg, takesNext, if_neg harg]
    by_cases hcs : cs = []
    · simp [hcs, takesNext]
    · exact .inl ⟨hcs, rfl, if_pos hcs⟩

theorem getopt_cases (h : getopt optstring argv s = (some c, s')) : ∃ c' cs, next argv s = c' :: cs ∧
    ((cs ≠ [] ∧ takesNext optstring (c' :: cs) = takesNext optstring cs ∧ s' = { s with place := cs }) ∨
      (s'.place = [] ∧ s'.optind = s.optind + 1 + (takesNext optstring (c' :: cs)).toNat)) := by
  rw [getopt] at h
  split at h
  case h_1 => cases h
  case h_2 c' cs hnext =>
    obtain ⟨-, rfl⟩ := Prod.mk.inj h
    exact ⟨c', cs, hnext, take_cases optstring argv s c' cs⟩

/-- The next options are left of an element, or an element of their own. -/
theorem next_cases (h : next argv s = c :: cs) : s.place = c :: cs ∨
    s.place = [] ∧ ∃ a, argv.drop s.optind = a :: argv.drop (s.optind + 1) ∧ group a = c :: cs := by
  rw [next] at h
  split at h
  case isFalse => exact .inl h
  case isTrue hplace =>
    refine .inr ⟨hplace, ?_⟩
    cases ha : argv[s.optind]? with
    | none => simp [ha] at h
    | some a =>
      obtain ⟨hlt, rfl⟩ := List.getElem?_eq_some_iff.mp ha
      exact ⟨_, List.drop_eq_getElem_cons hlt, by simpa [ha] using h⟩

/-! ## All options -/

/-- What there is to read of the elements. -/
def size : List (List Char) → Nat
  | [] => 0
  | a :: rest => a.length + 1 + size rest

/-- What `getopt` has not read. -/
def left (argv : List (List Char)) (s : Getopt) : Nat :=
  if s.place = [] then size (argv.drop s.optind) else s.place.length + size (argv.drop (s.optind + 1))

theorem size_drop_le : ∀ (args : List (List Char)) (k : Nat), size (args.drop k) ≤ size args
  | _, 0 => Nat.le_refl _
  | [], _ + 1 => Nat.le_refl _
  | a :: rest, k + 1 => by
    have := size_drop_le rest k
    rw [List.drop_succ_cons, size]
    omega

theorem length_group (a : List Char) : (group a).length ≤ a.length := by
  unfold group
  split
  · split <;> simp
  · simp

theorem next_left (h : next argv s = c :: cs) :
    cs.length + size (argv.drop (s.optind + 1)) < left argv s := by
  rcases next_cases h with hplace | ⟨hplace, a, hdrop, hgroup⟩
  · rw [left, if_neg (by simp [hplace]), hplace, List.length_cons]
    omega
  · have := length_group a
    rw [hgroup, List.length_cons] at this
    rw [left, if_pos hplace, hdrop, size]
    omega

theorem getopt_left (h : getopt optstring argv s = (some c, s')) : left argv s' < left argv s := by
  obtain ⟨c', cs, hnext, ⟨hcs, -, rfl⟩ | ⟨hplace, hoptind⟩⟩ := getopt_cases h
  · rw [left, if_neg hcs]
    exact next_left hnext
  · have hleft := next_left hnext
    have hdrop := size_drop_le (argv.drop (s.optind + 1)) (takesNext optstring (c' :: cs)).toNat
    rw [left, if_pos hplace, hoptind, ← List.drop_drop]
    omega

/-- `while ((c = getopt(argc, argv, optstring)) != -1)`, with `f` for each option. -/
def scan {σ : Type} (optstring : List Char) (argv : List (List Char))
    (f : σ → Char → Option (List Char) → σ) (x : σ) (s : Getopt) : σ × Getopt :=
  match _h : getopt optstring argv s with
  | (none, s') => (x, s')
  | (some c, s') => scan optstring argv f (f x c s'.optarg) s'
termination_by left argv s
decreasing_by exact getopt_left _h

section Scan

variable {σ : Type} {f : σ → Char → Option (List Char) → σ} {x : σ}

theorem scan_none (h : getopt optstring argv s = (none, s')) :
    scan optstring argv f x s = (x, s') := by
  rw [scan]
  split <;> simp_all

theorem scan_some (h : getopt optstring argv s = (some c, s')) :
    scan optstring argv f x s = scan optstring argv f (f x c s'.optarg) s' := by
  rw [scan]
  split <;> simp_all

end Scan

end Getopt

open Getopt

/-- The operands among the elements after the name of the program: what follows the options
and their arguments, and the element that ends the options. -/
def operands (optstring : List Char) : List (List Char) → List (List Char)
  | [] => []
  | a :: rest =>
    if a = ['-', '-'] then rest
    else if group a = [] then a :: rest
    else operands optstring (rest.drop (takesNext optstring (group a)).toNat)
termination_by args => args.length
decreasing_by
  rw [List.length_drop, List.length_cons]
  omega

namespace Getopt

variable {optstring : List Char} {argv : List (List Char)} {s s' : Getopt} {c : Char} {cs : List Char}
  {a : List Char}

theorem operands_dashes (optstring : List Char) (rest : List (List Char)) :
    operands optstring (['-', '-'] :: rest) = rest := by
  rw [operands, if_pos rfl]

theorem operands_group (optstring : List Char) (h : group a ≠ []) (rest : List (List Char)) :
    operands optstring (a :: rest) =
      operands optstring (rest.drop (takesNext optstring (group a)).toNat) := by
  have hdashes : a ≠ ['-', '-'] := fun he => h (by rw [he]; rfl)
  rw [operands, if_neg hdashes, if_neg h]

theorem operands_operand (optstring : List Char) (hdashes : a ≠ ['-', '-']) (h : group a = [])
    (rest : List (List Char)) : operands optstring (a :: rest) = a :: rest := by
  rw [operands, if_neg hdashes, if_pos h]

/-- The operands, from the next option on. -/
def ahead (optstring : List Char) (argv : List (List Char)) (s : Getopt) : List (List Char) :=
  if s.place = [] then operands optstring (argv.drop s.optind)
  else operands optstring (argv.drop (s.optind + 1 + (takesNext optstring s.place).toNat))

theorem ahead_next (h : next argv s = c :: cs) : ahead optstring argv s =
    operands optstring (argv.drop (s.optind + 1 + (takesNext optstring (c :: cs)).toNat)) := by
  rcases next_cases h with hplace | ⟨hplace, a, hdrop, hgroup⟩
  · rw [ahead, if_neg (by simp [hplace]), hplace]
  · rw [ahead, if_pos hplace, hdrop, operands_group optstring (by simp [hgroup]), hgroup, List.drop_drop]

/-- An option does not change what the operands are. -/
theorem getopt_some (h : getopt optstring argv s = (some c, s')) :
    ahead optstring argv s' = ahead optstring argv s := by
  obtain ⟨c', cs, hnext, ⟨hcs, htakes, rfl⟩ | ⟨hplace, hoptind⟩⟩ := getopt_cases h
  · rw [ahead_next hnext, htakes, ahead, if_neg hcs]
  · rw [ahead_next hnext, ahead, if_pos hplace, hoptind]

/-- Where there is no option, the operands begin. -/
theorem getopt_none (h : getopt optstring argv s = (none, s')) :
    argv.drop s'.optind = ahead optstring argv s := by
  rw [getopt] at h
  split at h
  case h_2 => cases h
  case h_1 hnext =>
    obtain ⟨-, rfl⟩ := Prod.mk.inj h
    rw [next] at hnext
    split at hnext
    case isFalse hplace => exact absurd hnext hplace
    case isTrue hplace =>
      rw [ahead, if_pos hplace]
      cases ha : argv[s.optind]? with
      | none =>
        have hdrop : argv.drop s.optind = [] := List.drop_eq_nil_iff.mpr (List.getElem?_eq_none_iff.mp ha)
        rw [if_neg (by simp), hdrop, operands]
      | some a =>
        obtain ⟨hlt, rfl⟩ := List.getElem?_eq_some_iff.mp ha
        rw [List.drop_eq_getElem_cons hlt]
        by_cases hdashes : argv[s.optind] = ['-', '-']
        · rw [if_pos (congrArg some hdashes), hdashes, operands_dashes]
        · rw [if_neg fun he => hdashes (Option.some.inj he), List.drop_eq_getElem_cons hlt,
            operands_operand optstring hdashes (by simpa [ha] using hnext)]

/-- The loop ends at the operands. -/
theorem scan_operands {σ : Type} (f : σ → Char → Option (List Char) → σ) (x : σ) (s : Getopt) :
    argv.drop (scan optstring argv f x s).2.optind = ahead optstring argv s := by
  induction x, s using scan.induct optstring argv f with
  | case1 x s s' h =>
    rw [scan_none h]
    exact getopt_none h
  | case2 x s c s' h ih =>
    rw [scan_some h, ih]
    exact getopt_some h

theorem scan_start {σ : Type} (f : σ → Char → Option (List Char) → σ) (x : σ) :
    argv.drop (scan optstring argv f x start).2.optind = operands optstring (argv.drop 1) :=
  scan_operands f x start

end Getopt

end Framework
