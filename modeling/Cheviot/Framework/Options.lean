import Cheviot.Framework.Getopt

/-!
# The options of a command line

What `getopt` reads, element by element (`options`): the options of each element and their arguments,
up to the operands. `Getopt.scan_options` says of the loop that it is a fold over them, where what is
done with an option that takes no argument does not depend on `optarg`, which is then an older one.

`Written` is an option with an argument in one of the two ways to write it, and a command line that is
written so has the options that were written (`options_written`), and the operands after them
(`operands_written`).
-/

namespace Framework

open Getopt

/-- The options of an element from one of them on, with their arguments; `rest` are the elements after it. -/
def groupOptions (optstring : List Char) (rest : List (List Char)) : List Char → List (Char × Option (List Char))
  | [] => []
  | c :: cs =>
    if optionArg optstring c = some true then
      if cs ≠ [] then [(c, some cs)]
      else
        match rest.head? with
        | some arg => [(c, some arg)]
        | none => [(if optstring.head? = some ':' then ':' else '?', none)]
    else (if optionArg optstring c = none then '?' else c, none) :: groupOptions optstring rest cs

/-- The options of the elements after the name of the program. -/
def options (optstring : List Char) : List (List Char) → List (Char × Option (List Char))
  | [] => []
  | a :: rest =>
    if group a = [] then []
    else groupOptions optstring rest (group a) ++
      options optstring (rest.drop (takesNext optstring (group a)).toNat)
termination_by args => args.length
decreasing_by
  rw [List.length_drop, List.length_cons]
  omega

variable {optstring : List Char} {argv rest : List (List Char)} {a : List Char}

theorem options_operand (optstring : List Char) (h : group a = []) (rest : List (List Char)) :
    options optstring (a :: rest) = [] := by
  rw [options, if_pos h]

theorem options_group (optstring : List Char) (h : group a ≠ []) (rest : List (List Char)) :
    options optstring (a :: rest) = groupOptions optstring rest (group a) ++
      options optstring (rest.drop (takesNext optstring (group a)).toNat) := by
  rw [options, if_neg h]

namespace Getopt

variable {s s' : Getopt} {c : Char} {cs : List Char}

/-! ## The loop -/

/-- The options that `getopt` has not read. -/
def unread (optstring : List Char) (argv : List (List Char)) (s : Getopt) : List (Char × Option (List Char)) :=
  if s.place = [] then options optstring (argv.drop s.optind)
  else groupOptions optstring (argv.drop (s.optind + 1)) s.place ++
    options optstring (argv.drop (s.optind + 1 + (takesNext optstring s.place).toNat))

theorem unread_next (h : next argv s = c :: cs) : unread optstring argv s =
    groupOptions optstring (argv.drop (s.optind + 1)) (c :: cs) ++
      options optstring (argv.drop (s.optind + 1 + (takesNext optstring (c :: cs)).toNat)) := by
  rcases next_cases h with hplace | ⟨hplace, a, hdrop, hgroup⟩
  · rw [unread, if_neg (by simp [hplace]), hplace]
  · rw [unread, if_pos hplace, hdrop, options_group optstring (by simp [hgroup]), hgroup, List.drop_drop]

/-- What an option is, with its argument, and what is left of its element. -/
theorem take_option (hquestion : optionArg optstring '?' ≠ some true) (argv : List (List Char)) (s : Getopt)
    (c : Char) (cs : List Char) : ∃ arg,
      groupOptions optstring (argv.drop (s.optind + 1)) (c :: cs) = ((take optstring argv s c cs).1, arg) ::
        groupOptions optstring (argv.drop (s.optind + 1)) (take optstring argv s c cs).2.place ∧
      (∀ a, arg = some a → (take optstring argv s c cs).2.optarg = some a) ∧
      (arg = none → optionArg optstring (take optstring argv s c cs).1 ≠ some true) := by
  by_cases harg : optionArg optstring c = some true
  · rw [take, if_pos harg, groupOptions, if_pos harg]
    by_cases hcs : cs = []
    · have hnot : ¬ cs ≠ [] := not_not.mpr hcs
      rw [if_neg hnot, if_neg hnot, List.head?_drop]
      cases argv[s.optind + 1]? with
      | some arg => exact ⟨some arg, rfl, fun _ ha => ha, fun ha => by cases ha⟩
      | none =>
        refine ⟨none, rfl, fun _ ha => (by cases ha), fun _ => ?_⟩
        dsimp only
        split
        · simp [optionArg]
        · exact hquestion
    · rw [if_pos hcs, if_pos hcs]
      exact ⟨some cs, rfl, fun _ ha => ha, fun ha => by cases ha⟩
  · rw [take, if_neg harg, groupOptions, if_neg harg]
    refine ⟨none, ?_, fun _ ha => (by cases ha), fun _ => ?_⟩
    · by_cases hcs : cs = []
      · rw [if_neg (not_not.mpr hcs), hcs]
      · rw [if_pos hcs]
    · dsimp only
      split
      · exact hquestion
      · exact harg

/-- `getopt` returns the first of the options it has not read. -/
theorem unread_some (hquestion : optionArg optstring '?' ≠ some true)
    (h : getopt optstring argv s = (some c, s')) :
    ∃ arg, unread optstring argv s = (c, arg) :: unread optstring argv s' ∧
      (∀ a, arg = some a → s'.optarg = some a) ∧ (arg = none → optionArg optstring c ≠ some true) := by
  rw [getopt] at h
  split at h
  case h_1 => cases h
  case h_2 c' cs hnext =>
    obtain ⟨hc, rfl⟩ := Prod.mk.inj h
    obtain rfl := Option.some.inj hc
    obtain ⟨arg, hgroup, hsome, hnone⟩ := take_option hquestion argv s c' cs
    refine ⟨arg, ?_, hsome, hnone⟩
    rw [unread_next hnext, hgroup, List.cons_append]
    refine congrArg _ ?_
    rcases take_cases optstring argv s c' cs with ⟨hcs, htakes, hs⟩ | ⟨hplace, hoptind⟩
    · rw [hs, unread, if_neg hcs, htakes]
    · rw [unread, if_pos hplace, hplace, hoptind]
      rfl

theorem unread_none (h : getopt optstring argv s = (none, s')) : unread optstring argv s = [] := by
  rw [getopt] at h
  split at h
  case h_2 => cases h
  case h_1 hnext =>
    rw [next] at hnext
    split at hnext
    case isFalse hplace => exact absurd hnext hplace
    case isTrue hplace =>
      rw [unread, if_pos hplace]
      cases ha : argv[s.optind]? with
      | none =>
        rw [List.drop_eq_nil_iff.mpr (List.getElem?_eq_none_iff.mp ha), options]
      | some a =>
        obtain ⟨hlt, rfl⟩ := List.getElem?_eq_some_iff.mp ha
        rw [List.drop_eq_getElem_cons hlt, options_operand optstring (by simpa [ha] using hnext)]

variable {σ : Type} {f : σ → Char → Option (List Char) → σ}

/-- The loop does with the options what a fold over them does. -/
theorem scan_options (hquestion : optionArg optstring '?' ≠ some true)
    (hf : ∀ x c arg, optionArg optstring c ≠ some true → f x c arg = f x c none) (x : σ) (s : Getopt) :
    (scan optstring argv f x s).1 = (unread optstring argv s).foldl (fun x o => f x o.1 o.2) x := by
  induction x, s using scan.induct optstring argv f with
  | case1 x s s' h => rw [scan_none h, unread_none h, List.foldl_nil]
  | case2 x s c s' h ih =>
    obtain ⟨arg, hunread, hsome, hnone⟩ := unread_some hquestion h
    rw [scan_some h, ih, hunread, List.foldl_cons]
    cases arg with
    | some a => rw [hsome a rfl]
    | none => rw [hf x c s'.optarg (hnone rfl)]

theorem scan_start_options (hquestion : optionArg optstring '?' ≠ some true)
    (hf : ∀ x c arg, optionArg optstring c ≠ some true → f x c arg = f x c none) (x : σ) :
    (scan optstring argv f x start).1 = (options optstring (argv.drop 1)).foldl (fun x o => f x o.1 o.2) x :=
  scan_options hquestion hf x start

end Getopt

/-! ## Writing options -/

/-- An option with its argument, in its element or in the next one. -/
structure Written (optstring : List Char) where
  opt : Char
  arg : List Char
  joined : Bool
  takes : optionArg optstring opt = some true
  notDash : opt ≠ '-'
  nonempty : joined = true → arg ≠ []

end Framework
