import Cheviot.Proof.Cstr
import Cheviot.Spec.Sysinfo

/-!
# What sysinfo reads and answers

The string functions of sysinfo on its buffers (`copied`, `strlcpy`, `strlen`,
`strtok`), and when the bytes that are delivered of a request tell its answer
(`tells_iff`).
-/

namespace Cheviot.Proof

open Framework Cheviot.Sysinfo Cheviot.Spec
open Cheviot.Sysinit (Str NUL store cstr charsFrom)

variable {n : Nat} {buf : Vector Char n} {s data : Str}

/-! ## Buffers -/

theorem copied_toList (buf : Vector Char n) (h : data.length ≤ n) :
    (copied buf data).toList = data ++ buf.toList.drop data.length := by
  refine List.ext_getElem (by simp; omega) fun i hi hi' => ?_
  have hbuf : i < n := by simpa using hi
  have hget : (copied buf data).toList[i] = data.getD i buf[i] := by
    rw [Vector.getElem_toList]
    exact Vector.getElem_mapIdx ..
  rw [hget, List.getD_eq_getElem?_getD]
  by_cases hlt : i < data.length
  · rw [List.getElem_append_left hlt, List.getElem?_eq_getElem hlt, Option.getD_some]
  · have hle := Nat.le_of_not_lt hlt
    rw [List.getElem_append_right hle, List.getElem?_eq_none hle, Option.getD_none]
    simp [Nat.add_sub_cancel' hle]

/-- A string is cut where it does not fit together with its NUL. -/
theorem strlcpy_isCstr (buf : Vector Char n) (hs : NUL ∉ s) (hpos : 0 < n) :
    IsCstr (strlcpy buf s) 0 (s.take (n - 1)) := by
  have hfits : (s.take (n - 1) ++ [NUL]).length ≤ n := by
    simp only [List.length_append, List.length_take, List.length_singleton]
    omega
  refine ⟨buf.toList.drop (s.take (n - 1) ++ [NUL]).length, ?_, fun hmem => hs (List.mem_of_mem_take hmem)⟩
  rw [strlcpy, charsFrom, copied_toList buf hfits, List.append_assoc]
  rfl

theorem IsCstr.nul_mem (h : IsCstr buf 0 s) : NUL ∈ buf.toList := by
  obtain ⟨rest, hbuf, -⟩ := h
  have hbuf : buf.toList = s ++ NUL :: rest := hbuf
  simp [hbuf]

theorem strlen_eq (h : IsCstr buf 0 s) : strlen buf = some s.length := by
  rw [strlen, if_pos h.nul_mem, h.cstr_eq]

/-! ## The first word -/

theorem firstWord_eq (s : Str) : firstWord s =
    if s.dropWhile (· = ' ') = [] then none else some ((s.dropWhile (· = ' ')).takeWhile (· ≠ ' ')) := by
  rw [firstWord, head?_solid]
  simp only [decide_not]

/-- A string, by its first word. -/
theorem firstWord_cases (s : Str) : (s.dropWhile (· = ' ') = [] ∧ firstWord s = none) ∨
    ∃ w tail, firstWord s = some w ∧ w ≠ [] ∧ ' ' ∉ w ∧ (tail = [] ∨ ∃ u, tail = ' ' :: u) ∧
      s.dropWhile (· = ' ') = w ++ tail := by
  by_cases hnil : s.dropWhile (· = ' ') = []
  · exact .inl ⟨hnil, by rw [firstWord_eq, if_pos hnil]⟩
  · refine .inr ⟨_, (s.dropWhile (· = ' ')).dropWhile (· ≠ ' '), by rw [firstWord_eq, if_neg hnil], ?_,
      fun hmem => ?_, ?_, List.takeWhile_append_dropWhile.symm⟩
    · rw [Ne, List.takeWhile_eq_nil_iff]
      have := List.head_dropWhile_not (· = ' ') hnil
      simpa [List.head_eq_getElem, List.length_pos_iff, hnil] using this
    · exact notMem_takeWhile_ne ' ' _ hmem
    · cases htail : (s.dropWhile (· = ' ')).dropWhile (· ≠ ' ') with
      | nil => exact .inl rfl
      | cons c u => exact .inr ⟨u, by rw [eq_of_dropWhile_ne htail]⟩

/-- `strtok` finds the first word of a string, and leaves one without spaces as it is. -/
theorem strtok_eq (h : IsCstr buf 0 s) : ∃ p buf', strtok buf = some (p, buf') ∧
    p.map (cstr buf') = firstWord s ∧ (' ' ∉ s → buf' = buf) := by
  rw [strtok, if_pos h.nul_mem, h.cstr_eq]
  dsimp only
  rcases firstWord_cases s with ⟨hnil, hfirst⟩ | ⟨w, tail, hfirst, hw, hspace, htail, hdrop⟩
  · rw [if_pos (by rw [hnil]; rfl), hfirst]
    exact ⟨none, buf, rfl, rfl, fun _ => rfl⟩
  · have htok : (s.dropWhile (· = ' ')).takeWhile (· ≠ ' ') = w := by
      rw [firstWord_eq, if_neg (by rw [hdrop]; simp [hw])] at hfirst
      exact Option.some.inj hfirst
    -- the string: spaces, the word, and what the word ends at
    have hsplit : s = s.takeWhile (· = ' ') ++ (w ++ tail) := by
      rw [← hdrop, List.takeWhile_append_dropWhile]
    generalize s.takeWhile (· = ' ') = spaces at hsplit
    subst hsplit
    have hword := h.append
    rw [Nat.zero_add] at hword
    have hlt : spaces.length + w.length < n := by
      have := hword.lt
      rw [List.length_append] at this
      omega
    rw [htok, if_neg hw, store, dif_pos hlt]
    refine ⟨some spaces.length, _, rfl, ?_, fun hnospace => ?_⟩
    · rw [Option.map_some, hfirst, (hword.set_nul hlt).cstr_eq]
    · rcases htail with rfl | ⟨u, rfl⟩
      · rw [List.append_nil] at hword
        exact hword.set_nul_self hlt
      · exact absurd (by simp) hnospace

/-! ## Answers -/

theorem textFor_plain (w : Option Str) : NUL ∉ textFor w ∧ (textFor w).length < 4096 := by
  have htexts : ∀ s ∈ [errorText, helpText, getinfoText, []], NUL ∉ s ∧ s.length < 4096 := by decide
  refine htexts _ ?_
  cases w with
  | none => exact List.mem_cons_self
  | some w =>
    rw [textFor]
    split
    · exact List.mem_cons_of_mem _ List.mem_cons_self
    · split
      · exact List.mem_cons_of_mem _ (List.mem_cons_of_mem _ List.mem_cons_self)
      · exact List.mem_cons_of_mem _ (List.mem_cons_of_mem _ (List.mem_cons_of_mem _ List.mem_cons_self))

theorem textFor_other {w : Str} (h : w ∉ commands) : textFor (some w) = [] := by
  rw [commands, List.mem_cons, List.mem_singleton, not_or] at h
  rw [textFor, if_neg h.1, if_neg h.2]

theorem textFor_command {w : Str} (h : w ∈ commands) : textFor (some w) ≠ [] := by
  rw [commands, List.mem_cons, List.mem_singleton] at h
  rcases h with rfl | rfl <;> decide

theorem commands_plain : ∀ cmd ∈ commands, NUL ∉ cmd ∧ ' ' ∉ cmd := by decide

theorem commands_noComment : ∀ cmd ∈ commands, cmd.head? ≠ some '#' := by decide

theorem commands_longer : ∀ cmd ∈ commands, cmd ++ ['x'] ∉ commands := by decide

theorem eq_of_prefix_of_commands : ∀ cmd ∈ commands, ∀ cmd' ∈ commands, cmd <+: cmd' → cmd = cmd' := by
  decide

/-! ## What comes after a request -/

/-- A NUL ends a request. -/
theorem answer_nul (a b : List Char) : answer (a ++ NUL :: b) = answer a := by
  rw [answer, takeWhile_ne_append_cons, answer]

theorem answer_take_nul (a b : List Char) (m : Nat) : answer (a ++ (NUL :: b).take m) = answer a := by
  cases m with
  | zero => rw [List.take_zero, List.append_nil]
  | succ m => exact answer_nul a _

variable {a : Str}

theorem dropWhile_append_of_ne_nil (hne : a.dropWhile (· = ' ') ≠ []) (b : Str) :
    (a ++ b).dropWhile (· = ' ') = a.dropWhile (· = ' ') ++ b := by
  rw [List.dropWhile_append, if_neg (by rwa [List.isEmpty_iff])]

theorem firstWord_append_done (h : ' ' ∈ a.dropWhile (· = ' ')) (b : Str) :
    firstWord (a ++ b) = firstWord a := by
  have hne : a.dropWhile (· = ' ') ≠ [] := List.ne_nil_of_mem h
  rw [firstWord_eq, firstWord_eq, dropWhile_append_of_ne_nil hne, if_neg hne,
    if_neg (List.append_ne_nil_of_left_ne_nil hne b), takeWhile_ne_append_of_mem h]

theorem firstWord_append_open (hne : a.dropWhile (· = ' ') ≠ []) (h : ' ' ∉ a.dropWhile (· = ' '))
    (b : Str) : firstWord (a ++ b) = some (a.dropWhile (· = ' ') ++ b.takeWhile (· ≠ ' ')) := by
  rw [firstWord_eq, dropWhile_append_of_ne_nil hne, if_neg (List.append_ne_nil_of_left_ne_nil hne b),
    takeWhile_ne_append h]

/-- Where the bytes of a request tell the answer, what follows them makes no difference. -/
theorem answer_of_tells {size : Nat} (h : Tells data size) {r : List Char}
    (hr : r.length ≤ size - data.length) : answer (data ++ r) = answer data := by
  rcases h with hall | hnul | h
  · rw [hall, Nat.sub_self, Nat.le_zero, List.length_eq_zero_iff] at hr
    rw [hr, List.append_nil]
  · rw [answer, takeWhile_ne_append_of_mem hnul, answer]
  by_cases hnul : NUL ∈ data
  · rw [answer, takeWhile_ne_append_of_mem hnul, answer]
  rw [answer, takeWhile_ne_append hnul, answer, takeWhile_ne_self hnul]
  by_cases hspace : ' ' ∈ data.dropWhile (· = ' ')
  · rw [firstWord_append_done hspace]
  obtain ⟨hne, hcmd⟩ := h.resolve_left hspace
  -- the word that the bytes begin is no command, however it goes on
  have hother : ∀ u : Str, u.length ≤ size - data.length → data.dropWhile (· = ' ') ++ u ∉ commands := by
    intro u hu hmem
    have := hcmd _ hmem (List.prefix_append _ u)
    rw [List.length_append] at this
    omega
  have hfirst := firstWord_append_open hne hspace []
  rw [List.append_nil] at hfirst
  have hlong : ((r.takeWhile (· ≠ NUL)).takeWhile (· ≠ ' ')).length ≤ size - data.length :=
    (List.takeWhile_sublist _).length_le.trans ((List.takeWhile_sublist _).length_le.trans hr)
  rw [firstWord_append_open hne hspace, hfirst, textFor_other (hother _ hlong), List.takeWhile_nil,
    textFor_other (hother [] (Nat.zero_le _))]

theorem answer_plain (h : NUL ∉ a) : answer a = textFor (firstWord a) := by
  rw [answer, takeWhile_ne_self h]

/-- Where there is no word yet, one may follow. -/
theorem answer_blank (hnul : NUL ∉ data) (hblank : data.dropWhile (· = ' ') = []) :
    answer (data ++ ['x']) ≠ answer data := by
  have hdrop : (data ++ ['x']).dropWhile (· = ' ') = ['x'] := by
    rw [List.dropWhile_append, if_pos (by rw [hblank]; rfl)]
    rfl
  have hword : firstWord (data ++ ['x']) = some ['x'] := by
    rw [firstWord_eq, hdrop]
    rfl
  have hnul' : NUL ∉ data ++ ['x'] := fun hmem => (List.mem_append.mp hmem).elim hnul (by decide)
  rw [answer_plain hnul', hword, answer_plain hnul, firstWord_eq, if_pos hblank, textFor_other (by decide)]
  decide

/-- Where there is the start of a command, the rest of it may follow, or what makes another
word of it. -/
theorem answer_begun {w u : Str} (hnul : NUL ∉ data) (hdrop : data.dropWhile (· = ' ') = w) (hne : w ≠ [])
    (hcmd : w ++ u ∈ commands) : ∃ s : Str, NUL ∉ s ∧ ' ' ∉ s ∧ s.length ≤ max 1 u.length ∧
      answer (data ++ s) ≠ answer data := by
  have hplain := commands_plain _ hcmd
  have hspace : ' ' ∉ w := fun hmem => hplain.2 (List.mem_append_left _ hmem)
  have hanswer : ∀ s : Str, NUL ∉ s → ' ' ∉ s → answer (data ++ s) = textFor (some (w ++ s)) := by
    intro s hs hs'
    rw [answer_plain (by simp [hnul, hs]), firstWord_append_open (by rwa [hdrop]) (by rwa [hdrop]), hdrop,
      takeWhile_ne_self hs']
  have hdata := hanswer [] List.not_mem_nil List.not_mem_nil
  rw [List.append_nil, List.append_nil] at hdata
  rw [hdata]
  cases u with
  | nil =>
    rw [List.append_nil] at hcmd
    refine ⟨['x'], by decide, by decide, Nat.le_max_left .., ?_⟩
    rw [hanswer _ (by decide) (by decide), textFor_other (commands_longer _ hcmd)]
    exact (textFor_command hcmd).symm
  | cons c u =>
    have hother : w ∉ commands := fun hmem =>
      absurd (eq_of_prefix_of_commands _ hmem _ hcmd (List.prefix_append ..)) (by simp)
    have hu : NUL ∉ c :: u := fun hmem => hplain.1 (List.mem_append_right _ hmem)
    have hu' : ' ' ∉ c :: u := fun hmem => hplain.2 (List.mem_append_right _ hmem)
    refine ⟨c :: u, hu, hu', Nat.le_max_right .., ?_⟩
    rw [hanswer _ hu hu', textFor_other hother]
    exact textFor_command hcmd

/-- Bytes that do not tell the answer: what may follow them makes a difference. -/
theorem answer_of_not_tells {size : Nat} (hsize : data.length ≤ size) (h : ¬ Tells data size) :
    ∃ s : Str, NUL ∉ s ∧ ' ' ∉ s ∧ s.length ≤ size - data.length ∧ answer (data ++ s) ≠ answer data := by
  rw [Tells, not_or, not_or, not_or] at h
  obtain ⟨hall, hnul, -, hopen⟩ := h
  have hroom : 1 ≤ size - data.length := Nat.sub_pos_of_lt (lt_of_le_of_ne hsize hall)
  by_cases hblank : data.dropWhile (· = ' ') = []
  · exact ⟨['x'], by decide, by decide, hroom, answer_blank hnul hblank⟩
  obtain ⟨cmd, hcmd, ⟨u, rfl⟩, hfits⟩ : ∃ cmd ∈ commands, data.dropWhile (· = ' ') <+: cmd ∧
      cmd.length - (data.dropWhile (· = ' ')).length ≤ size - data.length := by
    by_contra hnone
    exact hopen ⟨hblank, fun cmd hcmd hpre => Nat.lt_of_not_le fun hle => hnone ⟨cmd, hcmd, hpre, hle⟩⟩
  rw [List.length_append, Nat.add_sub_cancel_left] at hfits
  obtain ⟨s, hs, hs', hlen, hdiff⟩ := answer_begun hnul rfl hblank hcmd
  exact ⟨s, hs, hs', hlen.trans (max_le hroom hfits), hdiff⟩

/-! ## The request buffer -/

/-- A request of `size` bytes in the buffer: `strtok` finds the command, and leaves a
request without spaces as it is. -/
theorem parse_eq {size : Nat} (hsize : size < n) (buf : Vector Char n) :
    ∃ buf₁ p buf₂, store buf size NUL = some buf₁ ∧ strtok buf₁ = some (p, buf₂) ∧
      p.map (cstr buf₂) = firstWord ((buf.toList.take size).takeWhile (· ≠ NUL)) ∧
      (' ' ∉ buf.toList.take size → ∃ rest, buf₂.toList = buf.toList.take size ++ NUL :: rest) := by
  have hlist : (buf.set size NUL hsize).toList = buf.toList.take size ++ NUL :: buf.toList.drop (size + 1) := by
    rw [Vector.toList_set, List.set_eq_take_append_cons_drop, if_pos (by simpa using hsize)]
  have hmem : NUL ∈ (buf.set size NUL hsize).toList := by
    rw [hlist]
    simp
  obtain ⟨rest, hsplit⟩ := exists_eq_takeWhile_ne_append hmem
  rw [hlist, takeWhile_ne_append_cons, ← hlist] at hsplit
  obtain ⟨p, buf₂, htok, hcmd, hkeep⟩ := strtok_eq ⟨rest, hsplit, notMem_takeWhile_ne NUL _⟩
  refine ⟨_, p, buf₂, dif_pos hsize, htok, hcmd, fun hspace => ⟨buf.toList.drop (size + 1), ?_⟩⟩
  rw [hkeep fun hmem => hspace ((List.takeWhile_sublist _).subset hmem), hlist]

end Cheviot.Proof
