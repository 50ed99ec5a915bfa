import Cheviot.Proof.Cstr
import Cheviot.Spec.CommandLine

/-!
# Where a server is mounted

`process_args` finds the first operand (`processArgs_some`), and `strncpy` leaves it without
a NUL where it is longer than `PATH_MAX` (`pathString_strncpy`): a server is mounted at its
operand, or not at all, exactly if the operand is no longer (`init_mounts`).
-/

namespace Cheviot.Proof

open Framework Cheviot.Servers Cheviot.Spec
open Cheviot.Sysinit (Str NUL IFCHR charsFrom)

variable {tgt : Target} {n : Nat} {argv : List Str} {path s : Str} {g g' : Globals tgt}
  {t : List (Event sys)}

/-! ## `strncpy` -/

theorem strncpy_toList (buf : Vector Char n) (s : Str) :
    (strncpy buf s).toList = s.take n ++ List.replicate (n - s.length) NUL := by
  refine List.ext_getElem (by simp; omega) fun i hi hi' => ?_
  have hget : (strncpy buf s).toList[i] = s.getD i NUL := by
    rw [Vector.getElem_toList]
    exact Vector.getElem_mapIdx ..
  have hlt : i < n := by simpa using hi
  rw [hget, List.getD_eq_getElem?_getD]
  by_cases his : i < s.length
  · rw [List.getElem?_eq_getElem his, Option.getD_some,
      List.getElem_append_left (by rw [List.length_take]; omega), List.getElem_take]
  · rw [List.getElem?_eq_none (Nat.le_of_not_lt his), Option.getD_none,
      List.getElem_append_right (by rw [List.length_take]; omega), List.getElem_replicate]

/-- A string is ended by a NUL where there is room for it. -/
theorem pathString_strncpy (buf : Vector Char n) (hs : NUL ∉ s) :
    pathString (strncpy buf s) = if s.length < n then some s else none := by
  rw [pathString]
  by_cases hlt : s.length < n
  · have hstr : IsCstr (strncpy buf s) 0 s := by
      obtain ⟨k, hk⟩ := Nat.exists_eq_add_of_lt hlt
      refine ⟨List.replicate k NUL, ?_, hs⟩
      rw [charsFrom, strncpy_toList, List.take_of_length_le hlt.le, show n - s.length = k + 1 by omega]
      rfl
    have hmem : NUL ∈ (strncpy buf s).toList := by
      rw [strncpy_toList]
      exact List.mem_append_right _ (List.mem_replicate.mpr ⟨by omega, rfl⟩)
    rw [if_pos hlt, if_pos hmem, hstr.cstr_eq]
  · rw [if_neg hlt, if_neg]
    rw [strncpy_toList, Nat.sub_eq_zero_of_le (Nat.le_of_not_lt hlt), List.replicate_zero, List.append_nil]
    exact fun hmem => hs (List.mem_of_mem_take hmem)

/-! ## `panic` -/

/-- The calls of a server that gives up. -/
def panicked {α : Type} (msg : Str) : Prog sys α := .call (.panic msg) fun r => Empty.elim r

theorem panic_apply (msg : Str) (g : Globals tgt) : Servers.panic msg g = panicked msg :=
  congrArg _ (funext fun r => Empty.elim r)

/-- Nothing comes after a panic. -/
theorem panicked_bind {α β : Type} (msg : Str) (f : α → Prog sys β) :
    (panicked msg).bind f = panicked msg := congrArg _ (funext fun r => Empty.elim r)

theorem panicked_steps {α : Type} {msg : Str} {q : Prog sys α} (h : (panicked msg).Steps t q) :
    t = [] ∧ ∀ x, q ≠ .ret x := by
  rw [panicked, Prog.steps_call] at h
  rcases h with ⟨rfl, rfl⟩ | ⟨r, -⟩
  · exact ⟨rfl, nofun⟩
  · exact Empty.elim r

/-! ## `process_args` -/

/-- `config` and the state of `getopt`, after the options. -/
def readOptions (tgt : Target) (argv : List Str) : Config tgt × Getopt :=
  Getopt.scan optstring argv setOption ⟨Vector.replicate (tgt.PATH_MAX + 1) NUL, 0, 0,
    (0o777#32 ||| IFCHR).setWidth tgt.mode, -1⟩ .start

/-- The loop leaves `optind` at the operand. -/
theorem readOptions_mountPath (tgt : Target) (argv : List Str) :
    argv[(readOptions tgt argv).2.optind]? = mountPath argv := by
  rw [mountPath, ← Getopt.scan_start, List.head?_drop, readOptions]

theorem processArgs_nil (g : Globals tgt) : ∃ g', processArgs [] g = .ret (.ok (-1), g') :=
  ⟨_, rfl⟩

theorem processArgs_none (hargv : argv ≠ []) (h : mountPath argv = none) :
    processArgs argv (Globals.initial tgt) = panicked "missing mount pathname".toList := by
  have hend : (readOptions tgt argv).2.optind ≥ argv.length :=
    List.getElem?_eq_none_iff.mp ((readOptions_mountPath tgt argv).trans h)
  have hpos : ¬ argv.length < 1 := Nat.not_lt.mpr (List.length_pos_iff.mpr hargv)
  rw [processArgs, Proc.bind_apply, Proc.modify_apply, Prog.ret_bind, Proc.next_ok, if_neg hpos]
  simp only [Proc.bind_apply, Proc.modify_apply, Prog.ret_bind, Proc.next_ok, Proc.get_apply]
  rw [Globals.initial, ← readOptions, if_pos hend, Proc.bind_apply, panic_apply, panicked_bind]

/-- The operand is copied where there is one. -/
theorem processArgs_some (tgt : Target) (h : mountPath argv = some path) :
    ∃ g buf, processArgs argv (Globals.initial tgt) = .ret (.ok 0, g) ∧
      argv[g.opt.optind]? = some path ∧ g.config.pathname = strncpy buf path := by
  have hscan := (readOptions_mountPath tgt argv).trans h
  have hlt := (List.getElem?_eq_some_iff.mp hscan).1
  refine ⟨⟨0, 0, { (readOptions tgt argv).1 with
    pathname := strncpy (readOptions tgt argv).1.pathname path }, (readOptions tgt argv).2⟩,
    (readOptions tgt argv).1.pathname, ?_, hscan, rfl⟩
  rw [processArgs, Proc.bind_apply, Proc.modify_apply, Prog.ret_bind, Proc.next_ok, if_neg (by omega)]
  simp only [Proc.bind_apply, Proc.modify_apply, Prog.ret_bind, Proc.next_ok, Proc.get_apply]
  rw [Globals.initial, ← readOptions, if_neg (Nat.not_le.mpr hlt), hscan]
  rfl

/-- `process_args` returns 0 only where it has copied the operand. -/
theorem processArgs_runs (h : (processArgs argv (Globals.initial tgt)).Runs t (.ok 0, g)) :
    ∃ path buf, mountPath argv = some path ∧ argv[g.opt.optind]? = some path ∧
      g.config.pathname = strncpy buf path := by
  cases hpath : mountPath argv with
  | none =>
    by_cases hargv : argv = []
    · subst hargv
      obtain ⟨g', hargs⟩ := processArgs_nil (Globals.initial tgt)
      rw [hargs] at h
      cases (Prog.runs_ret.mp h).2
    · rw [processArgs_none hargv hpath] at h
      exact absurd rfl ((panicked_steps h).2 _)
  | some path =>
    obtain ⟨g', buf, hargs, hoptind, hcopied⟩ := processArgs_some tgt hpath
    rw [hargs] at h
    obtain ⟨-, he⟩ := Prog.runs_ret.mp h
    cases he
    exact ⟨path, buf, rfl, hoptind, hcopied⟩

/-! ## `mount_device` -/

theorem mountDevice_some (h : pathString g.config.pathname = some path) :
    mountDevice g = .call (.createmsgport path 0 (mntStat g.config)) fun portid =>
      .ret (.ok (if portid < 0 then -1 else 0), { g with portid := portid }) := by
  rw [mountDevice, Proc.bind_apply, Proc.get_apply, Prog.ret_bind, Proc.next_ok, h, Proc.orFault_some]
  refine congrArg _ (funext fun portid => ?_)
  simp only [Prog.ret_bind, Proc.next_ok, Proc.bind_apply, Proc.modify_apply, Proc.ite_apply, Proc.pure_apply]
  split <;> rfl

/-- A path without a NUL is read as far as its array goes, and on. -/
theorem mountDevice_none (h : pathString g.config.pathname = none) : mountDevice g = .ret (.fault, g) := by
  rw [mountDevice, Proc.bind_apply, Proc.get_apply, Prog.ret_bind, Proc.next_ok, h]
  rfl

/-! ## `init` -/

/-- A server without an operand gives up. -/
theorem init_none (tgt : Target) (h : mountPath argv = none) :
    ∃ msg, Servers.init argv (Globals.initial tgt) = panicked msg := by
  by_cases hargv : argv = []
  · subst hargv
    obtain ⟨g, hargs⟩ := processArgs_nil (Globals.initial tgt)
    refine ⟨"failed to process command line arguments".toList, ?_⟩
    rw [Servers.init, Proc.bind_apply, hargs, Prog.ret_bind, Proc.next_ok, if_pos (by decide),
      Proc.bind_apply, panic_apply, panicked_bind]
  · refine ⟨"missing mount pathname".toList, ?_⟩
    rw [Servers.init, Proc.bind_apply, processArgs_none hargv h, panicked_bind]

theorem init_long (h : mountPath argv = some path) (hnul : NUL ∉ path) (hlong : ¬ path.length ≤ tgt.PATH_MAX) :
    ∃ g, Servers.init argv (Globals.initial tgt) = .ret (.fault, g) := by
  obtain ⟨g, buf, hargs, -, hpath⟩ := processArgs_some tgt h
  have hmount : mountDevice g = .ret (.fault, g) := mountDevice_none (by
    rw [hpath, pathString_strncpy buf hnul, if_neg (by omega)])
  refine ⟨g, ?_⟩
  rw [Servers.init, Proc.bind_apply, hargs, Prog.ret_bind, Proc.next_ok, if_neg (by decide)]
  show (mountDevice g).bind _ = _
  rw [hmount]
  rfl

/-- What `init` does where the operand fits in `config.pathname`. -/
theorem init_fits (h : mountPath argv = some path) (hnul : NUL ∉ path) (hfits : path.length ≤ tgt.PATH_MAX) :
    ∃ g : Globals tgt, Servers.init argv (Globals.initial tgt) =
      .call (.createmsgport path 0 (mntStat g.config)) fun portid =>
        if portid < 0 then panicked "mount device failed".toList
        else .call .kqueue fun kq =>
          if kq < 0 then panicked "create kqueue failed".toList
          else .ret (.ok (), { g with portid := portid, kq := kq }) := by
  obtain ⟨g, buf, hargs, -, hpath⟩ := processArgs_some tgt h
  have hstr : pathString g.config.pathname = some path := by
    rw [hpath, pathString_strncpy buf hnul, if_pos (by omega)]
  refine ⟨g, ?_⟩
  rw [Servers.init, Proc.bind_apply, hargs, Prog.ret_bind, Proc.next_ok, if_neg (by decide)]
  show (mountDevice g).bind _ = _
  rw [mountDevice_some hstr, Prog.call_bind]
  refine congrArg _ (funext fun portid => ?_)
  rw [Prog.ret_bind, Proc.next_ok]
  by_cases hport : portid < 0
  · simp only [if_pos hport]
    rw [if_pos (by decide), Proc.bind_apply, panic_apply, panicked_bind]
  · simp only [if_neg hport]
    rw [if_neg (by decide), Proc.bind_apply, Proc.call_apply, Prog.call_bind]
    refine congrArg _ (funext fun kq => ?_)
    rw [Prog.ret_bind, Proc.next_ok, Proc.bind_apply, Proc.modify_apply, Prog.ret_bind, Proc.next_ok,
      Proc.ite_apply, panic_apply, Proc.pure_apply]

/-- A server whose operand fits asks for a port there and for a queue, and has both where it
starts to serve. -/
theorem init_steps (h : mountPath argv = some path) (hnul : NUL ∉ path) (hfits : path.length ≤ tgt.PATH_MAX)
    {q : Prog sys (Out Unit × Globals tgt)}
    (hs : (Servers.init argv (Globals.initial tgt)).Steps t q) : ∃ st portid kq,
      t <+: [⟨.createmsgport path 0 st, portid⟩, ⟨.kqueue, kq⟩] ∧ ∀ o g, q = .ret (o, g) →
        o = .ok () ∧ t = [⟨.createmsgport path 0 st, portid⟩, ⟨.kqueue, kq⟩] ∧
          0 ≤ g.portid ∧ g.portid = portid ∧ 0 ≤ g.kq ∧ g.kq = kq := by
  obtain ⟨g, heq⟩ := init_fits h hnul hfits
  rw [heq, Prog.steps_call] at hs
  refine ⟨mntStat g.config, ?_⟩
  rcases hs with ⟨rfl, rfl⟩ | ⟨portid, t, rfl, hs⟩
  · exact ⟨0, 0, List.nil_prefix, nofun⟩
  by_cases hport : portid < 0
  · rw [if_pos hport] at hs
    obtain ⟨rfl, hq⟩ := panicked_steps hs
    exact ⟨portid, 0, ⟨_, rfl⟩, fun o g' he => absurd he (hq _)⟩
  rw [if_neg hport, Prog.steps_call] at hs
  rcases hs with ⟨rfl, rfl⟩ | ⟨kq, t, rfl, hs⟩
  · exact ⟨portid, 0, ⟨_, rfl⟩, nofun⟩
  refine ⟨portid, kq, ?_⟩
  by_cases hkq : kq < 0
  · rw [if_pos hkq] at hs
    obtain ⟨rfl, hq⟩ := panicked_steps hs
    exact ⟨List.prefix_refl _, fun o g' he => absurd he (hq _)⟩
  · rw [if_neg hkq, Prog.steps_ret] at hs
    obtain ⟨rfl, rfl⟩ := hs
    refine ⟨List.prefix_refl _, fun o g' he => ?_⟩
    cases he
    exact ⟨rfl, rfl, Int.not_lt.mp hport, rfl, Int.not_lt.mp hkq, rfl⟩

/-- Where the operand fits, no other path is asked for, and nothing is read outside its array. -/
theorem init_asks (hfits : ∀ path, mountPath argv = some path → NUL ∉ path ∧ path.length ≤ tgt.PATH_MAX)
    {q : Prog sys (Out Unit × Globals tgt)}
    (hs : (Servers.init argv (Globals.initial tgt)).Steps t q) :
    (∀ path flags st r, ⟨.createmsgport path flags st, r⟩ ∈ t → mountPath argv = some path) ∧
      ∀ g, q ≠ .ret (.fault, g) := by
  cases hpath : mountPath argv with
  | none =>
    obtain ⟨msg, hinit⟩ := init_none tgt hpath
    rw [hinit] at hs
    obtain ⟨rfl, hq⟩ := panicked_steps hs
    exact ⟨by simp, fun g => hq _⟩
  | some operand =>
    obtain ⟨hnul, hlen⟩ := hfits operand hpath
    obtain ⟨st', portid, kq, hpre, hend⟩ := init_steps hpath hnul hlen hs
    refine ⟨fun path flags st r hmem => ?_, fun g he => ?_⟩
    · have hcall := List.mem_map_of_mem (f := (·.call)) (hpre.subset hmem)
      have hpath' : path = operand := by
        simp only [List.map_cons, List.map_nil, List.mem_cons, List.not_mem_nil, or_false, reduceCtorEq,
          Call.createmsgport.injEq] at hcall
        exact hcall.1
      rw [hpath']
    · cases (hend _ g he).1

/-- A server is mounted at its operand, or not at all, exactly if the operand is no longer than
`PATH_MAX`. -/
theorem init_mounts (hargv : ∀ s ∈ argv, NUL ∉ s) :
    MountsAtOperand tgt argv ↔ ∀ path, mountPath argv = some path → path.length ≤ tgt.PATH_MAX := by
  have hplain : ∀ path, mountPath argv = some path → NUL ∉ path := fun path h =>
    hargv _ (List.mem_of_getElem? ((readOptions_mountPath tgt argv).trans h))
  constructor
  · intro h path hpath
    by_contra hlong
    obtain ⟨g, hinit⟩ := init_long hpath (hplain path hpath) hlong
    exact h.noFault [] g (by rw [hinit]; exact .nil _)
  · intro hlen
    have hfits := fun path hpath => And.intro (hplain path hpath) (hlen path hpath)
    refine ⟨fun t g h => ?_, fun t q hs => (init_asks hfits hs).1, fun t g h => (init_asks hfits h).2 g rfl⟩
    obtain ⟨path, buf, hpath, hoptind, hcopied⟩ := processArgs_runs h
    have hlt := Nat.lt_succ_of_le (hlen path hpath)
    exact ⟨path, hoptind, by rw [hcopied, pathString_strncpy buf (hplain path hpath), if_pos hlt]⟩

/-- A target with an `unsigned long` of 32 bits. -/
def target32 : Target := ⟨1024, 32, 16, 16, 32, 16⟩

/-- Options with their arguments, the end of the options and an operand. -/
def mountArgs : List Str := [['s'], ['-', 'x', 'u'], ['5'], ['-', 'g', '7'], ['-', '-'], ['/', 's']]

theorem mountPath_mountArgs : mountPath mountArgs = some ['/', 's'] := by
  rw [mountPath, mountArgs, List.drop_succ_cons, List.drop_zero, Getopt.operands_group optstring (by decide)]
  show (operands optstring [['-', 'g', '7'], ['-', '-'], ['/', 's']]).head? = _
  rw [Getopt.operands_group optstring (by decide)]
  show (operands optstring [['-', '-'], ['/', 's']]).head? = _
  rw [Getopt.operands_dashes]
  rfl

/-- The operand is short. -/
theorem init_mounts_short : MountsAtOperand target32 mountArgs := by
  refine (init_mounts (by decide)).mpr fun path hpath => ?_
  rw [mountPath_mountArgs] at hpath
  cases hpath
  decide

/-- An operand of `PATH_MAX + 1` characters. -/
def longOperand : Str := '/' :: List.replicate 1024 'x'

theorem longOperand_length : longOperand.length = 1025 := by
  rw [longOperand, List.length_cons, List.length_replicate]

theorem longOperand_plain : NUL ∉ longOperand := by
  rw [longOperand, List.mem_cons, List.mem_replicate]
  decide

/-- `config.pathname` has no room for the NUL of the operand, and `createmsgport` reads on. -/
theorem longOperand_unmounted : ¬ MountsAtOperand target32 [['s'], longOperand] := by
  have hdashes : longOperand ≠ ['-', '-'] := fun he => absurd (congrArg List.head? he) (by decide)
  have hpath : mountPath [['s'], longOperand] = some longOperand := by
    rw [mountPath, List.drop_succ_cons, List.drop_zero, Getopt.operands_operand optstring hdashes rfl,
      List.head?_cons]
  have hlong : ¬ longOperand.length ≤ target32.PATH_MAX := by
    rw [longOperand_length]
    decide
  intro h
  obtain ⟨g, hinit⟩ := init_long hpath longOperand_plain hlong
  exact h.noFault [] g (by rw [hinit]; exact .nil _)

end Cheviot.Proof
