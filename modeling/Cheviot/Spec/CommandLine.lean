import Cheviot.Framework.Numeral
import Cheviot.Framework.Options
import Cheviot.Impl.Servers.Init

/-!
# The command line of a server

The path that a server is given is the first operand of its command line (`mountPath`). It is mounted
there or not at all (`MountsAtOperand`), with the attributes that the options ask for (`askedFor`),
of which `mountStat` says how they are told to `createmsgport`. The other way round, settings of
attributes, each in one of the ways to write a number and an option (`Setting`), and the command line
that has them (`invocation`).
-/

namespace Cheviot.Spec

open Framework Cheviot.Servers
open Cheviot.Sysinit (Str Stat)

/-! ## The operand -/

/-- The path that a server is to be mounted at. -/
def mountPath (argv : List Str) : Option Str := (operands optstring (argv.drop 1)).head?

/-- Where `process_args` returns 0, `config.pathname` holds the operand at `optind` and its NUL;
no other path is given to `createmsgport`, and no string is read that does not end in its
array. -/
structure MountsAtOperand (tgt : Target) (argv : List Str) : Prop where
  pathname : ∀ t g, (processArgs argv (Globals.initial tgt)).Runs t (.ok 0, g) →
    ∃ path, argv[g.opt.optind]? = some path ∧ pathString g.config.pathname = some path
  mounted : ∀ t q, (Servers.init argv (Globals.initial tgt)).Steps t q →
    ∀ path flags st r, ⟨.createmsgport path flags st, r⟩ ∈ t → mountPath argv = some path
  noFault : ∀ t g, ¬ (Servers.init argv (Globals.initial tgt)).Runs t (.fault, g)

/-! ## What a command line asks for -/

/-- What the options of a server set. -/
inductive Attribute where
  | user
  | group
  | mode
  | device
  deriving DecidableEq, Repr

/-- The option of an attribute. -/
def Attribute.opt : Attribute → Char
  | .user => 'u'
  | .group => 'g'
  | .mode => 'm'
  | .device => 'd'

/-- How many bits an attribute has. -/
def Attribute.width (tgt : Target) : Attribute → Nat
  | .user => tgt.uid
  | .group => tgt.gid
  | .mode => tgt.mode
  | .device => tgt.dev

/-- The value of an attribute that no option sets: root, a character device that all may read, write
and execute, and a device number of ones only. -/
def Attribute.initial (tgt : Target) : Attribute → Nat
  | .user => 0
  | .group => 0
  | .mode => (0o20000 + 0o777) % 2 ^ tgt.mode
  | .device => 2 ^ tgt.dev - 1

/-- The argument of an option, if it is the option of the attribute. -/
def Attribute.argument (a : Attribute) (o : Char × Option Str) : Option Str := if o.1 = a.opt then o.2 else none

/-- The value of an attribute after the options: the number of the last option that sets it, as far as
the attribute has bits for it. -/
def askedFor (tgt : Target) (argv : List Str) (a : Attribute) : Nat :=
  (((options optstring (argv.drop 1)).reverse.findSome? a.argument).map fun s =>
    (strtoul tgt.long s).toNat % 2 ^ a.width tgt).getD (a.initial tgt)

/-- What a server tells of its mount: a character device of the owner, the group and the device number,
with the nine lowest bits of the mode for permissions. What else the mode says is not told. -/
def mountStat (value : Attribute → Nat) : Stat where
  stDev := some (value .device)
  stIno := some 0
  stMode := some (BitVec.ofNat 32 (0o20000 + value .mode % 0o1000))
  stUid := some (value .user)
  stGid := some (value .group)
  stBlksize := some 0
  stSize := some 0
  stBlocks := some 0

/-! ## Writing a command line -/

/-- The bases in which a number can be written. -/
inductive Base where
  | octal
  | decimal
  | hex
  deriving DecidableEq, Repr

/-- A number in a base. -/
def Base.numeral (n : Nat) : Base → Str
  | .octal => '0' :: Nat.toDigits 8 n
  | .decimal => Nat.toDigits 10 n
  | .hex => '0' :: 'x' :: Nat.toDigits 16 n

theorem Base.numeral_ne_nil (n : Nat) (b : Base) : b.numeral n ≠ [] := by
  cases b with
  | decimal => exact Nat.toDigits_ne_nil
  | _ => exact List.cons_ne_nil _ _

theorem Attribute.takes (a : Attribute) : optionArg optstring a.opt = some true := by
  cases a <;> decide

theorem Attribute.notDash (a : Attribute) : a.opt ≠ '-' := by
  cases a <;> decide

/-- A value of an attribute, and how it is written. -/
structure Setting where
  attr : Attribute
  value : Nat
  base : Base
  joined : Bool
  deriving DecidableEq, Repr

/-- The option that sets the value. -/
def Setting.written (s : Setting) : Written optstring where
  opt := s.attr.opt
  arg := s.base.numeral s.value
  joined := s.joined
  takes := s.attr.takes
  notDash := s.attr.notDash
  nonempty _ := s.base.numeral_ne_nil _

/-- The value is an `unsigned long`, and the attribute has bits for it. -/
def Setting.Fits (tgt : Target) (s : Setting) : Prop := s.value < 2 ^ tgt.long ∧ s.value < 2 ^ s.attr.width tgt

end Cheviot.Spec
