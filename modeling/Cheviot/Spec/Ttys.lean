import Cheviot.Framework.Text
import Cheviot.Spec.Sessions

/-!
# The sessions of a ttys file

What `session_list` is to hold after the records of a ttys file have been read.
-/

namespace Cheviot.Spec

open Framework Cheviot.Sysinit

/-- The words of a command line: its pieces between spaces and tabs, but for empty
ones. -/
def words (command : Str) : List Str := solid isSeparator command

/-- The record is of a terminal that is on, and has the strings a session needs. -/
def isActive (typ : Ttyent) : Bool := typ.tyOn && typ.tyName.isSome && typ.tyGetty.isSome

/-- The session of record `i`, as allocation `id`. -/
def sessionOf (id i : Nat) (typ : Ttyent) : Session where
  id := id
  seIndex := i
  seProcess := none
  seFlags := SE_PRESENT
  seDevice := PATH_DEV ++ typ.tyName.getD []
  seGetty := some (commandLine typ)
  seGettyArgv := words (commandLine typ)

/-- The answers of `getttyent`. -/
def ttys (t : List (Event sys)) : List (Option Ttyent) :=
  t.filterMap fun e =>
    match e with
    | ⟨.getttyent, r⟩ => some r.1
    | _ => none

/-- The call, if it allocates, succeeds. -/
def Allocates : Event sys → Prop
  | ⟨.malloc _ _, r⟩ => r.1 ≠ none
  | ⟨.asprintf _ _, r⟩ => r.1 = true
  | _ => True

/-- The session is that of a record at its place in the file. -/
structure Mirrors (sp : Session) (x : Ttyent × Nat) : Prop where
  index : sp.seIndex = x.2
  process : sp.seProcess = none
  flags : sp.seFlags = SE_PRESENT
  device : ∃ name, x.1.tyName = some name ∧ sp.seDevice = PATH_DEV ++ name
  argv : ∃ getty name, x.1.tyGetty = some getty ∧ x.1.tyName = some name ∧
    sp.seGettyArgv = words getty ++ words name
  argv_ne : sp.seGettyArgv ≠ []

/-- The records that sessions are made of, in order, each with its place in the file. -/
def active (typs : List Ttyent) : List (Ttyent × Nat) := typs.zipIdx.filter fun x => isActive x.1

end Cheviot.Spec
