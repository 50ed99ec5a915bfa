import Cheviot.Framework.Heap
import Cheviot.Spec.Phases
import Cheviot.Spec.Ttys

/-!
# The heap and the files of sysinit

What a run of sysinit does with its heap (`heapOps`), the blocks that its globals hold (`held`), and
when all of the blocks that are live are held (`Unbroken`). What it does with the files of its scripts
(`fileOps`) is put the same way: `open` allocates a descriptor and `close` frees it.
-/

namespace Cheviot.Spec

open Framework Cheviot.Sysinit

/-! ## Blocks -/

/-- The blocks of session `id`, in the order in which they are freed. -/
def sessionBlocks (id : Nat) : List Block := [.device id, .getty id, .argv id, .session id]

/-- The block that the pointer to a block is in: that of the session. -/
def holder : Block → List Block
  | .device id | .getty id | .argv id => [.session id]
  | .script _ | .session _ => []

/-- What a call does with the heap, the blocks that are read to make it among it, and those that are
written with what it returns. A session that is allocated is cleared, and a script is read into its
block; the pointer to a string is stored in its session; an argv is as long as the command line of its
session has room for, and points to the words of that; what is freed is found in its session; and the
child that is forked for a session reads the device, the argv and the command line of it, and is noted
in it. -/
def heapOp : Event sys → List (HeapOp Block)
  | ⟨.malloc (.argv id) _, (some _, _)⟩ =>
    [.use [.getty id], .alloc (.argv id), .use [.getty id, .argv id, .session id]]
  | ⟨.malloc (.argv id) _, (none, _)⟩ => [.use [.getty id]]
  | ⟨.malloc (.script path) _, (some _, _)⟩ => [.alloc (.script path)]
  | ⟨.malloc b _, (some _, _)⟩ => [.alloc b, .use [b]]
  | ⟨.read _ b _, _⟩ => [.use [b]]
  | ⟨.asprintf b _, (true, _)⟩ => [.alloc b, .use (holder b)]
  | ⟨.asprintf b _, (false, _)⟩ => [.use (holder b)]
  | ⟨.free b, _⟩ => [.use (holder b), .free b]
  | ⟨.fork (.getty id _ _), _⟩ => [.use (sessionBlocks id)]
  | _ => []

/-- What a run does with the heap. -/
def heapOps (t : List (Event sys)) : List (HeapOp Block) := t.flatMap heapOp

/-- The file that is loaded into a slot. -/
def slotPath : Slot → Str
  | .startup => PATH_S_STARTUP
  | .shutdown => PATH_S_SHUTDOWN

/-- The path is of a script that has been loaded. -/
def Holds (g : Globals) (path : Str) : Prop := ∃ slot, path = slotPath slot ∧ (script g slot).isSome

/-- The blocks that the globals point to: those of the scripts and of the sessions. -/
def held (g : Globals) : Block → Prop
  | .script path => Holds g path
  | .session id | .device id | .getty id | .argv id => ∃ sp ∈ g.sessionList.entries, sp.id = id

/-- The setup of a session fails after its struct and its device have been allocated: at the
command line, which cannot be allocated or has no word, or at the argv. -/
def breaksSetup : Event sys → Bool
  | ⟨.asprintf (.getty _) command, (ok, _)⟩ => !ok || (strtok command).isNone
  | ⟨.malloc (.argv _) _, (argv, _)⟩ => argv.isNone
  | _ => false

/-- No setup of a session has failed so. -/
def Unbroken (t : List (Event sys)) : Prop := ∀ e ∈ t, breaksSetup e = false

/-! ## Files -/

/-- What a call of `load_bootstrap_file` does with the descriptor of its file. -/
def fileOp : Event sys → Option (HeapOp Int)
  | ⟨.open _, (fd, _)⟩ => if fd < 0 then none else some (.alloc fd)
  | ⟨.fstat fd, _⟩ | ⟨.read fd .., _⟩ => some (.use [fd])
  | ⟨.close fd, _⟩ => some (.free fd)
  | _ => none

/-- What a run does with the descriptors of its scripts. -/
def fileOps (t : List (Event sys)) : List (HeapOp Int) := t.filterMap fileOp

/-- A call of `load_bootstrap_file` on the file that it has opened. -/
def isOnFile : Call → Bool
  | .open _ => false
  | c => isLoad c

end Cheviot.Spec
