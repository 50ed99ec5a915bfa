import Cheviot.Proof.Frames
import Cheviot.Spec.Loading

/-!
# `load_bootstrap_file`

The runs of a load, by the call that fails (`LoadRun`). It closes what it opened on
each of them, and is right about its outputs on all but the last, where it takes the
block for the file: then it is the file exactly if what `read` left out was in the
block before (`loadBootstrapFile_loads_iff`).
-/

namespace Cheviot.Proof

open Framework Cheviot.Sysinit Cheviot.Spec

variable {path : Str} {slot : Slot} {g : Globals} {t : List (Event sys)} {x : Out Int × Globals}

/-! ## The runs -/

/-- The runs of a load: it stops at the first call that fails, unless this is `read`,
and closes the file if it is open. -/
inductive LoadRun (path : Str) (slot : Slot) (g : Globals) :
    List (Event sys) → Out Int × Globals → Prop where
  | noFile {fd e : Int} (hfd : fd < 0) :
      LoadRun path slot g [⟨.open path, (fd, e)⟩] (.ok (-1), { g with errno := e })
  | noStat {fd e₁ e₂ e₃ sc : Int} {st : Int × Nat} (hfd : ¬ fd < 0) (hst : st.1 ≠ 0) :
      LoadRun path slot g [⟨.open path, (fd, e₁)⟩, ⟨.fstat fd, (st, e₂)⟩, ⟨.close fd, (sc, e₃)⟩]
        (.ok (-1), { g with errno := e₃ })
  | noBlock {fd e₁ e₂ e₃ e₄ sc : Int} {st : Int × Nat} (hfd : ¬ fd < 0) (hst : st.1 = 0) :
      LoadRun path slot g [⟨.open path, (fd, e₁)⟩, ⟨.fstat fd, (st, e₂)⟩,
        ⟨.malloc (.script path) (.chars (st.2 + 1)), (none, e₃)⟩, ⟨.close fd, (sc, e₄)⟩]
        (.ok (-1), { g with errno := e₄ })
  | loaded {fd e₁ e₂ e₃ e₄ e₅ sc : Int} {st : Int × Nat} {block : Vector Char (st.2 + 1)}
      {data : Option (List Char)} (hfd : ¬ fd < 0) (hst : st.1 = 0) :
      LoadRun path slot g [⟨.open path, (fd, e₁)⟩, ⟨.fstat fd, (st, e₂)⟩,
        ⟨.malloc (.script path) (.chars (st.2 + 1)), (some block, e₃)⟩, ⟨.read fd (.script path) st.2, (data, e₄)⟩,
        ⟨.close fd, (sc, e₅)⟩]
        (.ok 0, ({ g with errno := e₅ } : Globals).setScript slot
          (loaded st.2 block.toList (data.getD [])) st.2)

theorem loadBootstrapFile_cases (h : (loadBootstrapFile path slot g).Runs t x) :
    LoadRun path slot g t x := by
  obtain ⟨fd, e₁, t₁, rfl, h₁⟩ := runs_syscall_bind_iff.mp h
  by_cases hfd : fd < 0
  · rw [if_pos hfd] at h₁
    obtain ⟨rfl, rfl⟩ := Prog.runs_ret.mp h₁
    exact .noFile hfd
  rw [if_neg hfd] at h₁
  obtain ⟨st, e₂, t₂, rfl, h₂⟩ := runs_syscall_bind_iff.mp h₁
  by_cases hst : st.1 = 0
  · rw [if_neg (not_not.mpr hst)] at h₂
    obtain ⟨block, e₃, t₃, rfl, h₃⟩ := runs_syscall_bind_iff.mp h₂
    cases block with
    | none =>
      obtain ⟨sc, e₄, t₄, rfl, h₄⟩ := runs_syscall_bind_iff.mp h₃
      obtain ⟨rfl, rfl⟩ := Prog.runs_ret.mp h₄
      exact .noBlock hfd hst
    | some block =>
      obtain ⟨data, e₄, t₄, rfl, h₄⟩ := runs_syscall_bind_iff.mp h₃
      obtain ⟨sc, e₅, t₅, rfl, h₅⟩ := runs_syscall_bind_iff.mp h₄
      obtain ⟨rfl, rfl⟩ := Prog.runs_ret.mp h₅
      exact .loaded hfd hst
  · rw [if_pos hst] at h₂
    obtain ⟨sc, e₃, t₃, rfl, h₃⟩ := runs_syscall_bind_iff.mp h₂
    obtain ⟨rfl, rfl⟩ := Prog.runs_ret.mp h₃
    exact .noStat hfd hst

theorem LoadRun.runs (h : LoadRun path slot g t x) : (loadBootstrapFile path slot g).Runs t x := by
  cases h with
  | noFile hfd =>
    refine runs_syscall_bind ?_
    rw [if_pos hfd]
    exact .nil _
  | noStat hfd hst =>
    refine runs_syscall_bind ?_
    rw [if_neg hfd]
    refine runs_syscall_bind ?_
    rw [if_pos hst]
    exact .cons (.nil _)
  | noBlock hfd hst =>
    refine runs_syscall_bind ?_
    rw [if_neg hfd]
    refine runs_syscall_bind ?_
    rw [if_neg (not_not.mpr hst)]
    exact .cons (.cons (.nil _))
  | loaded hfd hst =>
    refine runs_syscall_bind ?_
    rw [if_neg hfd]
    refine runs_syscall_bind ?_
    rw [if_neg (not_not.mpr hst)]
    exact .cons (.cons (.cons (.nil _)))

/-! ## The block -/

/-- The block after `read`: what was delivered, and what was there before it. -/
theorem loaded_eq {size : Nat} {block data : List Char} (hdata : data.length ≤ size) :
    loaded size block data = data ++ (block.take size).drop data.length ++ [NUL] := by
  rw [loaded, List.take_of_length_le hdata, List.take_append, List.take_of_length_le hdata,
    List.drop_take]

/-- A file of which a first part was delivered is in the block if the rest of it is. -/
theorem loaded_eq_iff {content block data : List Char} (hdata : data <+: content) :
    loaded content.length block data = content ++ [NUL] ↔
      (block.take content.length).drop data.length = content.drop data.length := by
  have hle := hdata.length_le
  obtain ⟨rest, rfl⟩ := hdata
  rw [loaded_eq hle, List.append_left_inj, List.drop_left]
  exact List.append_right_inj data

/-- A file that was delivered as a whole is in the block. -/
theorem loaded_whole (content block : List Char) :
    loaded content.length block content = content ++ [NUL] :=
  (loaded_eq_iff (List.prefix_refl content)).mpr (by simp)

/-! ## The outputs -/

@[simp] theorem script_setScript (buf : List Char) (size : Nat) :
    script (g.setScript slot buf size) slot = some buf := by
  cases slot <;> rfl

@[simp] theorem scriptSize_setScript (buf : List Char) (size : Nat) :
    scriptSize (g.setScript slot buf size) slot = size := by
  cases slot <;> rfl

@[simp] theorem script_errno (e : Int) : script { g with errno := e } slot = script g slot := by
  cases slot <;> rfl

@[simp] theorem scriptSize_errno (e : Int) :
    scriptSize { g with errno := e } slot = scriptSize g slot := by
  cases slot <;> rfl

/-- On every path the descriptor that was opened is closed, once. -/
theorem LoadRun.closed (h : LoadRun path slot g t x) : closed t = opened t := by
  cases h with
  | noFile hfd => simp [Spec.closed, opened, hfd]
  | noStat hfd => simp [Spec.closed, opened, hfd]
  | noBlock hfd => simp [Spec.closed, opened, hfd]
  | loaded hfd => simp [Spec.closed, opened, hfd]

/-- A load that fails leaves the outputs alone. -/
theorem loadsFile_failed {content : List Char} {e : Int} (hclosed : closed t = opened t) :
    LoadsFile content slot g t (.ok (-1), { g with errno := e }) where
  ok h := by cases h
  failed _ := ⟨rfl, script_errno e, scriptSize_errno e⟩
  closed := hclosed

/-- A load that sets its outputs has to have the file in the buffer. -/
theorem loadsFile_ok {content buf : List Char} {g' : Globals} (hclosed : closed t = opened t) :
    LoadsFile content slot g t (.ok 0, g'.setScript slot buf content.length) ↔
      buf = content ++ [NUL] := by
  constructor
  · intro h
    have hbuf := (h.ok rfl).1
    rw [script_setScript] at hbuf
    exact Option.some.inj hbuf
  · intro h
    refine ⟨fun _ => ⟨?_, scriptSize_setScript _ _⟩, fun h => absurd rfl h, hclosed⟩
    rw [script_setScript, h]

theorem heldBefore_nil {content : List Char} (h : bytesRead t = []) : HeldBefore content t := by
  intro block _ data hdata
  rw [h] at hdata
  cases hdata

/-! ## Runs from a file -/

/-- The calls of a load of `content`, of which `read` delivers `data`, into a cleared block. -/
def loadCalls (path : Str) (content data : List Char) : List (Event sys) :=
  [⟨.open path, (3, 0)⟩, ⟨.fstat 3, ((0, content.length), 0)⟩,
    ⟨.malloc (.script path) (.chars (content.length + 1)), (some (.replicate _ NUL), 0)⟩,
    ⟨.read 3 (.script path) content.length, (some data, 0)⟩, ⟨.close 3, (0, 0)⟩]

theorem loadCalls_runs (path : Str) (slot : Slot) (g : Globals) (content data : List Char) :
    (loadBootstrapFile path slot g).Runs (loadCalls path content data)
      (.ok 0, ({ g with errno := 0 } : Globals).setScript slot
        (loaded content.length (Vector.replicate (content.length + 1) NUL).toList data)
        content.length) :=
  have hfd : ¬ (3 : Int) < 0 := by decide
  LoadRun.runs (.loaded hfd rfl)

theorem loadCalls_answers (path : Str) {content data : List Char} (h : data <+: content) :
    ∀ e ∈ loadCalls path content data, AnswersOf content e := by
  simp [loadCalls, AnswersOf, h, h.length_le]

/-- A file that is delivered as a whole is loaded as it is, with a NUL at its end. -/
theorem loadBootstrapFile_loads (path : Str) (slot : Slot) (text : Str) (g : Globals) :
    ∃ t g', (loadBootstrapFile path slot g).Runs t (.ok 0, g') ∧
      script g' slot = some (text ++ [NUL]) := by
  refine ⟨_, _, loadCalls_runs path slot g text text, ?_⟩
  rw [script_setScript, loaded_whole]

/-! ## When a load is right -/

/-- With a file that holds `content`, `load_bootstrap_file` succeeds only with that
file and its size, else leaves the outputs alone, and closes the file: but for bytes
that `read` does not deliver and the block does not hold by chance. -/
theorem loadBootstrapFile_loads_iff (path : Str) (slot : Slot) (content : List Char) (g : Globals)
    (t : List (Event sys)) (x : Out Int × Globals) (hrun : (loadBootstrapFile path slot g).Runs t x)
    (hfile : ∀ e ∈ t, AnswersOf content e) :
    LoadsFile content slot g t x ↔ HeldBefore content t := by
  have hload := loadBootstrapFile_cases hrun
  have hclosed := hload.closed
  cases hload with
  | noFile hfd => exact iff_of_true (loadsFile_failed hclosed) (heldBefore_nil rfl)
  | noStat hfd hst => exact iff_of_true (loadsFile_failed hclosed) (heldBefore_nil rfl)
  | noBlock hfd hst => exact iff_of_true (loadsFile_failed hclosed) (heldBefore_nil rfl)
  | @loaded fd e₁ e₂ e₃ e₄ e₅ sc st block data hfd hst =>
    obtain ⟨st, size⟩ := st
    obtain rfl : size = content.length := hfile ⟨.fstat fd, ((st, size), e₂)⟩ (by simp) hst
    have hread := hfile ⟨.read fd (.script path) content.length, (data, e₄)⟩ (by simp)
    have hdata : data.getD [] <+: content := by
      cases data with
      | none => exact List.nil_prefix
      | some s => exact (hread s rfl).1
    rw [loadsFile_ok hclosed, loaded_eq_iff hdata]
    simp [HeldBefore, scriptBlocks, bytesRead]

theorem loadBootstrapFile_loads_whole :
    LoadsFile ['a', 'b'] .startup (.initial [] 0) (loadCalls PATH_S_STARTUP ['a', 'b'] ['a', 'b'])
      (.ok 0, (Globals.initial [] 0).setScript .startup ['a', 'b', NUL] 2) :=
  (loadBootstrapFile_loads_iff PATH_S_STARTUP .startup ['a', 'b'] (.initial [] 0) _ _
    (loadCalls_runs PATH_S_STARTUP .startup (.initial [] 0) ['a', 'b'] ['a', 'b'])
    (loadCalls_answers _ (List.prefix_refl _))).mpr (by decide)

/-- A file of two bytes of which `read` delivers one is loaded with what was in the
block, and the load succeeds. -/
theorem loadBootstrapFile_short :
    ¬ ∀ path slot content g t x, (loadBootstrapFile path slot g).Runs t x →
      (∀ e ∈ t, AnswersOf content e) → LoadsFile content slot g t x := by
  intro h
  have hload := h PATH_S_STARTUP .startup ['a', 'b'] (.initial [] 0) _ _
    (loadCalls_runs PATH_S_STARTUP .startup (.initial [] 0) ['a', 'b'] ['a'])
    (loadCalls_answers _ (by decide))
  have hbuf := (hload.ok rfl).1
  rw [script_setScript] at hbuf
  revert hbuf
  decide

end Cheviot.Proof
