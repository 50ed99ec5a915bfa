import Mathlib.Data.List.Forall2
import Cheviot.Proof.Commands

/-!
# `start` and `mknod` on a line

`sCmdStart_argv`: the tokens of a `start` line always fit `start_argv` with the NULL
that ends them. `sCmdMknod_kind`: a `mknod` line makes a node of the kind that it
names exactly if its mode has no type bits that this kind has not.
-/

namespace Cheviot.Proof

open Framework Cheviot.Sysinit Cheviot.Spec

variable {g : Globals} {line cmd : Str} {ops : List Str}

/-- The first token of a line, and the others left. -/
theorem sTokenize_first (hline : IsCstr g.linebuf 0 line) (htoks : tokens line = cmd :: ops) :
    ∃ q g₁, sTokenize (some 0) g = .ret (.ok (some q), g₁) ∧ cstr g₁.linebuf q = cmd ∧
      TokensLeft g₁ ops ∧ g₁.startArgv = g.startArgv := by
  have h := sTokenize_ok (some 0) rfl hline
  rw [htoks] at h
  obtain ⟨q, g₁, e, hleft, htok, hT⟩ := h
  exact ⟨q, g₁, e, htok.cstr_eq, hleft, hT.startArgv_eq⟩

/-! ## `start` -/

/-- On a line whose first token is `start`, `s_cmd_start` stores the other tokens in
`start_argv` and a NULL after them, whatever was there before. They are fewer than
`ARG_SZ`, and the loop ends at that NULL whatever bounds it otherwise; `execve` gets
these tokens and no others. -/
theorem sCmdStart_argv (hline : IsCstr g.linebuf 0 line)
    (htoks : tokens line = "start".toList :: ops) (session : Bool) :
    ops.length < ARG_SZ ∧ ∃ q g₁, sTokenize (some 0) g = .ret (.ok (some q), g₁) ∧
      cstr g₁.linebuf q = "start".toList ∧
      ∃ qs g', (∀ n, ops.length < n → storeArgs n 0 g₁ = .ret (.ok (), g')) ∧
        g'.startArgv.toList = qs.map some ++ none :: g.startArgv.toList.drop (ops.length + 1) ∧
        List.Forall₂ (fun q op => cstr g'.linebuf q = op) qs ops ∧
        sCmdStart session g₁ =
          if ops = [] then .ret (.ok (-1), g')
          else .call (.fork (.start session ops)) fun pid =>
            .ret (.ok (if pid.1 = none then -1 else 0), { g' with errno := pid.2 }) := by
  obtain ⟨q, g₁, e, hcmd, hleft, hargv₁⟩ := sTokenize_first hline htoks
  obtain ⟨qs, g', hstore, -, hargv, hqs, hstart⟩ :=
    sCmdStart_eq session (p := ⟨g₁.portid, g₁.kq⟩) ⟨rfl, rfl, rfl⟩ hleft
  rw [hargv₁] at hargv
  exact ⟨hleft.length_lt, q, g₁, e, hcmd, qs, g', hstore, hargv, hqs.imp fun _ _ h => h.cstr_eq, hstart⟩

/-- `linebuf` with a line at its start. -/
def linebufOf (line : Str) : Vector Char 256 :=
  ⟨((line ++ List.replicate 256 NUL).take 256).toArray, by
    rw [List.size_toArray, List.length_take, List.length_append, List.length_replicate]
    omega⟩

theorem isCstr_linebufOf (h : NUL ∉ line) (hfit : line.length ≤ 255) :
    IsCstr (linebufOf line) 0 line := by
  refine ⟨List.replicate (255 - line.length) NUL, ?_, h⟩
  show (line ++ List.replicate 256 NUL).take 256 = _
  rw [List.take_append, List.take_of_length_le (by omega), List.take_replicate, ← List.replicate_succ]
  congr 2
  omega

/-- The globals with a line in `linebuf`. -/
def atLine (line : Str) : Globals := { Globals.initial [] 0 with linebuf := linebufOf line }

/-- Two arguments, one of them empty. -/
theorem sCmdStart_argv_empty : ∃ q g₁ k,
    sTokenize (some 0) (atLine "start a \"\"".toList) = .ret (.ok (some q), g₁) ∧
    sCmdStart false g₁ = .call (.fork (.start false [['a'], []])) k := by
  have hline : IsCstr (linebufOf "start a \"\"".toList) 0 "start a \"\"".toList :=
    isCstr_linebufOf (by decide) (by decide)
  have htoks : tokens "start a \"\"".toList = "start".toList :: [['a'], []] := by decide
  obtain ⟨_, q, g₁, e, _, _, _, _, _, _, h⟩ :=
    sCmdStart_argv (g := atLine "start a \"\"".toList) hline htoks false
  exact ⟨q, g₁, _, e, h⟩

/-! ## `mknod` -/

section Bits

variable {w : Nat} {x k m : BitVec w}

/-- Bits of a mask that are set to `k` are those of `k` if `x` has no others. -/
theorem or_and_eq_iff (hk : k &&& m = k) : (x ||| k) &&& m = k ↔ x &&& m &&& ~~~k = 0#w := by
  have hdist : (x ||| k) &&& m = (x &&& m) ||| k := by
    ext i hi
    have := congrArg (·[i]) hk
    simp only [BitVec.getElem_and, BitVec.getElem_or] at this ⊢
    rw [Bool.and_or_distrib_right, this]
  rw [hdist]
  constructor <;> intro h <;> ext i hi <;> have hbit := congrArg (·[i]) h <;>
    simp only [BitVec.getElem_and, BitVec.getElem_or, BitVec.getElem_not, BitVec.getElem_zero] at hbit ⊢
  · cases hk : k[i] <;> simp_all
  · cases hk : k[i] <;> simp_all

theorem or_and_not (hk : k &&& m = k) : (x ||| k) &&& ~~~m = x &&& ~~~m := by
  ext i hi
  have hbit := congrArg (·[i]) hk
  simp only [BitVec.getElem_and, BitVec.getElem_or, BitVec.getElem_not] at hbit ⊢
  cases hm : m[i] <;> simp_all

end Bits

variable {path mode type : Str}

theorem nodeMode_eq : nodeMode mode type =
    (nodeKind type).map fun kind => BitVec.ofInt 32 (atoi mode) ||| kind := by
  unfold nodeMode nodeKind
  split
  · rfl
  · split <;> rfl

theorem nodeKind_and {kind : BitVec 32} (h : nodeKind type = some kind) : kind &&& S_IFMT = kind := by
  unfold nodeKind at h
  split at h
  · cases h; decide
  · split at h
    · cases h; decide
    · cases h

/-- What `s_cmd_mknod` asks for on three operands: a node of the kind, with the mode as it is. -/
theorem sCmdMknod_asks (h : TokensLeft g (path :: mode :: type :: ops)) {t : List (Event sys)}
    {q : Prog sys (Out Int × Globals)} (hs : (sCmdMknod g).Steps t q) {path' : Str} {flags : Nat} {st : Stat}
    {ret : Int × Int} (he : ⟨.mknod2 path' flags st, ret⟩ ∈ t) :
    ∃ kind, nodeKind type = some kind ∧ st.stMode = some (BitVec.ofInt 32 (atoi mode) ||| kind) := by
  have hcode := sCmdMknod_ok (p := ⟨g.portid, g.kq⟩) ⟨rfl, rfl, rfl⟩ h
  dsimp only at hcode
  rw [nodeMode_eq] at hcode
  cases hk : nodeKind type with
  | none =>
    rw [hk] at hcode
    obtain ⟨x, hret, -⟩ := hcode.eq_ret
    rw [hret] at hs
    obtain ⟨rfl, -⟩ := Prog.steps_ret.mp hs
    cases he
  | some kind =>
    rw [hk] at hcode
    obtain ⟨k, hcall, hafter⟩ := hcode.eq_call
    rw [hcall] at hs
    rcases Prog.steps_call.mp hs with ⟨rfl, -⟩ | ⟨r, t', rfl, hs'⟩
    · cases he
    obtain ⟨x, hret, -⟩ := (hafter r).eq_ret
    rw [hret] at hs'
    obtain ⟨rfl, -⟩ := Prog.steps_ret.mp hs'
    obtain ⟨hc, -⟩ := Event.mk.inj (List.mem_singleton.mp he)
    obtain ⟨-, -, rfl⟩ := Call.mknod2.inj hc
    exact ⟨kind, rfl, rfl⟩

/-- It does ask for it. -/
theorem sCmdMknod_asked (h : TokensLeft g (path :: mode :: type :: ops)) {kind : BitVec 32}
    (hk : nodeKind type = some kind) : ∃ st q, st.stMode = some (BitVec.ofInt 32 (atoi mode) ||| kind) ∧
      (sCmdMknod g).Steps [⟨.mknod2 path 0 st, ((0 : Int), (0 : Int))⟩] q := by
  have hcode := sCmdMknod_ok (p := ⟨g.portid, g.kq⟩) ⟨rfl, rfl, rfl⟩ h
  dsimp only at hcode
  rw [nodeMode_eq, hk] at hcode
  obtain ⟨k, hcall, -⟩ := hcode.eq_call
  exact ⟨_, _, rfl, by rw [hcall]; exact .cons (.nil _)⟩

theorem makesKind_iff (h : TokensLeft g (path :: mode :: type :: ops)) : MakesKind mode type g ↔
    ∀ kind, nodeKind type = some kind →
      BitVec.ofInt 32 (atoi mode) &&& S_IFMT &&& ~~~kind = 0#32 := by
  constructor
  · intro hmakes kind hk
    obtain ⟨st, q, hst, hs⟩ := sCmdMknod_asked h hk
    obtain ⟨m, hm, hkind, -⟩ := hmakes _ _ _ _ _ _ hs List.mem_cons_self
    rw [hst] at hm
    obtain rfl := Option.some.inj hm
    rw [hk] at hkind
    exact (or_and_eq_iff (nodeKind_and hk)).mp (Option.some.inj hkind).symm
  · intro hbits t q path' flags st ret hs he
    obtain ⟨kind, hk, hst⟩ := sCmdMknod_asks h hs he
    have hmask := nodeKind_and hk
    exact ⟨_, hst, by rw [hk, (or_and_eq_iff hmask).mpr (hbits kind hk)], or_and_not hmask⟩

/-- On a `mknod` line, `s_cmd_mknod` makes no other kind of node than the one its type
names, with the other bits those of its mode, exactly if the type bits of the mode
are among those of this kind. -/
theorem sCmdMknod_kind (hline : IsCstr g.linebuf 0 line)
    (htoks : tokens line = "mknod".toList :: path :: mode :: type :: ops) :
    ∃ q g₁, sTokenize (some 0) g = .ret (.ok (some q), g₁) ∧ cstr g₁.linebuf q = "mknod".toList ∧
      (MakesKind mode type g₁ ↔ ∀ kind, nodeKind type = some kind →
        BitVec.ofInt 32 (atoi mode) &&& S_IFMT &&& ~~~kind = 0#32) := by
  obtain ⟨q, g₁, e, hcmd, hleft, -⟩ := sTokenize_first hline htoks
  exact ⟨q, g₁, e, hcmd, makesKind_iff hleft⟩

/-- A mode without type bits. -/
theorem sCmdMknod_kind_permissions : ∃ q g₁,
    sTokenize (some 0) (atLine "mknod p 438 c".toList) = .ret (.ok (some q), g₁) ∧
    MakesKind "438".toList ['c'] g₁ := by
  have hline : IsCstr (linebufOf "mknod p 438 c".toList) 0 "mknod p 438 c".toList :=
    isCstr_linebufOf (by decide) (by decide)
  have htoks : tokens "mknod p 438 c".toList =
      "mknod".toList :: ['p'] :: "438".toList :: ['c'] :: [] := by decide
  obtain ⟨q, g₁, e, -, hiff⟩ :=
    sCmdMknod_kind (g := atLine "mknod p 438 c".toList) hline htoks
  refine ⟨q, g₁, e, hiff.mpr fun kind hkind => ?_⟩
  cases hkind
  decide

/-- A mode with a type bit: what is to be a character device is made a block device. -/
theorem sCmdMknod_block : ∃ q g₁ k,
    sTokenize (some 0) (atLine "mknod p 16384 c".toList) = .ret (.ok (some q), g₁) ∧
    sCmdMknod g₁ = .call (.mknod2 ['p'] 0
      { stSize := some 0, stUid := some 0, stGid := some 0, stMode := some IFBLK }) k ∧
    ¬ MakesKind "16384".toList ['c'] g₁ := by
  have hline : IsCstr (linebufOf "mknod p 16384 c".toList) 0 "mknod p 16384 c".toList :=
    isCstr_linebufOf (by decide) (by decide)
  have htoks : tokens "mknod p 16384 c".toList =
      "mknod".toList :: ['p'] :: "16384".toList :: ['c'] :: [] := by decide
  obtain ⟨q, g₁, e, -, hleft, -⟩ :=
    sTokenize_first (g := atLine "mknod p 16384 c".toList) hline htoks
  have hA : Agree g₁.src g₁ ⟨g₁.portid, g₁.kq⟩ := ⟨rfl, rfl, rfl⟩
  have hcode := sCmdMknod_ok hA hleft
  have hmode : nodeMode "16384".toList ['c'] = some IFBLK := by decide
  dsimp only at hcode
  rw [hmode] at hcode
  obtain ⟨k, hcall, -⟩ := hcode.eq_call
  refine ⟨q, g₁, k, e, hcall, fun hmakes => ?_⟩
  have hbits := (makesKind_iff hleft).mp hmakes IFCHR rfl
  exact absurd hbits (by decide)

end Cheviot.Proof
