import Cheviot.Proof.Tokenize

/-!
# The handlers of the commands

Each handler, on a line with tokens left, makes the calls of its command on
those tokens (`Spec.command`), whatever the answers: `dispatch_ok`. A handler
takes its operands by `operand_none` and `operand_some`, and reads nothing else
of what earlier lines left in `linebuf` and `start_argv`.
-/

namespace Cheviot.Proof

open Framework Cheviot.Sysinit Cheviot.Spec

variable {α : Type} {src : Cursor} {g g' : Globals} {p : Ports} {fuel : Nat}

/-! ## The state between two tokens -/

/-- The tokens left on the line at the tokenizer's cursor. -/
def TokensLeft (g : Globals) (ts : List Str) : Prop :=
  ∃ ch s, g.ch = some ch ∧ IsCstr g.linebuf ch s ∧ tokens s = ts

/-- A token that has been handed out, before the tokenizer's cursor. -/
structure Token (g : Globals) (q : Nat) (tok : Str) : Prop where
  cstr_eq : cstr g.linebuf q = tok
  before : ∃ ch, g.ch = some ch ∧ q + tok.length ≤ ch

/-- What a script leaves for the message loop, and the cursor in the script. -/
structure Agree (src : Cursor) (g : Globals) (p : Ports) : Prop where
  src_eq : g.src = src
  portid_eq : g.portid = p.portid
  kq_eq : g.kq = p.kq

/-- The globals after `s_tokenize` has moved its cursor from `ch` on. -/
structure Tokenized (ch : Nat) (g g' : Globals) : Prop where
  src_eq : g'.src = g.src
  startArgv_eq : g'.startArgv = g.startArgv
  same : SameButLine g g'
  token : ∀ q, q + (cstr g.linebuf q).length ≤ ch → Token g' q (cstr g.linebuf q)

theorem Tokenized.agree {ch : Nat} (h : Tokenized ch g g') (hA : Agree src g p) :
    Agree src g' p :=
  ⟨h.src_eq.trans hA.src_eq, h.same.portid.trans hA.portid_eq, h.same.kq.trans hA.kq_eq⟩

/-- `s_tokenize` takes the next token of the line at its cursor. -/
theorem sTokenize_ok (line : Option Nat) {ch : Nat} {s : Str} (hch : line.or g.ch = some ch)
    (hs : IsCstr g.linebuf ch s) :
    match tokens s with
    | [] => ∃ g', sTokenize line g = .ret (.ok none, g') ∧ TokensLeft g' [] ∧ Tokenized ch g g'
    | tok :: toks => ∃ q g', sTokenize line g = .ret (.ok (some q), g') ∧ TokensLeft g' toks ∧
        Token g' q tok ∧ Tokenized ch g g' := by
  have h := tokenizeFrom_ok hs
  unfold tokens
  rw [tokensBy_eq_span ch]
  cases hn : nextSpan ' ' '"' ch s with
  | none =>
    rw [hn] at h
    obtain ⟨h, hend⟩ := h
    exact ⟨{ g with ch := some (ch + s.length) }, by simp [sTokenize, hch, h], ⟨_, [], rfl, hend, rfl⟩,
      rfl, rfl, ⟨rfl, rfl, rfl⟩, fun q hq => ⟨rfl, _, rfl, Nat.le_add_right_of_le hq⟩⟩
  | some x =>
    obtain ⟨x, rest⟩ := x
    rw [hn] at h
    obtain ⟨ch', hlt, h, htok, hrest, hle, hlen, -⟩ := h
    refine ⟨x.start, { g with ch := some ch', linebuf := g.linebuf.set x.stop NUL hlt },
      by simp [sTokenize, hch, h], ⟨ch', rest, rfl, hrest, rfl⟩, ⟨htok.cstr_eq, ch', rfl, hlen⟩, rfl,
      rfl, ⟨rfl, rfl, rfl⟩, fun q' hq' => ?_⟩
    have hstop : q' + (cstr g.linebuf q').length ≤ x.stop :=
      hq'.trans (hle.trans (Nat.le_add_right ..))
    exact ⟨cstr_set hlt hstop, ch', rfl, hstop.trans hlen⟩

/-- Everything handed out before is still there. -/
abbrev Keeps (g g' : Globals) : Prop := ∀ q tok, Token g q tok → Token g' q tok

theorem Tokenized.keeps {ch : Nat} (h : Tokenized ch g g') (hch : g.ch = some ch) : Keeps g g' := by
  rintro q tok ⟨rfl, ch', hch', hle⟩
  obtain rfl : ch' = ch := Option.some.inj (hch'.symm.trans hch)
  exact h.token q hle

/-- `s_tokenize(NULL)` at the end of the line. -/
theorem sTokenize_nil (h : TokensLeft g []) : ∃ ch g', sTokenize none g = .ret (.ok none, g') ∧
    Tokenized ch g g' ∧ Keeps g g' := by
  obtain ⟨ch, s, hch, hs, ht⟩ := h
  have := sTokenize_ok none hch hs
  rw [ht] at this
  obtain ⟨g', e, -, hT⟩ := this
  exact ⟨ch, g', e, hT, hT.keeps hch⟩

/-- `s_tokenize(NULL)` before a token. -/
theorem sTokenize_cons {tok : Str} {ts : List Str} (h : TokensLeft g (tok :: ts)) :
    ∃ ch q g', sTokenize none g = .ret (.ok (some q), g') ∧ TokensLeft g' ts ∧ Token g' q tok ∧
      Tokenized ch g g' ∧ Keeps g g' := by
  obtain ⟨ch, s, hch, hs, ht⟩ := h
  have := sTokenize_ok none hch hs
  rw [ht] at this
  obtain ⟨q, g', e, hleft, htok, hT⟩ := this
  exact ⟨ch, q, g', e, hleft, htok, hT, hT.keeps hch⟩

/-! ## Code that agrees with the reference -/

/-- The code makes the calls of the reference, and leaves the same port and
queue, and the cursor of the script where it was. -/
abbrev Matches (src : Cursor) (x : Prog sys (Out α × Globals)) (y : Prog sys (Out Unit × Ports)) :
    Prop := Prog.Rel (Proc.Ends (Agree src) fun _ _ => True) x y

theorem matches_ret {a : α} (hA : Agree src g p) :
    Matches src (.ret (.ok a, g)) (.ret (.ok (), p)) := .ret ⟨trivial, hA⟩

theorem Agree.errno (hA : Agree src g p) (e : Int) : Agree src { g with errno := e } p :=
  ⟨hA.src_eq, hA.portid_eq, hA.kq_eq⟩

theorem matches_ite {b : Prop} [Decidable b] {c c' : Sys α} {d d' : Proc sys Ports Unit}
    (h : Matches src (c g) (d p)) (h' : Matches src (c' g) (d' p)) :
    Matches src ((if b then c else c') g) ((if b then d else d') p) := by
  split
  · exact h
  · exact h'

theorem matches_syscall {c : Call} (hA : Agree src g p) :
    Matches src (syscall c g) (perform c p) := by
  rw [syscall_apply, perform_apply]
  exact .call fun r => matches_ret (hA.errno r.2)

section

variable {ops : List Str} {op : Str} {f : Option Nat → Sys α} {y : Prog sys (Out Unit × Ports)}

/-- The end of the line instead of an operand. -/
theorem operand_none (hA : Agree src g p) (h : TokensLeft g [])
    (hf : ∀ g', Agree src g' p → Matches src (f none g') y) :
    Matches src ((sTokenize none >>= f) g) y := by
  obtain ⟨ch, g', e, hT, -⟩ := sTokenize_nil h
  rw [Proc.bind_apply, e]
  exact hf g' (hT.agree hA)

/-- The next operand. -/
theorem operand_some (hA : Agree src g p) (h : TokensLeft g (op :: ops))
    (hf : ∀ q g', Agree src g' p → TokensLeft g' ops → Token g' q op → Keeps g g' →
      Matches src (f (some q) g') y) : Matches src ((sTokenize none >>= f) g) y := by
  obtain ⟨ch, q, g', e, hleft, htok, hT, hK⟩ := sTokenize_cons h
  rw [Proc.bind_apply, e]
  exact hf q g' (hT.agree hA) hleft htok hK

end

/-! ## The handlers -/

theorem skip_apply : skip p = .ret (.ok (), p) := rfl

theorem sCmdChdir_ok {ops : List Str} (hA : Agree src g p) (h : TokensLeft g ops) :
    Matches src (sCmdChdir g) ((match ops with
      | path :: _ => perform (.chdir path)
      | [] => skip) p) := by
  cases ops with
  | nil => exact operand_none hA h fun g' hA => matches_ret hA
  | cons path ops =>
    refine operand_some hA h fun q g₁ hA _ hq _ => ?_
    show Matches src (syscall (.chdir (cstr g₁.linebuf q)) g₁) _
    rw [hq.cstr_eq]
    exact matches_syscall hA

theorem sCmdSleep_ok {ops : List Str} (hA : Agree src g p) (h : TokensLeft g ops) :
    Matches src (sCmdSleep g) ((match ops with
      | seconds :: _ => perform (.sleep (BitVec.ofInt 32 (atoi seconds)))
      | [] => skip) p) := by
  cases ops with
  | nil => exact operand_none hA h fun g' hA => matches_ret hA
  | cons seconds ops =>
    refine operand_some hA h fun q g₁ hA _ hq _ => ?_
    show Matches src (((fun _ => 0) <$>
      syscall (.sleep (BitVec.ofInt 32 (atoi (cstr g₁.linebuf q))))) g₁) _
    rw [hq.cstr_eq]
    exact .call fun r => matches_ret (hA.errno r.2)

/-- A handler of two operands that makes one call. -/
theorem twoOperands_ok {c : Str → Str → Call} {f : Str → Str → Sys Int}
    (hf : ∀ first second g, Agree src g p →
      Matches src (f first second g) (perform (c first second) p))
    {ops : List Str} (hA : Agree src g p) (h : TokensLeft g ops) :
    Matches src (twoOperands f g) ((match ops with
      | first :: second :: _ => perform (c first second)
      | _ => skip) p) := by
  match ops with
  | [] => exact operand_none hA h fun g' hA => matches_ret hA
  | [first] =>
    refine operand_some hA h fun q₁ g₁ hA h hq₁ _ => ?_
    exact operand_none hA h fun g' hA => matches_ret hA
  | first :: second :: ops =>
    refine operand_some hA h fun q₁ g₁ hA h hq₁ _ => ?_
    refine operand_some hA h fun q₂ g₂ hA _ hq₂ keep => ?_
    show Matches src (f (cstr g₂.linebuf q₁) (cstr g₂.linebuf q₂) g₂) _
    rw [hq₂.cstr_eq, (keep _ _ hq₁).cstr_eq]
    exact hf _ _ _ hA

theorem sCmdMknod_ok {ops : List Str} (hA : Agree src g p) (h : TokensLeft g ops) :
    Matches src (sCmdMknod g) ((match ops with
      | path :: mode :: type :: _ =>
        match nodeMode mode type with
        | some mode => perform (.mknod2 path 0
            { stSize := some 0, stUid := some 0, stGid := some 0, stMode := some mode })
        | none => skip
      | _ => skip) p) := by
  match ops with
  | [] => exact operand_none hA h fun g' hA => matches_ret hA
  | [path] =>
    refine operand_some hA h fun q₁ g₁ hA h hq₁ _ => ?_
    exact operand_none hA h fun g' hA => matches_ret hA
  | [path, mode] =>
    refine operand_some hA h fun q₁ g₁ hA h hq₁ _ => ?_
    refine operand_some hA h fun q₂ g₂ hA h hq₂ keep₂ => ?_
    exact operand_none hA h fun g' hA => matches_ret hA
  | path :: mode :: type :: ops =>
    refine operand_some hA h fun q₁ g₁ hA h hq₁ _ => ?_
    refine operand_some hA h fun q₂ g₂ hA h hq₂ keep₂ => ?_
    refine operand_some hA h fun q₃ g₃ hA h hq₃ keep₃ => ?_
    have h₁ := (keep₃ _ _ (keep₂ _ _ hq₁)).cstr_eq
    have h₂ := (keep₃ _ _ hq₂).cstr_eq
    dsimp only
    rw [Proc.bind_apply, Proc.get_apply, Prog.ret_bind, Proc.next_ok, h₁, h₂, hq₃.cstr_eq, nodeMode]
    by_cases hc : type.head? = some 'c'
    · rw [if_pos hc, if_pos hc]
      exact matches_syscall hA
    · by_cases hb : type.head? = some 'b'
      · rw [if_neg hc, if_neg hc, if_pos hb, if_pos hb]
        exact matches_syscall hA
      · rw [if_neg hc, if_neg hc, if_neg hb, if_neg hb]
        exact matches_ret hA

/-- The poll of `s_cmd_waitfor`, of a path handed out as a token. -/
theorem waitMounted_ok {q : Nat} {path : Str} (hA : Agree src g p)
    (hq : cstr g.linebuf q = path) : Matches src (waitMounted fuel q g) (poll fuel path p) := by
  have round : Proc.Sim (fun g p => Agree src g p ∧ cstr g.linebuf q = path) Eq
      (waitMounted fuel q) (poll fuel path) := by
    refine Proc.Sim.iter (fun _ g p ⟨hA, hq⟩ => ?_) fuel ()
    rw [Proc.bind_apply, Proc.get_apply, Prog.ret_bind, Proc.next_ok, hq]
    refine .call fun r => ?_
    show Prog.Rel _ ((ite (r.1 = 1) _ _ : Sys _) _) ((ite (r.1 = 1) _ _ : Proc sys Ports _) p)
    split
    · exact .ret ⟨rfl, hA.errno r.2, hq⟩
    · exact .call fun r' => .ret ⟨rfl, (hA.errno r.2).errno r'.2, hq⟩
  exact (round g p ⟨hA, hq⟩).mono fun _ _ h => h.mono (fun _ _ h => h.1) fun _ _ _ => trivial

theorem sCmdWaitfor_ok {ops : List Str} (hA : Agree src g p) (h : TokensLeft g ops) :
    Matches src (sCmdWaitfor fuel g) ((match ops with
      | [] => Proc.exit (-1)
      | path :: _ => poll fuel path) p) := by
  cases ops with
  | nil => exact operand_none hA h fun g' hA => .ret ⟨rfl, hA⟩
  | cons path ops =>
    refine operand_some hA h fun q g₁ hA _ hq _ => ?_
    exact Proc.rel_drop (waitMounted_ok hA hq.cstr_eq)

theorem sCmdCreateport_ok (hA : Agree src g p) :
    Matches src (sCmdCreateport g) (createport p) := by
  simp only [sCmdCreateport, createport, Proc.bind_apply, syscall_apply, issue_apply,
    Prog.call_bind, Prog.ret_bind, Proc.next_ok, Proc.modify_apply, Prog.rel_call, Proc.ite_apply]
  intro r
  split
  · exact .ret ⟨trivial, hA.src_eq, rfl, hA.kq_eq⟩
  · refine .call fun r' => ?_
    split <;> exact .ret ⟨trivial, hA.src_eq, rfl, rfl⟩

/-! ### `start` -/

theorem TokensLeft.length_lt {ts : List Str} (h : TokensLeft g ts) : ts.length < ARG_SZ := by
  obtain ⟨ch, s, -, hs, rfl⟩ := h
  have : (tokensBy ' ' '"' s).length ≤ s.length := length_tokensBy_le s
  have := hs.lt
  show (tokensBy ' ' '"' s).length < 256
  omega

/-- The tokens left on the line are stored from `start_argv[t]` on, with a NULL
after them and what follows it left as it was. It is the NULL that ends the loop,
whatever `n` bounds it by. -/
theorem storeArgs_ok {ts : List Str} : ∀ {t : Nat} {g : Globals}, Agree src g p →
    TokensLeft g ts → t + ts.length < ARG_SZ →
    ∃ qs g', (∀ n, ts.length < n → storeArgs n t g = .ret (.ok (), g')) ∧ Agree src g' p ∧
      g'.startArgv.toList = g.startArgv.toList.take t ++ qs.map some ++
        none :: g.startArgv.toList.drop (t + ts.length + 1) ∧
      List.Forall₂ (Token g') qs ts ∧ Keeps g g' := by
  induction ts with
  | nil =>
    intro t g hA h ht
    obtain ⟨ch, g₁, e, hT, hK⟩ := sTokenize_nil h
    have hlt : t < g.startArgv.toList.length := by rw [Vector.length_toList]; exact ht
    refine ⟨[], { g₁ with startArgv := g₁.startArgv.setIfInBounds t none }, fun n hn => ?_,
      ⟨hT.src_eq.trans hA.src_eq, hT.same.portid.trans hA.portid_eq, hT.same.kq.trans hA.kq_eq⟩, ?_,
      .nil, fun q tok h => ⟨(hK q tok h).1, (hK q tok h).2⟩⟩
    · obtain ⟨n, rfl⟩ : ∃ m, n = m + 1 := Nat.exists_eq_add_one.mpr hn
      simp [storeArgs, e]
    · rw [Vector.toList_setIfInBounds, hT.startArgv_eq, set_eq_fill hlt]
      rfl
  | cons tok ts ih =>
    intro t g hA h ht
    rw [List.length_cons] at ht
    obtain ⟨ch, q, g₁, e, hleft, htok, hT, hK⟩ := sTokenize_cons h
    have hlt : t < g.startArgv.toList.length := by rw [Vector.length_toList]; omega
    have hA₁ := hT.agree hA
    obtain ⟨qs, g', e', hA', hargv, htoks, hK'⟩ :=
      ih (t := t + 1) (g := { g₁ with startArgv := g₁.startArgv.setIfInBounds t (some q) })
        ⟨hA₁.1, hA₁.2, hA₁.3⟩ hleft (by omega)
    have hK₁ : Keeps g₁ g' := fun q tok h => hK' q tok ⟨h.1, h.2⟩
    refine ⟨q :: qs, g', fun n hn => ?_, hA', ?_, .cons (hK₁ q tok htok) htoks, fun q tok h =>
      hK₁ q tok (hK q tok h)⟩
    · obtain ⟨n, rfl⟩ : ∃ m, n = m + 1 := Nat.exists_eq_add_one.mpr (Nat.zero_lt_of_lt hn)
      simp only [storeArgs, Proc.bind_apply, e, Prog.ret_bind, Proc.next_ok, Proc.modify_apply,
        e' n (Nat.lt_of_succ_lt_succ hn)]
    · rw [hargv, Vector.toList_setIfInBounds, hT.startArgv_eq, set_fill hlt]
      rfl

/-- `execve` reads the tokens that were stored. -/
theorem argvStrings_ok {qs : List Nat} {ts : List Str} (h : List.Forall₂ (Token g) qs ts)
    (r : List (Option Nat)) :
    argvStrings g.linebuf (qs.map some ++ none :: r) = some ts := by
  induction h with
  | nil => rfl
  | cons hq _ ih => rw [List.map_cons, List.cons_append, argvStrings, ih, Option.map_some, hq.cstr_eq]

/-- `s_cmd_start` stores the tokens left on the line and, if there are any, forks a
child that runs them. -/
theorem sCmdStart_eq (session : Bool) {ops : List Str} (hA : Agree src g p) (h : TokensLeft g ops) :
    ∃ qs g', (∀ n, ops.length < n → storeArgs n 0 g = .ret (.ok (), g')) ∧ Agree src g' p ∧
      g'.startArgv.toList = qs.map some ++ none :: g.startArgv.toList.drop (ops.length + 1) ∧
      List.Forall₂ (Token g') qs ops ∧
      sCmdStart session g =
        if ops = [] then .ret (.ok (-1), g')
        else .call (.fork (.start session ops)) fun pid =>
          .ret (.ok (if pid.1 = none then -1 else 0), { g' with errno := pid.2 }) := by
  obtain ⟨qs, g', e, hA', hargv, htoks, -⟩ :=
    storeArgs_ok hA h (by rw [Nat.zero_add]; exact h.length_lt)
  rw [List.take_zero, List.nil_append, Nat.zero_add] at hargv
  refine ⟨qs, g', e, hA', hargv, htoks, ?_⟩
  have h₀ : some g'.startArgv[0] = (qs.map some ++ none :: g.startArgv.toList.drop (ops.length + 1)).head? := by
    rw [← hargv, List.head?_eq_getElem?, List.getElem?_eq_getElem (by rw [hargv]; simp)]
    rfl
  simp only [sCmdStart, Proc.bind_apply, e _ h.length_lt, Prog.ret_bind, Proc.next_ok, Proc.get_apply]
  cases htoks with
  | nil =>
    rw [show g'.startArgv[0] = none from Option.some.inj h₀]
    rfl
  | @cons q _ qs ts hq htoks =>
    rw [show g'.startArgv[0] = some q from Option.some.inj h₀, hargv, argvStrings_ok (.cons hq htoks),
      if_neg (List.cons_ne_nil _ _)]
    show Prog.call _ _ = Prog.call _ _
    congr 1
    funext pid
    obtain ⟨pid, err⟩ := pid
    cases pid <;> rfl

theorem sCmdStart_ok {ops : List Str} (hA : Agree src g p) (h : TokensLeft g ops) :
    Matches src (sCmdStart false g) ((match ops with
      | [] => skip
      | _ :: _ => perform (.fork (.start false ops))) p) := by
  obtain ⟨qs, g', -, hA', -, -, e⟩ := sCmdStart_eq false hA h
  rw [e]
  cases ops with
  | nil => exact matches_ret hA'
  | cons op ops => exact .call fun pid => matches_ret (hA'.errno pid.2)

/-! ## The dispatch -/

/-- A line's command, on the tokens left on the line. -/
theorem dispatch_ok {ops : List Str} (cmd : Str) (hA : Agree src g p) (h : TokensLeft g ops) :
    Matches src (dispatch fuel cmd g) (command fuel (Proc.exit (-1)) cmd ops p) := by
  unfold dispatch command
  refine matches_ite (Proc.rel_drop (sCmdStart_ok hA h)) ?_
  refine matches_ite (Proc.rel_drop (sCmdWaitfor_ok hA h)) ?_
  refine matches_ite (Proc.rel_drop (sCmdMknod_ok hA h)) ?_
  refine matches_ite (Proc.rel_drop (sCmdSleep_ok hA h)) ?_
  refine matches_ite (Proc.rel_drop (sCmdChdir_ok hA h)) ?_
  refine matches_ite (Proc.rel_drop (twoOperands_ok (fun _ _ _ hA => matches_syscall hA) hA h)) ?_
  refine matches_ite (Proc.rel_drop (twoOperands_ok (fun _ _ _ hA => matches_syscall hA) hA h)) ?_
  exact matches_ite (Proc.rel_drop (sCmdCreateport_ok hA)) (matches_ret hA)

end Cheviot.Proof
