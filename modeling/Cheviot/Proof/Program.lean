import Cheviot.Proof.ScriptLaws
import Cheviot.Proof.Tokens
import Cheviot.Spec.Program

/-!
# Scripts and their programs

What `process_bootstrap_script` does is what the program of its script does (`interpret_program`), and
nothing of the program can be left out: scripts with different programs have different effects
(`program_ext`). The text of a program is read back as the program (`program_text`), and only programs
that can be written are read (`program_writable`).
-/

namespace Cheviot.Proof

open Framework Cheviot.Sysinit Cheviot.Spec

variable {fuel : Nat} {p : Ports} {P Q : Program} {i j : Instr} {script : Str}

/-! ## What a program does -/

theorem instr_idle {cmd : Str} (h : cmd = [] ∨ cmd.head? = some '#') (ops : List Str) :
    instr (cmd :: ops) = none := by
  have hne : ∀ {name : Str}, name ≠ [] → name.head? ≠ some '#' → cmd ≠ name := by
    rintro name hnil hhead rfl
    exact h.elim hnil hhead
  rw [instr]
  unfold Instr.read
  rw [if_neg (hne (by decide) (by decide)), if_neg (hne (by decide) (by decide)),
    if_neg (hne (by decide) (by decide)), if_neg (hne (by decide) (by decide)),
    if_neg (hne (by decide) (by decide)), if_neg (hne (by decide) (by decide)),
    if_neg (hne (by decide) (by decide)), if_neg (hne (by decide) (by decide))]

/-- A line does what its command does, if it has one. -/
theorem runTokens_instr {bare : Effect} {ts : List Str} (h : ts ≠ ["waitfor".toList]) :
    runTokens fuel bare ts = ((instr ts).map (Instr.run fuel)).getD skip := by
  cases ts with
  | nil => rfl
  | cons cmd ops =>
    rw [runTokens]
    by_cases hidle : cmd = [] ∨ cmd.head? = some '#'
    · rw [if_pos hidle, instr_idle hidle]
      rfl
    rw [if_neg hidle, instr]
    unfold command Instr.read
    split_ifs with hstart hwaitfor
    · cases ops <;> rfl
    · cases ops with
      | nil => exact absurd (by rw [hwaitfor]) h
      | cons path ops => rfl
    · rcases ops with _ | ⟨path, _ | ⟨mode, _ | ⟨type, ops⟩⟩⟩ <;> try rfl
      cases hmode : nodeMode mode type <;>
      · simp only [hmode]
        rfl
    · cases ops <;> rfl
    · cases ops <;> rfl
    · rcases ops with _ | ⟨newRoot, _ | ⟨oldRoot, ops⟩⟩ <;> rfl
    · rcases ops with _ | ⟨newPath, _ | ⟨oldPath, ops⟩⟩ <;> rfl
    · rfl
    · rfl

theorem run_cons (is : List Instr) (stops : Bool) :
    Program.run fuel ⟨i :: is, stops⟩ = (do i.run fuel; Program.run fuel ⟨is, stops⟩) := by
  simp only [Program.run, List.forM_eq_forM, List.forM_cons, bind_assoc]

theorem interpretLines_program (ls : List Str) :
    interpretLines fuel (Proc.exit (-1)) ls = (programOf (ls.map tokens)).run fuel := by
  induction ls with
  | nil => rfl
  | cons l ls ih =>
    rw [interpretLines_cons, List.map_cons, programOf]
    by_cases hbare : tokens l = ["waitfor".toList]
    · rw [if_pos hbare, runTokens_bare hbare]
      rfl
    · rw [if_neg hbare, runTokens_instr hbare, ih]
      cases instr (tokens l) with
      | none => exact pure_bind () fun _ => (programOf (ls.map tokens)).run fuel
      | some i => exact (run_cons _ _).symm

/-- A script does what its program does. -/
theorem interpret_program (script : Str) :
    interpret fuel (Proc.exit (-1)) script = (program script).run fuel := interpretLines_program _

/-- A command of a program is that of a line before a `waitfor` without an operand. -/
theorem mem_programOf {tss : List (List Str)} (hi : i ∈ (programOf tss).instrs) :
    ∃ ts ∈ tss.takeWhile (· ≠ ["waitfor".toList]), instr ts = some i := by
  induction tss with
  | nil => cases hi
  | cons ts tss ih =>
    rw [programOf] at hi
    by_cases hbare : ts = ["waitfor".toList]
    · rw [if_pos hbare] at hi
      cases hi
    rw [if_neg hbare] at hi
    rw [List.takeWhile_cons_of_pos (p := fun ts => decide (ts ≠ ["waitfor".toList])) (decide_eq_true hbare)]
    rcases List.mem_append.mp hi with hi | hi
    · exact ⟨ts, List.mem_cons_self, Option.mem_toList.mp hi⟩
    · obtain ⟨ts', hmem, hinstr⟩ := ih hi
      exact ⟨ts', List.mem_cons_of_mem _ hmem, hinstr⟩

theorem or_mode {kind : BitVec 32} (h : kind &&& IFCHR = IFCHR) (mode : BitVec 32) :
    (mode ||| kind) &&& IFCHR = IFCHR := by
  rw [← h]
  ext k hk
  simp only [BitVec.getElem_or, BitVec.getElem_and]
  cases mode[k] <;> cases kind[k] <;> rfl

theorem nodeMode_device {mode type : Str} {m : BitVec 32} (h : nodeMode mode type = some m) :
    m &&& IFCHR = IFCHR := by
  unfold nodeMode at h
  split_ifs at h <;> obtain rfl := Option.some.inj h
  · exact or_mode (by decide) _
  · exact or_mode (by decide) _

/-- A command that is read has the tokens of its line, but for a number or the kind of a node. -/
theorem read_cases {cmd : Str} {ops : List Str} (hi : Instr.read cmd ops = some i) :
    (i.words <+: cmd :: ops ∧ (∀ path mode, i ≠ .mknod path mode) ∧ i.Fits) ∨
    (∃ path mode, i = .mknod path mode ∧ path ∈ ops ∧ mode &&& IFCHR = IFCHR) ∨
    ∃ n, i = .sleep (atoi n) ∧ numeral (cmd :: ops) = some n := by
  unfold Instr.read at hi
  split_ifs at hi with hcmd hcmd hcmd hcmd hcmd hcmd hcmd hcmd <;> subst hcmd
  · rcases ops with _ | ⟨path, args⟩ <;> cases hi
    exact .inl ⟨List.prefix_rfl, by simp, trivial⟩
  · rcases ops with _ | ⟨path, ops⟩ <;> cases hi
    exact .inl ⟨⟨ops, rfl⟩, by simp, trivial⟩
  · rcases ops with _ | ⟨path, _ | ⟨mode, _ | ⟨type, ops⟩⟩⟩ <;> try cases hi
    obtain ⟨m, hm, rfl⟩ := Option.map_eq_some_iff.mp hi
    exact .inr (.inl ⟨path, m, rfl, List.mem_cons_self, nodeMode_device hm⟩)
  · rcases ops with _ | ⟨seconds, ops⟩ <;> cases hi
    exact .inr (.inr ⟨seconds, rfl, rfl⟩)
  · rcases ops with _ | ⟨path, ops⟩ <;> cases hi
    exact .inl ⟨⟨ops, rfl⟩, by simp, trivial⟩
  · rcases ops with _ | ⟨newRoot, _ | ⟨oldRoot, ops⟩⟩ <;> cases hi
    exact .inl ⟨⟨ops, rfl⟩, by simp, trivial⟩
  · rcases ops with _ | ⟨newPath, _ | ⟨oldPath, ops⟩⟩ <;> cases hi
    exact .inl ⟨⟨ops, rfl⟩, by simp, trivial⟩
  · cases hi
    exact .inl ⟨⟨ops, rfl⟩, by simp, trivial⟩

theorem instr_fits {ts : List Str} (h : ∀ n ∈ numeral ts, FitsInt (atoi n)) (hi : instr ts = some i) :
    i.Fits := by
  cases ts with
  | nil => cases hi
  | cons cmd ops =>
    rcases read_cases hi with ⟨-, -, hfits⟩ | ⟨path, mode, rfl, -⟩ | ⟨n, rfl, hn⟩
    · exact hfits
    · trivial
    · exact h n hn

theorem program_fits (h : NumbersFit script) : ∀ i ∈ (program script).instrs, i.Fits := by
  intro i hi
  obtain ⟨ts, hts, hinstr⟩ := mem_programOf hi
  exact instr_fits (h ts hts) hinstr

/-! ## What can be seen of a program -/

/-- The first call of a command. -/
def Instr.call : Instr → Call
  | .start path args => .fork (.start false (path :: args))
  | .waitfor path => .ismount path
  | .mknod path mode => .mknod2 path 0
      { stSize := some 0, stUid := some 0, stGid := some 0, stMode := some mode }
  | .sleep seconds => .sleep (BitVec.ofInt 32 seconds)
  | .chdir path => .chdir path
  | .pivot newRoot oldRoot => .pivotroot newRoot oldRoot
  | .renamemount newPath oldPath => .renamemount newPath oldPath
  | .createport => .createmsgport 0
      { stDev := some 0, stIno := some 0, stMode := some (0o777#32 ||| IFCHR), stUid := some 0,
        stGid := some 0, stBlksize := some 0, stSize := some 0, stBlocks := some 0 }

theorem run_nil (stops : Bool) : Program.run fuel ⟨[], stops⟩ p =
    .ret (if stops then .exited (-1) else .ok (), p) := by
  cases stops <;> rfl

/-- What a decimal digit is, and what it is not. -/
theorem decimal_digit : ∀ d < 10, ('0' ≤ Nat.digitChar d ∧ Nat.digitChar d ≤ '9') ∧
    (Nat.digitChar d).toNat - '0'.toNat = d ∧ isSpace (Nat.digitChar d) = false ∧
    Nat.digitChar d ∉ ['-', '+', '"', NUL, '\r', '\n'] := by
  decide

theorem digits_read {ds : Str} (h : ∀ c ∈ ds, '0' ≤ c ∧ c ≤ '9') (n : Nat) :
    digits ds n = readDigits (fun c => c.toNat - '0'.toNat) 10 n ds := by
  induction ds generalizing n with
  | nil => rfl
  | cons c ds ih =>
    rw [digits, if_pos (h c List.mem_cons_self), ih fun c hc => h c (List.mem_cons_of_mem _ hc)]
    rfl

theorem digits_toDigits (n : Nat) : digits (Nat.toDigits 10 n) 0 = n := by
  have hdigits : ∀ c ∈ Nat.toDigits 10 n, '0' ≤ c ∧ c ≤ '9' := by
    intro c hc
    obtain ⟨d, hd, rfl⟩ := mem_toDigits (by decide) hc
    exact (decimal_digit d hd).1
  rw [digits_read hdigits]
  exact readDigits_toDigits (fun d hd => (decimal_digit d hd).2.1) (by decide) n

theorem atoi_decimal (n : Int) : atoi (decimal n) = n := by
  have hread := digits_toDigits n.natAbs
  rw [decimal]
  split
  · show -(digits (Nat.toDigits 10 n.natAbs) 0 : Int) = n
    omega
  · obtain ⟨c, ds, hds⟩ := List.exists_cons_of_ne_nil (Nat.toDigits_ne_nil (n := n.natAbs) (b := 10))
    obtain ⟨d, hd, rfl⟩ := mem_toDigits (b := 10) (by decide) (by rw [hds]; exact List.mem_cons_self)
    obtain ⟨-, -, hspace, hplain⟩ := decimal_digit d hd
    rw [hds] at hread ⊢
    rw [atoi, List.dropWhile_cons_of_neg (by simp [hspace])]
    split
    · rename_i he
      exact absurd (by simp [(List.cons.inj he).1]) hplain
    · rename_i he
      exact absurd (by simp [(List.cons.inj he).1]) hplain
    · omega

/-- A number can be on a line. -/
theorem decimal_text (n : Int) : IsText (decimal n) ∧ Expressible (decimal n) := by
  have hchars : ∀ c ∈ decimal n, c ∉ ['"', NUL, '\r', '\n'] := by
    intro c hc
    have hcases : c = '-' ∨ c ∈ Nat.toDigits 10 n.natAbs := by
      rw [decimal] at hc
      split at hc
      · exact List.mem_cons.mp hc
      · exact .inr hc
    rcases hcases with rfl | hc
    · decide
    · obtain ⟨d, hd, rfl⟩ := mem_toDigits (by decide) hc
      obtain ⟨-, -, -, hplain⟩ := decimal_digit d hd
      simp_all
  refine ⟨fun c hc => ?_, .inl fun hquote => ?_⟩
  · have := hchars c hc
    simp_all [isEol]
  · exact hchars _ hquote (by decide)

/-! ## Writing a program and reading it back -/

/-- The bits of a character device do not change a mode that has them. -/
theorem mode_or {mode : BitVec 32} (h : mode &&& IFCHR = IFCHR) : mode ||| IFCHR = mode := by
  rw [← h]
  ext k hk
  simp only [BitVec.getElem_or, BitVec.getElem_and]
  cases mode[k] <;> rfl

theorem instr_words (h : i.Writable) : instr i.words = some i := by
  cases i with
  | mknod path mode =>
    have hmode : nodeMode (decimal mode.toInt) ['c'] = some mode := by
      rw [nodeMode, List.head?_cons, if_pos rfl, atoi_decimal, BitVec.ofInt_toInt, mode_or (h.2.1 path mode rfl)]
    show (nodeMode (decimal mode.toInt) ['c']).map (Instr.mknod path) = _
    rw [hmode]
    rfl
  | sleep seconds =>
    show some (Instr.sleep (atoi (decimal seconds))) = _
    rw [atoi_decimal]
  | _ => rfl

theorem words_ne_bare (i : Instr) : i.words ≠ ["waitfor".toList] := by
  cases i <;> simp [Instr.words]

theorem programOf_words {is : List Instr} {stops : Bool} (h : ∀ i ∈ is, i.Writable) :
    programOf (Program.words ⟨is, stops⟩) = ⟨is, stops⟩ := by
  induction is with
  | nil => cases stops <;> rfl
  | cons i is ih =>
    have ih := ih fun j hj => h j (List.mem_cons_of_mem _ hj)
    have hwords : Program.words ⟨i :: is, stops⟩ = i.words :: Program.words ⟨is, stops⟩ := rfl
    rw [hwords, programOf, if_neg (words_ne_bare i), instr_words (h i List.mem_cons_self), ih]
    rfl

theorem mem_words {ts : List Str} (hts : ts ∈ P.words) :
    (∃ i ∈ P.instrs, ts = i.words) ∨ ts = ["waitfor".toList] := by
  rcases List.mem_append.mp hts with hts | hts
  · obtain ⟨i, hi, rfl⟩ := List.mem_map.mp hts
    exact .inl ⟨i, hi, rfl⟩
  · split at hts
    · exact .inr (List.mem_singleton.mp hts)
    · cases hts

theorem words_text (h : P.Writable) : ∀ ts ∈ P.words, ∀ tok ∈ ts, IsText tok ∧ Expressible tok := by
  intro ts hts
  rcases mem_words hts with ⟨i, hi, rfl⟩ | rfl
  · exact (h i hi).1
  · exact List.forall_mem_singleton.mpr ⟨by decide, .inl (by decide)⟩

/-- Lines that a newline ends each. -/
theorem lines_flatMap {ls : List Str} (h : ∀ l ∈ ls, IsText l) : lines (ls.flatMap (· ++ ['\n'])) = ls := by
  induction ls with
  | nil => rfl
  | cons l ls ih =>
    have hl : ∀ c ∈ l, ¬ isEol c := fun c hc => (h l List.mem_cons_self c hc).2
    rw [List.flatMap_cons, List.append_assoc, List.singleton_append, lines,
      pieces_append_cons hl (by decide), ← lines, ih fun l hl => h l (List.mem_cons_of_mem _ hl)]

theorem lines_text (h : P.Writable) : lines P.text = P.lines := by
  refine lines_flatMap fun l hl => ?_
  obtain ⟨ts, hts, rfl⟩ := List.mem_map.mp hl
  exact isText_writeTokens fun tok htok => (words_text h ts hts tok htok).1

theorem tokens_lines (h : P.Writable) : P.lines.map tokens = P.words := by
  have hback : ∀ ts ∈ P.words, tokens (writeTokens ' ' '"' ts) = ts := fun ts hts =>
    tokensBy_writeTokens (by decide) fun tok htok => (words_text h ts hts tok htok).2
  rw [Program.lines, List.map_map]
  exact (List.map_congr_left hback).trans (List.map_id _)

theorem program_text (h : P.Writable) : program P.text = P := by
  rw [program, lines_text h, tokens_lines h]
  exact programOf_words h

theorem numeral_words (h : i.Fits) : ∀ n ∈ numeral i.words, FitsInt (atoi n) := by
  intro n hn
  cases i with
  | mknod path mode =>
    obtain rfl := Option.some.inj (hn : some (decimal mode.toInt) = some n)
    rw [atoi_decimal]
    exact ⟨BitVec.le_toInt mode, BitVec.toInt_lt⟩
  | sleep seconds =>
    obtain rfl := Option.some.inj (hn : some (decimal seconds) = some n)
    rw [atoi_decimal]
    exact h
  | _ => cases hn

/-- The numbers that are written are `int`s. -/
theorem numbersFit_text (h : P.Writable) : NumbersFit P.text := by
  intro ts hts
  rw [lines_text h, tokens_lines h] at hts
  rcases mem_words (List.takeWhile_subset _ hts) with ⟨i, hi, rfl⟩ | rfl
  · exact numeral_words (h i hi).2.2
  · exact fun n hn => by cases hn

theorem nul_text (h : P.Writable) : NUL ∉ P.text := by
  intro hnul
  obtain ⟨l, hl, hnul⟩ := List.mem_flatMap.mp hnul
  obtain ⟨ts, hts, rfl⟩ := List.mem_map.mp hl
  rcases List.mem_append.mp hnul with hnul | hnul
  · exact isText_nul (isText_writeTokens fun tok htok => (words_text h ts hts tok htok).1) hnul
  · revert hnul
    decide

/-- What the lines of a script can hold, and their tokens can be. -/
theorem text_of_mem_tokens (hnul : NUL ∉ script) {l tok : Str} (hl : l ∈ lines script) (htok : tok ∈ tokens l) :
    IsText tok ∧ Expressible tok := by
  refine ⟨fun c hc => ?_, isToken_of_mem htok⟩
  obtain ⟨hmem, hnot⟩ := of_mem_pieces hl ((infix_of_mem_tokensBy htok).subset hc)
  exact ⟨fun h => hnul (h ▸ hmem), hnot⟩

theorem instr_writable {ts : List Str} (h : ∀ tok ∈ ts, IsText tok ∧ Expressible tok) (hfits : i.Fits)
    (hi : instr ts = some i) : i.Writable := by
  cases ts with
  | nil => cases hi
  | cons cmd ops =>
    have hname : ∀ {name : Str}, IsText name ∧ '"' ∉ name → IsText name ∧ Expressible name :=
      fun h => ⟨h.1, .inl h.2⟩
    rcases read_cases hi with ⟨hwords, hne, -⟩ | ⟨path, mode, rfl, hpath, hmode⟩ | ⟨n, rfl, -⟩
    · exact ⟨fun tok htok => h tok (hwords.subset htok), fun path mode he => absurd he (hne path mode), hfits⟩
    · refine ⟨?_, fun _ _ he => (by obtain ⟨-, rfl⟩ := Instr.mknod.inj he; exact hmode), hfits⟩
      simp only [Instr.words, List.forall_mem_cons]
      exact ⟨hname (by decide), h path (List.mem_cons_of_mem _ hpath), decimal_text _, hname (by decide), by simp⟩
    · refine ⟨?_, fun _ _ he => (by cases he), hfits⟩
      simp only [Instr.words, List.forall_mem_cons]
      exact ⟨hname (by decide), decimal_text _, by simp⟩

/-- Only programs that can be written are read, where the numbers fit. -/
theorem program_writable (hnul : NUL ∉ script) (hnumbers : NumbersFit script) : (program script).Writable := by
  intro i hi
  obtain ⟨ts, hts, hinstr⟩ := mem_programOf hi
  obtain ⟨l, hl, rfl⟩ := List.mem_map.mp (List.takeWhile_subset _ hts)
  exact instr_writable (fun tok htok => text_of_mem_tokens hnul hl htok) (program_fits hnumbers i hi) hinstr

/-! ## The text of a program -/

/-- The text of a program whose lines fit is read back as the program, and does what the program does. -/
theorem processBootstrapScript_text (hP : P.Writable) (hfit : ∀ l ∈ P.lines, l.length ≤ 255) (fuel : Nat)
    (r : List Char) (g : Globals) : program P.text = P ∧ NumbersFit P.text ∧
    Prog.Rel (Proc.Ends SamePorts fun sc _ => sc = 0)
      (processBootstrapScript fuel (some (P.text ++ NUL :: r)) g) (P.run fuel (ports g)) := by
  have hlines : LinesFit P.text := fun l hl => hfit l (lines_text hP ▸ hl)
  have hcode := processBootstrapScript_ok fuel r (nul_text hP) hlines
    (⟨rfl, rfl⟩ : SamePorts g (ports g))
  rw [interpret_program, program_text hP] at hcode
  exact ⟨program_text hP, numbersFit_text hP, hcode⟩

/-- Two commands, one of them on a path with a space. -/
theorem processBootstrapScript_text_chdir :
    program (Program.text ⟨[.chdir "/a b".toList, .sleep 5], true⟩) = ⟨[.chdir "/a b".toList, .sleep 5], true⟩ ∧
    NumbersFit (Program.text ⟨[.chdir "/a b".toList, .sleep 5], true⟩) ∧
    Prog.Rel (Proc.Ends SamePorts fun sc _ => sc = 0)
      (processBootstrapScript 1 (some (Program.text ⟨[.chdir "/a b".toList, .sleep 5], true⟩ ++ [NUL]))
        (Globals.initial [] 0))
      (Program.run 1 ⟨[.chdir "/a b".toList, .sleep 5], true⟩ (ports (Globals.initial [] 0))) := by
  have hwritable : Program.Writable ⟨[.chdir "/a b".toList, .sleep 5], true⟩ := by
    rw [show (⟨[.chdir "/a b".toList, .sleep 5], true⟩ : Program) =
      program "chdir \"/a b\"\nsleep 5\nwaitfor".toList by decide]
    exact program_writable (by decide) (by decide)
  exact processBootstrapScript_text hwritable (by decide) 1 [] (Globals.initial [] 0)

/-- A script whose lines and numbers fit does what the text of its program does, if its lines fit, too. -/
theorem processBootstrapScript_rewritten (hnul : NUL ∉ script) (hfit : LinesFit script)
    (hnumbers : NumbersFit script) (hfit' : LinesFit (program script).text) (fuel : Nat) (r r' : List Char)
    (g : Globals) :
    (program script).Writable ∧ program (program script).text = program script ∧
    NumbersFit (program script).text ∧
    SameEffects (processBootstrapScript fuel (some (script ++ NUL :: r)) g)
      (processBootstrapScript fuel (some ((program script).text ++ NUL :: r')) g) := by
  have hwritable := program_writable hnul hnumbers
  have hback := program_text hwritable
  exact ⟨hwritable, hback, numbersFit_text hwritable,
    sameEffects_of_interpret hnul (nul_text hwritable) hfit hfit' rfl (by
      rw [interpret_program, interpret_program, hback])⟩

/-- A script with a comment, and the text of its program. -/
theorem processBootstrapScript_rewritten_comment :
    (program "# wait\r\nsleep  5 seconds".toList).Writable ∧
    program (program "# wait\r\nsleep  5 seconds".toList).text = program "# wait\r\nsleep  5 seconds".toList ∧
    NumbersFit (program "# wait\r\nsleep  5 seconds".toList).text ∧
    SameEffects
      (processBootstrapScript 1 (some ("# wait\r\nsleep  5 seconds".toList ++ [NUL])) (Globals.initial [] 0))
      (processBootstrapScript 1 (some ((program "# wait\r\nsleep  5 seconds".toList).text ++ [NUL]))
        (Globals.initial [] 0)) :=
  processBootstrapScript_rewritten (by decide) (by decide) (by decide) (by decide) 1 [] [] (Globals.initial [] 0)

end Cheviot.Proof
