import Cheviot.Framework.Field
import Cheviot.Framework.Mirror
import Cheviot.Proof.ShutdownHow

/-!
# The kind of shutdown, as it is requested

The buffer of `state_message_loop` holds the bytes of all the requests that were
read, one over the other (`Overlays`), and the calls of the loop depend on none of
them (`stateMessageLoop_mirrors`). `stateMessageLoop_how`: `shutdown_how` is what
a request carries, whatever the buffer held before, exactly if the last request
was delivered as far as the end of the field.
-/

namespace Cheviot.Proof

open Framework Cheviot.Sysinit Cheviot.Spec

variable {how : List UInt8 → Int} {fuel : Nat} {g g' : Globals} {t t' : List (Event sys)}

/-! ## The buffer -/

theorem delivered_append (t t' : List (Event sys)) : delivered (t ++ t') = delivered t ++ delivered t' :=
  List.filterMap_append

/-- The buffer holds what it did, under the bytes that are delivered of each request,
and `shutdown_how` is what it held with the last one. -/
structure Overlays (how : List UInt8 → Int) (g : Globals) (t : List (Event sys)) (g' : Globals) : Prop where
  buf : g'.sysinitReq = (delivered t).foldl overlay g.sysinitReq
  value : delivered t ≠ [] → g'.shutdownHow = how g'.sysinitReq
  unread : delivered t = [] → g'.shutdownHow = g.shutdownHow

theorem overlays_chains : Proc.Chains (Overlays how) where
  nil g := ⟨rfl, fun h => absurd rfl h, fun _ => rfl⟩
  append := by
    intro g t g' t' g'' h h'
    have hdelivered := delivered_append t t'
    refine ⟨?_, fun hne => ?_, fun hnil => ?_⟩
    · rw [h'.buf, h.buf, hdelivered, List.foldl_append]
    · by_cases ht' : delivered t' = []
      · have ht : delivered t ≠ [] := fun ht => hne (by rw [hdelivered, ht, ht']; rfl)
        rw [h'.unread ht', h.value ht, h'.buf, ht']
        rfl
      · exact h'.value ht'
    · rw [hdelivered, List.append_eq_nil_iff] at hnil
      rw [h'.unread hnil.2, h.unread hnil.1]

/-- Code that reads no request, and leaves the buffer alone. -/
theorem overlays_of_frame {α : Type} {c : Sys α}
    (hc : Proc.Frame (isSilent ·) (fun g => (g.sysinitReq, g.shutdownHow)) c) :
    Proc.Leads (Overlays how) c := hc.leads fun g t g' hq hk => by
  have hdelivered : delivered t = [] := List.filterMap_eq_nil_iff.mpr fun e he => by
    have := hq e he
    obtain ⟨c, r⟩ := e
    cases c <;> first | rfl | cases this
  obtain ⟨hbuf, hvalue⟩ := Prod.mk.inj hk
  exact ⟨by rw [hdelivered, hbuf]; rfl, fun h => absurd hdelivered h, fun _ => hvalue⟩

theorem handleMessage_overlays (msgid : Int) (req : Iorequest) :
    Proc.Leads (Overlays how) (handleMessage how msgid req) := fun g t o g' hr => by
  rcases handleMessage_cases (m := ⟨msgid, req⟩) hr with ⟨-, r₁, r₂, rfl, rfl⟩ | ⟨-, r, rfl, rfl⟩
  · exact ⟨rfl, fun _ => rfl, nofun⟩
  · exact ⟨rfl, fun h => absurd rfl h, fun _ => rfl⟩

theorem stateMessageLoop_overlays : Proc.Leads (Overlays how) (stateMessageLoop how fuel) := by
  have silent : ∀ {c : Call}, isSilent c → Proc.Leads (Overlays how) (syscall c) := fun h =>
    overlays_of_frame (syscall_frame h fun _ _ => rfl)
  exact stateMessageLoop_leads overlays_chains (fun _ _ => silent rfl)
    (overlays_of_frame (.modify fun _ => rfl)) (fun _ => silent rfl)
    (drainRound_leads overlays_chains (fun _ => silent rfl) handleMessage_overlays)

/-! ## The calls do not depend on the bytes -/

/-- The same memory, but for the bytes in the buffer and the kind of shutdown. -/
def SameButBuffer (g g' : Globals) : Prop :=
  ∃ buf value, buf.length = g.sysinitReq.length ∧ g' = { g with sysinitReq := buf, shutdownHow := value }

theorem syscall_mirrors {c : Call} {V : c.Result → c.Result → Prop}
    (h : ∀ r errno e, SameButBytes ⟨c, (r, errno)⟩ e → ∃ r', e = ⟨c, (r', errno)⟩ ∧ V r r') :
    Proc.Mirrors SameButBuffer SameButBytes V (syscall c) (syscall c) := by
  refine .bind (V := fun r r' => r'.2 = r.2 ∧ V r.1 r'.1) (.call fun r e he => ?_) fun r r' hr => ?_
  · obtain ⟨r', rfl, hV⟩ := h r.1 r.2 e he
    exact ⟨(r', r.2), rfl, rfl, hV⟩
  · refine .bind (.modify ?_) fun _ _ _ => .pure hr.2
    rintro g _ ⟨buf, value, hlen, rfl⟩
    rw [hr.1]
    exact ⟨buf, value, hlen, rfl⟩

theorem readmsg_mirrors (portid msgid : Int) (size : Nat) :
    Proc.Mirrors SameButBuffer SameButBytes
      (fun r r' : Int × List UInt8 => r'.2.length = r.2.length)
      (syscall (.readmsg portid msgid size)) (syscall (.readmsg portid msgid size)) := by
  refine syscall_mirrors (c := .readmsg portid msgid size)
    (V := fun r r' : Int × List UInt8 => r'.2.length = r.2.length) fun r errno e he => ?_
  obtain ⟨data, hdata, rfl⟩ := he
  exact ⟨(r.1, data), rfl, hdata⟩

theorem length_overlay (buf data : List UInt8) : (overlay buf data).length = buf.length := by
  rw [overlay, List.length_append, List.length_take, List.length_drop]
  omega

theorem handleMessage_mirrors (msgid : Int) (req : Iorequest) :
    Proc.Mirrors SameButBuffer SameButBytes Eq (handleMessage how msgid req)
      (handleMessage how msgid req) := by
  have hreply : ∀ portid status, Proc.Mirrors SameButBuffer SameButBytes Eq
      (do let _ ← syscall (.replymsg portid msgid status) : Sys Unit)
      (do let _ ← syscall (.replymsg portid msgid status) : Sys Unit) := fun portid status =>
    .bind (syscall_mirrors fun r errno e he => ⟨r, he, rfl⟩) fun _ _ _ => .pure rfl
  refine .bind .get fun g g' hg => ?_
  obtain ⟨buf, value, hlen, rfl⟩ := hg
  cases req.cmd with
  | other n => exact hreply g.portid _
  | sendio =>
    cases req.subclass with
    | other n => exact hreply g.portid _
    | sysinit =>
      dsimp only
      rw [hlen]
      refine .bind (readmsg_mirrors g.portid msgid _) fun r r' hr => .bind (.modify ?_) fun _ _ _ =>
        .bind (.modify ?_) fun _ _ _ => .bind (.modify ?_) fun _ _ _ => hreply g.portid _
      · rintro g _ ⟨buf, value, hlen, rfl⟩
        exact ⟨_, value, by rw [length_overlay, length_overlay, hlen], rfl⟩
      · rintro g _ ⟨buf, value, hlen, rfl⟩
        exact ⟨buf, _, hlen, rfl⟩
      · rintro g _ ⟨buf, value, hlen, rfl⟩
        exact ⟨buf, value, hlen, rfl⟩

theorem drainRound_mirrors :
    Proc.Mirrors SameButBuffer SameButBytes Eq (drainRound how) (drainRound how) := by
  refine .bind .get fun g g' hg => ?_
  obtain ⟨buf, value, hlen, rfl⟩ := hg
  refine .bind (syscall_mirrors fun r errno e he => ⟨r, he, rfl⟩) fun m m' hm => ?_
  subst hm
  cases m with
  | none sc => exact .pure rfl
  | got msgid req => exact .bind (handleMessage_mirrors msgid req) fun _ _ _ => .pure rfl

theorem messageRound_mirrors :
    Proc.Mirrors SameButBuffer SameButBytes Eq (messageRound how fuel) (messageRound how fuel) := by
  refine .bind .get fun g g' hg => ?_
  obtain ⟨buf, value, hlen, rfl⟩ := hg
  refine .ite (.pure rfl) (.bind (.modify ?_) fun _ _ _ => .bind (syscall_mirrors fun r errno e he =>
    ⟨r, he, rfl⟩) fun ev ev' hev => ?_)
  · rintro g _ ⟨buf, value, hlen, rfl⟩
    exact ⟨buf, value, hlen, rfl⟩
  · subst hev
    exact .ite (.bind (.iter (fun _ => drainRound_mirrors) _ _) fun _ _ _ => .pure rfl) (.pure rfl)

/-- With another buffer, and other bytes delivered, the loop makes the same calls. -/
theorem stateMessageLoop_mirrors : Proc.Mirrors SameButBuffer SameButBytes Eq
    (stateMessageLoop how fuel) (stateMessageLoop how fuel) := by
  refine .bind .get fun g g' hg => ?_
  obtain ⟨buf, value, hlen, rfl⟩ := hg
  exact .bind (syscall_mirrors fun r errno e he => ⟨r, he, rfl⟩) fun _ _ _ =>
    .bind (.iter (fun _ => messageRound_mirrors) _ _) fun _ _ _ => .pure rfl

/-! ## Other bytes -/

/-- The bytes, all of them changed. -/
def changed (data : List UInt8) : List UInt8 := data.map (· + 1)

theorem overlay_changed (buf data : List UInt8) :
    overlay (changed buf) (changed data) = changed (overlay buf data) := by
  simp only [overlay, changed, List.length_map, List.map_append, List.map_take, List.map_drop]

theorem foldl_overlay_changed (ds : List (List UInt8)) (buf : List UInt8) :
    (ds.map changed).foldl overlay (changed buf) = changed (ds.foldl overlay buf) := by
  induction ds generalizing buf with
  | nil => rfl
  | cons d ds ih => rw [List.map_cons, List.foldl_cons, overlay_changed, ih, List.foldl_cons]

/-- The same answer, with other bytes. -/
def changedBytes : Event sys → Event sys
  | ⟨.readmsg portid msgid size, r⟩ => ⟨.readmsg portid msgid size, ((r.1.1, changed r.1.2), r.2)⟩
  | e => e

theorem sameButBytes_changed (e : Event sys) : SameButBytes e (changedBytes e) := by
  obtain ⟨c, r⟩ := e
  cases c with
  | readmsg portid msgid size => exact ⟨changed r.1.2, List.length_map _, rfl⟩
  | _ => rfl

theorem sameButBytes_refl (e : Event sys) : SameButBytes e e := by
  obtain ⟨c, r⟩ := e
  cases c with
  | readmsg portid msgid size => exact ⟨r.1.2, rfl, rfl⟩
  | _ => rfl

theorem delivered_changed (t : List (Event sys)) :
    delivered (t.map changedBytes) = (delivered t).map changed := by
  rw [delivered, delivered, List.filterMap_map, List.map_filterMap]
  refine List.filterMap_congr fun e _ => ?_
  obtain ⟨c, r⟩ := e
  cases c <;> rfl

theorem overlay_getElem? {buf data : List UInt8} {i : Nat} (hfit : data.length ≤ buf.length)
    (hi : data.length ≤ i) : (overlay buf data)[i]? = buf[i]? := by
  rw [overlay, List.take_of_length_le hfit, List.getElem?_append_right hi, List.getElem?_drop,
    Nat.add_sub_cancel' hi]

/-- A byte of the field that is not delivered is one of those the buffer had. -/
theorem fits_of_read_eq {f : Field} {buf data : List UInt8} (hfit : f.Fits buf.length)
    (h : f.read (overlay buf data) = f.read (overlay (changed buf) data)) : f.Fits data.length := by
  by_contra hdata
  have hlt : data.length < f.off + f.width := Nat.lt_of_not_le hdata
  have hbuf : data.length ≤ buf.length := hlt.le.trans hfit
  have hchanged : (changed buf).length = buf.length := List.length_map _
  have hi : max f.off data.length < f.off + f.width :=
    max_lt (Nat.lt_add_of_pos_right f.pos) hlt
  have hbyte := Field.getElem?_of_read_eq (by rwa [length_overlay]) (by rwa [length_overlay, hchanged])
    h (Nat.le_max_left f.off data.length) hi
  rw [overlay_getElem? hbuf (Nat.le_max_right ..),
    overlay_getElem? (by rwa [hchanged]) (Nat.le_max_right ..), changed, List.getElem?_map,
    List.getElem?_eq_getElem (hi.trans_le hfit), Option.map_some, Option.some.injEq] at hbyte
  simp at hbyte

theorem read_overlay {f : Field} {buf data : List UInt8} (hfit : f.Fits buf.length)
    (hdata : f.Fits data.length) : f.read (overlay buf data) = f.read data := by
  have hend : f.Fits (f.off + f.width) := Nat.le_refl _
  have hlen : f.off + f.width ≤ (data.take buf.length).length := by
    rw [List.length_take]
    exact Nat.le_min.mpr ⟨hfit, hdata⟩
  rw [← Field.read_take hend, overlay, List.take_append_of_le_length hlen, List.take_take,
    Nat.min_eq_left hfit, Field.read_take hend]

/-- The last request that is read. -/
theorem delivered_split {d : List UInt8} (h : (delivered t).getLast? = some d) :
    ∃ t₁ e t₂, t = t₁ ++ e :: t₂ ∧ delivered [e] = [d] ∧ delivered t₂ = [] := by
  induction t using List.reverseRecOn with
  | nil => cases h
  | append_singleton t e ih =>
    rw [delivered_append] at h
    have hcases : delivered [e] = [] ∨ ∃ x, delivered [e] = [x] := by
      obtain ⟨c, r⟩ := e
      cases c with
      | readmsg portid msgid size => exact .inr ⟨r.1.2, rfl⟩
      | _ => exact .inl rfl
    rcases hcases with he | ⟨x, he⟩
    · rw [he, List.append_nil] at h
      obtain ⟨t₁, e₁, t₂, rfl, he₁, ht₂⟩ := ih h
      exact ⟨t₁, e₁, t₂ ++ [e], by simp, he₁, by rw [delivered_append, ht₂, he]; rfl⟩
    · rw [he, List.getLast?_append_of_ne_nil _ (List.cons_ne_nil _ _)] at h
      exact ⟨t, e, [], rfl, by rw [he, ← Option.some.inj h]; rfl, rfl⟩

/-! ## `shutdown_how` -/

theorem length_foldl_overlay (ds : List (List UInt8)) (buf : List UInt8) :
    (ds.foldl overlay buf).length = buf.length := by
  induction ds generalizing buf with
  | nil => rfl
  | cons d ds ih => rw [List.foldl_cons, ih, length_overlay]

theorem shutdownHow_eq {s : InitState} {ds : List (List UInt8)} {d : List UInt8}
    (h : (stateMessageLoop how fuel g).Runs t (.ok s, g')) (hd : delivered t = ds ++ [d]) :
    g'.shutdownHow = how (overlay (ds.foldl overlay g.sysinitReq) d) := by
  have ho := stateMessageLoop_overlays _ _ _ _ h
  rw [ho.value (by rw [hd]; simp), ho.buf, hd, List.foldl_append]
  rfl

/-- A request that is delivered as far as the end of the field, and is the last one,
decides. -/
theorem shutdownHow_last {f : Field} {s : InitState} {d : List UInt8}
    (hfit : f.Fits g.sysinitReq.length) (h : (stateMessageLoop f.read fuel g).Runs t (.ok s, g'))
    (hlast : (delivered t).getLast? = some d) (hd : f.Fits d.length) : g'.shutdownHow = f.read d := by
  obtain ⟨ds, hds⟩ := List.getLast?_eq_some_iff.mp hlast
  rw [shutdownHow_eq h hds]
  exact read_overlay (by rwa [length_foldl_overlay]) hd

/-- Other bytes in the buffer and in each request but the last: the loop ends, with
the value that the bytes have then. -/
theorem stateMessageLoop_changed {s : InitState} {t₁ t₂ : List (Event sys)} {e : Event sys}
    (h : (stateMessageLoop how fuel g).Runs (t₁ ++ e :: t₂) (.ok s, g')) :
    ∃ g'', (stateMessageLoop how fuel { g with sysinitReq := changed g.sysinitReq }).Runs
      (t₁.map changedBytes ++ e :: t₂) (.ok s, g'') ∧
      List.Forall₂ SameButBytes (t₁ ++ e :: t₂) (t₁.map changedBytes ++ e :: t₂) := by
  have hsame : List.Forall₂ SameButBytes (t₁ ++ e :: t₂) (t₁.map changedBytes ++ e :: t₂) :=
    List.rel_append (List.forall₂_map_right_iff.mpr
      (List.forall₂_same.mpr fun e _ => sameButBytes_changed e))
      (List.forall₂_same.mpr fun e _ => sameButBytes_refl e)
  obtain ⟨⟨o, g''⟩, hrun, hends⟩ := stateMessageLoop_mirrors g
    { g with sysinitReq := changed g.sysinitReq } _ _ _
    ⟨changed g.sysinitReq, g.shutdownHow, List.length_map _, rfl⟩ hsame h
  obtain ⟨ho, -⟩ := hends
  cases o with
  | ok s' =>
    cases ho
    exact ⟨g'', hrun, hsame⟩
  | _ => exact ho.elim

/-- The kind of shutdown is that of a request, and bytes that the buffer held before the
last request was read do not decide it, exactly if the last request was delivered as
far as the end of the field. -/
theorem stateMessageLoop_how (f : Field) {s : InitState} (hfit : f.Fits g.sysinitReq.length)
    (h : (stateMessageLoop f.read fuel g).Runs t (.ok s, g')) :
    ((∀ buf t' s' g'', buf.length = g.sysinitReq.length → SameLast t t' →
        (stateMessageLoop f.read fuel { g with sysinitReq := buf }).Runs t' (.ok s', g'') →
        g''.shutdownHow = g'.shutdownHow) ∧
      ∃ data ∈ delivered t, f.Fits data.length ∧ g'.shutdownHow = f.read data) ↔
    ∃ data, (delivered t).getLast? = some data ∧ f.Fits data.length := by
  constructor
  · rintro ⟨hsame, data, hdata, -, -⟩
    obtain ⟨d, hlast⟩ : ∃ d, (delivered t).getLast? = some d :=
      ⟨_, List.getLast?_eq_some_getLast (List.ne_nil_of_mem hdata)⟩
    refine ⟨d, hlast, ?_⟩
    obtain ⟨t₁, e, t₂, rfl, he, ht₂⟩ := delivered_split hlast
    obtain ⟨g'', h', hbytes⟩ := stateMessageLoop_changed h
    have hd : ∀ u : List (Event sys), delivered (u ++ e :: t₂) = delivered u ++ [d] := fun u => by
      rw [← List.singleton_append, delivered_append, delivered_append, he, ht₂, List.append_nil]
    have hvalue := hsame _ _ _ _ (List.length_map _) ⟨hbytes, by
      rw [hd, hd, List.getLast?_concat, List.getLast?_concat]⟩ h'
    rw [shutdownHow_eq h (hd _), shutdownHow_eq h' (hd _), delivered_changed] at hvalue
    dsimp only at hvalue
    rw [foldl_overlay_changed] at hvalue
    exact fits_of_read_eq (by rwa [length_foldl_overlay]) hvalue.symm
  · rintro ⟨data, hlast, hdata⟩
    have hvalue := shutdownHow_last hfit h hlast hdata
    refine ⟨fun buf t' s' g'' hlen hsame h' => ?_, data, List.mem_of_getLast? hlast, hdata, hvalue⟩
    rw [hvalue]
    exact shutdownHow_last (by rwa [← hlen] at hfit) h' (hsame.2.trans hlast) hdata

/-- The calls of a run that is sent one request, of which `data` is delivered. -/
def oneRequest (result : Int) (data : List UInt8) : List (Event sys) :=
  [⟨.keventAdd 0 0, (0, 0)⟩, ⟨.kevent 0, (⟨1, 0, true⟩, 0)⟩,
    ⟨.getmsg 0, (.got 1 ⟨.sendio, .sysinit⟩, 0)⟩, ⟨.readmsg 0 1 8, ((result, data), 0)⟩,
    ⟨.replymsg 0 1 0, (0, 0)⟩, ⟨.getmsg 0, (.none 0, 0)⟩]

/-- An integer in the last four bytes of eight. -/
def lastInt : Field := .int 4 4 (by decide)

/-- A buffer of eight bytes `b`. -/
def eight (b : UInt8) : List UInt8 := [b, b, b, b, b, b, b, b]

theorem oneRequest_runs (how : List UInt8 → Int) (b : UInt8) (result : Int) (data : List UInt8) :
    ∃ g', (stateMessageLoop how 3 (Globals.initial (eight b) 0)).Runs (oneRequest result data)
      (.ok .stopSessions, g') ∧ g'.shutdownHow = how (overlay (eight b) data) :=
  ⟨_, .cons (.cons (.cons (.cons (.cons (.cons (.nil _)))))), rfl⟩

/-- A request that is delivered whole. -/
theorem stateMessageLoop_how_whole : ∃ g',
    (stateMessageLoop lastInt.read 3 (Globals.initial (eight 7) 0)).Runs (oneRequest 8 (eight 1))
      (.ok .stopSessions, g') ∧
    ∃ data ∈ delivered (oneRequest 8 (eight 1)), lastInt.Fits data.length ∧
      g'.shutdownHow = lastInt.read data := by
  obtain ⟨g', h, -⟩ := oneRequest_runs lastInt.read 7 8 (eight 1)
  have hfit : lastInt.Fits (eight 7).length := Nat.le_refl 8
  exact ⟨g', h, ((stateMessageLoop_how lastInt hfit h).mpr ⟨eight 1, rfl, Nat.le_refl 8⟩).2⟩

/-- The request could not be read: the bytes of the stack are taken for the kind of
shutdown. -/
theorem failedRead_how : ∃ g₁ g₂,
    (stateMessageLoop lastInt.read 3 (Globals.initial (eight 0) 0)).Runs (oneRequest (-1) [])
      (.ok .stopSessions, g₁) ∧
    (stateMessageLoop lastInt.read 3 (Globals.initial (eight 1) 0)).Runs (oneRequest (-1) [])
      (.ok .stopSessions, g₂) ∧
    g₁.shutdownHow = 0 ∧ g₂.shutdownHow = 0x01010101 := by
  obtain ⟨g₁, h₁, hhow₁⟩ := oneRequest_runs lastInt.read 0 (-1) []
  obtain ⟨g₂, h₂, hhow₂⟩ := oneRequest_runs lastInt.read 1 (-1) []
  exact ⟨g₁, g₂, h₁, h₂, hhow₁.trans (by decide), hhow₂.trans (by decide)⟩

end Cheviot.Proof
