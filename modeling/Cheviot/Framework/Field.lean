import Mathlib.Data.Nat.Digits.Lemmas

/-!
# Fields of a struct

A field of a struct, as the bytes of the struct at a place and the value that they
stand for (`Field`). Two byte strings with the same value have the same bytes in
the field, so that a value that does not depend on a byte shows that the byte is not in
it. `Field.int` is a signed integer.
-/

namespace Framework

/-- A field of a struct: its place and its size in bytes, and its value, which tells
its bytes. -/
structure Field where
  off : Nat
  width : Nat
  pos : 0 < width
  value : List UInt8 → Int
  inj : ∀ a b, a.length = width → b.length = width → value a = value b → a = b

namespace Field

variable (f : Field)

/-- The bytes of the field. -/
def bytes (buf : List UInt8) : List UInt8 := (buf.drop f.off).take f.width

/-- The value of the field. -/
def read (buf : List UInt8) : Int := f.value (f.bytes buf)

/-- The field is among the first `n` bytes. -/
def Fits (n : Nat) : Prop := f.off + f.width ≤ n

variable {f} {buf buf' : List UInt8}

theorem length_bytes (h : f.Fits buf.length) : (f.bytes buf).length = f.width := by
  rw [bytes, List.length_take, List.length_drop]
  exact Nat.min_eq_left (Nat.le_sub_of_add_le' h)

theorem bytes_getElem? {i : Nat} (hi : i < f.width) : (f.bytes buf)[i]? = buf[f.off + i]? := by
  rw [bytes, List.getElem?_take_of_lt hi, List.getElem?_drop]

/-- What comes after the field is not in it. -/
theorem read_take {n : Nat} (h : f.Fits n) : f.read (buf.take n) = f.read buf := by
  rw [read, read, bytes, bytes, List.drop_take, List.take_take,
    Nat.min_eq_left (Nat.le_sub_of_add_le' h)]

/-- The same value, the same bytes. -/
theorem getElem?_of_read_eq (h : f.Fits buf.length) (h' : f.Fits buf'.length)
    (heq : f.read buf = f.read buf') {i : Nat} (hi : f.off ≤ i) (hi' : i < f.off + f.width) :
    buf[i]? = buf'[i]? := by
  have hbytes := f.inj _ _ (length_bytes h) (length_bytes h') heq
  have hlt : i - f.off < f.width := Nat.sub_lt_left_of_lt_add hi hi'
  have := congrArg (·[i - f.off]?) hbytes
  rwa [bytes_getElem? hlt, bytes_getElem? hlt, Nat.add_sub_cancel' hi] at this

end Field

/-! ## Integers -/

/-- The number of the bytes, the low one first. -/
def leNat (bs : List UInt8) : Nat := Nat.ofDigits 256 (bs.map UInt8.toNat)

theorem leNat_lt (bs : List UInt8) : leNat bs < 256 ^ bs.length := by
  have h := Nat.ofDigits_lt_base_pow_length (by decide : 1 < 256) (l := bs.map UInt8.toNat)
    (List.forall_mem_map.mpr fun x _ => x.toNat_lt)
  rwa [List.length_map] at h

theorem leNat_inj {a b : List UInt8} (hlen : a.length = b.length) (h : leNat a = leNat b) : a = b := by
  have hmap := Nat.ofDigits_inj_of_len_eq (by decide : 1 < 256) (by simpa using hlen)
    (List.forall_mem_map.mpr fun x _ => x.toNat_lt) (List.forall_mem_map.mpr fun x _ => x.toNat_lt) h
  exact List.map_injective_iff.mpr (fun _ _ => UInt8.toNat_inj.mp) hmap

theorem eq_of_bmod_eq {a b m : Nat} (ha : a < m) (hb : b < m)
    (h : Int.bmod a m = Int.bmod b m) : a = b := by
  have hmod : (a : Int) % m = (b : Int) % m := by rw [← Int.bmod_emod, h, Int.bmod_emod]
  rw [← Int.natCast_mod, ← Int.natCast_mod, Nat.mod_eq_of_lt ha, Nat.mod_eq_of_lt hb] at hmod
  exact Int.ofNat.inj hmod

/-- A signed integer, the low byte first. -/
def Field.int (off width : Nat) (h : 0 < width) : Field where
  off := off
  width := width
  pos := h
  value bs := Int.bmod (leNat bs) (256 ^ width)
  inj a b ha hb hab := leNat_inj (ha.trans hb.symm)
    (eq_of_bmod_eq (ha ▸ leNat_lt a) (hb ▸ leNat_lt b) hab)

end Framework
