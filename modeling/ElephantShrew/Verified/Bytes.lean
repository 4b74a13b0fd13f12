import Mathlib.Data.List.Basic
import Mathlib.Data.Vector.Basic

/-!
# Byte strings read at offsets

A C buffer is read by offset, a format is written by concatenation.  This file
relates the two views.  `slice p off n` is the `n` bytes of `p` from offset
`off`, read one at a time, and `At p off bs` says that `bs` is what stands at
`off`.  `at_append` is the whole bridge: a concatenation stands at an offset
exactly when its parts stand at consecutive offsets.
-/

namespace ElephantShrew.Verified

/-- A byte string. -/
abbrev Bytes := List UInt8

namespace Bytes

/-- The byte at index `i`; past the end it reads zero. -/
def get (p : Bytes) (i : Nat) : UInt8 := p.getD i 0

/-- The `n` bytes of `p` from offset `off`. -/
def slice (p : Bytes) (off : Nat) : Nat → Bytes
  | 0 => []
  | n + 1 => p.get off :: slice p (off + 1) n

@[simp] theorem length_slice (p : Bytes) (off n : Nat) : (p.slice off n).length = n := by
  induction n generalizing off with
  | zero => rfl
  | succ n ih => simp [slice, ih]

theorem slice_add (p : Bytes) (off m n : Nat) :
    p.slice off (m + n) = p.slice off m ++ p.slice (off + m) n := by
  induction m generalizing off with
  | zero => simp [slice]
  | succ m ih =>
      rw [show m + 1 + n = (m + n) + 1 by omega, slice, slice, ih,
        show off + 1 + m = off + (m + 1) by omega, List.cons_append]

theorem get_slice (p : Bytes) (off : Nat) {n i : Nat} (h : i < n) :
    (p.slice off n).get i = p.get (off + i) := by
  induction n generalizing off i with
  | zero => omega
  | succ n ih =>
      cases i with
      | zero => rfl
      | succ i =>
          have := ih (off + 1) (i := i) (by omega)
          rw [show off + (i + 1) = off + 1 + i by omega, ← this]
          rfl

/-- Reading a byte string whole gives it back. -/
theorem slice_zero_length (p : Bytes) : p.slice 0 p.length = p := by
  have key : ∀ (q r : Bytes), (q ++ r).slice q.length r.length = r := by
    intro q r
    induction r generalizing q with
    | nil => rfl
    | cons b r ih =>
        have := ih (q ++ [b])
        simp only [List.append_assoc, List.singleton_append, List.length_append,
          List.length_singleton] at this
        simp [slice, get, this]
  exact key [] p

/-- `bs` stands in `p` at offset `off`. -/
def At (p : Bytes) (off : Nat) (bs : Bytes) : Prop := p.slice off bs.length = bs

@[simp] theorem at_nil (p : Bytes) (off : Nat) : p.At off [] := rfl

@[simp] theorem at_cons (p : Bytes) (off : Nat) (b : UInt8) (bs : Bytes) :
    p.At off (b :: bs) ↔ p.get off = b ∧ p.At (off + 1) bs := by
  simp [At, slice]

@[simp] theorem at_append (p : Bytes) (off : Nat) (xs ys : Bytes) :
    p.At off (xs ++ ys) ↔ p.At off xs ∧ p.At (off + xs.length) ys := by
  unfold At
  rw [List.length_append, slice_add]
  exact ⟨fun h => List.append_inj h (by simp), fun h => by rw [h.1, h.2]⟩

theorem at_slice (p : Bytes) (off n : Nat) : p.At off (p.slice off n) := by
  simp [At]

theorem at_self (p : Bytes) : p.At 0 p := slice_zero_length p

theorem At.get {p bs : Bytes} {off i : Nat} (h : p.At off bs) (hi : i < bs.length) :
    p.get (off + i) = bs.get i := by
  rw [← get_slice p off hi, h]

/-! ## Fixed arrays

A `memcpy` of `n` bytes into an array member replaces its first `n` cells.
-/

/-- The first `n` cells of `v` replaced by the bytes of `p` from `off`.
Irreducible, so that comparing two records never unfolds a buffer. -/
@[irreducible] def copyInto {k : Nat} (v : Vector UInt8 k) (p : Bytes) (off n : Nat) :
    Vector UInt8 k :=
  Vector.ofFn fun i => if i.val < n then p.get (off + i.val) else v[i]

@[simp] theorem getElem_copyInto {k : Nat} (v : Vector UInt8 k) (p : Bytes) (off n i : Nat)
    (hi : i < k) :
    (copyInto v p off n)[i] = if i < n then p.get (off + i) else v[i] := by
  simp [copyInto]

/-- The `n` bytes of `p` from `off`, as a fixed array. -/
def vec (p : Bytes) (off n : Nat) : Vector UInt8 n := Vector.ofFn fun i => p.get (off + i.val)

@[simp] theorem getElem_vec (p : Bytes) (off : Nat) {n i : Nat} (h : i < n) :
    (p.vec off n)[i] = p.get (off + i) := by
  simp [vec]

/-- A byte of an array that was read. -/
theorem get_of_vec {p : Bytes} {off n i : Nat} {v : Vector UInt8 n} (h : p.vec off n = v)
    (hi : i < n) : p.get (off + i) = v[i] := by
  rw [← h, getElem_vec]

theorem toList_vec (p : Bytes) (off n : Nat) : (p.vec off n).toList = p.slice off n := by
  refine List.ext_getElem (by simp) fun i hi _ => ?_
  have hn : i < n := by simpa using hi
  have hs := get_slice p off hn
  rw [get, List.getD_eq_getElem?_getD, List.getElem?_eq_getElem (by simpa using hn)] at hs
  simpa using hs.symm

/-- A fixed array stands at an offset exactly when it was read from there. -/
theorem at_toList_iff (p : Bytes) (off : Nat) {n : Nat} (v : Vector UInt8 n) :
    p.At off v.toList ↔ p.vec off n = v := by
  unfold At
  rw [Vector.length_toList, ← toList_vec, Vector.toList_inj]

/-- Copying a whole array discards what was there. -/
theorem copyInto_self {n : Nat} (v : Vector UInt8 n) (p : Bytes) (off : Nat) :
    copyInto v p off n = p.vec off n := by
  ext i hi
  simp [hi]

/-! ## Big-endian words -/

/-- The two bytes of a 16-bit word, high byte first. -/
def be16 (w : UInt16) : Bytes := [(w >>> 8).toUInt8, w.toUInt8]

/-- The 16-bit word with high byte `a` and low byte `b`. -/
def word16 (a b : UInt8) : UInt16 := (a.toUInt16 <<< 8) ||| b.toUInt16

@[simp] theorem length_be16 (w : UInt16) : (be16 w).length = 2 := rfl

theorem toNat_word16 (a b : UInt8) : (word16 a b).toNat = a.toNat * 256 + b.toNat := by
  have ha := a.toNat_lt
  have hb := b.toNat_lt
  have hshift : (a.toUInt16 <<< 8).toNat = a.toNat <<< 8 := by
    simp [UInt16.toNat_shiftLeft, Nat.shiftLeft_eq]
    omega
  rw [word16, UInt16.toNat_or, hshift, UInt8.toNat_toUInt16,
    ← Nat.shiftLeft_add_eq_or_of_lt (by simpa using hb), Nat.shiftLeft_eq]

/-- The two bytes of a word determine it. -/
theorem be16_eq_iff (w : UInt16) (a b : UInt8) :
    (a = (w >>> 8).toUInt8 ∧ b = w.toUInt8) ↔ word16 a b = w := by
  have hw := w.toNat_lt
  have ha := a.toNat_lt
  have hb := b.toNat_lt
  rw [← UInt16.toNat_inj, ← UInt8.toNat_inj, ← UInt8.toNat_inj, toNat_word16]
  have hhi : (w >>> 8).toUInt8.toNat = w.toNat / 256 := by
    simp [UInt16.toNat_shiftRight, Nat.shiftRight_eq_div_pow]
    omega
  have hlo : w.toUInt8.toNat = w.toNat % 256 := by simp
  rw [hhi, hlo]
  omega

theorem at_be16_iff (p : Bytes) (off : Nat) (w : UInt16) :
    p.At off (be16 w) ↔ word16 (p.get off) (p.get (off + 1)) = w := by
  rw [← be16_eq_iff]
  simp [be16]

end Bytes

end ElephantShrew.Verified
