import ElephantShrew.Verified.Bytes

/-!
# Bytes in hexadecimal

Two lower-case digits for each byte, the high one first.  `decode` reads such a
text and refuses every other; it gives back what was written, so the text of a
byte string determines it.
-/

namespace ElephantShrew.Verified.Hex

/-- The number a digit stands for. -/
def value (c : Char) : Option Nat := (List.range 16).find? fun n => Nat.digitChar n == c

def encodeByte (b : UInt8) : List Char :=
  [Nat.digitChar (b.toNat / 16), Nat.digitChar (b.toNat % 16)]

def encode (bs : Bytes) : List Char := bs.flatMap encodeByte

def decode : List Char → Option Bytes
  | [] => some []
  | [_] => none
  | high :: low :: rest => do
      let h ← value high
      let l ← value low
      let bs ← decode rest
      return UInt8.ofNat (16 * h + l) :: bs

/-! ## Round trip -/

/-- A digit has its value. -/
theorem value_digitChar {n : Nat} (h : n < 16) : value (Nat.digitChar n) = some n := by
  have hall : ∀ k : Fin 16, value (Nat.digitChar k.val) = some k.val := by decide
  exact hall ⟨n, h⟩

theorem ofNat_digits (b : UInt8) : UInt8.ofNat (16 * (b.toNat / 16) + b.toNat % 16) = b := by
  rw [Nat.div_add_mod]
  exact UInt8.ofNat_toNat

@[simp] theorem encode_cons (b : UInt8) (bs : Bytes) :
    encode (b :: bs) =
      Nat.digitChar (b.toNat / 16) :: Nat.digitChar (b.toNat % 16) :: encode bs :=
  rfl

/-- What was written is read back. -/
@[simp] theorem decode_encode (bs : Bytes) : decode (encode bs) = some bs := by
  induction bs with
  | nil => rfl
  | cons b bs ih =>
      have hb := b.toNat_lt
      have hhigh := value_digitChar (show b.toNat / 16 < 16 by omega)
      have hlow := value_digitChar (show b.toNat % 16 < 16 by omega)
      rw [encode_cons, decode, hhigh, hlow, ih]
      show some (UInt8.ofNat (16 * (b.toNat / 16) + b.toNat % 16) :: bs) = some (b :: bs)
      rw [ofNat_digits]

@[simp] theorem length_encode (bs : Bytes) : (encode bs).length = 2 * bs.length := by
  induction bs with
  | nil => rfl
  | cons b bs ih =>
      rw [encode_cons, List.length_cons, List.length_cons, List.length_cons, ih]
      omega

end ElephantShrew.Verified.Hex
