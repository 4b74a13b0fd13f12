import ElephantShrew.Verified.Bytes

/-!
# Fixed-size memory images

A record that crosses a C boundary is a block of bytes on both sides.  A
`Codec` is one such image with its round trip as a field: the images of words,
arrays and pairs compose, so a struct's image is written member by member and
its round trip needs no proof of its own.

Integers are in the byte order of the host, which is a parameter.
-/

namespace ElephantShrew.Verified

/-- The image of the values of a type: `size` bytes each, readable at any
offset of a buffer. -/
structure Codec (α : Type) where
  size : Nat
  encode : α → Bytes
  decode : Bytes → Nat → α
  length_encode : ∀ a, (encode a).length = size
  decode_of_at : ∀ p off a, Bytes.At p off (encode a) → decode p off = a

namespace Codec

variable {α β : Type}

/-- Reading a whole image gives the value back. -/
@[simp] theorem decode_encode (c : Codec α) (a : α) : c.decode (c.encode a) 0 = a :=
  c.decode_of_at _ _ _ (Bytes.at_self _)

/-- Equal images are images of one value. -/
theorem encode_inj (c : Codec α) {a b : α} : c.encode a = c.encode b ↔ a = b := by
  constructor
  · intro h
    rw [← c.decode_encode a, h, c.decode_encode]
  · intro h
    rw [h]

/-! ## Words in host order -/

/-- The byte order of a host. -/
inductive ByteOrder where
  | little
  | big
  deriving DecidableEq, Repr

/-- The bytes of a list in the other order, where the host is big-endian. -/
def ByteOrder.arrange : ByteOrder → Bytes → Bytes
  | .little, bs => bs
  | .big, bs => bs.reverse

@[simp] theorem ByteOrder.arrange_arrange (o : ByteOrder) (bs : Bytes) :
    o.arrange (o.arrange bs) = bs := by
  cases o <;> simp [arrange]

@[simp] theorem ByteOrder.length_arrange (o : ByteOrder) (bs : Bytes) :
    (o.arrange bs).length = bs.length := by
  cases o <;> simp [arrange]

/-- The low `k` bytes of `n`, least significant first. -/
def lowBytes : Nat → Nat → Bytes
  | 0, _ => []
  | k + 1, n => UInt8.ofNat n :: lowBytes k (n / 256)

/-- The number with these bytes, least significant first. -/
def ofLowBytes : Bytes → Nat
  | [] => 0
  | b :: bs => b.toNat + 256 * ofLowBytes bs

@[simp] theorem length_lowBytes (k n : Nat) : (lowBytes k n).length = k := by
  induction k generalizing n with
  | zero => rfl
  | succ k ih => simp [lowBytes, ih]

theorem ofLowBytes_lowBytes {k n : Nat} (h : n < 256 ^ k) : ofLowBytes (lowBytes k n) = n := by
  induction k generalizing n with
  | zero =>
      rw [Nat.pow_zero, Nat.lt_one_iff] at h
      rw [h]
      rfl
  | succ k ih =>
      have hdiv : n / 256 < 256 ^ k := by
        rw [Nat.pow_succ] at h
        exact Nat.div_lt_of_lt_mul (by rwa [Nat.mul_comm] at h)
      have hbyte : (UInt8.ofNat n).toNat = n % 256 := UInt8.toNat_ofNat'
      rw [lowBytes, ofLowBytes, ih hdiv, hbyte]
      omega

/-- A word of `k` bytes, given as a number below `256 ^ k`. -/
def word (o : ByteOrder) (k : Nat) (num : α → Nat) (ofNum : Nat → α)
    (hlt : ∀ a, num a < 256 ^ k) (hret : ∀ a, ofNum (num a) = a) : Codec α where
  size := k
  encode a := o.arrange (lowBytes k (num a))
  decode p off := ofNum (ofLowBytes (o.arrange (p.slice off k)))
  length_encode a := by simp
  decode_of_at p off a h := by
    rw [Bytes.At, ByteOrder.length_arrange, length_lowBytes] at h
    rw [h, ByteOrder.arrange_arrange, ofLowBytes_lowBytes (hlt a), hret]

def uint8 : Codec UInt8 :=
  word .little 1 UInt8.toNat UInt8.ofNat UInt8.toNat_lt fun _ => UInt8.ofNat_toNat

def uint16 (o : ByteOrder) : Codec UInt16 :=
  word o 2 UInt16.toNat UInt16.ofNat UInt16.toNat_lt fun _ => UInt16.ofNat_toNat

def uint32 (o : ByteOrder) : Codec UInt32 :=
  word o 4 UInt32.toNat UInt32.ofNat UInt32.toNat_lt fun _ => UInt32.ofNat_toNat

def uint64 (o : ByteOrder) : Codec UInt64 :=
  word o 8 UInt64.toNat UInt64.ofNat UInt64.toNat_lt fun _ => UInt64.ofNat_toNat

@[simp] theorem size_uint8 : uint8.size = 1 := rfl

@[simp] theorem size_uint16 (o : ByteOrder) : (uint16 o).size = 2 := rfl

@[simp] theorem size_uint32 (o : ByteOrder) : (uint32 o).size = 4 := rfl

@[simp] theorem size_uint64 (o : ByteOrder) : (uint64 o).size = 8 := rfl

/-! ## Members, arrays and records -/

/-- Two members, one after the other. -/
def pair (c : Codec α) (d : Codec β) : Codec (α × β) where
  size := c.size + d.size
  encode a := c.encode a.1 ++ d.encode a.2
  decode p off := (c.decode p off, d.decode p (off + c.size))
  length_encode a := by rw [List.length_append, c.length_encode, d.length_encode]
  decode_of_at p off a h := by
    rw [Bytes.at_append, c.length_encode] at h
    rw [c.decode_of_at _ _ _ h.1, d.decode_of_at _ _ _ h.2]

@[simp] theorem size_pair (c : Codec α) (d : Codec β) : (c.pair d).size = c.size + d.size := rfl

/-- A record given by its members. -/
def record (c : Codec α) (make : α → β) (members : β → α) (h : ∀ b, make (members b) = b) :
    Codec β where
  size := c.size
  encode b := c.encode (members b)
  decode p off := make (c.decode p off)
  length_encode b := c.length_encode _
  decode_of_at p off b hat := by rw [c.decode_of_at _ _ _ hat, h]

@[simp] theorem size_record (c : Codec α) (make : α → β) (members : β → α)
    (h : ∀ b, make (members b) = b) : (c.record make members h).size = c.size := rfl

/-- The elements of a list stand one after the other. -/
theorem at_flatMap_encode (c : Codec α) {p : Bytes} {off : Nat} {l : List α}
    (h : p.At off (l.flatMap c.encode)) {i : Nat} (hi : i < l.length) :
    c.decode p (off + i * c.size) = l[i] := by
  induction l generalizing off i with
  | nil => exact absurd hi (Nat.not_lt_zero i)
  | cons a l ih =>
      rw [List.flatMap_cons, Bytes.at_append, c.length_encode] at h
      cases i with
      | zero => rw [Nat.zero_mul, Nat.add_zero, c.decode_of_at _ _ _ h.1, List.getElem_cons_zero]
      | succ i =>
          have hstep : off + (i + 1) * c.size = off + c.size + i * c.size := by
            rw [Nat.succ_mul]
            omega
          rw [hstep, ih h.2 (Nat.lt_of_succ_lt_succ hi), List.getElem_cons_succ]

theorem length_flatMap_encode (c : Codec α) (l : List α) :
    (l.flatMap c.encode).length = l.length * c.size := by
  induction l with
  | nil => simp
  | cons a l ih =>
      rw [List.flatMap_cons, List.length_append, c.length_encode, ih, List.length_cons,
        Nat.succ_mul, Nat.add_comm]

/-- An array of `n` elements. -/
def array (c : Codec α) (n : Nat) : Codec (Vector α n) where
  size := n * c.size
  encode v := v.toList.flatMap c.encode
  decode p off := Vector.ofFn fun i => c.decode p (off + i.val * c.size)
  length_encode v := by rw [length_flatMap_encode, Vector.length_toList]
  decode_of_at p off v h := by
    ext i hi
    have hat := c.at_flatMap_encode h (i := i) (by simpa using hi)
    simpa using hat

@[simp] theorem size_array (c : Codec α) (n : Nat) : (c.array n).size = n * c.size := rfl

end Codec

end ElephantShrew.Verified
