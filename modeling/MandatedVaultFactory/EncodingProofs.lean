import Mathlib.Algebra.Group.Nat.Defs
import Mathlib.Data.List.Nodup
import Mathlib.Data.Set.Function

/-!
# Byte encodings: big-endian words and prefix-free codes

Hash preimages are byte strings put together from words and length-prefixed blobs.
Whether two different values can share a preimage comes down to one property of the
pieces:

* **`PrefixFree f`** — a code word of `f` ends where it ends, whatever follows it.
  Codes of one length that are injective are prefix free, and a known number of code
  words can be read back one by one (`PrefixFree.flatMap_inj`).
* **`bigEndian`** / **`word`** — fixed-width big-endian numbers.
* **`lengthPrefixed`** — a blob after its length, padded with zeros to whole words.

`CollisionFree` says of a hash function that it separates the strings of a given set.
A hash of byte strings into 256 bits cannot separate all strings, so every use names the
strings that are really hashed. -/

namespace Encoding

variable {α β γ : Type}

/-- Byte strings. -/
abbrev Bytes : Type := List UInt8

/-! ## Prefix-free codes -/

/-- A code word ends where it ends: reading one off the front of a string is unambiguous. -/
def PrefixFree (f : α → List γ) : Prop :=
  ∀ a b x y, f a ++ x = f b ++ y → a = b ∧ x = y

/-- Injective codes of constant length are prefix free. -/
theorem prefixFree_of_length {f : α → List γ} (n : Nat) (hlen : ∀ a, (f a).length = n)
    (hinj : Function.Injective f) : PrefixFree f := by
  intro a b x y h
  obtain ⟨h1, h2⟩ := List.append_inj h (by rw [hlen a, hlen b])
  exact ⟨hinj h1, h2⟩

/-- A known number of code words can be read back one by one. -/
theorem PrefixFree.flatMap_inj {f : α → List γ} (hf : PrefixFree f) :
    ∀ (l l' : List α) (x y : List γ), l.length = l'.length →
      l.flatMap f ++ x = l'.flatMap f ++ y → l = l' ∧ x = y := by
  intro l
  induction l with
  | nil =>
      intro l' x y hlen h
      obtain rfl : l' = [] := List.length_eq_zero_iff.mp hlen.symm
      exact ⟨rfl, h⟩
  | cons a l ih =>
      intro l' x y hlen h
      cases l' with
      | nil => exact nomatch hlen
      | cons b l' =>
          have h' : f a ++ (l.flatMap f ++ x) = f b ++ (l'.flatMap f ++ y) := by
            simpa [List.flatMap_cons, List.append_assoc] using h
          obtain ⟨rfl, h2⟩ := hf _ _ _ _ h'
          obtain ⟨rfl, hxy⟩ := ih l' x y (Nat.succ.inj hlen) h2
          exact ⟨rfl, hxy⟩

/-! ## Big-endian numbers -/

/-- The last `n` base-256 digits of a number, most significant first. -/
def bigEndian : Nat → Nat → Bytes
  | 0, _ => []
  | n + 1, x => bigEndian n (x / 256) ++ [UInt8.ofNat (x % 256)]

/-- The number a big-endian byte string denotes. -/
def ofBigEndian (b : Bytes) : Nat :=
  b.foldl (fun acc d => acc * 256 + d.toNat) 0

@[simp] theorem length_bigEndian (n x : Nat) : (bigEndian n x).length = n := by
  induction n generalizing x with
  | zero => rfl
  | succ n ih => simp [bigEndian, ih]

theorem ofBigEndian_bigEndian (n x : Nat) : ofBigEndian (bigEndian n x) = x % 256 ^ n := by
  induction n generalizing x with
  | zero => simp [bigEndian, ofBigEndian, Nat.mod_one]
  | succ n ih =>
      have hstep : ofBigEndian (bigEndian (n + 1) x)
          = ofBigEndian (bigEndian n (x / 256)) * 256 + x % 256 := by
        unfold ofBigEndian
        rw [bigEndian, List.foldl_append]
        simp
      rw [hstep, ih, Nat.pow_succ, Nat.mul_comm (256 ^ n) 256, Nat.mod_mul]
      omega

theorem bigEndian_inj {n x y : Nat} (hx : x < 256 ^ n) (hy : y < 256 ^ n)
    (h : bigEndian n x = bigEndian n y) : x = y := by
  have h' := congrArg ofBigEndian h
  rw [ofBigEndian_bigEndian, ofBigEndian_bigEndian] at h'
  rwa [Nat.mod_eq_of_lt hx, Nat.mod_eq_of_lt hy] at h'

/-- The 32 bytes of a word. -/
def word (x : BitVec 256) : Bytes := bigEndian 32 x.toNat

@[simp] theorem length_word (x : BitVec 256) : (word x).length = 32 := length_bigEndian 32 _

theorem word_injective : Function.Injective word := by
  intro x y h
  refine BitVec.eq_of_toNat_eq (bigEndian_inj (n := 32) ?_ ?_ h)
  · exact Nat.lt_of_lt_of_eq x.isLt (by decide)
  · exact Nat.lt_of_lt_of_eq y.isLt (by decide)

theorem prefixFree_word : PrefixFree word :=
  prefixFree_of_length 32 length_word word_injective

/-- Two words after each other determine both. -/
theorem word_append_inj {a b c d : BitVec 256} (h : word a ++ word b = word c ++ word d) :
    a = c ∧ b = d := by
  obtain ⟨h1, h2⟩ := prefixFree_word _ _ _ _ h
  exact ⟨h1, word_injective h2⟩

/-- Sequences of as many words are read back word by word. -/
theorem flatMap_word_inj {l l' : List (BitVec 256)} (hlen : l.length = l'.length)
    (h : l.flatMap word = l'.flatMap word) : l = l' :=
  (prefixFree_word.flatMap_inj l l' [] [] hlen (by rw [h])).1

/-- A narrower number fills its word from the right. -/
theorem setWidth_inj {n : Nat} (hn : n ≤ 256) {x y : BitVec n}
    (h : x.setWidth 256 = y.setWidth 256) : x = y := by
  have hle : 2 ^ n ≤ 2 ^ 256 := Nat.pow_le_pow_right (by decide) hn
  have h' := congrArg BitVec.toNat h
  rw [BitVec.toNat_setWidth, BitVec.toNat_setWidth,
    Nat.mod_eq_of_lt (Nat.lt_of_lt_of_le x.isLt hle),
    Nat.mod_eq_of_lt (Nat.lt_of_lt_of_le y.isLt hle)] at h'
  exact BitVec.eq_of_toNat_eq h'

/-! ## Blobs -/

/-- Byte strings that fit in a 256-bit address space. -/
abbrev Blob : Type := { b : Bytes // b.length < 2 ^ 256 }

/-- Zeros that fill the last word of `n` bytes. -/
def padding (n : Nat) : Bytes := List.replicate ((32 - n % 32) % 32) 0

/-- The length, the bytes, and zeros up to a whole word. -/
def lengthPrefixed (b : Blob) : Bytes :=
  word (BitVec.ofNat 256 b.1.length) ++ (b.1 ++ padding b.1.length)

theorem prefixFree_lengthPrefixed : PrefixFree lengthPrefixed := by
  rintro ⟨a, ha⟩ ⟨b, hb⟩ x y h
  have h' : word (BitVec.ofNat 256 a.length) ++ (a ++ (padding a.length ++ x))
      = word (BitVec.ofNat 256 b.length) ++ (b ++ (padding b.length ++ y)) := by
    simpa [lengthPrefixed, List.append_assoc] using h
  obtain ⟨hw, h2⟩ := prefixFree_word _ _ _ _ h'
  have hlen : a.length = b.length := by
    have := congrArg BitVec.toNat hw
    rw [BitVec.toNat_ofNat, BitVec.toNat_ofNat] at this
    rwa [Nat.mod_eq_of_lt ha, Nat.mod_eq_of_lt hb] at this
  obtain ⟨rfl, h3⟩ := List.append_inj h2 hlen
  exact ⟨rfl, (List.append_inj h3 rfl).2⟩

/-! ## Hash functions -/

/-- `hash` separates the strings of `D`. -/
def CollisionFree {δ : Type} (hash : Bytes → δ) (D : Set Bytes) : Prop := Set.InjOn hash D

/-- Strings with pairwise different digests. -/
theorem CollisionFree.of_nodup {δ : Type} {hash : Bytes → δ} {l : List Bytes} {D : Set Bytes}
    (h : (l.map hash).Nodup) (hD : ∀ s ∈ D, s ∈ l) : CollisionFree hash D := by
  intro s hs s' hs' heq
  exact List.inj_on_of_nodup_map h (hD s hs) (hD s' hs') heq

end Encoding
