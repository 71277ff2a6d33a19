import MandatedVaultFactory.EncodingProofs

/-!
# Texts: numbers and bytes written down

Character strings, how numbers and bytes are put into them, and what Python's `str` does with
them.

* **`hex`** — bytes as lower-case hexadecimal digits, two a byte; `unhex` reads them back.
* **`decimal`** — natural numbers in base ten; `decimal_injective`, `int_decimal`.
* **`strip`**, **`lower`** — on the white space around a text, and on its letters.
* **`encodeUtf8`** — texts as bytes; `decodeUtf8_encodeUtf8`, and where a newline is. -/

namespace Texts

open Encoding

/-- A string, as its characters. -/
abbrev Text : Type := List Char

/-! ## Hexadecimal -/

/-- One hexadecimal digit, in lower case. -/
def hexDigit (n : Nat) : Char := Nat.digitChar n

/-- The value of a hexadecimal digit, in either case. -/
def hexVal (c : Char) : Option Nat :=
  if '0' ≤ c ∧ c ≤ '9' then some (c.toNat - 48)
  else if 'a' ≤ c ∧ c ≤ 'f' then some (c.toNat - 87)
  else if 'A' ≤ c ∧ c ≤ 'F' then some (c.toNat - 55)
  else none

theorem hexVal_hexDigit : ∀ n < 16, hexVal (hexDigit n) = some n := by
  decide

/-- `bytes.hex()`. -/
def hex : Bytes → Text
  | [] => []
  | b :: bs => hexDigit (b.toNat / 16) :: hexDigit (b.toNat % 16) :: hex bs

/-- Read bytes back. -/
def unhex : Text → Option Bytes
  | [] => some []
  | [_] => none
  | a :: b :: rest => do
      let high ← hexVal a
      let low ← hexVal b
      let bytes ← unhex rest
      return UInt8.ofNat (16 * high + low) :: bytes

theorem unhex_hex (bs : Bytes) : unhex (hex bs) = some bs := by
  induction bs with
  | nil => rfl
  | cons b bs ih =>
      have hb := b.toNat_lt
      have hhigh := hexVal_hexDigit (b.toNat / 16) (by omega)
      have hlow := hexVal_hexDigit (b.toNat % 16) (by omega)
      have hsum : 16 * (b.toNat / 16) + b.toNat % 16 = b.toNat := by omega
      simp only [hex, unhex, hhigh, hlow, ih, Option.bind_eq_bind, Option.bind_some,
        Option.pure_def, hsum, UInt8.ofNat_toNat]

theorem hex_injective : Function.Injective hex := by
  intro a b h
  have h' := congrArg unhex h
  rw [unhex_hex, unhex_hex] at h'
  exact Option.some.inj h'

/-! ## Decimal -/

/-- `str(n)` of a natural number. -/
def decimal (n : Nat) : Text := Nat.toDigits 10 n

theorem decimal_injective : Function.Injective decimal := by
  intro m n h
  have h' := congrArg (fun digits => Nat.ofDigitChars 10 digits 0) h
  rwa [decimal, decimal, Nat.ofDigitChars_ten_toDigits, Nat.ofDigitChars_ten_toDigits] at h'

theorem isDigit_of_mem_decimal {n : Nat} {c : Char} (h : c ∈ decimal n) : c.isDigit = true :=
  Nat.isDigit_of_mem_toDigits (by decide) (by decide) h

theorem decimal_ne_nil (n : Nat) : decimal n ≠ [] := Nat.toDigits_ne_nil

/-- A number other than zero starts with another digit.  Strong induction: all but the last
    digit are those of a tenth of it. -/
theorem decimal_head (n : Nat) : n ≠ 0 → ∀ c ∈ (decimal n).head?, c ≠ '0' := by
  induction n using Nat.strongRecOn with
  | ind n ih =>
      intro hn c hc
      by_cases hlt : n < 10
      · rw [decimal, Nat.toDigits_of_lt_base hlt] at hc
        obtain rfl : n.digitChar = c := by simpa using hc
        have hall : ∀ k < 10, k ≠ 0 → k.digitChar ≠ '0' := by decide
        exact hall n hlt hn
      · have hsplit : decimal n = decimal (n / 10) ++ [(n % 10).digitChar] :=
          Nat.toDigits_of_base_le (by decide) (by omega)
        rw [hsplit, List.head?_append_of_ne_nil _ (decimal_ne_nil _)] at hc
        exact ih (n / 10) (by omega) (by omega) c hc

/-! ## What `str` does -/

/-- White space, as `str.strip` knows it. -/
def isSpace (c : Char) : Bool :=
  let n := c.toNat
  (9 ≤ n && n ≤ 13) || (28 ≤ n && n ≤ 32) || n = 0x85 || n = 0xa0 || n = 0x1680
    || (0x2000 ≤ n && n ≤ 0x200a) || n = 0x2028 || n = 0x2029 || n = 0x202f || n = 0x205f
    || n = 0x3000

/-- `str.strip()`. -/
def strip (t : Text) : Text :=
  ((t.dropWhile isSpace).reverse.dropWhile isSpace).reverse

/-- No white space at either end. -/
structure Trimmed (t : Text) : Prop where
  head : ∀ c ∈ t.head?, isSpace c = false
  last : ∀ c ∈ t.getLast?, isSpace c = false

theorem dropWhile_of_head {p : Char → Bool} {t : Text} (h : ∀ c ∈ t.head?, p c = false) :
    t.dropWhile p = t := by
  cases t with
  | nil => rfl
  | cons c t => rw [List.dropWhile_cons_of_neg (by simp [h c rfl])]

/-- White space around a trimmed text goes. -/
theorem strip_eq {before core after : Text} (hbefore : ∀ c ∈ before, isSpace c = true)
    (hafter : ∀ c ∈ after, isSpace c = true) (hcore : Trimmed core) :
    strip (before ++ core ++ after) = core := by
  have hreverse : ∀ c ∈ after.reverse, isSpace c = true := fun c hc =>
    hafter c (List.mem_reverse.mp hc)
  have hlast : ∀ c ∈ core.reverse.head?, isSpace c = false := by
    rw [List.head?_reverse]
    exact hcore.last
  rw [strip, List.append_assoc, List.dropWhile_append_of_pos hbefore]
  by_cases hnil : core = []
  · subst hnil
    have hall : (after ++ []).dropWhile isSpace = [] := List.dropWhile_append_of_pos hafter
    rw [List.append_nil] at hall
    rw [List.nil_append, hall]
    rfl
  · have hhead : ∀ c ∈ (core ++ after).head?, isSpace c = false := by
      rw [List.head?_append_of_ne_nil _ hnil]
      exact hcore.head
    rw [dropWhile_of_head hhead, List.reverse_append, List.dropWhile_append_of_pos hreverse,
      dropWhile_of_head hlast, List.reverse_reverse]

/-- `str.lower()`, of ASCII letters. -/
def lower (t : Text) : Text := t.map Char.toLower

/-- `t.split(c, 1)`: what is before the first `c` and what is after it. -/
def splitOnce (c : Char) : Text → Option (Text × Text)
  | [] => none
  | d :: t => if d = c then some ([], t) else (splitOnce c t).map fun p => (d :: p.1, p.2)

theorem splitOnce_append {c : Char} {before : Text} (h : c ∉ before) (after : Text) :
    splitOnce c (before ++ c :: after) = some (before, after) := by
  induction before with
  | nil => simp [splitOnce]
  | cons d before ih =>
      simp only [List.mem_cons, not_or] at h
      obtain ⟨hd, hrest⟩ := h
      simp [splitOnce, Ne.symm hd, ih hrest]

/-- The digits that `int()` reads, single underscores between them. -/
def intDigits : Bool → Nat → Text → Option Nat
  | afterDigit, acc, [] => if afterDigit then some acc else none
  | afterDigit, acc, c :: t =>
      if c = '_' then if afterDigit then intDigits false acc t else none
      else if c.isDigit then intDigits true (acc * 10 + (c.toNat - 48)) t
      else none

/-- `int(t)` of a text in ASCII, `none` where it raises `ValueError`. -/
def int (t : Text) : Option Int :=
  match strip t with
  | '-' :: digits => (intDigits false 0 digits).map fun n => -(n : Int)
  | '+' :: digits => (intDigits false 0 digits).map fun n => (n : Int)
  | digits => (intDigits false 0 digits).map fun n => (n : Int)

/-- The visible characters of ASCII are no white space. -/
theorem not_isSpace_of_visible {c : Char} (h : 33 ≤ c.toNat) (h' : c.toNat ≤ 126) :
    isSpace c = false := by
  have hnone : ∀ n, 33 ≤ n → n ≤ 126 → ((9 ≤ n && n ≤ 13) || (28 ≤ n && n ≤ 32) || n = 0x85
      || n = 0xa0 || n = 0x1680 || (0x2000 ≤ n && n ≤ 0x200a) || n = 0x2028 || n = 0x2029
      || n = 0x202f || n = 0x205f || n = 0x3000 : Bool) = false := by
    intro n _ _
    simp
    omega
  exact hnone _ h h'

theorem not_isSpace_of_isDigit {c : Char} (h : c.isDigit = true) : isSpace c = false := by
  have hdigit : 48 ≤ c.toNat ∧ c.toNat ≤ 57 := by
    simpa [Char.isDigit, UInt32.le_iff_toNat_le] using h
  exact not_isSpace_of_visible (by omega) (by omega)

theorem toLower_of_isSpace {c : Char} (h : isSpace c = true) : c.toLower = c := by
  have hupper : ¬ (c.val ≥ 'A'.val ∧ c.val ≤ 'Z'.val) := by
    intro hupper
    have hrange : 65 ≤ c.toNat ∧ c.toNat ≤ 90 := hupper
    rw [not_isSpace_of_visible (by omega) (by omega)] at h
    cases h
  exact dif_neg hupper

theorem trimmed_of_digits {t : Text} (h : ∀ c ∈ t, c.isDigit = true) : Trimmed t where
  head c hc := not_isSpace_of_isDigit (h c (List.mem_of_mem_head? hc))
  last c hc := not_isSpace_of_isDigit (h c (List.mem_of_mem_getLast? hc))

theorem strip_of_trimmed {t : Text} (h : Trimmed t) : strip t = t := by
  have hstrip : strip ([] ++ t ++ []) = t :=
    strip_eq (fun _ hc => nomatch hc) (fun _ hc => nomatch hc) h
  rwa [List.nil_append, List.append_nil] at hstrip

theorem ne_of_isDigit {c d : Char} (h : c.isDigit = true) (hd : d.isDigit = false) : c ≠ d := by
  rintro rfl
  exact Bool.noConfusion (h.symm.trans hd)

/-- Reading digits.  Induction on them. -/
theorem intDigits_eq {t : Text} : ∀ (acc : Nat) (before : Bool), (∀ c ∈ t, c.isDigit = true) →
    before = true ∨ t ≠ [] → intDigits before acc t = some (Nat.ofDigitChars 10 t acc) := by
  induction t with
  | nil =>
      intro acc before _ hne
      obtain rfl := hne.resolve_right (not_not.mpr rfl)
      rfl
  | cons c t ih =>
      intro acc before hdigits _
      have hc : c.isDigit = true := hdigits c (List.mem_cons_self ..)
      have hunderscore : ¬ c = '_' := ne_of_isDigit hc rfl
      rw [intDigits, if_neg hunderscore, if_pos hc, Nat.ofDigitChars_cons,
        ih _ true (fun d hd => hdigits d (List.mem_cons_of_mem _ hd)) (Or.inl rfl), Nat.mul_comm]
      rfl

/-- `int` of digits alone. -/
theorem int_of_digits {t : Text} (h : ∀ c ∈ t, c.isDigit = true) (hne : t ≠ []) :
    int t = some ((Nat.ofDigitChars 10 t 0 : Nat) : Int) := by
  have hread : intDigits false 0 t = some (Nat.ofDigitChars 10 t 0) :=
    intDigits_eq 0 false h (Or.inr hne)
  rw [int, strip_of_trimmed (trimmed_of_digits h)]
  obtain ⟨c, t, rfl⟩ := List.exists_cons_of_ne_nil hne
  have hc : c.isDigit = true := h c (List.mem_cons_self ..)
  have hminus : c ≠ '-' := ne_of_isDigit hc rfl
  have hplus : c ≠ '+' := ne_of_isDigit hc rfl
  simp [hminus, hplus, hread]

/-- `int(str(n))`. -/
theorem int_decimal (n : Nat) : int (decimal n) = some (n : Int) := by
  rw [int_of_digits (fun _ hc => isDigit_of_mem_decimal hc) (decimal_ne_nil n), decimal,
    Nat.ofDigitChars_ten_toDigits]

/-! ## UTF-8 -/

/-- `t.encode("utf-8")`. -/
def encodeUtf8 (t : Text) : Bytes := t.flatMap String.utf8EncodeChar

/-- `b.decode("utf-8")`, `none` where it raises. -/
def decodeUtf8 (b : Bytes) : Option Text := b.toByteArray.utf8Decode?.map Array.toList

theorem decodeUtf8_encodeUtf8 (t : Text) : decodeUtf8 (encodeUtf8 t) = some t := by
  have h : t.utf8Encode.utf8Decode? = some t.toArray := List.utf8Decode?_utf8Encode
  rw [decodeUtf8, encodeUtf8]
  show (t.utf8Encode.utf8Decode?).map _ = _
  rw [h]
  rfl

theorem encodeUtf8_append (t u : Text) : encodeUtf8 (t ++ u) = encodeUtf8 t ++ encodeUtf8 u :=
  List.flatMap_append

theorem ne_ofNat_of_le {n : Nat} (h : 128 ≤ n) (hlt : n < 256) : (10 : UInt8) ≠ UInt8.ofNat n := by
  intro heq
  have hn := congrArg UInt8.toNat heq
  rw [UInt8.toNat_ofNat', Nat.mod_eq_of_lt hlt] at hn
  have h10 : (10 : UInt8).toNat = 10 := rfl
  omega

/-- The bytes of every other character are from 128 on, or the character itself. -/
theorem newline_mem_utf8EncodeChar {c : Char} (h : (10 : UInt8) ∈ String.utf8EncodeChar c) :
    c = '\n' := by
  have hlead : ∀ {k b x : Nat}, 128 ≤ b → b + k ≤ 256 → 0 < k →
      (10 : UInt8) ≠ UInt8.ofNat (x % k + b) := fun {k b x} hb hk hpos =>
    ne_ofNat_of_le (by omega) (by have := Nat.mod_lt x hpos; omega)
  simp only [String.utf8EncodeChar] at h
  by_cases h1 : c.val.toNat ≤ 0x7f
  · rw [if_pos h1] at h
    have hn := congrArg UInt8.toNat (List.mem_singleton.mp h)
    rw [UInt8.toNat_ofNat', Nat.mod_eq_of_lt (by omega)] at hn
    exact Char.ext (UInt32.toNat_inj.mp hn.symm)
  rw [if_neg h1] at h
  by_cases h2 : c.val.toNat ≤ 0x7ff
  · rw [if_pos h2] at h
    simp only [List.mem_cons, List.not_mem_nil, or_false] at h
    rcases h with h | h
    · exact absurd h (hlead (by omega) (by omega) (by omega))
    · exact absurd h (hlead (by omega) (by omega) (by omega))
  rw [if_neg h2] at h
  by_cases h3 : c.val.toNat ≤ 0xffff
  · rw [if_pos h3] at h
    simp only [List.mem_cons, List.not_mem_nil, or_false] at h
    rcases h with h | h | h
    · exact absurd h (hlead (by omega) (by omega) (by omega))
    · exact absurd h (hlead (by omega) (by omega) (by omega))
    · exact absurd h (hlead (by omega) (by omega) (by omega))
  · rw [if_neg h3] at h
    simp only [List.mem_cons, List.not_mem_nil, or_false] at h
    rcases h with h | h | h | h
    · exact absurd h (hlead (by omega) (by omega) (by omega))
    · exact absurd h (hlead (by omega) (by omega) (by omega))
    · exact absurd h (hlead (by omega) (by omega) (by omega))
    · exact absurd h (hlead (by omega) (by omega) (by omega))

theorem newline_notMem_encodeUtf8 {t : Text} (h : '\n' ∉ t) : (10 : UInt8) ∉ encodeUtf8 t := by
  intro hmem
  obtain ⟨c, hc, hbyte⟩ := List.mem_flatMap.mp hmem
  exact h (newline_mem_utf8EncodeChar hbyte ▸ hc)

end Texts
