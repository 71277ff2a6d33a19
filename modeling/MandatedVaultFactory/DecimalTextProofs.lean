import MandatedVaultFactory.DecimalProofs
import MandatedVaultFactory.JsonProofs

/-!
# Decimal numbers as text

What `Decimal(text)` makes of a text: white space around it and underscores in it go, any decimal
digits are read as the digits they are, and what is left is a numeric string.

* **`Numeral`**, **`Special`** — the numeric strings of finite numbers, and of the others.
* **`Bounds`** — what the library can hold; a number beyond it is refused.
* **`ofText_numeral`**, **`ofText_special`**, **`ofText_cases`** — these are read, and no other
  text is. -/

namespace Decimals

open Texts Json

/-! ## Numeric strings -/

def signText : Option Bool → Text
  | none => []
  | some false => ['+']
  | some true => ['-']

/-- The number that digits are written for. -/
def natOf (digits : Text) : Nat := digits.foldl (fun n c => n * 10 + (c.toNat - 48)) 0

structure Exponent where
  upper : Bool
  sign : Option Bool
  digits : Text
  isDigits : ∀ c ∈ digits, c.isDigit = true
  ne_nil : digits ≠ []

def Exponent.text (e : Exponent) : Text :=
  (if e.upper then 'E' else 'e') :: (signText e.sign ++ e.digits)

def signedNat (sign : Option Bool) (n : Nat) : ℤ := if sign = some true then -n else n

/-- The numeric string of a finite number: digits with a point or without, and an exponent or
    none. -/
structure Numeral where
  sign : Option Bool
  whole : Text
  point : Bool
  frac : Text
  exp : Option Exponent
  wholeDigits : ∀ c ∈ whole, c.isDigit = true
  fracDigits : ∀ c ∈ frac, c.isDigit = true
  ne_nil : whole ++ frac ≠ []
  noPoint : point = false → frac = []

namespace Numeral

def fracText (n : Numeral) : Text := if n.point then '.' :: n.frac else []

def expText (n : Numeral) : Text := (n.exp.map Exponent.text).getD []

def body (n : Numeral) : Text := n.whole ++ (n.fracText ++ n.expText)

def text (n : Numeral) : Text := signText n.sign ++ n.body

def negative (n : Numeral) : Bool := n.sign = some true

def coefficient (n : Numeral) : Nat := natOf (n.whole ++ n.frac)

def exponent (n : Numeral) : ℤ :=
  (n.exp.map fun e => signedNat e.sign (natOf e.digits)).getD 0 - n.frac.length

/-- The number that is denoted. -/
def value (n : Numeral) : ℚ :=
  if n.negative then -magnitude n.coefficient n.exponent else magnitude n.coefficient n.exponent

end Numeral

def infText : Text := ['i', 'n', 'f']
def infinityText : Text := ['i', 'n', 'f', 'i', 'n', 'i', 't', 'y']
def nanText : Text := ['n', 'a', 'n']
def snanText : Text := ['s', 'n', 'a', 'n']

/-- The numeric string of what is no finite number, in letters of any case. -/
structure Special where
  sign : Option Bool
  word : Text
  payload : Text
  spelled : (lower word = infText ∨ lower word = infinityText) ∧ payload = []
    ∨ lower word = nanText ∨ lower word = snanText
  payloadDigits : ∀ c ∈ payload, c.isDigit = true

def Special.text (s : Special) : Text := signText s.sign ++ (s.word ++ s.payload)

/-! ## Reading -/

/-- `Py_UNICODE_TODECIMAL`: the decimal digits that are not ASCII. -/
structure UnicodeDigits where
  toDecimal : Char → Option Nat
  lt : ∀ c n, toDecimal c = some n → n < 10

/-- One character of `numeric_as_ascii`. -/
def asciiChar (digits : UnicodeDigits) (c : Char) : Option Char :=
  if 0 < c.toNat ∧ c.toNat ≤ 127 then some c
  else if isSpace c then some ' '
  else (digits.toDecimal c).map Nat.digitChar

/-- `numeric_as_ascii`, `none` where a character is neither white space nor a digit. -/
def numericAsAscii (digits : UnicodeDigits) (t : Text) : Option Text :=
  ((strip t).filter fun c => c ≠ '_').mapM (asciiChar digits)

def takeSign : Text → Option Bool × Text
  | '-' :: t => (some true, t)
  | '+' :: t => (some false, t)
  | t => (none, t)

def readSpecial (negative : Bool) (t : Text) : Option Decimal :=
  if lower t = infText ∨ lower t = infinityText then some (.infinity negative)
  else if lower (t.take 3) = nanText ∧ (t.drop 3).all Char.isDigit then
    some (.nan negative false (natOf (t.drop 3)))
  else if lower (t.take 4) = snanText ∧ (t.drop 4).all Char.isDigit then
    some (.nan negative true (natOf (t.drop 4)))
  else none

def readExponent : Text → Option ℤ
  | [] => some 0
  | c :: t =>
      if c = 'e' ∨ c = 'E' then
        let (sign, digits) := takeSign t
        if digits ≠ [] ∧ digits.all Char.isDigit then some (signedNat sign (natOf digits)) else none
      else none

/-- The digits behind the point, where there is one. -/
def readFrac : Text → Text × Text
  | '.' :: t => (t.takeWhile Char.isDigit, t.dropWhile Char.isDigit)
  | t => ([], t)

def readFinite (negative : Bool) (t : Text) : Option Decimal :=
  let whole := t.takeWhile Char.isDigit
  let (frac, rest) := readFrac (t.dropWhile Char.isDigit)
  if whole ++ frac = [] then none
  else (readExponent rest).map fun e => .finite negative (natOf (whole ++ frac)) (e - frac.length)

/-- The number that a numeric string denotes. -/
def ofNumericString (t : Text) : Option Decimal :=
  let (sign, rest) := takeSign t
  (readSpecial (sign = some true) rest).or (readFinite (sign = some true) rest)

/-- How many digits a number can have, its largest adjusted exponent and its smallest exponent. -/
structure Bounds where
  prec : Nat
  emax : ℤ
  etiny : ℤ

/-- `MAX_PREC`, `MAX_EMAX` and `MIN_ETINY`. -/
def libraryBounds : Bounds where
  prec := 999999999999999999
  emax := 999999999999999999
  etiny := -1999999999999999997

/-- The number has room; without bounds every number has. -/
def Within (bounds : Option Bounds) (coefficient : Nat) (exponent : ℤ) : Prop :=
  ∀ b ∈ bounds, digitCount coefficient ≤ b.prec
    ∧ exponent + (digitCount coefficient - 1) ≤ b.emax ∧ b.etiny ≤ exponent

instance (bounds : Option Bounds) (coefficient : Nat) (exponent : ℤ) :
    Decidable (Within bounds coefficient exponent) := by
  cases bounds with
  | none => exact .isTrue fun b hb => by cases hb
  | some b =>
      exact decidable_of_iff (digitCount coefficient ≤ b.prec
          ∧ exponent + (digitCount coefficient - 1) ≤ b.emax ∧ b.etiny ≤ exponent)
        ⟨fun h b' hb' => Option.some.inj hb' ▸ h, fun h => h b rfl⟩

/-- What is read is not rounded: it is held as it is, or refused. -/
def held (bounds : Option Bounds) : Decimal → Except Signal Decimal
  | .finite negative coefficient exponent =>
      if Within bounds coefficient exponent then .ok (.finite negative coefficient exponent)
      else .error .invalidOperation
  | .infinity negative => .ok (.infinity negative)
  | .nan negative signaling payload =>
      if Within bounds payload 0 then .ok (.nan negative signaling payload)
      else .error .invalidOperation

theorem eq_of_held {bounds : Option Bounds} {d d' : Decimal} (h : held bounds d = .ok d') :
    d = d' := by
  cases d with
  | infinity negative => exact Except.ok.inj h
  | finite negative coefficient exponent =>
      rw [held] at h
      by_cases hwithin : Within bounds coefficient exponent
      · rw [if_pos hwithin] at h
        exact Except.ok.inj h
      · rw [if_neg hwithin] at h
        cases h
  | nan negative signaling payload =>
      rw [held] at h
      by_cases hwithin : Within bounds payload 0
      · rw [if_pos hwithin] at h
        exact Except.ok.inj h
      · rw [if_neg hwithin] at h
        cases h

/-- `Decimal(t)`. -/
def ofText (bounds : Option Bounds) (digits : UnicodeDigits) (t : Text) : Except Signal Decimal :=
  match (numericAsAscii digits t).bind ofNumericString with
  | some d => held bounds d
  | none => .error .invalidOperation

/-! ## What is written is read -/

theorem takeSign_append (sign : Option Bool) {t : Text}
    (ht : Next (fun c => c ≠ '-' ∧ c ≠ '+') t) : takeSign (signText sign ++ t) = (sign, t) := by
  cases sign with
  | some negative => cases negative <;> rfl
  | none =>
      cases t with
      | nil => rfl
      | cons c t =>
          obtain ⟨hminus, hplus⟩ := ht c rfl
          rw [signText, List.nil_append, takeSign]
          · exact fun _ h => hminus (List.cons.inj h).1
          · exact fun _ h => hplus (List.cons.inj h).1

theorem next_of_digits {t : Text} (h : ∀ c ∈ t, c.isDigit = true) :
    Next (fun c => c ≠ '-' ∧ c ≠ '+') t := by
  intro c hc
  have hdigit := h c (List.mem_of_mem_head? hc)
  exact ⟨ne_of_isDigit hdigit rfl, ne_of_isDigit hdigit rfl⟩

theorem readExponent_text (n : Numeral) :
    readExponent n.expText = some ((n.exp.map fun e => signedNat e.sign (natOf e.digits)).getD 0) := by
  rw [Numeral.expText]
  cases n.exp with
  | none => rfl
  | some e =>
      show readExponent ((if e.upper then 'E' else 'e') :: (signText e.sign ++ e.digits)) = _
      have hall : e.digits.all Char.isDigit = true := List.all_eq_true.mpr e.isDigits
      have hmark : (if e.upper then 'E' else 'e') = 'e' ∨ (if e.upper then 'E' else 'e') = 'E' := by
        cases e.upper
        · exact Or.inl rfl
        · exact Or.inr rfl
      rw [readExponent, if_pos hmark, takeSign_append e.sign (next_of_digits e.isDigits)]
      exact if_pos ⟨e.ne_nil, hall⟩

theorem next_expText (n : Numeral) : Next (fun c => c.isDigit = false ∧ c ≠ '.') n.expText := by
  rw [Numeral.expText]
  cases n.exp with
  | none => exact next_nil
  | some e =>
      refine next_cons ?_
      cases e.upper <;> exact ⟨rfl, by decide⟩

theorem readFrac_text (n : Numeral) :
    readFrac (n.fracText ++ n.expText) = (n.frac, n.expText) := by
  have hnext := next_expText n
  rw [Numeral.fracText]
  cases hpoint : n.point with
  | true =>
      obtain ⟨htake, hdrop⟩ := takeWhile_digits n.fracDigits (hnext.imp fun _ h => h.1)
      show ((n.frac ++ n.expText).takeWhile Char.isDigit, (n.frac ++ n.expText).dropWhile Char.isDigit)
        = (n.frac, n.expText)
      rw [htake, hdrop]
  | false =>
      rw [n.noPoint hpoint]
      show readFrac n.expText = ([], n.expText)
      cases hexp : n.expText with
      | nil => rfl
      | cons c t =>
          rw [hexp] at hnext
          rw [readFrac]
          exact fun _ h => (hnext c rfl).2 (List.cons.inj h).1

theorem readFinite_body (n : Numeral) (negative : Bool) :
    readFinite negative n.body = some (.finite negative n.coefficient n.exponent) := by
  have hnext : Next (fun c => c.isDigit = false) (n.fracText ++ n.expText) := by
    rw [Numeral.fracText]
    cases n.point with
    | true => exact next_cons rfl
    | false => exact (next_expText n).imp fun _ h => h.1
  obtain ⟨htake, hdrop⟩ := takeWhile_digits n.wholeDigits hnext
  rw [readFinite, Numeral.body, htake, hdrop, readFrac_text]
  show (if n.whole ++ n.frac = [] then none else _) = _
  rw [if_neg n.ne_nil, readExponent_text]
  rfl

/-- A numeric string of a finite number begins with a digit or with the point. -/
theorem head_body (n : Numeral) : ∃ c t, n.body = c :: t ∧ (c.isDigit = true ∨ c = '.') := by
  rw [Numeral.body]
  cases hwhole : n.whole with
  | cons c t => exact ⟨c, _, rfl, Or.inl (n.wholeDigits c (hwhole ▸ List.mem_cons_self ..))⟩
  | nil =>
      have hpoint : n.point = true := by
        by_contra hpoint
        have hfrac := n.noPoint (Bool.eq_false_iff.mpr hpoint)
        exact n.ne_nil (by rw [hwhole, hfrac]; rfl)
      refine ⟨'.', n.frac ++ n.expText, ?_, Or.inr rfl⟩
      rw [Numeral.fracText, if_pos hpoint]
      rfl

theorem toLower_of_head {c : Char} (h : c.isDigit = true ∨ c = '.') : c.toLower = c := by
  delta Char.toLower
  refine dif_neg fun hupper => ?_
  rcases h with h | rfl
  · have hdigit := h
    simp only [Char.isDigit, Bool.and_eq_true, decide_eq_true_eq, UInt32.le_iff_toNat_le] at hdigit
    have hlow := UInt32.le_iff_toNat_le.mp hupper.1
    have hhigh : c.val.toNat ≤ 57 := hdigit.2
    have hbound : (65 : Nat) ≤ c.val.toNat := hlow
    omega
  · exact absurd hupper.1 (by decide)

/-- A word that begins with a letter is not there. -/
theorem lower_take_ne {c d : Char} (t word : Text) (h : c.isDigit = true ∨ c = '.')
    (hd : d.isDigit = false ∧ d ≠ '.') (k : Nat) : lower ((c :: t).take k) ≠ d :: word := by
  cases k with
  | zero => exact fun heq => by cases heq
  | succ k =>
      intro heq
      have hhead : c.toLower = d := (List.cons.inj heq).1
      rw [toLower_of_head h] at hhead
      rcases h with h | h
      · rw [hhead, hd.1] at h
        cases h
      · exact hd.2 (hhead ▸ h)

theorem readSpecial_body (n : Numeral) (negative : Bool) : readSpecial negative n.body = none := by
  obtain ⟨c, t, hbody, hc⟩ := head_body n
  have hinf := lower_take_ne t ['n', 'f'] hc (d := 'i') ⟨rfl, by decide⟩ (c :: t).length
  have hinfinity := lower_take_ne t ['n', 'f', 'i', 'n', 'i', 't', 'y'] hc (d := 'i')
    ⟨rfl, by decide⟩ (c :: t).length
  have hnan := lower_take_ne t ['a', 'n'] hc (d := 'n') ⟨rfl, by decide⟩ 3
  have hsnan := lower_take_ne t ['n', 'a', 'n'] hc (d := 's') ⟨rfl, by decide⟩ 4
  rw [List.take_length] at hinf hinfinity
  rw [hbody, readSpecial, if_neg, if_neg, if_neg]
  · exact fun h => hsnan h.1
  · exact fun h => hnan h.1
  · exact fun h => h.elim hinf hinfinity

/-- **Finite numbers are read.** -/
theorem ofNumericString_numeral (n : Numeral) :
    ofNumericString n.text = some (.finite n.negative n.coefficient n.exponent) := by
  obtain ⟨c, t, hbody, hc⟩ := head_body n
  have hnext : Next (fun c => c ≠ '-' ∧ c ≠ '+') n.body := by
    rw [hbody]
    refine next_cons ?_
    rcases hc with hc | rfl
    · exact ⟨ne_of_isDigit hc rfl, ne_of_isDigit hc rfl⟩
    · exact ⟨by decide, by decide⟩
  rw [ofNumericString, Numeral.text, takeSign_append n.sign hnext]
  show (readSpecial n.negative n.body).or (readFinite n.negative n.body) = _
  rw [readSpecial_body, readFinite_body]
  rfl

theorem length_lower (t : Text) : (lower t).length = t.length := List.length_map ..

/-- Whether a special value is a number that is not there, and how. -/
def IsSpecial : Decimal → Prop
  | .finite .. => False
  | .infinity _ => True
  | .nan .. => True

/-- **The others are read.** -/
theorem ofNumericString_special (s : Special) :
    ∃ d, ofNumericString s.text = some d ∧ IsSpecial d := by
  have hall : s.payload.all Char.isDigit = true := List.all_eq_true.mpr s.payloadDigits
  -- the word does not begin with a sign
  have hword : ∃ c t, s.word = c :: t ∧ c.toLower ≠ '-' ∧ c.toLower ≠ '+' := by
    have hsome : ∀ d word, lower s.word = d :: word → d ≠ '-' → d ≠ '+' →
        ∃ c t, s.word = c :: t ∧ c.toLower ≠ '-' ∧ c.toLower ≠ '+' := by
      intro d word hlower hminus hplus
      obtain ⟨c, t, hword, hd, _⟩ := List.map_eq_cons_iff.mp hlower
      exact ⟨c, t, hword, hd ▸ hminus, hd ▸ hplus⟩
    rcases s.spelled with ⟨h | h, _⟩ | h | h
    · exact hsome 'i' _ h (by decide) (by decide)
    · exact hsome 'i' _ h (by decide) (by decide)
    · exact hsome 'n' _ h (by decide) (by decide)
    · exact hsome 's' _ h (by decide) (by decide)
  have hnext : Next (fun c => c ≠ '-' ∧ c ≠ '+') (s.word ++ s.payload) := by
    obtain ⟨c, t, hword, hminus, hplus⟩ := hword
    rw [hword]
    refine next_cons ⟨fun h => ?_, fun h => ?_⟩
    · exact hminus (by rw [h]; rfl)
    · exact hplus (by rw [h]; rfl)
  have hread : ∀ negative, ∃ d, readSpecial negative (s.word ++ s.payload) = some d
      ∧ IsSpecial d := by
    intro negative
    rw [readSpecial]
    by_cases hinf : lower (s.word ++ s.payload) = infText ∨ lower (s.word ++ s.payload) = infinityText
    · exact ⟨_, if_pos hinf, trivial⟩
    rw [if_neg hinf]
    rcases s.spelled with ⟨h, hpayload⟩ | h | h
    · rw [hpayload, List.append_nil] at hinf
      exact absurd h hinf
    · have hlength : s.word.length = 3 := by rw [← length_lower, h]; rfl
      rw [← hlength, List.take_left, List.drop_left]
      exact ⟨_, if_pos ⟨h, hall⟩, trivial⟩
    · have hlength : s.word.length = 4 := by rw [← length_lower, h]; rfl
      have hthree : lower ((s.word ++ s.payload).take 3) ≠ nanText := by
        intro heq
        have htake : lower ((s.word ++ s.payload).take 3) = (lower s.word).take 3 := by
          rw [List.take_append_of_le_length (by omega), lower, lower, List.map_take]
        rw [htake, h] at heq
        exact absurd heq (by decide)
      rw [if_neg fun hnan => hthree hnan.1, ← hlength, List.take_left, List.drop_left]
      exact ⟨_, if_pos ⟨h, hall⟩, trivial⟩
  obtain ⟨d, hd, hspecial⟩ := hread (s.sign = some true)
  refine ⟨d, ?_, hspecial⟩
  rw [ofNumericString, Special.text, takeSign_append s.sign hnext]
  show (readSpecial (s.sign = some true) _).or _ = _
  rw [hd]
  rfl

/-! ## What is read is written -/

theorem exists_sign (t : Text) : signText (takeSign t).1 ++ (takeSign t).2 = t := by
  unfold takeSign
  split <;> rfl

theorem exists_special {negative : Bool} {t : Text} {d : Decimal}
    (h : readSpecial negative t = some d) (sign : Option Bool) :
    IsSpecial d ∧ ∃ s : Special, s.text = signText sign ++ t := by
  rw [readSpecial] at h
  by_cases hinf : lower t = infText ∨ lower t = infinityText
  · rw [if_pos hinf] at h
    obtain rfl := Option.some.inj h
    exact ⟨trivial, ⟨sign, t, [], Or.inl ⟨hinf, rfl⟩, List.forall_mem_nil _⟩,
      congrArg _ (List.append_nil t)⟩
  rw [if_neg hinf] at h
  by_cases hnan : lower (t.take 3) = nanText ∧ (t.drop 3).all Char.isDigit
  · rw [if_pos hnan] at h
    obtain rfl := Option.some.inj h
    exact ⟨trivial, ⟨sign, t.take 3, t.drop 3, Or.inr (Or.inl hnan.1),
      List.all_eq_true.mp hnan.2⟩, congrArg _ (List.take_append_drop 3 t)⟩
  rw [if_neg hnan] at h
  by_cases hsnan : lower (t.take 4) = snanText ∧ (t.drop 4).all Char.isDigit
  · rw [if_pos hsnan] at h
    obtain rfl := Option.some.inj h
    exact ⟨trivial, ⟨sign, t.take 4, t.drop 4, Or.inr (Or.inr hsnan.1),
      List.all_eq_true.mp hsnan.2⟩, congrArg _ (List.take_append_drop 4 t)⟩
  · rw [if_neg hsnan] at h
    cases h

theorem exists_exponent {t : Text} {e : ℤ} (h : readExponent t = some e) :
    ∃ exp : Option Exponent, (exp.map Exponent.text).getD [] = t := by
  cases t with
  | nil => exact ⟨none, rfl⟩
  | cons c t =>
      rw [readExponent] at h
      by_cases hmark : c = 'e' ∨ c = 'E'
      · rw [if_pos hmark] at h
        have hsign := exists_sign t
        cases htake : takeSign t with
        | mk sign digits =>
            rw [htake] at h hsign
            by_cases hdigits : digits ≠ [] ∧ digits.all Char.isDigit
            · refine ⟨some ⟨decide (c = 'E'), sign, digits, List.all_eq_true.mp hdigits.2,
                hdigits.1⟩, ?_⟩
              show (if decide (c = 'E') then 'E' else 'e') :: (signText sign ++ digits) = c :: t
              rw [hsign]
              rcases hmark with rfl | rfl <;> rfl
            · have hnone : (if digits ≠ [] ∧ digits.all Char.isDigit then
                  some (signedNat sign (natOf digits)) else none) = some e := h
              rw [if_neg hdigits] at hnone
              cases hnone
      · rw [if_neg hmark] at h
        cases h

theorem readFrac_digits (t : Text) : ∀ c ∈ (readFrac t).1, c.isDigit = true := by
  unfold readFrac
  split
  · exact List.all_eq_true.mp List.all_takeWhile
  · exact List.forall_mem_nil _

/-- The point, where there is one. -/
theorem exists_point (t : Text) : ∃ point, (point = false → (readFrac t).1 = [])
    ∧ (if point then '.' :: (readFrac t).1 else []) ++ (readFrac t).2 = t := by
  unfold readFrac
  split
  · refine ⟨true, fun h => ?_, congrArg _ List.takeWhile_append_dropWhile⟩
    cases h
  · exact ⟨false, fun _ => rfl, rfl⟩

theorem exists_numeral {negative : Bool} {t : Text} {d : Decimal}
    (h : readFinite negative t = some d) (sign : Option Bool) :
    ∃ n : Numeral, n.text = signText sign ++ t := by
  rw [readFinite] at h
  obtain ⟨point, hpoint, hfrac⟩ := exists_point (t.dropWhile Char.isDigit)
  have hdigits := readFrac_digits (t.dropWhile Char.isDigit)
  cases hread : readFrac (t.dropWhile Char.isDigit) with
  | mk frac rest =>
      rw [hread] at h hpoint hfrac hdigits
      have h : (if t.takeWhile Char.isDigit ++ frac = [] then none
        else (readExponent rest).map fun e => Decimal.finite negative
          (natOf (t.takeWhile Char.isDigit ++ frac)) (e - frac.length)) = some d := h
      by_cases hnil : t.takeWhile Char.isDigit ++ frac = []
      · rw [if_pos hnil] at h
        cases h
      · rw [if_neg hnil] at h
        obtain ⟨e, he, _⟩ := Option.map_eq_some_iff.mp h
        obtain ⟨exp, hexp⟩ := exists_exponent he
        refine ⟨⟨sign, t.takeWhile Char.isDigit, point, frac, exp,
          List.all_eq_true.mp List.all_takeWhile, hdigits, hnil, hpoint⟩, ?_⟩
        show signText sign ++ (t.takeWhile Char.isDigit
          ++ ((if point then '.' :: frac else []) ++ (exp.map Exponent.text).getD [])) = _
        rw [hexp, hfrac, List.takeWhile_append_dropWhile]

/-- **Nothing else is read.** -/
theorem ofNumericString_cases {t : Text} {d : Decimal} (h : ofNumericString t = some d) :
    (∃ n : Numeral, n.text = t) ∨ ∃ s : Special, s.text = t := by
  have hsign := exists_sign t
  rw [ofNumericString] at h
  cases htake : takeSign t with
  | mk sign rest =>
      rw [htake] at h hsign
      have h : (readSpecial (sign = some true) rest).or (readFinite (sign = some true) rest)
        = some d := h
      rcases Option.or_eq_some_iff.mp h with hspecial | ⟨_, hfinite⟩
      · obtain ⟨_, s, hs⟩ := exists_special hspecial sign
        exact Or.inr ⟨s, hs.trans hsign⟩
      · obtain ⟨n, hn⟩ := exists_numeral hfinite sign
        exact Or.inl ⟨n, hn.trans hsign⟩

/-! ## Texts -/

variable (digits : UnicodeDigits)

/-- A text is written for a numeric string: with white space around it, underscores in it and
    digits of any script. -/
def Writes (t numeric : Text) : Prop := numericAsAscii digits t = some numeric

theorem within_none (coefficient : Nat) (exponent : ℤ) : Within none coefficient exponent :=
  fun b hb => by cases hb

theorem ofText_writes (bounds : Option Bounds) {t : Text} {n : Numeral}
    (h : Writes digits t n.text) :
    ofText bounds digits t = held bounds (.finite n.negative n.coefficient n.exponent) := by
  rw [ofText, h, Option.bind_some, ofNumericString_numeral]

theorem ofText_numeral {bounds : Option Bounds} {t : Text} {n : Numeral}
    (h : Writes digits t n.text) (hwithin : Within bounds n.coefficient n.exponent) :
    ofText bounds digits t = .ok (.finite n.negative n.coefficient n.exponent) :=
  (ofText_writes digits bounds h).trans (if_pos hwithin)

/-- A number beyond the bounds is refused. -/
theorem ofText_beyond {bounds : Option Bounds} {t : Text} {n : Numeral}
    (h : Writes digits t n.text) (hbeyond : ¬ Within bounds n.coefficient n.exponent) :
    ofText bounds digits t = .error .invalidOperation :=
  (ofText_writes digits bounds h).trans (if_neg hbeyond)

theorem ofText_special {t : Text} {s : Special} (h : Writes digits t s.text) :
    ∃ d, ofText none digits t = .ok d ∧ IsSpecial d := by
  obtain ⟨d, hd, hspecial⟩ := ofNumericString_special s
  refine ⟨d, ?_, hspecial⟩
  rw [ofText, h, Option.bind_some, hd]
  cases d with
  | finite => exact False.elim hspecial
  | infinity negative => rfl
  | nan negative signaling payload =>
      show held none (.nan negative signaling payload) = _
      rw [held, if_pos (within_none payload 0)]

/-- **Every text is one of three things**: a finite number, a special value, or an error. -/
theorem ofText_cases (bounds : Option Bounds) (t : Text) :
    (∃ n : Numeral, Writes digits t n.text) ∨ (∃ s : Special, Writes digits t s.text)
      ∨ ofText bounds digits t = .error .invalidOperation := by
  cases hnumeric : (numericAsAscii digits t).bind ofNumericString with
  | none =>
      refine Or.inr (Or.inr ?_)
      rw [ofText, hnumeric]
  | some d =>
      obtain ⟨numeric, hwrites, hread⟩ := Option.bind_eq_some_iff.mp hnumeric
      rcases ofNumericString_cases hread with ⟨n, rfl⟩ | ⟨s, rfl⟩
      · exact Or.inl ⟨n, hwrites⟩
      · exact Or.inr (Or.inl ⟨s, hwrites⟩)

end Decimals
