import MandatedVaultFactory.DecimalTextProofs
import MandatedVaultFactory.DoubleProofs

/-!
# Floats as text

What `float(text)` makes of a text.  It is not what `Decimal(text)` makes of it: underscores stand
between digits only, fewer characters are white space, and `nan` carries nothing.

* **`readFloat`** — the number that is read, before it is rounded to a double.
* **`readFloat_numeral`** — a plain numeral is read as the number that it denotes.
* **`number_of_readFloat`** — what both read is the same number. -/

namespace Decimals

open Texts Json

/-- `Py_ISSPACE`, and of what is not ASCII the white space. -/
def isFloatSpace (c : Char) : Bool := isSpace c && !(28 ≤ c.toNat && c.toNat ≤ 31)

def stripFloat (t : Text) : Text :=
  ((t.dropWhile isFloatSpace).reverse.dropWhile isFloatSpace).reverse

/-- Underscores only between digits, after the character before. -/
def underscoresFit (before : Char) : Text → Bool
  | [] => before ≠ '_'
  | c :: t =>
      (if c = '_' then before.isDigit else before ≠ '_' || c.isDigit) && underscoresFit c t

/-- What C reads, with nothing left over; `some none` is `inf` or `nan`. -/
def readFloatAscii (t : Text) : Option (Option ℚ) :=
  let (sign, rest) := takeSign t
  if lower rest = infText ∨ lower rest = infinityText ∨ lower rest = nanText then some none
  else (readFinite (sign = some true) rest).map Decimal.number

/-- The number that `float(t)` rounds to a double, `some none` where it is no number, and `none`
    where it raises. -/
def readFloat (digits : UnicodeDigits) (t : Text) : Option (Option ℚ) :=
  ((stripFloat t).mapM (asciiChar digits)).bind fun ascii =>
    if underscoresFit ' ' ascii then readFloatAscii (ascii.filter fun c => c ≠ '_') else none

/-- `float(t)`, as it is written again; `some none` is no number. -/
def floatOf (digits : UnicodeDigits) (t : Text) : Option (Option ℚ) :=
  (readFloat digits t).map fun x => x.bind Doubles.shown

/-! ## Plain numerals -/

/-- The characters of numerals. -/
def Plain (c : Char) : Prop := c.isDigit = true ∨ c ∈ ['+', '-', '.', 'e', 'E']

theorem plain_signText (sign : Option Bool) : ∀ c ∈ signText sign, Plain c := by
  intro c hc
  cases sign with
  | none => cases hc
  | some negative =>
      right
      cases negative <;> obtain rfl := List.mem_singleton.mp hc <;> decide

theorem plain_text (n : Numeral) : ∀ c ∈ n.text, Plain c := by
  intro c hc
  rw [Numeral.text, Numeral.body, List.mem_append, List.mem_append, List.mem_append] at hc
  rcases hc with hsign | hwhole | hfrac | hexp
  · exact plain_signText n.sign c hsign
  · exact Or.inl (n.wholeDigits c hwhole)
  · rw [Numeral.fracText] at hfrac
    cases hpoint : n.point with
    | false =>
        rw [hpoint] at hfrac
        cases hfrac
    | true =>
        rw [hpoint] at hfrac
        rcases List.mem_cons.mp hfrac with rfl | hdigit
        · exact Or.inr (by decide)
        · exact Or.inl (n.fracDigits c hdigit)
  · rw [Numeral.expText] at hexp
    cases he : n.exp with
    | none =>
        rw [he] at hexp
        cases hexp
    | some e =>
        rw [he] at hexp
        have hexp : c ∈ (if e.upper then 'E' else 'e') :: (signText e.sign ++ e.digits) := hexp
        rcases List.mem_cons.mp hexp with rfl | hrest
        · right
          cases e.upper <;> decide
        · rcases List.mem_append.mp hrest with hsign | hdigit
          · exact plain_signText e.sign c hsign
          · exact Or.inl (e.isDigits c hdigit)

theorem Plain.between {c : Char} (h : Plain c) : 43 ≤ c.toNat ∧ c.toNat ≤ 101 := by
  rcases h with hdigit | hmem
  · simp only [Char.isDigit, Bool.and_eq_true, decide_eq_true_eq, UInt32.le_iff_toNat_le] at hdigit
    have hlow : 48 ≤ c.toNat := hdigit.1
    have hhigh : c.toNat ≤ 57 := hdigit.2
    omega
  · simp only [List.mem_cons, List.not_mem_nil, or_false] at hmem
    rcases hmem with rfl | rfl | rfl | rfl | rfl <;> decide

theorem Plain.not_space {c : Char} (h : Plain c) : isSpace c = false := by
  obtain ⟨hlow, hhigh⟩ := h.between
  simp only [isSpace, Bool.or_eq_false_iff, Bool.and_eq_false_iff, decide_eq_false_iff_not]
  omega

theorem Plain.ne_underscore {c : Char} (h : Plain c) : c ≠ '_' := by
  rintro rfl
  rcases h with hdigit | hmem
  · cases hdigit
  · exact absurd hmem (by decide)

theorem dropWhile_plain {t : Text} (h : ∀ c ∈ t, Plain c) : t.dropWhile isFloatSpace = t := by
  refine dropWhile_of_head fun c hc => ?_
  rw [isFloatSpace, (h c (List.mem_of_mem_head? hc)).not_space, Bool.false_and]

theorem stripFloat_plain {t : Text} (h : ∀ c ∈ t, Plain c) : stripFloat t = t := by
  rw [stripFloat, dropWhile_plain h,
    dropWhile_plain fun c hc => h c (List.mem_reverse.mp hc), List.reverse_reverse]

theorem mapM_plain (digits : UnicodeDigits) {t : Text} (h : ∀ c ∈ t, Plain c) :
    t.mapM (asciiChar digits) = some t := by
  induction t with
  | nil => rfl
  | cons c t ih =>
      obtain ⟨hlow, hhigh⟩ := (h c (List.mem_cons_self ..)).between
      have hc : asciiChar digits c = some c := if_pos ⟨by omega, by omega⟩
      rw [List.mapM_cons, hc, ih fun d hd => h d (List.mem_cons_of_mem _ hd)]
      rfl

theorem underscoresFit_plain {t : Text} (h : ∀ c ∈ t, Plain c) :
    ∀ before : Char, before ≠ '_' → underscoresFit before t = true := by
  induction t with
  | nil => exact fun before hbefore => decide_eq_true hbefore
  | cons c t ih =>
      intro before hbefore
      have hc := (h c (List.mem_cons_self ..)).ne_underscore
      rw [underscoresFit, if_neg hc, decide_eq_true hbefore,
        ih (fun d hd => h d (List.mem_cons_of_mem _ hd)) c hc]
      rfl

theorem filter_plain {t : Text} (h : ∀ c ∈ t, Plain c) : t.filter (fun c => c ≠ '_') = t :=
  List.filter_eq_self.mpr fun c hc => decide_eq_true (h c hc).ne_underscore

/-- Plain texts mean the same to both. -/
theorem writes_plain (digits : UnicodeDigits) {t : Text} (h : ∀ c ∈ t, Plain c) :
    Writes digits t t := by
  have htrimmed : Trimmed t :=
    ⟨fun c hc => (h c (List.mem_of_mem_head? hc)).not_space,
      fun c hc => (h c (List.mem_of_mem_getLast? hc)).not_space⟩
  rw [Writes, numericAsAscii, strip_of_trimmed htrimmed, filter_plain h, mapM_plain digits h]

/-- The body of a numeral is no word. -/
theorem lower_body_ne (n : Numeral) {d : Char} (word : Text) (hd : d.isDigit = false ∧ d ≠ '.') :
    lower n.body ≠ d :: word := by
  obtain ⟨c, t, hbody, hc⟩ := head_body n
  have hne := lower_take_ne t word hc hd (c :: t).length
  rw [List.take_length] at hne
  rw [hbody]
  exact hne

/-- **A plain numeral is read as the number that it denotes.** -/
theorem readFloat_numeral (digits : UnicodeDigits) (n : Numeral) :
    readFloat digits n.text = some (some n.value) := by
  have hplain := plain_text n
  obtain ⟨c, t, hbody, hc⟩ := head_body n
  have hnext : Next (fun c => c ≠ '-' ∧ c ≠ '+') n.body := by
    rw [hbody]
    refine next_cons ?_
    rcases hc with hc | rfl
    · exact ⟨ne_of_isDigit hc rfl, ne_of_isDigit hc rfl⟩
    · exact ⟨by decide, by decide⟩
  have hword : ¬ (lower n.body = infText ∨ lower n.body = infinityText
      ∨ lower n.body = nanText) := by
    rintro (h | h | h)
    · exact lower_body_ne n _ ⟨rfl, by decide⟩ h
    · exact lower_body_ne n _ ⟨rfl, by decide⟩ h
    · exact lower_body_ne n _ ⟨rfl, by decide⟩ h
  rw [readFloat, stripFloat_plain hplain, mapM_plain digits hplain, Option.bind_some,
    if_pos (underscoresFit_plain hplain ' ' (by decide)), filter_plain hplain, readFloatAscii,
    Numeral.text, takeSign_append n.sign hnext]
  show (if _ then _ else (readFinite n.negative n.body).map Decimal.number) = _
  rw [if_neg hword, readFinite_body]
  rfl

/-! ## What both read -/

theorem dropWhile_eq_of_imp {p q : Char → Bool} (himp : ∀ c, q c = true → p c = true) {t : Text}
    (h : ∀ c ∈ (t.dropWhile q).head?, p c = false) : t.dropWhile p = t.dropWhile q := by
  induction t with
  | nil => rfl
  | cons c t ih =>
      by_cases hq : q c = true
      · rw [List.dropWhile_cons_of_pos hq] at h ⊢
        rw [List.dropWhile_cons_of_pos (himp c hq), ih h]
      · rw [List.dropWhile_cons_of_neg hq] at h ⊢
        exact dropWhile_of_head h

theorem mem_dropWhile_of_not {p : Char → Bool} {c : Char} {t : Text} (hmem : c ∈ t)
    (hc : p c = false) : c ∈ t.dropWhile p := by
  rw [← t.takeWhile_append_dropWhile (p := p), List.mem_append] at hmem
  rcases hmem with htaken | hdropped
  · rw [List.all_eq_true.mp List.all_takeWhile c htaken] at hc
    cases hc
  · exact hdropped

theorem isSpace_of_isFloatSpace (c : Char) (h : isFloatSpace c = true) : isSpace c = true :=
  (Bool.and_eq_true _ _ ▸ h : isSpace c = true ∧ _).1

/-- Where nothing that is left is white space, both have stripped the same. -/
theorem strip_eq_stripFloat {t : Text} (h : ∀ c ∈ stripFloat t, isSpace c = false) :
    strip t = stripFloat t := by
  have hkept : ∀ c ∈ (t.dropWhile isFloatSpace), isFloatSpace c = false → isSpace c = false := by
    intro c hmem hc
    exact h c (List.mem_reverse.mpr (mem_dropWhile_of_not (List.mem_reverse.mpr hmem) hc))
  have hfirst : t.dropWhile isSpace = t.dropWhile isFloatSpace := by
    refine dropWhile_eq_of_imp isSpace_of_isFloatSpace fun c hc => ?_
    have hnot := List.head?_dropWhile_not isFloatSpace t
    rw [Option.mem_def.mp hc] at hnot
    exact hkept c (List.mem_of_mem_head? hc) hnot
  rw [strip, stripFloat, hfirst, dropWhile_eq_of_imp isSpace_of_isFloatSpace fun c hc => ?_]
  exact h c (List.mem_reverse.mpr (List.mem_of_mem_head? hc))

/-- No white space becomes anything else. -/
theorem asciiChar_of_isSpace {digits : UnicodeDigits} {c c' : Char}
    (h : asciiChar digits c = some c') (hc : isSpace c = true) : isSpace c' = true ∧ c' ≠ '_' := by
  rw [asciiChar] at h
  by_cases hascii : 0 < c.toNat ∧ c.toNat ≤ 127
  · rw [if_pos hascii] at h
    obtain rfl := Option.some.inj h
    refine ⟨hc, ?_⟩
    rintro rfl
    cases hc
  · rw [if_neg hascii, if_pos hc] at h
    obtain rfl := Option.some.inj h
    exact ⟨rfl, by decide⟩

theorem asciiChar_ne_underscore {digits : UnicodeDigits} {c c' : Char}
    (h : asciiChar digits c = some c') (hc : c ≠ '_') : c' ≠ '_' := by
  rw [asciiChar] at h
  by_cases hascii : 0 < c.toNat ∧ c.toNat ≤ 127
  · rw [if_pos hascii] at h
    exact Option.some.inj h ▸ hc
  rw [if_neg hascii] at h
  by_cases hspace : isSpace c = true
  · rw [if_pos hspace] at h
    obtain rfl := Option.some.inj h
    decide
  · rw [if_neg hspace] at h
    obtain ⟨n, hn, rfl⟩ := Option.map_eq_some_iff.mp h
    have hall : ∀ n < 10, Nat.digitChar n ≠ '_' := by decide
    exact hall n (digits.lt c n hn)

/-- Underscores can go before the characters are read, or after. -/
theorem mapM_filter {digits : UnicodeDigits} {t : Text} : ∀ {ascii : Text},
    t.mapM (asciiChar digits) = some ascii →
    (t.filter fun c => c ≠ '_').mapM (asciiChar digits) = some (ascii.filter fun c => c ≠ '_') := by
  induction t with
  | nil =>
      intro ascii h
      obtain rfl := Option.some.inj h
      rfl
  | cons c t ih =>
      intro ascii h
      rw [List.mapM_cons] at h
      obtain ⟨c', hc', h⟩ := Option.bind_eq_some_iff.mp h
      obtain ⟨rest, hrest, h⟩ := Option.bind_eq_some_iff.mp h
      obtain rfl := Option.some.inj h
      by_cases hc : c = '_'
      · have hsame : c' = '_' := by
          rw [hc] at hc'
          exact (Option.some.inj hc').symm
        rw [List.filter_cons_of_neg (by simpa using hc),
          List.filter_cons_of_neg (by simpa using hsame), ih hrest]
      · have hne := asciiChar_ne_underscore hc' hc
        rw [List.filter_cons_of_pos (by simpa using hc),
          List.filter_cons_of_pos (by simpa using hne), List.mapM_cons, hc', ih hrest]
        rfl

/-- Every character comes of one of the text. -/
theorem exists_of_mapM {digits : UnicodeDigits} {t : Text} : ∀ {ascii : Text},
    t.mapM (asciiChar digits) = some ascii →
    ∀ c ∈ t, ∃ c' ∈ ascii, asciiChar digits c = some c' := by
  induction t with
  | nil =>
      intro ascii _ c hc
      cases hc
  | cons d t ih =>
      intro ascii h c hc
      rw [List.mapM_cons] at h
      obtain ⟨d', hd', h⟩ := Option.bind_eq_some_iff.mp h
      obtain ⟨rest, hrest, h⟩ := Option.bind_eq_some_iff.mp h
      obtain rfl := Option.some.inj h
      rcases List.mem_cons.mp hc with rfl | hmem
      · exact ⟨d', List.mem_cons_self .., hd'⟩
      · obtain ⟨c', hc', hread⟩ := ih hrest c hmem
        exact ⟨c', List.mem_cons_of_mem _ hc', hread⟩

/-- In what C reads there is no white space, and it is the numeric string of the same number. -/
theorem ofNumericString_of_readFloatAscii {t : Text} {number : Option ℚ}
    (h : readFloatAscii t = some number) :
    (∀ c ∈ t, isSpace c = false) ∧ ∃ d, ofNumericString t = some d ∧ d.number = number := by
  have hsign := exists_sign t
  rw [readFloatAscii] at h
  rw [ofNumericString]
  cases htake : takeSign t with
  | mk sign rest =>
      rw [htake] at h hsign
      have h : (if lower rest = infText ∨ lower rest = infinityText ∨ lower rest = nanText then
        some none else (readFinite (sign = some true) rest).map Decimal.number) = some number := h
      show _ ∧ ∃ d, (readSpecial (sign = some true) rest).or (readFinite (sign = some true) rest)
        = some d ∧ _
      by_cases hword : lower rest = infText ∨ lower rest = infinityText ∨ lower rest = nanText
      · rw [if_pos hword] at h
        obtain rfl := Option.some.inj h
        constructor
        · -- the letters of the words are no white space
          intro c hc
          rw [← hsign, List.mem_append] at hc
          rcases hc with hc | hc
          · exact (plain_signText sign c hc).not_space
          · rw [Bool.eq_false_iff]
            intro hspace
            have hlower : c ∈ lower rest := toLower_of_isSpace hspace ▸ List.mem_map_of_mem hc
            have hnone : ∀ word ∈ [infText, infinityText, nanText], word.any isSpace = false := by
              decide
            rcases hword with hword | hword | hword
            all_goals
              rw [hword] at hlower
              exact List.any_eq_false.mp (hnone _ (by simp)) c hlower hspace
        · by_cases hinf : lower rest = infText ∨ lower rest = infinityText
          · exact ⟨.infinity (sign = some true), by rw [readSpecial, if_pos hinf]; rfl, rfl⟩
          · have hnan : lower rest = nanText := by
              rcases hword with hword | hword | hword
              · exact absurd (Or.inl hword) hinf
              · exact absurd (Or.inr hword) hinf
              · exact hword
            have hlength : rest.length = 3 := by
              rw [← length_lower, hnan]
              rfl
            have htaken : rest.take 3 = rest := List.take_of_length_le hlength.le
            have hdropped : rest.drop 3 = [] := List.drop_of_length_le hlength.le
            refine ⟨.nan (sign = some true) false 0, ?_, rfl⟩
            rw [readSpecial, if_neg hinf, htaken, hdropped, if_pos ⟨hnan, rfl⟩]
            rfl
      · rw [if_neg hword] at h
        obtain ⟨d, hfinite, rfl⟩ := Option.map_eq_some_iff.mp h
        obtain ⟨n, hn⟩ := exists_numeral hfinite sign
        rw [hsign] at hn
        refine ⟨fun c hc => (plain_text n c (hn ▸ hc)).not_space, d, ?_, rfl⟩
        -- it is no special value, as the numeral is none
        have hread := ofNumericString_numeral n
        rw [hn, ofNumericString, htake] at hread
        have hread : (readSpecial (sign = some true) rest).or
          (readFinite (sign = some true) rest) = _ := hread
        cases hspecial : readSpecial (sign = some true) rest with
        | none => exact hfinite
        | some special =>
            rw [hspecial] at hread
            obtain rfl := Option.some.inj hread
            exact absurd (exists_special hspecial sign).1 id

/-- **What both read is the same number.** -/
theorem number_of_readFloat {bounds : Option Bounds} {digits : UnicodeDigits} {t : Text}
    {number : Option ℚ} {d : Decimal} (hfloat : readFloat digits t = some number)
    (hdecimal : ofText bounds digits t = .ok d) : d.number = number := by
  obtain ⟨ascii, hascii, hread⟩ := Option.bind_eq_some_iff.mp hfloat
  by_cases hfit : underscoresFit ' ' ascii = true
  · rw [if_pos hfit] at hread
    obtain ⟨hspace, read, hnumeric, hnumber⟩ := ofNumericString_of_readFloatAscii hread
    have hstrip : strip t = stripFloat t := by
      refine strip_eq_stripFloat fun c hc => ?_
      rw [Bool.eq_false_iff]
      intro hc'
      obtain ⟨c', hmem, hsame⟩ := exists_of_mapM hascii c hc
      obtain ⟨hspace', hne⟩ := asciiChar_of_isSpace hsame hc'
      rw [hspace c' (List.mem_filter.mpr ⟨hmem, decide_eq_true hne⟩)] at hspace'
      cases hspace'
    have hwrites : numericAsAscii digits t = some (ascii.filter fun c => c ≠ '_') := by
      rw [numericAsAscii, hstrip, mapM_filter hascii]
    rw [ofText, hwrites, Option.bind_some, hnumeric] at hdecimal
    rw [← hnumber]
    exact congrArg Decimal.number (eq_of_held hdecimal).symm
  · rw [if_neg hfit] at hread
    cases hread

end Decimals
