import MandatedVaultFactory.JsonDumpsProofs
import Mathlib.Data.List.Induction

/-!
# What the reader accepts

The converse of `loads_document`: whatever `loads` accepts is a JSON text, and it returns what
that text denotes.

* **`loads_iff`** — `loads` returns `v` on exactly the texts that denote `v` and meet no limit.
* **`value_keyed`** — what a text denotes is a value of Python: no object has a key twice.
* **`limit_value`** — what a text denotes meets no limit that the text does not meet. -/

namespace Json

open Texts

/-! ## Words, digits and white space -/

theorem exists_ws_skipSpace (t : Text) : ∃ ws : Ws, t = ws.1 ++ skipSpace t := by
  refine ⟨⟨t.takeWhile isJsonSpace, fun c hc => ?_⟩, ?_⟩
  · have hall := List.all_takeWhile (l := t) (p := isJsonSpace)
    exact List.all_eq_true.mp hall c hc
  · exact (List.takeWhile_append_dropWhile (p := isJsonSpace) (l := t)).symm

theorem dropPrefix_sound {p : Text} : ∀ {t u : Text}, dropPrefix p t = some u → t = p ++ u := by
  induction p with
  | nil =>
      intro t u h
      exact Option.some.inj h
  | cons c p ih =>
      intro t u h
      cases t with
      | nil => cases h
      | cons d t =>
          rw [dropPrefix] at h
          split at h
          · rename_i hcd
            rw [ih h, hcd]
            rfl
          · cases h

theorem expect_sound {c : Char} {t u : Text} (h : expect c t = some u) : t = c :: u :=
  dropPrefix_sound h

theorem isDigit_of_mem_takeWhile {t : Text} : ∀ c ∈ t.takeWhile Char.isDigit, c.isDigit = true :=
  fun c hc => List.all_eq_true.mp (List.all_takeWhile (l := t) (p := Char.isDigit)) c hc

/-- Every hexadecimal digit is written in one of the two cases. -/
theorem hexVal_sound {c : Char} {n : Nat} (h : hexVal c = some n) :
    n < 16 ∧ ∃ upper, c = hexDigitCase upper n := by
  have hall : ∀ k < 128, ∀ n ∈ hexVal (Char.ofNat k),
      n < 16 ∧ (Char.ofNat k = hexDigitCase false n ∨ Char.ofNat k = hexDigitCase true n) := by
    decide
  have hlt : c.toNat < 128 := by
    have hle : ∀ {d : Char}, c ≤ d → c.toNat ≤ d.toNat := fun h => h
    rw [hexVal] at h
    split at h
    · rename_i hc
      have := hle hc.2
      exact Nat.lt_of_le_of_lt this (by decide)
    · split at h
      · rename_i hc
        have := hle hc.2
        exact Nat.lt_of_le_of_lt this (by decide)
      · split at h
        · rename_i hc
          have := hle hc.2
          exact Nat.lt_of_le_of_lt this (by decide)
        · cases h
  have hc := hall c.toNat hlt n (by rw [Char.ofNat_toNat]; exact h)
  rw [Char.ofNat_toNat] at hc
  exact ⟨hc.1, hc.2.elim (fun h => ⟨false, h⟩) (fun h => ⟨true, h⟩)⟩

theorem scanHex4_sound {t u : Text} {n : Nat} (h : scanHex4 t = some (n, u)) :
    n < 0x10000 ∧ ∃ upper, t = hex4 upper n ++ u := by
  match t, h with
  | a :: b :: c :: d :: t, h =>
      simp only [scanHex4, Option.bind_eq_bind, Option.bind_eq_some_iff, Option.pure_def,
        Option.some.injEq, Prod.mk.injEq] at h
      obtain ⟨n₃, ha, n₂, hb, n₁, hc, n₀, hd, rfl, rfl⟩ := h
      obtain ⟨hlt₃, u₃, rfl⟩ := hexVal_sound ha
      obtain ⟨hlt₂, u₂, rfl⟩ := hexVal_sound hb
      obtain ⟨hlt₁, u₁, rfl⟩ := hexVal_sound hc
      obtain ⟨hlt₀, u₀, rfl⟩ := hexVal_sound hd
      refine ⟨by omega, fun i => if i = 0 then u₃ else if i = 1 then u₂ else if i = 2 then u₁
        else u₀, ?_⟩
      have h₃ : (4096 * n₃ + 256 * n₂ + 16 * n₁ + n₀) / 4096 % 16 = n₃ := by omega
      have h₂ : (4096 * n₃ + 256 * n₂ + 16 * n₁ + n₀) / 256 % 16 = n₂ := by omega
      have h₁ : (4096 * n₃ + 256 * n₂ + 16 * n₁ + n₀) / 16 % 16 = n₁ := by omega
      have h₀ : (4096 * n₃ + 256 * n₂ + 16 * n₁ + n₀) % 16 = n₀ := by omega
      simp [hex4, h₃, h₂, h₁, h₀]

/-! ## Strings -/

theorem shortChar_sound {e c : Char} (h : shortChar e = some c) :
    ∃ s : Short, s.letter = e ∧ s.char = c := by
  have hshort : ∀ s : Short, ∀ {d : Char}, some s.char = some d → s.char = d := fun s d h =>
    Option.some.inj h
  unfold shortChar at h
  split at h
  · rename_i he
    exact ⟨.quote, he.symm, hshort .quote h⟩
  split at h
  · rename_i he
    exact ⟨.backslash, he.symm, hshort .backslash h⟩
  split at h
  · rename_i he
    exact ⟨.slash, he.symm, hshort .slash h⟩
  split at h
  · rename_i he
    exact ⟨.backspace, he.symm, hshort .backspace h⟩
  split at h
  · rename_i he
    exact ⟨.formFeed, he.symm, hshort .formFeed h⟩
  split at h
  · rename_i he
    exact ⟨.newline, he.symm, hshort .newline h⟩
  split at h
  · rename_i he
    exact ⟨.carriageReturn, he.symm, hshort .carriageReturn h⟩
  split at h
  · rename_i he
    exact ⟨.tab, he.symm, hshort .tab h⟩
  · cases h

theorem scanChar_sound {t u : Text} {p : CodePoint} (hquote : Next (fun d => d ≠ '"') t)
    (h : scanChar t = some (p, u)) : ∃ i : StrItem, t = i.text ++ u ∧ i.point = p := by
  cases t with
  | nil => cases h
  | cons d t =>
      rw [scanChar] at h
      split at h
      · rename_i hslash
        subst hslash
        cases t with
        | nil => cases h
        | cons e t =>
            rw [scanEscape] at h
            split at h
            · rename_i he
              subst he
              simp only [Option.map_eq_some_iff, Prod.mk.injEq] at h
              obtain ⟨⟨n, rest⟩, hn, rfl, rfl⟩ := h
              obtain ⟨hlt, upper, rfl⟩ := scanHex4_sound hn
              exact ⟨.unicode n hlt upper, rfl, rfl⟩
            · simp only [Option.map_eq_some_iff, Prod.mk.injEq] at h
              obtain ⟨d, hd, rfl, rfl⟩ := h
              obtain ⟨s, rfl, rfl⟩ := shortChar_sound hd
              exact ⟨.short s, rfl, rfl⟩
      · rename_i hslash
        split at h
        · cases h
        · rename_i hcontrol
          simp only [Option.some.injEq, Prod.mk.injEq] at h
          obtain ⟨rfl, rfl⟩ := h
          exact ⟨.raw d ⟨Nat.le_of_not_lt hcontrol, hquote d rfl, hslash⟩, rfl, rfl⟩

/-- Induction on the steps. -/
theorem scanString_sound {fuel : Nat} : ∀ {t u : Text} {s : Str}, scanString fuel t = some (s, u) →
    ∃ items : List StrItem, t = strText items ++ u ∧ strValue items = s := by
  induction fuel with
  | zero =>
      intro t u s h
      cases h
  | succ fuel ih =>
      intro t u s h
      cases t with
      | nil => cases h
      | cons c t =>
          rw [scanString] at h
          split at h
          · rename_i hc
            simp only [Option.some.injEq, Prod.mk.injEq] at h
            obtain ⟨rfl, rfl⟩ := h
            exact ⟨[], by rw [hc]; rfl, rfl⟩
          · rename_i hc
            simp only [Option.bind_eq_bind, Option.bind_eq_some_iff, Option.pure_def,
              Option.some.injEq, Prod.mk.injEq] at h
            obtain ⟨⟨d, t₁⟩, hd, ⟨s₁, t₂⟩, hs, rfl, rfl⟩ := h
            obtain ⟨i, hi, rfl⟩ := scanChar_sound (next_cons hc) hd
            obtain ⟨items, hitems, rfl⟩ := ih hs
            refine ⟨i :: items, ?_, rfl⟩
            calc c :: t = i.text ++ t₁ := hi
              _ = i.text ++ (strText items ++ t₂) := congrArg (i.text ++ ·) hitems
              _ = strText (i :: items) ++ t₂ := by simp [strText]

/-! ## Numbers -/

theorem map_eq_ok {ε α β : Type} {x : Except ε α} {f : α → β} {b : β} :
    x.map f = .ok b ↔ ∃ a, x = .ok a ∧ f a = b := by
  cases x with
  | error e => simp [Except.map]
  | ok a => simp [Except.map]

theorem orDecodeError_eq_ok {α : Type} {o : Option α} {a : α} :
    orDecodeError o = .ok a ↔ o = some a := by
  cases o with
  | none => simp [orDecodeError]
  | some b => simp [orDecodeError]

theorem unlessLimit_eq_ok {α : Type} {limit : Option Limit} {a b : α} :
    unlessLimit limit a = .ok b ↔ limit = none ∧ a = b := by
  cases limit with
  | none => simp [unlessLimit]
  | some limit => simp [unlessLimit]

/-- Digits that do not start with a zero are those of their number.  Induction from the last
    digit. -/
theorem decimal_ofDigitChars {digits : Text} (hdigits : ∀ c ∈ digits, c.isDigit = true)
    (hne : digits ≠ []) (hhead : ∀ c ∈ digits.head?, c ≠ '0') :
    0 < Nat.ofDigitChars 10 digits 0 ∧ decimal (Nat.ofDigitChars 10 digits 0) = digits := by
  have hdigit : ∀ {c : Char}, c.isDigit = true →
      c.toNat - '0'.toNat < 10 ∧ (c.toNat - '0'.toNat).digitChar = c
        ∧ (c ≠ '0' → 0 < c.toNat - '0'.toNat) := by
    intro c hc
    have hall : ∀ k < 58, (Char.ofNat k).isDigit = true → k - '0'.toNat < 10
        ∧ (k - '0'.toNat).digitChar = Char.ofNat k
        ∧ (Char.ofNat k ≠ '0' → 0 < k - '0'.toNat) := by decide
    have hlt : c.toNat < 58 := by
      simp only [Char.isDigit, Bool.and_eq_true, decide_eq_true_eq] at hc
      exact Nat.lt_succ_of_le hc.2
    have h := hall c.toNat hlt (by rw [Char.ofNat_toNat]; exact hc)
    rwa [Char.ofNat_toNat] at h
  induction digits using List.reverseRecOn with
  | nil => exact absurd rfl hne
  | append_singleton digits c ih =>
      obtain ⟨hlt, hchar, hpos⟩ := hdigit (hdigits c (by simp))
      rw [Nat.ofDigitChars_append, Nat.ofDigitChars_cons, Nat.ofDigitChars_nil]
      by_cases hnil : digits = []
      · subst hnil
        have hzero := hpos (hhead c rfl)
        rw [Nat.ofDigitChars_nil, Nat.mul_zero, Nat.zero_add]
        exact ⟨hzero, by rw [decimal, Nat.toDigits_of_lt_base hlt, hchar]; rfl⟩
      · obtain ⟨hpos', hdecimal⟩ := ih (fun d hd => hdigits d (List.mem_append_left _ hd)) hnil
          (by rwa [List.head?_append_of_ne_nil _ hnil] at hhead)
        refine ⟨by omega, ?_⟩
        have hdiv : (10 * Nat.ofDigitChars 10 digits 0 + (c.toNat - '0'.toNat)) / 10
            = Nat.ofDigitChars 10 digits 0 := by omega
        have hmod : (10 * Nat.ofDigitChars 10 digits 0 + (c.toNat - '0'.toNat)) % 10
            = c.toNat - '0'.toNat := by omega
        rw [decimal, Nat.toDigits_of_base_le (by decide) (by omega), hdiv, hmod, hchar, ← decimal,
          hdecimal]

theorem scanWhole_sound {t digits u : Text} (h : scanWhole t = some (digits, u)) :
    t = digits ++ u ∧ decimal (Nat.ofDigitChars 10 digits 0) = digits := by
  cases t with
  | nil => cases h
  | cons c t =>
      rw [scanWhole] at h
      split at h
      · rename_i hc
        simp only [Option.some.injEq, Prod.mk.injEq] at h
        obtain ⟨rfl, rfl⟩ := h
        exact ⟨by rw [hc]; rfl, by decide⟩
      · rename_i hzero
        split at h
        · rename_i hc
          simp only [Option.some.injEq, Prod.mk.injEq] at h
          obtain ⟨rfl, rfl⟩ := h
          have hdigits : ∀ d ∈ c :: t.takeWhile Char.isDigit, d.isDigit = true := by
            intro d hd
            rcases List.mem_cons.mp hd with rfl | hd
            · exact hc
            · exact isDigit_of_mem_takeWhile d hd
          refine ⟨by rw [List.cons_append, List.takeWhile_append_dropWhile], ?_⟩
          refine (decimal_ofDigitChars hdigits (List.cons_ne_nil _ _) ?_).2
          intro d hd
          obtain rfl : c = d := by simpa using hd
          exact hzero
        · cases h

theorem scanMinus_sound {t minus u : Text} (h : scanMinus t = (minus, u)) :
    t = minus ++ u ∧ ∃ negative, minus = if negative = true then ['-'] else [] := by
  cases t with
  | nil =>
      cases h
      exact ⟨rfl, false, rfl⟩
  | cons c t =>
      rw [scanMinus] at h
      split at h
      · rename_i hc
        cases h
        exact ⟨by rw [hc]; rfl, true, rfl⟩
      · cases h
        exact ⟨rfl, false, rfl⟩

/-- What is taken as a fraction is one, or nothing. -/
theorem scanFrac_sound {t frac u : Text} (h : scanFrac t = (frac, u)) :
    t = frac ++ u ∧ ∃ digits, ∀ n : Number, n.frac = digits → n.fracText = frac := by
  have hnone : ∀ n : Number, n.frac = none → n.fracText = [] := by
    intro n hn
    rw [Number.fracText, hn]
  cases t with
  | nil =>
      cases h
      exact ⟨rfl, none, hnone⟩
  | cons c t =>
      rw [scanFrac] at h
      split at h
      · rename_i hc
        cases h
        refine ⟨by rw [hc.1, List.cons_append, List.takeWhile_append_dropWhile],
          some ⟨t.takeWhile Char.isDigit, hc.2, isDigit_of_mem_takeWhile⟩, fun n hn => ?_⟩
        rw [Number.fracText, hn]
      · cases h
        exact ⟨rfl, none, hnone⟩

theorem scanSign_sound {t sign u : Text} (h : scanSign t = (sign, u)) :
    t = sign ++ u ∧ (sign = [] ∨ sign = ['+'] ∨ sign = ['-']) := by
  cases t with
  | nil =>
      cases h
      exact ⟨rfl, Or.inl rfl⟩
  | cons c t =>
      rw [scanSign] at h
      split at h
      · rename_i hc
        cases h
        exact ⟨rfl, Or.inr (hc.imp (congrArg fun c => [c]) (congrArg fun c => [c]))⟩
      · cases h
        exact ⟨rfl, Or.inl rfl⟩

/-- What is taken as an exponent is one, or nothing. -/
theorem scanExp_sound {t exp u : Text} (h : scanExp t = (exp, u)) :
    t = exp ++ u ∧ ∃ e, ∀ n : Number, n.exp = e → n.expText = exp := by
  have hnone : ∀ n : Number, n.exp = none → n.expText = [] := by
    intro n hn
    rw [Number.expText, hn]
  cases t with
  | nil =>
      cases h
      exact ⟨rfl, none, hnone⟩
  | cons c t =>
      obtain ⟨sign, rest, hsign⟩ : ∃ sign rest, scanSign t = (sign, rest) := ⟨_, _, rfl⟩
      obtain ⟨ht, hshape⟩ := scanSign_sound hsign
      rw [scanExp, hsign] at h
      dsimp only at h
      split at h
      · rename_i hc
        cases h
        refine ⟨by rw [ht, List.cons_append, List.append_assoc, List.takeWhile_append_dropWhile],
          some { letter := ⟨c, hc.1⟩, sign := ⟨sign, hshape⟩,
                 digits := ⟨rest.takeWhile Char.isDigit, hc.2, isDigit_of_mem_takeWhile⟩ },
          fun n hn => ?_⟩
        rw [Number.expText, hn]
      · cases h
        exact ⟨rfl, none, hnone⟩

/-- **Numbers**: what is read as one is written as one. -/
theorem scanNumber_sound (floats : Floats) {t u : Text} {v : Loaded floats.Float}
    (h : scanNumber floats t = .ok (v, u)) :
    ∃ n : Number, t = n.text ++ u ∧ n.value floats = v := by
  obtain ⟨minus, t₁, hminus⟩ : ∃ minus t₁, scanMinus t = (minus, t₁) := ⟨_, _, rfl⟩
  obtain ⟨ht, negative, hnegative⟩ := scanMinus_sound hminus
  rw [scanNumber, hminus] at h
  dsimp only at h
  cases hwhole : scanWhole t₁ with
  | none =>
      rw [hwhole] at h
      cases h
  | some r =>
      obtain ⟨digits, t₂⟩ := r
      obtain ⟨frac, t₃, hfrac⟩ : ∃ frac t₃, scanFrac t₂ = (frac, t₃) := ⟨_, _, rfl⟩
      obtain ⟨exp, t₄, hexp⟩ : ∃ exp t₄, scanExp t₃ = (exp, t₄) := ⟨_, _, rfl⟩
      obtain ⟨ht₁, hdigits⟩ := scanWhole_sound hwhole
      obtain ⟨ht₂, fracDigits, hfracText⟩ := scanFrac_sound hfrac
      obtain ⟨ht₃, e, hexpText⟩ := scanExp_sound hexp
      rw [hwhole] at h
      simp only [hfrac, hexp] at h
      let n : Number :=
        { negative := negative, whole := Nat.ofDigitChars 10 digits 0, frac := fracDigits, exp := e }
      have hsign : n.sign = minus := hnegative.symm
      have hf : n.fracText = frac := hfracText n rfl
      have he : n.expText = exp := hexpText n rfl
      have htext : n.text = minus ++ digits ++ frac ++ exp := by
        rw [Number.text, hsign, hf, he]
        show minus ++ decimal (Nat.ofDigitChars 10 digits 0) ++ frac ++ exp = _
        rw [hdigits]
      have hinteger : n.IsInt ↔ frac = [] ∧ exp = [] := by
        rw [← hf, ← he]
        exact Iff.rfl
      have hsplit : t = n.text ++ t₄ := by
        rw [htext, ht, ht₁, ht₂, ht₃]
        simp only [List.append_assoc]
      by_cases hint : frac = [] ∧ exp = []
      · rw [if_pos hint] at h
        obtain ⟨rfl, rfl⟩ := Prod.mk.inj (unlessLimit_eq_ok.mp h).2
        refine ⟨n, hsplit, ?_⟩
        rw [Number.value, if_pos (hinteger.mpr hint), hnegative]
        cases negative with
        | true => rfl
        | false => rfl
      · rw [if_neg hint] at h
        obtain ⟨rfl, rfl⟩ := Prod.mk.inj (Except.ok.inj h)
        refine ⟨n, hsplit, ?_⟩
        rw [Number.value, if_neg (hinteger.not.mpr hint), htext]

/-- The words of the grammar are its syntax. -/
theorem constants_sound (floats : Floats) {m : Text × Loaded floats.Float}
    (h : m ∈ constants floats) : ∃ s : Syntax, s.text = m.1 ∧ s.value floats = m.2 := by
  simp only [constants, List.mem_cons, List.not_mem_nil, or_false] at h
  rcases h with rfl | rfl | rfl | rfl | rfl | rfl
  · exact ⟨.null, rfl, rfl⟩
  · exact ⟨.bool true, rfl, rfl⟩
  · exact ⟨.bool false, rfl, rfl⟩
  · exact ⟨.special .nan, rfl, rfl⟩
  · exact ⟨.special .infinity, rfl, rfl⟩
  · exact ⟨.special .negInfinity, rfl, rfl⟩

theorem scanScalar_sound (floats : Floats) {t u : Text} {v : Loaded floats.Float}
    (h : scanScalar floats t = .ok (v, u)) :
    ∃ s : Syntax, t = s.text ++ u ∧ s.value floats = v := by
  unfold scanScalar at h
  split at h
  · rename_i r hword
    cases h
    obtain ⟨m, hm, hread⟩ := List.exists_of_findSome?_eq_some hword
    simp only [Option.map_eq_some_iff, Prod.mk.injEq] at hread
    obtain ⟨rest, hrest, rfl, rfl⟩ := hread
    obtain ⟨s, htext, hvalue⟩ := constants_sound floats hm
    exact ⟨s, by rw [htext]; exact dropPrefix_sound hrest, hvalue⟩
  · obtain ⟨n, ht, hv⟩ := scanNumber_sound floats h
    exact ⟨.number n, ht, hv⟩

/-! ## Whole texts -/

/-- More white space before what is there. -/
def Ws.append (ws ws' : Ws) : Ws :=
  ⟨ws.1 ++ ws'.1, fun c hc => (List.mem_append.mp hc).elim (ws.2 c) (ws'.2 c)⟩

def Elems.spaced (ws : Ws) : Elems → Elems
  | .last before v after => .last (Ws.append ws before) v after
  | .cons before v after rest => .cons (Ws.append ws before) v after rest

def Members.spaced (ws : Ws) : Members → Members
  | .last before key colonBefore colonAfter v after =>
      .last (Ws.append ws before) key colonBefore colonAfter v after
  | .cons before key colonBefore colonAfter v after rest =>
      .cons (Ws.append ws before) key colonBefore colonAfter v after rest

@[simp] theorem Elems.text_spaced (ws : Ws) (e : Elems) : (e.spaced ws).text = ws.1 ++ e.text := by
  cases e <;> simp [Elems.spaced, Elems.text, Ws.append]

@[simp] theorem Elems.values_spaced (floats : Floats) (ws : Ws) (e : Elems) :
    (e.spaced ws).values floats = e.values floats := by
  cases e <;> rfl

@[simp] theorem Members.text_spaced (ws : Ws) (m : Members) :
    (m.spaced ws).text = ws.1 ++ m.text := by
  cases m <;> simp [Members.spaced, Members.text, Ws.append]

@[simp] theorem Members.pairs_spaced (floats : Floats) (ws : Ws) (m : Members) :
    (m.spaced ws).pairs floats = m.pairs floats := by
  cases m <;> rfl

/-- What the three readers accept, with so many steps. -/
structure ReadsSyntax (floats : Floats) (fuel : Nat) : Prop where
  value : ∀ {level : Nat} {t u : Text} {v}, parseValue floats level fuel t = .ok (v, u) →
    ∃ s : Syntax, t = s.text ++ u ∧ s.value floats = v
  elems : ∀ {level : Nat} {t u : Text} {vs}, parseElems floats level fuel t = .ok (vs, u) →
    ∃ e : Elems, t = e.text ++ u ∧ e.values floats = vs
  members : ∀ {level : Nat} {t u : Text} {ms}, parseMembers floats level fuel t = .ok (ms, u) →
    ∃ m : Members, t = m.text ++ u ∧ m.pairs floats = ms

theorem parseValue_sound {floats : Floats} {fuel : Nat} (ih : ReadsSyntax floats fuel)
    {level : Nat} {t u : Text} {v : Loaded floats.Float}
    (h : parseValue floats level (fuel + 1) t = .ok (v, u)) :
    ∃ s : Syntax, t = s.text ++ u ∧ s.value floats = v := by
  cases t with
  | nil => cases h
  | cons c t =>
      rw [parseValue] at h
      split at h
      · rename_i hc
        subst hc
        obtain ⟨⟨s, rest⟩, hs, heq⟩ := map_eq_ok.mp h
        obtain ⟨rfl, rfl⟩ := Prod.mk.inj heq
        obtain ⟨items, ht, hvalue⟩ := scanString_sound (orDecodeError_eq_ok.mp hs)
        refine ⟨.str items, by rw [ht]; rfl, ?_⟩
        rw [Syntax.value, hvalue]
      split at h
      · rename_i hc
        subst hc
        obtain ⟨ws, hws⟩ := exists_ws_skipSpace t
        split at h
        · cases h
        split at h
        · rename_i rest hrest
          cases h
          refine ⟨.emptyObj ws, ?_, rfl⟩
          rw [hws, expect_sound hrest]
          simp [Syntax.text]
        · obtain ⟨⟨ms, rest⟩, hms, heq⟩ := map_eq_ok.mp h
          obtain ⟨rfl, rfl⟩ := Prod.mk.inj heq
          obtain ⟨m, ht, hpairs⟩ := ih.members hms
          refine ⟨.obj (m.spaced ws), ?_, ?_⟩
          · rw [hws, ht]
            simp [Syntax.text]
          · rw [Syntax.value, Members.pairs_spaced, hpairs]
      split at h
      · rename_i hc
        subst hc
        obtain ⟨ws, hws⟩ := exists_ws_skipSpace t
        split at h
        · cases h
        split at h
        · rename_i rest hrest
          cases h
          refine ⟨.emptyArr ws, ?_, rfl⟩
          rw [hws, expect_sound hrest]
          simp [Syntax.text]
        · obtain ⟨⟨vs, rest⟩, hvs, heq⟩ := map_eq_ok.mp h
          obtain ⟨rfl, rfl⟩ := Prod.mk.inj heq
          obtain ⟨e, ht, hvalues⟩ := ih.elems hvs
          refine ⟨.arr (e.spaced ws), ?_, ?_⟩
          · rw [hws, ht]
            simp [Syntax.text]
          · rw [Syntax.value, Elems.values_spaced, hvalues]
      · exact scanScalar_sound floats h

theorem parseElems_sound {floats : Floats} {fuel : Nat} (ih : ReadsSyntax floats fuel)
    {level : Nat} {t u : Text} {vs : List (Loaded floats.Float)}
    (h : parseElems floats level (fuel + 1) t = .ok (vs, u)) :
    ∃ e : Elems, t = e.text ++ u ∧ e.values floats = vs := by
  rw [parseElems] at h
  split at h
  · cases h
  · rename_i v t₁ hv
    obtain ⟨s, rfl, rfl⟩ := ih.value hv
    obtain ⟨ws, hws⟩ := exists_ws_skipSpace t₁
    split at h
    · rename_i t₂ hcomma
      obtain ⟨⟨more, rest⟩, hmore, heq⟩ := map_eq_ok.mp h
      obtain ⟨rfl, rfl⟩ := Prod.mk.inj heq
      obtain ⟨ws', hws'⟩ := exists_ws_skipSpace t₂
      obtain ⟨e, ht, rfl⟩ := ih.elems hmore
      refine ⟨.cons noSpace s ws (e.spaced ws'), ?_, ?_⟩
      · rw [hws, expect_sound hcomma, hws', ht]
        simp [Elems.text, noSpace]
      · rw [Elems.values, Elems.values_spaced]
    · obtain ⟨rest, hclose, heq⟩ := map_eq_ok.mp h
      obtain ⟨rfl, rfl⟩ := Prod.mk.inj heq
      refine ⟨.last noSpace s ws, ?_, rfl⟩
      rw [hws, expect_sound (orDecodeError_eq_ok.mp hclose)]
      simp [Elems.text, noSpace]

theorem parseMembers_sound {floats : Floats} {fuel : Nat} (ih : ReadsSyntax floats fuel)
    {level : Nat} {t u : Text} {ms : List (Str × Loaded floats.Float)}
    (h : parseMembers floats level (fuel + 1) t = .ok (ms, u)) :
    ∃ m : Members, t = m.text ++ u ∧ m.pairs floats = ms := by
  rw [parseMembers] at h
  split at h
  · cases h
  · rename_i key t₁ hkey
    obtain ⟨t₀, hquote, hkey⟩ := Option.bind_eq_some_iff.mp hkey
    obtain ⟨items, ht₀, rfl⟩ := scanString_sound hkey
    obtain ⟨ws, hws⟩ := exists_ws_skipSpace t₁
    split at h
    · cases h
    rename_i t₂ hcolon
    obtain ⟨ws', hws'⟩ := exists_ws_skipSpace t₂
    split at h
    · cases h
    · rename_i v t₃ hv
      obtain ⟨s, ht₂, rfl⟩ := ih.value hv
      obtain ⟨ws'', hws''⟩ := exists_ws_skipSpace t₃
      split at h
      · rename_i t₄ hcomma
        obtain ⟨⟨more, rest⟩, hmore, heq⟩ := map_eq_ok.mp h
        obtain ⟨rfl, rfl⟩ := Prod.mk.inj heq
        obtain ⟨ws₃, hws₃⟩ := exists_ws_skipSpace t₄
        obtain ⟨m, ht, rfl⟩ := ih.members hmore
        refine ⟨.cons noSpace items ws ws' s ws'' (m.spaced ws₃), ?_, ?_⟩
        · rw [expect_sound hquote, ht₀, hws, expect_sound hcolon, hws', ht₂, hws'',
            expect_sound hcomma, hws₃, ht]
          simp [Members.text, noSpace]
        · rw [Members.pairs, Members.pairs_spaced]
      · obtain ⟨rest, hclose, heq⟩ := map_eq_ok.mp h
        obtain ⟨rfl, rfl⟩ := Prod.mk.inj heq
        refine ⟨.last noSpace items ws ws' s ws'', ?_, rfl⟩
        rw [expect_sound hquote, ht₀, hws, expect_sound hcolon, hws', ht₂, hws'',
          expect_sound (orDecodeError_eq_ok.mp hclose)]
        simp [Members.text, noSpace]

/-- **The three readers accept nothing but the grammar.**  Induction on the steps. -/
theorem readsSyntax (floats : Floats) (fuel : Nat) : ReadsSyntax floats fuel := by
  induction fuel with
  | zero =>
      constructor
      · intro level t u v h
        cases h
      · intro level t u vs h
        cases h
      · intro level t u ms h
        cases h
  | succ fuel ih =>
      constructor
      · exact fun h => parseValue_sound ih h
      · exact fun h => parseElems_sound ih h
      · exact fun h => parseMembers_sound ih h

/-- **`loads` accepts the JSON texts that meet no limit, and nothing else**, and returns what they
    denote. -/
theorem loads_iff (floats : Floats) {t : Text} {v : Loaded floats.Float} :
    loads floats t = .ok v
      ↔ ∃ d : Document, t = d.text ∧ d.body.limit floats 0 = none ∧ d.body.value floats = v := by
  constructor
  · intro h
    have hread := h
    unfold loads at hread
    split at hread
    · cases hread
    · rename_i w rest hparse
      split at hread
      · rename_i hend
        cases hread
        obtain ⟨before, hbefore⟩ := exists_ws_skipSpace t
        obtain ⟨after, hafter⟩ := exists_ws_skipSpace rest
        obtain ⟨s, ht, hv⟩ := (readsSyntax floats _).value hparse
        let d : Document := { before := before, body := s, after := after }
        have htext : t = d.text := by
          rw [hend, List.append_nil] at hafter
          rw [Document.text, ← hafter, List.append_assoc, ← ht, ← hbefore]
        rw [htext, loads_document] at h
        exact ⟨d, htext, unlessLimit_eq_ok.mp h⟩
      · cases hread
  · rintro ⟨d, rfl, hlimit, rfl⟩
    rw [loads_document, hlimit]
    rfl

/-! ## Keys -/

section Keys

variable {κ α : Type} [DecidableEq κ]

theorem mem_keys_insert {key key' : κ} {value : α} {members : List (κ × α)}
    (h : key' ∈ (insert key value members).map Prod.fst) :
    key' = key ∨ key' ∈ members.map Prod.fst := by
  induction members with
  | nil =>
      rw [insert, List.map_cons, List.map_nil, List.mem_singleton] at h
      exact Or.inl h
  | cons m members ih =>
      rw [insert] at h
      split at h
      · rw [List.map_cons, List.mem_cons] at h
        exact h.imp_right fun hmem => List.mem_cons_of_mem _ hmem
      · rw [List.map_cons, List.mem_cons] at h
        rcases h with h | h
        · exact Or.inr (h ▸ List.mem_cons_self ..)
        · exact (ih h).imp_right fun hmem => List.mem_cons_of_mem _ hmem

theorem nodup_keys_insert (key : κ) (value : α) {members : List (κ × α)}
    (h : (members.map Prod.fst).Nodup) : ((insert key value members).map Prod.fst).Nodup := by
  induction members with
  | nil => exact List.nodup_singleton key
  | cons m members ih =>
      rw [List.map_cons, List.nodup_cons] at h
      rw [insert]
      split
      · rename_i hm
        rw [List.map_cons, List.nodup_cons]
        exact ⟨hm ▸ h.1, h.2⟩
      · rename_i hm
        rw [List.map_cons, List.nodup_cons]
        refine ⟨fun hmem => ?_, ih h.2⟩
        exact (mem_keys_insert hmem).elim hm h.1

theorem mem_insert {m : κ × α} {key : κ} {value : α} {members : List (κ × α)}
    (h : m ∈ insert key value members) : m = (key, value) ∨ m ∈ members := by
  induction members with
  | nil => exact Or.inl (List.mem_singleton.mp h)
  | cons first members ih =>
      rw [insert] at h
      split at h
      · rw [List.mem_cons] at h
        exact h.imp_right (List.mem_cons_of_mem _)
      · rw [List.mem_cons] at h
        rcases h with rfl | h
        · exact Or.inr (List.mem_cons_self ..)
        · exact (ih h).imp_right (List.mem_cons_of_mem _)

/-- Every member of a dictionary is one of its pairs. -/
theorem mem_dict {m : κ × α} {pairs : List (κ × α)} (h : m ∈ dict pairs) : m ∈ pairs := by
  suffices hfold : ∀ rest done : List (κ × α),
      m ∈ rest.foldl (fun members m => insert m.1 m.2 members) done → m ∈ done ∨ m ∈ rest from
    (hfold pairs [] h).resolve_left List.not_mem_nil
  intro rest
  induction rest with
  | nil =>
      intro done h
      exact Or.inl h
  | cons first rest ih =>
      intro done h
      rcases ih _ h with h | h
      · rcases mem_insert h with rfl | h
        · exact Or.inr (List.mem_cons_self ..)
        · exact Or.inl h
      · exact Or.inr (List.mem_cons_of_mem _ h)

end Keys

theorem keyedMembers_insert {F : Type} (key : Str) {v : Loaded F} (hv : v.Keyed)
    {members : List (Str × Loaded F)} (h : KeyedMembers members) :
    KeyedMembers (insert key v members) := by
  induction members with
  | nil => exact ⟨hv, trivial⟩
  | cons m members ih =>
      rw [insert]
      split
      · exact ⟨hv, h.2⟩
      · exact ⟨h.1, ih h.2⟩

/-- A dictionary has no key twice, and the values of its pairs. -/
theorem keyed_dict {F : Type} {pairs : List (Str × Loaded F)} (h : KeyedMembers pairs) :
    (Value.obj (dict pairs)).Keyed := by
  suffices hfold : ∀ (rest done : List (Str × Loaded F)), KeyedMembers rest →
      (Value.obj done).Keyed →
      (Value.obj (rest.foldl (fun members m => insert m.1 m.2 members) done)).Keyed from
    hfold pairs [] h ⟨List.nodup_nil, trivial⟩
  intro rest
  induction rest with
  | nil =>
      intro done _ hdone
      exact hdone
  | cons m rest ih =>
      intro done hrest hdone
      rw [List.foldl_cons]
      exact ih (insert m.1 m.2 done) hrest.2
        ⟨nodup_keys_insert m.1 m.2 hdone.1, keyedMembers_insert m.1 hrest.1 hdone.2⟩

mutual

/-- **What a text denotes is a value of Python.**  Induction on the syntax. -/
theorem value_keyed (floats : Floats) : ∀ s : Syntax, (s.value floats).Keyed
  | .null => trivial
  | .bool b => trivial
  | .number n => by
      rw [Syntax.value, Number.value]
      split
      · trivial
      · trivial
  | .special s => trivial
  | .str items => trivial
  | .emptyArr ws => trivial
  | .arr elems => values_keyed floats elems
  | .emptyObj ws => ⟨List.nodup_nil, trivial⟩
  | .obj members => keyed_dict (pairs_keyed floats members)

theorem values_keyed (floats : Floats) : ∀ e : Elems, KeyedItems (e.values floats)
  | .last _ v _ => ⟨value_keyed floats v, trivial⟩
  | .cons _ v _ rest => ⟨value_keyed floats v, values_keyed floats rest⟩

theorem pairs_keyed (floats : Floats) : ∀ m : Members, KeyedMembers (m.pairs floats)
  | .last _ _ _ _ v _ => ⟨value_keyed floats v, trivial⟩
  | .cons _ _ _ _ v _ rest => ⟨value_keyed floats v, pairs_keyed floats rest⟩

end

theorem keyed_of_loads {floats : Floats} {t : Text} {v : Loaded floats.Float}
    (h : loads floats t = .ok v) : v.Keyed := by
  obtain ⟨d, _, _, rfl⟩ := (loads_iff floats).mp h
  exact value_keyed floats d.body

/-! ## Limits -/

theorem depthLimit_mono {deepest : Option Nat} {level level' : Nat} (h : level ≤ level')
    (hnone : depthLimit deepest level' = none) : depthLimit deepest level = none := by
  cases deepest with
  | none => rfl
  | some n =>
      rw [depthLimit, exceeds, Option.any_some] at hnone ⊢
      split at hnone
      · cases hnone
      · rename_i hle
        rw [decide_eq_true_iff] at hle
        exact if_neg fun hlt => hle (by rw [decide_eq_true_iff] at hlt; omega)

theorem itemsLimit_eq_none {floats : Floats} {deepest : Option Nat} {level : Nat}
    {items : List (Loaded floats.Float)} : itemsLimit floats deepest level items = none
      ↔ ∀ v ∈ items, v.limit floats deepest level = none := by
  induction items with
  | nil => simp [itemsLimit]
  | cons v items ih => rw [itemsLimit, Option.or_eq_none_iff, ih, List.forall_mem_cons]

theorem membersLimit_eq_none {floats : Floats} {deepest : Option Nat} {level : Nat}
    {members : List (Str × Loaded floats.Float)} :
    membersLimit floats deepest level members = none
      ↔ ∀ m ∈ members, m.2.limit floats deepest level = none := by
  induction members with
  | nil => simp [membersLimit]
  | cons m members ih => rw [membersLimit, Option.or_eq_none_iff, ih, List.forall_mem_cons]

mutual

/-- **What a text denotes meets no limit that the text does not meet.**  Induction on the
    syntax. -/
theorem limit_value (floats : Floats) : ∀ (s : Syntax) (level : Nat),
    s.limit floats level = none → (s.value floats).limit floats floats.readDepth level = none
  | .null, _, _ => rfl
  | .bool b, _, _ => rfl
  | .number n, level, h => by
      rw [Syntax.limit, Number.limit] at h
      rw [Syntax.value, Number.value]
      split
      · rename_i hint
        rw [if_pos hint] at h
        split
        · rw [Value.limit, Int.natAbs_neg, Int.natAbs_natCast]
          exact h
        · exact h
      · rfl
  | .special s, _, _ => rfl
  | .str items, _, _ => rfl
  | .emptyArr ws, level, h => by
      rw [Syntax.limit] at h
      rw [Syntax.value, Value.limit, h]
      rfl
  | .arr elems, level, h => by
      rw [Syntax.limit, Option.or_eq_none_iff] at h
      rw [Syntax.value, Value.limit, h.1]
      exact itemsLimit_eq_none.mpr (limit_values floats elems (level + 1) h.2)
  | .emptyObj ws, level, h => by
      rw [Syntax.limit] at h
      rw [Syntax.value, Value.limit, h]
      rfl
  | .obj members, level, h => by
      rw [Syntax.limit, Option.or_eq_none_iff] at h
      rw [Syntax.value, Value.limit, h.1]
      refine membersLimit_eq_none.mpr fun m hm => ?_
      exact limit_pairs floats members (level + 1) h.2 m (mem_dict hm)

theorem limit_values (floats : Floats) : ∀ (e : Elems) (level : Nat),
    e.limit floats level = none →
    ∀ v ∈ e.values floats, v.limit floats floats.readDepth level = none
  | .last _ v _, level, h =>
      List.forall_mem_singleton.mpr (limit_value floats v level h)
  | .cons _ v _ rest, level, h => by
      rw [Elems.limit, Option.or_eq_none_iff] at h
      exact List.forall_mem_cons.mpr
        ⟨limit_value floats v level h.1, limit_values floats rest level h.2⟩

theorem limit_pairs (floats : Floats) : ∀ (m : Members) (level : Nat),
    m.limit floats level = none →
    ∀ p ∈ m.pairs floats, p.2.limit floats floats.readDepth level = none
  | .last _ _ _ _ v _, level, h =>
      List.forall_mem_singleton.mpr (limit_value floats v level h)
  | .cons _ _ _ _ v _ rest, level, h => by
      rw [Members.limit, Option.or_eq_none_iff] at h
      exact List.forall_mem_cons.mpr
        ⟨limit_value floats v level h.1, limit_pairs floats rest level h.2⟩

end

theorem limit_of_loads {floats : Floats} {t : Text} {v : Loaded floats.Float}
    (h : loads floats t = .ok v) : v.limit floats floats.readDepth 0 = none := by
  obtain ⟨d, _, hlimit, rfl⟩ := (loads_iff floats).mp h
  exact limit_value floats d.body 0 hlimit

mutual

/-- Without limits none is met. -/
theorem limit_nanFloats : ∀ (s : Syntax) (level : Nat), s.limit nanFloats level = none
  | .null, _ => rfl
  | .bool _, _ => rfl
  | .number _, _ => ite_self none
  | .special _, _ => rfl
  | .str _, _ => rfl
  | .emptyArr _, _ => rfl
  | .arr elems, level => limit_elems_nanFloats elems (level + 1)
  | .emptyObj _, _ => rfl
  | .obj members, level => limit_members_nanFloats members (level + 1)

theorem limit_elems_nanFloats : ∀ (e : Elems) (level : Nat), e.limit nanFloats level = none
  | .last _ v _, level => limit_nanFloats v level
  | .cons _ v _ rest, level => by
      rw [Elems.limit, limit_nanFloats v level, limit_elems_nanFloats rest level]
      rfl

theorem limit_members_nanFloats : ∀ (m : Members) (level : Nat), m.limit nanFloats level = none
  | .last _ _ _ _ v _, level => limit_nanFloats v level
  | .cons _ _ _ _ v _ rest, level => by
      rw [Members.limit, limit_nanFloats v level, limit_members_nanFloats rest level]
      rfl

end

/-- A number of so many ones. -/
def ones (n : Nat) : Nat := Nat.ofDigitChars 10 (List.replicate n '1') 0

theorem decimal_ones {n : Nat} (h : 0 < n) : decimal (ones n) = List.replicate n '1' := by
  have hmem : ∀ c ∈ List.replicate n '1', c = '1' := fun c hc => List.eq_of_mem_replicate hc
  refine (decimal_ofDigitChars (fun c hc => ?_) ?_ fun c hc => ?_).2
  · rw [hmem c hc]
    rfl
  · rw [ne_eq, List.replicate_eq_nil_iff]
    exact h.ne'
  · rw [hmem c (List.mem_of_mem_head? hc)]
    decide

/-- An integer of 5000 digits is too long for Python as it starts. -/
theorem digitLimit_ones : digitLimit limitedFloats (decimal (ones 5000)).length = some .digits := by
  rw [decimal_ones (by decide), List.length_replicate]
  rfl

/-! ## Objects -/

/-- `isinstance(v, dict)`, with the members. -/
def asDict {F S : Type} : Value F S → Option (List (S × Value F S))
  | .obj members => some members
  | _ => none

theorem asDict_eq_some {F S : Type} {v : Value F S} {members : List (S × Value F S)}
    (h : asDict v = some members) : v = .obj members := by
  cases v with
  | obj m => exact congrArg Value.obj (Option.some.inj h)
  | null => cases h
  | bool b => cases h
  | int n => cases h
  | float x => cases h
  | str s => cases h
  | arr items => cases h

/-- The text of an object. -/
def Syntax.IsObj : Syntax → Prop
  | .emptyObj _ => True
  | .obj _ => True
  | _ => False

theorem isObj_of_value {floats : Floats} {s : Syntax} {members : List (Str × Loaded floats.Float)}
    (h : s.value floats = .obj members) : s.IsObj := by
  cases s with
  | number n =>
      rw [Syntax.value, Number.value] at h
      split at h
      · cases h
      · cases h
  | emptyObj ws => trivial
  | obj m => trivial
  | null => cases h
  | bool b => cases h
  | special s => cases h
  | str items => cases h
  | emptyArr ws => cases h
  | arr elems => cases h

/-- An object ends with its brace, whatever follows. -/
theorem parseValue_obj (floats : Floats) {s : Syntax} (hs : s.IsObj) (level : Nat) {fuel : Nat}
    (hfuel : s.text.length ≤ fuel) (rest : Text) :
    parseValue floats level fuel (s.text ++ rest)
      = unlessLimit (s.limit floats level) (s.value floats, rest) := by
  cases s with
  | emptyObj ws =>
      obtain ⟨fuel, rfl⟩ : ∃ n, fuel = n + 1 := ⟨fuel - 1, by simp [Syntax.text] at hfuel; omega⟩
      exact parseValue_emptyObj floats level ws fuel rest
  | obj members =>
      obtain ⟨fuel, rfl⟩ : ∃ n, fuel = n + 1 := ⟨fuel - 1, by simp [Syntax.text] at hfuel; omega⟩
      have hlength : members.text.length ≤ fuel := by
        rw [Syntax.text, List.length_cons] at hfuel
        omega
      exact parseValue_members floats level members
        (parseMembers_text floats members (level + 1) fuel rest hlength)
  | null => cases hs
  | bool b => cases hs
  | number n => cases hs
  | special s => cases hs
  | str items => cases hs
  | emptyArr ws => cases hs
  | arr elems => cases hs

/-- **No object's text is the start of another's.** -/
theorem text_unique {s s' : Syntax} (hs : s.IsObj) (hs' : s'.IsObj) {rest rest' : Text}
    (h : s.text ++ rest = s'.text ++ rest') : s.text = s'.text ∧ rest = rest' := by
  let fuel := max s.text.length s'.text.length
  have hread := parseValue_obj nanFloats hs 0 (Nat.le_max_left _ _ : _ ≤ fuel) rest
  have hread' := parseValue_obj nanFloats hs' 0 (Nat.le_max_right _ _ : _ ≤ fuel) rest'
  rw [limit_nanFloats, unlessLimit] at hread hread'
  rw [h, hread'] at hread
  have hrest : rest' = rest := (Prod.mk.inj (Except.ok.inj hread)).2
  subst hrest
  exact ⟨List.append_cancel_right h, rfl⟩

theorem value_eq_of_text (floats : Floats) {s s' : Syntax} (hs : s.IsObj) (hs' : s'.IsObj)
    (hlimit : s.limit floats 0 = none) (h : s.text = s'.text) :
    s'.limit floats 0 = none ∧ s.value floats = s'.value floats := by
  have hread := parseValue_obj floats hs 0 (Nat.le_refl _) []
  rw [h, parseValue_obj floats hs' 0 (Nat.le_refl _), hlimit] at hread
  obtain ⟨hlimit', hvalue⟩ := unlessLimit_eq_ok.mp hread
  exact ⟨hlimit', (Prod.mk.inj hvalue).1.symm⟩

theorem Members.text_ends : ∀ m : Members, ∃ t, m.text = t ++ ['}']
  | .last before key colonBefore colonAfter v after =>
      ⟨before.1 ++ '"' :: (strText key ++ (colonBefore.1 ++ ':' :: (colonAfter.1
        ++ (v.text ++ after.1)))), by simp [Members.text]⟩
  | .cons before key colonBefore colonAfter v after rest => by
      obtain ⟨t, ht⟩ := rest.text_ends
      refine ⟨before.1 ++ '"' :: (strText key ++ (colonBefore.1 ++ ':' :: (colonAfter.1
        ++ (v.text ++ (after.1 ++ ',' :: t))))), ?_⟩
      simp [Members.text, ht]

/-- An object stands in braces. -/
theorem Syntax.IsObj.text_eq {s : Syntax} (hs : s.IsObj) : ∃ t, s.text = '{' :: (t ++ ['}']) := by
  cases s with
  | emptyObj ws => exact ⟨ws.1, rfl⟩
  | obj members =>
      obtain ⟨t, ht⟩ := members.text_ends
      exact ⟨t, congrArg ('{' :: ·) ht⟩
  | null => cases hs
  | bool b => cases hs
  | number n => cases hs
  | special s => cases hs
  | str items => cases hs
  | emptyArr ws => cases hs
  | arr elems => cases hs

end Json
