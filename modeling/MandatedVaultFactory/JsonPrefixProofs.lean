import MandatedVaultFactory.JsonSoundProofs

/-!
# JSON texts that go on

What `json.loads` makes of the start of a text, if that start ends with a brace: no number is cut
there, so more text behind it does not change what was read.

* **`goesOn`** — neither a value nor a limit that was met; only `JSONDecodeError` may go away.
* **`Raises`** — a text that meets a limit; **`Raises.append`**. -/

namespace Json

open Texts

/-- A text that ends with a brace. -/
def Braced (x : Text) : Prop := ∃ y, x = y ++ ['}']

namespace Braced

variable {x : Text}

theorem tail {c : Char} (h : Braced (c :: x)) (hc : c ≠ '}') : Braced x := by
  obtain ⟨y, hy⟩ := h
  cases y with
  | nil => exact absurd (List.cons.inj hy).1 hc
  | cons d y => exact ⟨y, (List.cons.inj hy).2⟩

theorem ne_nil (h : Braced x) : x ≠ [] := by
  obtain ⟨y, rfl⟩ := h
  exact List.append_ne_nil_of_right_ne_nil _ (List.cons_ne_nil _ _)

theorem rest {t r : Text} (h : Braced x) (hx : x = t ++ r) (hr : r ≠ []) : Braced r := by
  obtain ⟨y, rfl⟩ := h
  have hlast := congrArg List.getLast? hx
  rw [List.getLast?_concat, List.getLast?_append_of_ne_nil _ hr, eq_comm,
    List.getLast?_eq_some_iff] at hlast
  exact hlast

/-- White space or digits end before the brace. -/
theorem split {p : Char → Bool} (hp : p '}' = false) (u : Text) (h : Braced x) :
    (x ++ u).takeWhile p = x.takeWhile p ∧ (x ++ u).dropWhile p = x.dropWhile p ++ u
      ∧ Braced (x.dropWhile p) := by
  induction x with
  | nil => exact absurd rfl h.ne_nil
  | cons c x ih =>
      rw [List.cons_append]
      cases hc : p c with
      | false =>
          rw [List.takeWhile_cons_of_neg (by simp [hc]), List.takeWhile_cons_of_neg (by simp [hc]),
            List.dropWhile_cons_of_neg (by simp [hc]), List.dropWhile_cons_of_neg (by simp [hc])]
          exact ⟨rfl, rfl, h⟩
      | true =>
          have hne : c ≠ '}' := fun heq => by
            rw [heq, hp] at hc
            cases hc
          obtain ⟨htake, hdrop, hrest⟩ := ih (h.tail hne)
          rw [List.takeWhile_cons_of_pos hc, List.takeWhile_cons_of_pos hc,
            List.dropWhile_cons_of_pos hc, List.dropWhile_cons_of_pos hc, htake, hdrop]
          exact ⟨rfl, rfl, hrest⟩

theorem skipSpace (h : Braced x) (u : Text) :
    Json.skipSpace (x ++ u) = Json.skipSpace x ++ u ∧ Braced (Json.skipSpace x) :=
  (h.split (by decide) u).2

end Braced

/-! ## Tokens -/

/-- The rest of a text, with more behind it. -/
def more {α : Type} (u : Text) (r : α × Text) : α × Text := (r.1, r.2 ++ u)

theorem scanMinus_more {x : Text} (h : Braced x) (u : Text) :
    scanMinus (x ++ u) = more u (scanMinus x) ∧ Braced (scanMinus x).2 := by
  cases x with
  | nil => exact absurd rfl h.ne_nil
  | cons c x =>
      by_cases hc : c = '-'
      · subst hc
        exact ⟨rfl, h.tail (by decide)⟩
      · rw [List.cons_append, scanMinus, scanMinus, if_neg hc, if_neg hc]
        exact ⟨rfl, h⟩

theorem scanWhole_more {x : Text} (h : Braced x) (u : Text) :
    scanWhole (x ++ u) = (scanWhole x).map (more u) ∧ ∀ r ∈ scanWhole x, Braced r.2 := by
  cases x with
  | nil => exact absurd rfl h.ne_nil
  | cons c x =>
      rw [List.cons_append, scanWhole, scanWhole]
      by_cases hzero : c = '0'
      · rw [if_pos hzero, if_pos hzero]
        refine ⟨rfl, fun r hr => ?_⟩
        rw [← Option.some.inj hr]
        exact h.tail (hzero ▸ by decide)
      · rw [if_neg hzero, if_neg hzero]
        by_cases hdigit : c.isDigit = true
        · have htail : Braced x := h.tail fun hc => by
            rw [hc] at hdigit
            exact absurd hdigit (by decide)
          obtain ⟨htake, hdrop, hrest⟩ := htail.split (by decide : Char.isDigit '}' = false) u
          rw [if_pos hdigit, if_pos hdigit, htake, hdrop]
          refine ⟨rfl, fun r hr => ?_⟩
          rw [← Option.some.inj hr]
          exact hrest
        · rw [if_neg hdigit, if_neg hdigit]
          exact ⟨rfl, fun r hr => by cases hr⟩

theorem scanFrac_more {x : Text} (h : Braced x) (u : Text) :
    scanFrac (x ++ u) = more u (scanFrac x) ∧ Braced (scanFrac x).2 := by
  cases x with
  | nil => exact absurd rfl h.ne_nil
  | cons c x =>
      rw [List.cons_append, scanFrac, scanFrac]
      by_cases hc : c = '.'
      · have htail : Braced x := h.tail (hc ▸ by decide)
        obtain ⟨htake, hdrop, hrest⟩ := htail.split (by decide : Char.isDigit '}' = false) u
        rw [htake, hdrop]
        by_cases hdigits : x.takeWhile Char.isDigit ≠ []
        · rw [if_pos ⟨hc, hdigits⟩, if_pos ⟨hc, hdigits⟩]
          exact ⟨rfl, hrest⟩
        · rw [if_neg fun hboth => hdigits hboth.2, if_neg fun hboth => hdigits hboth.2]
          exact ⟨rfl, h⟩
      · rw [if_neg fun hboth => hc hboth.1, if_neg fun hboth => hc hboth.1]
        exact ⟨rfl, h⟩

theorem scanSign_more {x : Text} (h : Braced x) (u : Text) :
    scanSign (x ++ u) = more u (scanSign x) ∧ Braced (scanSign x).2 := by
  cases x with
  | nil => exact absurd rfl h.ne_nil
  | cons c x =>
      rw [List.cons_append, scanSign, scanSign]
      by_cases hc : c = '+' ∨ c = '-'
      · rw [if_pos hc, if_pos hc]
        refine ⟨rfl, h.tail ?_⟩
        rcases hc with rfl | rfl
        · decide
        · decide
      · rw [if_neg hc, if_neg hc]
        exact ⟨rfl, h⟩

theorem scanExp_more {x : Text} (h : Braced x) (u : Text) :
    scanExp (x ++ u) = more u (scanExp x) ∧ Braced (scanExp x).2 := by
  cases x with
  | nil => exact absurd rfl h.ne_nil
  | cons c x =>
      rw [List.cons_append, scanExp, scanExp]
      by_cases hc : c = 'e' ∨ c = 'E'
      · have htail : Braced x := h.tail fun heq => by
          rw [heq] at hc
          exact absurd hc (by decide)
        obtain ⟨hsign, hbraced⟩ := scanSign_more htail u
        obtain ⟨htake, hdrop, hrest⟩ := hbraced.split (by decide : Char.isDigit '}' = false) u
        rw [hsign, more]
        dsimp only
        rw [htake, hdrop]
        by_cases hdigits : (scanSign x).2.takeWhile Char.isDigit ≠ []
        · rw [if_pos ⟨hc, hdigits⟩, if_pos ⟨hc, hdigits⟩]
          exact ⟨rfl, hrest⟩
        · rw [if_neg fun hboth => hdigits hboth.2, if_neg fun hboth => hdigits hboth.2]
          exact ⟨rfl, h⟩
      · dsimp only
        rw [if_neg fun hboth => hc hboth.1, if_neg fun hboth => hc hboth.1]
        exact ⟨rfl, h⟩

/-- The value that was read, and the rest with more behind it. -/
abbrev moreOf {α : Type} (u : Text) (r : Except LoadError (α × Text)) :
    Except LoadError (α × Text) := r.map (more u)

theorem scanNumber_more (floats : Floats) {x : Text} (h : Braced x) (u : Text) :
    scanNumber floats (x ++ u) = moreOf u (scanNumber floats x) := by
  obtain ⟨hminus, hx₁⟩ := scanMinus_more h u
  obtain ⟨hwhole, hx₂⟩ := scanWhole_more hx₁ u
  rw [scanNumber, scanNumber, hminus, more]
  dsimp only
  rw [hwhole]
  cases hscan : scanWhole (scanMinus x).2 with
  | none => rfl
  | some r =>
      obtain ⟨hfrac, hx₃⟩ := scanFrac_more (hx₂ r hscan) u
      obtain ⟨hexp, _⟩ := scanExp_more hx₃ u
      rw [Option.map_some, more]
      dsimp only
      rw [hfrac, more]
      dsimp only
      rw [hexp, more]
      dsimp only
      split
      · cases digitLimit floats r.1.length <;> rfl
      · rfl

theorem dropPrefix_more {p : Text} (hp : '}' ∉ p) : ∀ {x : Text}, Braced x → ∀ u : Text,
    dropPrefix p (x ++ u) = (dropPrefix p x).map (· ++ u) := by
  induction p with
  | nil =>
      intro x _ u
      rfl
  | cons c p ih =>
      intro x h u
      rw [List.mem_cons, not_or] at hp
      cases x with
      | nil => exact absurd rfl h.ne_nil
      | cons d x =>
          rw [List.cons_append, dropPrefix, dropPrefix]
          by_cases hd : c = d
          · subst hd
            rw [if_pos rfl, if_pos rfl]
            exact ih hp.2 (h.tail (Ne.symm hp.1)) u
          · rw [if_neg hd, if_neg hd]
            rfl

theorem expect_more (c : Char) {x : Text} (hx : x ≠ []) (u : Text) :
    expect c (x ++ u) = (expect c x).map (· ++ u) := by
  cases x with
  | nil => exact absurd rfl hx
  | cons d x =>
      simp only [List.cons_append, expect, dropPrefix]
      by_cases hd : c = d
      · rw [if_pos hd, if_pos hd]
        rfl
      · rw [if_neg hd, if_neg hd]
        rfl

theorem brace_notMem_constants (floats : Floats) : ∀ m ∈ constants floats, '}' ∉ m.1 := by
  intro m hm
  simp only [constants, List.mem_cons, List.not_mem_nil, or_false] at hm
  rcases hm with rfl | rfl | rfl | rfl | rfl | rfl
  all_goals exact of_decide_eq_false rfl

theorem scanScalar_more (floats : Floats) {x : Text} (h : Braced x) (u : Text) :
    scanScalar floats (x ++ u) = moreOf u (scanScalar floats x) := by
  have hwords : ∀ words : List (Text × Loaded floats.Float), (∀ m ∈ words, '}' ∉ m.1) →
      (words.findSome? fun m => (dropPrefix m.1 (x ++ u)).map fun rest => (m.2, rest))
        = (words.findSome? fun m => (dropPrefix m.1 x).map fun rest => (m.2, rest)).map
          (more u) := by
    intro words
    induction words with
    | nil =>
        intro _
        rfl
    | cons m words ih =>
        intro hall
        rw [List.forall_mem_cons] at hall
        rw [List.findSome?_cons, List.findSome?_cons, dropPrefix_more hall.1 h u]
        cases dropPrefix m.1 x with
        | none => exact ih hall.2
        | some rest => rfl
  rw [scanScalar, scanScalar, hwords _ (brace_notMem_constants floats)]
  cases (constants floats).findSome? fun m => (dropPrefix m.1 x).map fun rest => (m.2, rest) with
  | none => exact scanNumber_more floats h u
  | some r => rfl

/-! ## Strings -/

theorem scanHex4_more {x r : Text} {n : Nat} (h : scanHex4 x = some (n, r)) (u : Text) :
    scanHex4 (x ++ u) = some (n, r ++ u) := by
  cases x with
  | nil => cases h
  | cons a x =>
  cases x with
  | nil => cases h
  | cons b x =>
  cases x with
  | nil => cases h
  | cons c x =>
  cases x with
  | nil => cases h
  | cons d x =>
      simp only [scanHex4, Option.bind_eq_bind, Option.pure_def, Option.bind_eq_some_iff,
        Option.some.injEq, Prod.mk.injEq, List.cons_append] at h ⊢
      obtain ⟨n₃, h₃, n₂, h₂, n₁, h₁, n₀, h₀, hn, rfl⟩ := h
      exact ⟨n₃, h₃, n₂, h₂, n₁, h₁, n₀, h₀, hn, rfl⟩

theorem scanChar_more {x r : Text} {p : CodePoint} (h : scanChar x = some (p, r)) (u : Text) :
    scanChar (x ++ u) = some (p, r ++ u) := by
  cases x with
  | nil => cases h
  | cons c x =>
      rw [scanChar] at h
      rw [List.cons_append, scanChar]
      by_cases hc : c = '\\'
      · rw [if_pos hc] at h ⊢
        cases x with
        | nil => cases h
        | cons e x =>
            rw [scanEscape] at h
            rw [List.cons_append, scanEscape]
            by_cases he : e = 'u'
            · rw [if_pos he, Option.map_eq_some_iff] at h ⊢
              obtain ⟨a, ha, heq⟩ := h
              obtain ⟨rfl, rfl⟩ := Prod.mk.inj heq
              exact ⟨(a.1, a.2 ++ u), scanHex4_more ha u, rfl⟩
            · rw [if_neg he, Option.map_eq_some_iff] at h ⊢
              obtain ⟨a, ha, heq⟩ := h
              obtain ⟨rfl, rfl⟩ := Prod.mk.inj heq
              exact ⟨a, ha, rfl⟩
      · rw [if_neg hc] at h ⊢
        split at h
        · cases h
        · rename_i hcontrol
          rw [if_neg hcontrol]
          obtain ⟨rfl, rfl⟩ := Prod.mk.inj (Option.some.inj h)
          rfl

/-- A string that is closed stays as it is. -/
theorem scanString_more {fuel : Nat} : ∀ {x r : Text} {s : Str},
    scanString fuel x = some (s, r) → ∀ {fuel' : Nat}, fuel ≤ fuel' → ∀ u : Text,
    scanString fuel' (x ++ u) = some (s, r ++ u) := by
  induction fuel with
  | zero =>
      intro x r s h
      cases h
  | succ fuel ih =>
      intro x r s h fuel' hfuel u
      obtain ⟨fuel', rfl⟩ : ∃ n, fuel' = n + 1 := ⟨fuel' - 1, by omega⟩
      cases x with
      | nil => cases h
      | cons c x =>
          rw [scanString] at h
          rw [List.cons_append, scanString]
          by_cases hc : c = '"'
          · rw [if_pos hc] at h ⊢
            obtain ⟨rfl, rfl⟩ := Prod.mk.inj (Option.some.inj h)
            rfl
          · rw [if_neg hc] at h ⊢
            simp only [Option.bind_eq_bind, Option.pure_def, Option.bind_eq_some_iff,
              Option.some.injEq] at h ⊢
            obtain ⟨p, hp, q, hq, heq⟩ := h
            refine ⟨(p.1, p.2 ++ u), scanChar_more hp u, (q.1, q.2 ++ u),
              ih hq (by omega) u, ?_⟩
            obtain ⟨rfl, rfl⟩ := Prod.mk.inj heq
            rfl

/-! ## Values -/

/-- **More behind a text that ends with a brace changes nothing**, but for `JSONDecodeError`. -/
structure GoesOn (floats : Floats) (fuel : Nat) : Prop where
  value : ∀ {level fuel' : Nat} {x : Text}, fuel ≤ fuel' → Braced x →
    parseValue floats level fuel x ≠ .error .jsonDecodeError → ∀ u : Text,
    parseValue floats level fuel' (x ++ u) = moreOf u (parseValue floats level fuel x)
  elems : ∀ {level fuel' : Nat} {x : Text}, fuel ≤ fuel' → Braced x →
    parseElems floats level fuel x ≠ .error .jsonDecodeError → ∀ u : Text,
    parseElems floats level fuel' (x ++ u) = moreOf u (parseElems floats level fuel x)
  members : ∀ {level fuel' : Nat} {x : Text}, fuel ≤ fuel' → Braced x →
    parseMembers floats level fuel x ≠ .error .jsonDecodeError → ∀ u : Text,
    parseMembers floats level fuel' (x ++ u) = moreOf u (parseMembers floats level fuel x)

theorem map_ne_decodeError {α β : Type} {x : Except LoadError α} {f : α → β}
    (h : x.map f ≠ .error .jsonDecodeError) : x ≠ .error .jsonDecodeError := by
  rintro rfl
  exact h rfl

theorem moreOf_map {α β : Type} (u : Text) (f : α → β) (x : Except LoadError (α × Text)) :
    (moreOf u x).map (fun r => (f r.1, r.2)) = moreOf u (x.map fun r => (f r.1, r.2)) := by
  cases x with
  | error e => rfl
  | ok r => rfl

/-- What is left behind a token is at its end, or ends with the brace. -/
theorem expect_rest {c : Char} {x : Text} (hx : Braced x) (hc : c ≠ '}') (u : Text) :
    expect c (skipSpace (x ++ u)) = (expect c (skipSpace x)).map (· ++ u)
      ∧ ∀ t ∈ expect c (skipSpace x), skipSpace (t ++ u) = skipSpace t ++ u
        ∧ Braced (skipSpace t) := by
  obtain ⟨hskip, hbraced⟩ := hx.skipSpace u
  refine ⟨by rw [hskip, expect_more c hbraced.ne_nil], fun t ht => ?_⟩
  rw [expect_sound ht] at hbraced
  exact (hbraced.tail hc).skipSpace u

/-- The end of an array or of an object. -/
theorem close_more {α : Type} {c : Char} {x : Text} (a : α) (u : Text) (hx : Braced x) :
    (orDecodeError (expect c (skipSpace (x ++ u)))).map (fun t => (a, t))
      = moreOf u ((orDecodeError (expect c (skipSpace x))).map fun t => (a, t)) := by
  obtain ⟨hskip, hbraced⟩ := hx.skipSpace u
  rw [hskip, expect_more c hbraced.ne_nil]
  cases expect c (skipSpace x) <;> rfl

theorem parseValue_more {floats : Floats} {fuel : Nat} (ih : GoesOn floats fuel)
    {level fuel' : Nat} {x : Text} (hfuel : fuel ≤ fuel') (hx : Braced x)
    (h : parseValue floats level (fuel + 1) x ≠ .error .jsonDecodeError) (u : Text) :
    parseValue floats level (fuel' + 1) (x ++ u)
      = moreOf u (parseValue floats level (fuel + 1) x) := by
  cases x with
  | nil => exact absurd rfl hx.ne_nil
  | cons c x =>
      rw [parseValue] at h
      rw [List.cons_append, parseValue, parseValue]
      by_cases hquote : c = '"'
      · rw [if_pos hquote] at h ⊢
        rw [if_pos hquote]
        cases hscan : scanString fuel x with
        | none =>
            rw [hscan] at h
            exact absurd rfl h
        | some r =>
            rw [scanString_more hscan hfuel u]
            rfl
      rw [if_neg hquote] at h ⊢
      rw [if_neg hquote]
      by_cases hobj : c = '{'
      · rw [if_pos hobj] at h ⊢
        rw [if_pos hobj]
        obtain ⟨hskip, hbraced⟩ := (hx.tail (hobj ▸ by decide)).skipSpace u
        cases hdepth : depthLimit floats.readDepth level with
        | some limit => rfl
        | none =>
            rw [hdepth] at h
            dsimp only at h ⊢
            rw [hskip, expect_more '}' hbraced.ne_nil]
            cases hclose : expect '}' (skipSpace x) with
            | some rest => rfl
            | none =>
                rw [hclose] at h
                dsimp only [Option.map_none] at h ⊢
                rw [ih.members hfuel hbraced (map_ne_decodeError h) u]
                exact moreOf_map u (fun members => Value.obj (dict members)) _
      rw [if_neg hobj] at h ⊢
      rw [if_neg hobj]
      by_cases harr : c = '['
      · rw [if_pos harr] at h ⊢
        rw [if_pos harr]
        obtain ⟨hskip, hbraced⟩ := (hx.tail (harr ▸ by decide)).skipSpace u
        cases hdepth : depthLimit floats.readDepth level with
        | some limit => rfl
        | none =>
            rw [hdepth] at h
            dsimp only at h ⊢
            rw [hskip, expect_more ']' hbraced.ne_nil]
            cases hclose : expect ']' (skipSpace x) with
            | some rest => rfl
            | none =>
                rw [hclose] at h
                dsimp only [Option.map_none] at h ⊢
                rw [ih.elems hfuel hbraced (map_ne_decodeError h) u]
                exact moreOf_map u Value.arr _
      rw [if_neg harr, if_neg harr]
      exact scanScalar_more floats hx u

/-- A value that was read is read, with more behind it. -/
theorem GoesOn.value_ok {floats : Floats} {fuel : Nat} (ih : GoesOn floats fuel)
    {level fuel' : Nat} {x t : Text} {v : Loaded floats.Float} (hfuel : fuel ≤ fuel')
    (hx : Braced x) (h : parseValue floats level fuel x = .ok (v, t)) (u : Text) :
    parseValue floats level fuel' (x ++ u) = .ok (v, t ++ u) := by
  have hread : parseValue floats level fuel x ≠ .error .jsonDecodeError := by
    rw [h]
    intro heq
    cases heq
  rw [ih.value hfuel hx hread u, h]
  rfl

/-- And a limit that was met is met. -/
theorem GoesOn.value_error {floats : Floats} {fuel : Nat} (ih : GoesOn floats fuel)
    {level fuel' : Nat} {x : Text} {e : LoadError} (hfuel : fuel ≤ fuel') (hx : Braced x)
    (h : parseValue floats level fuel x = .error e) (he : e ≠ .jsonDecodeError) (u : Text) :
    parseValue floats level fuel' (x ++ u) = .error e := by
  have hread : parseValue floats level fuel x ≠ .error .jsonDecodeError := by
    rw [h]
    exact fun heq => he (Except.error.inj heq)
  rw [ih.value hfuel hx hread u, h]
  rfl

theorem parseElems_more {floats : Floats} {fuel : Nat} (ih : GoesOn floats fuel)
    {level fuel' : Nat} {x : Text} (hfuel : fuel ≤ fuel') (hx : Braced x)
    (h : parseElems floats level (fuel + 1) x ≠ .error .jsonDecodeError) (u : Text) :
    parseElems floats level (fuel' + 1) (x ++ u)
      = moreOf u (parseElems floats level (fuel + 1) x) := by
  rw [parseElems] at h
  rw [parseElems, parseElems]
  cases hvalue : parseValue floats level fuel x with
  | error e =>
      rw [hvalue] at h
      rw [ih.value_error hfuel hx hvalue (fun heq => h (by rw [heq])) u]
      rfl
  | ok r =>
      obtain ⟨v, t⟩ := r
      rw [hvalue] at h
      rw [ih.value_ok hfuel hx hvalue u]
      dsimp only at h ⊢
      obtain ⟨s, hsplit, _⟩ := (readsSyntax floats fuel).value hvalue
      by_cases hnil : t = []
      · subst hnil
        exact absurd rfl h
      have ht := hx.rest hsplit hnil
      obtain ⟨hcomma, hbraced⟩ := expect_rest (c := ',') ht (by decide) u
      rw [hcomma]
      cases hnext : expect ',' (skipSpace t) with
      | none =>
          exact close_more [v] u ht
      | some t₂ =>
          rw [hnext] at h
          obtain ⟨hskip, hbraced⟩ := hbraced t₂ hnext
          dsimp only [Option.map_some] at h ⊢
          rw [hskip, ih.elems hfuel hbraced (map_ne_decodeError h) u]
          exact moreOf_map u (v :: ·) _

theorem parseMembers_more {floats : Floats} {fuel : Nat} (ih : GoesOn floats fuel)
    {level fuel' : Nat} {x : Text} (hfuel : fuel ≤ fuel') (hx : Braced x)
    (h : parseMembers floats level (fuel + 1) x ≠ .error .jsonDecodeError) (u : Text) :
    parseMembers floats level (fuel' + 1) (x ++ u)
      = moreOf u (parseMembers floats level (fuel + 1) x) := by
  rw [parseMembers] at h
  rw [parseMembers, parseMembers]
  cases hkey : (expect '"' x).bind (scanString fuel) with
  | none =>
      rw [hkey] at h
      exact absurd rfl h
  | some r =>
      obtain ⟨key, t₁⟩ := r
      rw [hkey] at h
      obtain ⟨t₀, hquote, hstring⟩ := Option.bind_eq_some_iff.mp hkey
      obtain ⟨items, ht₀, _⟩ := scanString_sound hstring
      rw [expect_more '"' hx.ne_nil, hquote, Option.map_some, Option.bind_some,
        scanString_more hstring hfuel u]
      dsimp only at h ⊢
      by_cases hnil : t₁ = []
      · subst hnil
        exact absurd rfl h
      have ht₁ : Braced t₁ :=
        ((expect_sound hquote ▸ hx).tail (by decide)).rest ht₀ hnil
      obtain ⟨hcolon, hbraced⟩ := expect_rest (c := ':') ht₁ (by decide) u
      rw [hcolon]
      cases hnext : expect ':' (skipSpace t₁) with
      | none =>
          rw [hnext] at h
          exact absurd rfl h
      | some t₂ =>
          rw [hnext] at h
          obtain ⟨hskip, ht₂⟩ := hbraced t₂ hnext
          dsimp only [Option.map_some] at h ⊢
          rw [hskip]
          cases hvalue : parseValue floats level fuel (skipSpace t₂) with
          | error e =>
              rw [hvalue] at h
              rw [ih.value_error hfuel ht₂ hvalue (fun heq => h (by rw [heq])) u]
              rfl
          | ok r =>
              obtain ⟨v, t₃⟩ := r
              rw [hvalue] at h
              rw [ih.value_ok hfuel ht₂ hvalue u]
              dsimp only at h ⊢
              obtain ⟨s, hsplit, _⟩ := (readsSyntax floats fuel).value hvalue
              by_cases hnil : t₃ = []
              · subst hnil
                exact absurd rfl h
              have ht₃ := ht₂.rest hsplit hnil
              obtain ⟨hcomma, hbraced⟩ := expect_rest (c := ',') ht₃ (by decide) u
              rw [hcomma]
              cases hnext : expect ',' (skipSpace t₃) with
              | none =>
                  exact close_more [(key, v)] u ht₃
              | some t₄ =>
                  rw [hnext] at h
                  obtain ⟨hskip, ht₄⟩ := hbraced t₄ hnext
                  dsimp only [Option.map_some] at h ⊢
                  rw [hskip, ih.members hfuel ht₄ (map_ne_decodeError h) u]
                  exact moreOf_map u ((key, v) :: ·) _

/-- Induction on the steps. -/
theorem goesOn (floats : Floats) (fuel : Nat) : GoesOn floats fuel := by
  induction fuel with
  | zero =>
      constructor
      · intro level fuel' x _ _ h
        exact absurd rfl h
      · intro level fuel' x _ _ h
        exact absurd rfl h
      · intro level fuel' x _ _ h
        exact absurd rfl h
  | succ fuel ih =>
      constructor
      · intro level fuel' x hfuel hx h u
        obtain ⟨fuel', rfl⟩ : ∃ n, fuel' = n + 1 := ⟨fuel' - 1, by omega⟩
        exact parseValue_more ih (by omega) hx h u
      · intro level fuel' x hfuel hx h u
        obtain ⟨fuel', rfl⟩ : ∃ n, fuel' = n + 1 := ⟨fuel' - 1, by omega⟩
        exact parseElems_more ih (by omega) hx h u
      · intro level fuel' x hfuel hx h u
        obtain ⟨fuel', rfl⟩ : ∃ n, fuel' = n + 1 := ⟨fuel' - 1, by omega⟩
        exact parseMembers_more ih (by omega) hx h u

/-! ## Limits -/

/-- `json.loads` raises something else than `JSONDecodeError`. -/
def Raises (floats : Floats) (t : Text) : Prop :=
  loads floats t = .error .valueError ∨ loads floats t = .error .recursionError

theorem raises_iff {floats : Floats} {t : Text} :
    Raises floats t ↔ ∃ e, e ≠ .jsonDecodeError ∧ loads floats t = .error e := by
  constructor
  · rintro (h | h)
    · exact ⟨_, by decide, h⟩
    · exact ⟨_, by decide, h⟩
  · rintro ⟨e, hne, h⟩
    cases e with
    | jsonDecodeError => exact absurd rfl hne
    | valueError => exact .inl h
    | recursionError => exact .inr h

theorem not_raises_iff {floats : Floats} {t : Text} : ¬ Raises floats t
    ↔ (∃ v, loads floats t = .ok v) ∨ loads floats t = .error .jsonDecodeError := by
  rw [Raises]
  cases loads floats t with
  | ok v => simp
  | error e => cases e <;> simp

/-- A limit is met before the end. -/
theorem loads_eq_error {floats : Floats} {t : Text} {e : LoadError} (he : e ≠ .jsonDecodeError) :
    loads floats t = .error e
      ↔ parseValue floats 0 (skipSpace t).length (skipSpace t) = .error e := by
  rw [loads]
  cases parseValue floats 0 (skipSpace t).length (skipSpace t) with
  | error e' =>
      constructor
      · intro h
        rw [Except.error.inj h]
      · intro h
        rw [Except.error.inj h]
  | ok r =>
      constructor
      · intro h
        dsimp only at h
        split at h
        · cases h
        · exact absurd (Except.error.inj h).symm he
      · intro h
        cases h

/-- **A limit that was met stays met**, whatever follows. -/
theorem Raises.append {floats : Floats} {x : Text} (h : Raises floats x) (hx : Braced x)
    (u : Text) : Raises floats (x ++ u) := by
  obtain ⟨e, he, hloads⟩ := raises_iff.mp h
  rw [loads_eq_error he] at hloads
  obtain ⟨hskip, hbraced⟩ := hx.skipSpace u
  have hlength : (skipSpace x).length ≤ (skipSpace x ++ u).length := by
    rw [List.length_append]
    exact Nat.le_add_right _ _
  refine raises_iff.mpr ⟨e, he, (loads_eq_error he).mpr ?_⟩
  rw [hskip, (goesOn floats _).value_error hlength hbraced hloads he u]

end Json
