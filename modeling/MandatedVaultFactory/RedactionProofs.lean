import MandatedVaultFactory.JsonProofs
import MandatedVaultFactory.SubstitutionProofs

/-!
# Taking secrets out of a text

Secrets that are listed are replaced by a marker, one after another; then bearer tokens, and
hexadecimal words of 32 bytes behind `0x`.

* **`redactText`** — `redact_text`.
* **`not_infix_redactText`** — a secret that is listed is not in the result, unless a piece of
  it is a piece of what is put in.
* **`not_infix_of_masked`** — nor is one in which there is a bearer token or such a word,
  listed or not.
* **`exists_redactText`** — any other secret gets through. -/

namespace Redaction

open Texts Json Substitution

/-! ## The code -/

def redacted : Text := ['<', 'r', 'e', 'd', 'a', 'c', 't', 'e', 'd', '>']
def bearerText : Text := ['B', 'e', 'a', 'r', 'e', 'r']
def hexStart : Text := ['0', 'x']

/-- `Bearer <redacted>`. -/
def bearerMarker : Text := bearerText ++ [' '] ++ redacted

/-- `0x<redacted>`. -/
def hexMarker : Text := hexStart ++ redacted

/-- `[A-Za-z0-9._-]`. -/
def isTokenChar (c : Char) : Bool := c.isAlphanum || c = '.' || c = '_' || c = '-'

/-- `[a-fA-F0-9]`. -/
def isHexChar (c : Char) : Bool := (hexVal c).isSome

/-- `Bearer\s+[A-Za-z0-9._-]+`; no white space can stand in a token, so there is one way to
    match. -/
def bearer : Pattern Char := fun t =>
  match dropPrefix bearerText t with
  | none => 0
  | some rest =>
      let spaces := rest.takeWhile isSpace
      let token := (rest.dropWhile isSpace).takeWhile isTokenChar
      if spaces = [] ∨ token = [] then 0
      else bearerText.length + (spaces.length + token.length)

/-- `0x[a-fA-F0-9]{64}`. -/
def hexKey : Pattern Char := fun t =>
  match dropPrefix hexStart t with
  | none => 0
  | some rest =>
      if (rest.take 64).length = 64 ∧ (rest.take 64).all isHexChar then hexStart.length + 64
      else 0

/-- `redacted.replace(secret, "<redacted>")`, if there is a secret. -/
def replaceSecret (text : Text) : Option Text → Text
  | none => text
  | some secret => if secret = [] then text else substitute (word secret) redacted text

/-- `redact_text`. -/
def redactText (text : Text) (secrets : List (Option Text)) : Text :=
  substitute hexKey hexMarker
    (substitute bearer bearerMarker (secrets.foldl replaceSecret text))

example : redactText "k=secret-1 Bearer\ta.b_c-d".toList [none, some "secret-1".toList]
    = "k=<redacted> Bearer <redacted>".toList := by decide

/-! ## What the two expressions match -/

theorem eq_append_of_dropPrefix {t rest : Text} : ∀ {start : Text},
    dropPrefix start t = some rest → t = start ++ rest := by
  intro start
  induction start generalizing t with
  | nil =>
      intro h
      exact Option.some.inj h
  | cons c start ih =>
      intro h
      cases t with
      | nil => exact nomatch h
      | cons d t =>
          rw [dropPrefix] at h
          split_ifs at h with hcd
          rw [hcd, ih h, List.cons_append]

/-- What is not zero is matched: white space and a token behind `Bearer`. -/
theorem bearer_match {t : Text} (h : bearer t ≠ 0) : ∃ spaces token rest,
    t = bearerText ++ (spaces ++ (token ++ rest)) ∧ spaces ≠ [] ∧ token ≠ [] ∧
    (∀ c ∈ spaces, isSpace c = true) ∧ (∀ c ∈ token, isTokenChar c = true) ∧
    bearer t = bearerText.length + (spaces.length + token.length) := by
  cases hdrop : dropPrefix bearerText t with
  | none => exact absurd (by rw [bearer, hdrop]) h
  | some rest =>
      rw [bearer, hdrop] at h ⊢
      dsimp only at h ⊢
      have hsome := mt (fun hnone => if_pos hnone) h
      rw [if_neg hsome]
      rw [not_or] at hsome
      refine ⟨_, _, ((rest.dropWhile isSpace).dropWhile isTokenChar), ?_, hsome.1, hsome.2, ?_, ?_,
        rfl⟩
      · rw [List.takeWhile_append_dropWhile, List.takeWhile_append_dropWhile]
        exact eq_append_of_dropPrefix hdrop
      · exact fun c hc => List.all_eq_true.mp List.all_takeWhile c hc
      · exact fun c hc => List.all_eq_true.mp List.all_takeWhile c hc

theorem hexKey_match {t : Text} (h : hexKey t ≠ 0) : ∃ digits rest,
    t = hexStart ++ (digits ++ rest) ∧ digits.length = 64 ∧
    (∀ c ∈ digits, isHexChar c = true) ∧ hexKey t = hexStart.length + 64 := by
  cases hdrop : dropPrefix hexStart t with
  | none => exact absurd (by rw [hexKey, hdrop]) h
  | some rest =>
      rw [hexKey, hdrop] at h ⊢
      dsimp only at h ⊢
      have hdigits := (ite_ne_right_iff.mp h).1
      rw [if_pos hdigits]
      refine ⟨rest.take 64, rest.drop 64, ?_, hdigits.1, List.all_eq_true.mp hdigits.2, rfl⟩
      rw [List.take_append_drop]
      exact eq_append_of_dropPrefix hdrop

/-- The shortest texts that `bearer` matches. -/
def BearerWord (w : Text) : Prop := ∃ spaces c, spaces ≠ [] ∧
  (∀ d ∈ spaces, isSpace d = true) ∧ isTokenChar c = true ∧ w = bearerText ++ spaces ++ [c]

/-- The texts that `hexKey` matches. -/
def HexWord (w : Text) : Prop := ∃ digits : Text, digits.length = 64 ∧
  (∀ c ∈ digits, isHexChar c = true) ∧ w = hexStart ++ digits

theorem visible_of_isAlphanum {c : Char} (h : c.isAlphanum = true) :
    33 ≤ c.toNat ∧ c.toNat ≤ 126 := by
  have hranges : ((decide (65 ≤ c.val ∧ c.val ≤ 90)
      || decide (97 ≤ c.val) && decide (c.val ≤ 122))
      || decide (48 ≤ c.val) && decide (c.val ≤ 57)) = true := h
  simp only [Bool.or_eq_true, Bool.and_eq_true, decide_eq_true_eq, UInt32.le_iff_toNat_le,
    UInt32.reduceToNat, Char.toNat_val] at hranges
  omega

theorem not_isSpace_of_isTokenChar {c : Char} (h : isTokenChar c = true) : isSpace c = false := by
  have hvisible : 33 ≤ c.toNat ∧ c.toNat ≤ 126 := by
    simp only [isTokenChar, Bool.or_eq_true, decide_eq_true_eq] at h
    rcases h with ((h | rfl) | rfl) | rfl
    · exact visible_of_isAlphanum h
    · decide
    · decide
    · decide
  exact not_isSpace_of_visible hvisible.1 hvisible.2

theorem goesBy_bearer : GoesBy bearer BearerWord := by
  intro t
  refine ⟨?_, ?_⟩
  · intro h
    obtain ⟨spaces, token, rest, rfl, hspaces, htoken, hall, htoken', _⟩ := bearer_match h
    obtain ⟨c, token, rfl⟩ := List.exists_cons_of_ne_nil htoken
    exact ⟨_, ⟨spaces, c, hspaces, hall, htoken' c (List.mem_cons_self ..), rfl⟩, token ++ rest,
      by simp⟩
  · rintro ⟨_, ⟨spaces, c, hspaces, hall, hc, rfl⟩, rest, rfl⟩
    have hspace : isSpace c = false := not_isSpace_of_isTokenChar hc
    have htake : (spaces ++ c :: rest).takeWhile isSpace = spaces := by
      rw [List.takeWhile_append_of_pos hall, List.takeWhile_cons_of_neg (by rw [hspace]; decide),
        List.append_nil]
    have hdrop : (spaces ++ c :: rest).dropWhile isSpace = c :: rest := by
      rw [List.dropWhile_append_of_pos hall, List.dropWhile_cons_of_neg (by rw [hspace]; decide)]
    have hsplit : bearerText ++ spaces ++ [c] ++ rest = bearerText ++ (spaces ++ c :: rest) := by
      simp
    rw [bearer, hsplit, dropPrefix_append]
    dsimp only
    rw [htake, hdrop, List.takeWhile_cons_of_pos hc, if_neg (by simp [hspaces])]
    simp [bearerText]

theorem goesBy_hexKey : GoesBy hexKey HexWord := by
  intro t
  refine ⟨?_, ?_⟩
  · intro h
    obtain ⟨digits, rest, rfl, hlength, hall, _⟩ := hexKey_match h
    exact ⟨_, ⟨digits, hlength, hall, rfl⟩, rest, by rw [List.append_assoc]⟩
  · rintro ⟨_, ⟨digits, hlength, hall, rfl⟩, rest, rfl⟩
    have htake : (digits ++ rest).take 64 = digits := by
      rw [← hlength, List.take_left]
    rw [hexKey, List.append_assoc, dropPrefix_append]
    dsimp only
    rw [htake, if_pos ⟨hlength, List.all_eq_true.mpr hall⟩]
    simp [hexStart]

/-! ## Nothing of a secret is put together -/

/-- A word without angle brackets is apart from what ends by the marker, unless it ends by what
    stands before the marker or is a piece of it. -/
theorem apart_of_no_bracket {keep lead w : Text} (hopen : '<' ∉ w) (hclose : '>' ∉ w)
    (hstop : ∀ v, v <+: lead → v <:+ w → v <+: keep) (hout : ¬ w <:+: lead ++ redacted) :
    Apart keep (lead ++ redacted) w where
  start := by
    intro v hne hv hw
    have hlast : v.getLast hne = '>' := by
      rw [hv.getLast hne]
      simp [redacted]
    exact hclose (hw.subset (hlast ▸ List.getLast_mem hne))
  stop := by
    intro v hv hw
    rcases List.prefix_or_prefix_of_prefix hv (List.prefix_append lead _) with h | ⟨rest, rfl⟩
    · exact hstop v h hw
    · have hrest := (List.prefix_append_right_inj lead).mp hv
      cases rest with
      | nil =>
          rw [List.append_nil] at hw ⊢
          exact hstop lead (List.prefix_refl lead) hw
      | cons c rest =>
          have hc : c = '<' := (List.cons_prefix_cons.mp hrest).1
          refine absurd (hw.subset ?_) hopen
          rw [hc]
          simp
  inside := fun h => hopen (h.subset (by simp [redacted]))
  outside := hout

/-- No piece of the secret is a piece of what is put in. -/
structure Detached (secret : Text) : Prop where
  replaced : Apart [] redacted secret
  bearer : Apart bearerText bearerMarker secret
  hex : Apart hexStart hexMarker secret

/-- A secret without angle brackets, and no space at its end. -/
theorem detached_of_no_bracket {s : Text} (hopen : '<' ∉ s) (hclose : '>' ∉ s)
    (hend : s.getLast? ≠ some ' ') (hredacted : ¬ s <:+: redacted)
    (hbearer : ¬ s <:+: bearerMarker) (hhex : ¬ s <:+: hexMarker) : Detached s where
  replaced := by
    have happart : Apart [] ([] ++ redacted) s :=
      apart_of_no_bracket hopen hclose (fun _ hv _ => hv) hredacted
    exact happart
  bearer := by
    refine apart_of_no_bracket hopen hclose ?_ hbearer
    intro v hv hw
    rcases List.prefix_concat_iff.mp hv with rfl | h
    · obtain ⟨before, rfl⟩ := hw
      exact absurd (by simp) hend
    · exact h
  hex := apart_of_no_bracket hopen hclose (fun _ hv _ => hv) hhex

theorem keeps_bearer : Keeps bearer bearerText := by
  intro t h
  obtain ⟨spaces, token, rest, rfl, _⟩ := bearer_match h
  exact List.prefix_append _ _

theorem keeps_hexKey : Keeps hexKey hexStart := by
  intro t h
  obtain ⟨digits, rest, rfl, _⟩ := hexKey_match h
  exact List.prefix_append _ _

/-- There is no angle bracket in what `bearer` matches. -/
theorem no_bracket_bearerWord {w : Text} (hw : BearerWord w) : '<' ∉ w ∧ '>' ∉ w := by
  have hnone : ∀ c, c ∉ bearerText → isSpace c = false → isTokenChar c = false → c ∉ w := by
    obtain ⟨spaces, d, _, hspaces, hd, rfl⟩ := hw
    intro c hc hspace htoken hmem
    simp only [List.mem_append, List.mem_singleton] at hmem
    rcases hmem with (h | h) | rfl
    · exact hc h
    · exact Bool.false_ne_true (hspace.symm.trans (hspaces c h))
    · exact Bool.false_ne_true (htoken.symm.trans hd)
  exact ⟨hnone '<' (by decide) rfl rfl, hnone '>' (by decide) rfl rfl⟩

theorem no_bracket_hexWord {w : Text} (hw : HexWord w) : '<' ∉ w ∧ '>' ∉ w := by
  have hnone : ∀ c, c ∉ hexStart → isHexChar c = false → c ∉ w := by
    obtain ⟨digits, _, hdigits, rfl⟩ := hw
    intro c hc hhex hmem
    rcases List.mem_append.mp hmem with h | h
    · exact hc h
    · exact Bool.false_ne_true (hhex.symm.trans (hdigits c h))
  exact ⟨hnone '<' (by decide) rfl, hnone '>' (by decide) rfl⟩

theorem bearerWord_ne_nil {w : Text} (hw : BearerWord w) : w ≠ [] := by
  obtain ⟨spaces, c, _, _, _, rfl⟩ := hw
  simp

theorem hexWord_ne_nil {w : Text} (hw : HexWord w) : w ≠ [] := by
  obtain ⟨digits, _, _, rfl⟩ := hw
  exact List.cons_ne_nil _ _

/-- A word that `bearer` matches is apart from what replaces it. -/
theorem apart_bearerWord {w : Text} (hw : BearerWord w) : Apart bearerText bearerMarker w := by
  obtain ⟨hopen, hclose⟩ := no_bracket_bearerWord hw
  refine apart_of_no_bracket hopen hclose ?_ ?_
  · -- it ends by the token, not by a space
    intro v hv hvw
    rcases List.prefix_concat_iff.mp hv with rfl | h
    · obtain ⟨spaces, c, _, _, hc, rfl⟩ := hw
      obtain ⟨before, hbefore⟩ := hvw
      have hlast : ' ' = c := by simpa using congrArg List.getLast? hbefore
      rw [← hlast] at hc
      exact absurd hc (by decide)
    · exact h
  · intro hout
    have hfound : Found bearer bearerMarker := (found_iff goesBy_bearer).mpr ⟨w, hw, hout⟩
    obtain ⟨u, hu, hmatch⟩ := hfound
    have hnone : ∀ u ∈ bearerMarker.tails, bearer u = 0 := by decide
    exact hmatch (hnone u ((List.mem_tails ..).mpr hu))

/-- And from what replaces a key. -/
theorem apart_bearerWord_hex {w : Text} (hw : BearerWord w) : Apart hexStart hexMarker w := by
  obtain ⟨hopen, hclose⟩ := no_bracket_bearerWord hw
  refine apart_of_no_bracket hopen hclose (fun _ hv _ => hv) ?_
  intro hout
  obtain ⟨spaces, c, _, _, _, rfl⟩ := hw
  have hmem : 'B' ∈ hexMarker := hout.subset (by simp [bearerText])
  exact absurd hmem (by decide)

theorem apart_hexWord {w : Text} (hw : HexWord w) : Apart hexStart hexMarker w := by
  obtain ⟨hopen, hclose⟩ := no_bracket_hexWord hw
  refine apart_of_no_bracket hopen hclose (fun _ hv _ => hv) ?_
  intro hout
  obtain ⟨digits, hlength, _, rfl⟩ := hw
  have hle := hout.length_le
  rw [List.length_append, hlength] at hle
  exact absurd hle (by decide)

/-- **No bearer token is in the result, and no key behind `0x`.** -/
theorem not_found_redactText (text : Text) (secrets : List (Option Text)) :
    ¬ Found bearer (redactText text secrets) ∧ ¬ Found hexKey (redactText text secrets) := by
  refine ⟨?_, ?_⟩
  · intro h
    have hbefore := found_of_substitute keeps_hexKey goesBy_bearer
      (fun w hw => ⟨bearerWord_ne_nil hw, apart_bearerWord_hex hw⟩) h
    exact not_found_substitute keeps_bearer goesBy_bearer
      (fun w hw => ⟨bearerWord_ne_nil hw, apart_bearerWord hw⟩) _ hbefore
  · exact not_found_substitute keeps_hexKey goesBy_hexKey
      (fun w hw => ⟨hexWord_ne_nil hw, apart_hexWord hw⟩) _

/-- There is a bearer token in the secret, or a key behind `0x`. -/
def Masked (secret : Text) : Prop := Found bearer secret ∨ Found hexKey secret

/-- **A masked secret is not in the result, listed or not.** -/
theorem not_infix_of_masked {s : Text} (h : Masked s) (text : Text)
    (secrets : List (Option Text)) : ¬ s <:+: redactText text secrets := by
  intro hs
  obtain ⟨hbearer, hhex⟩ := not_found_redactText text secrets
  rcases h with h | h
  · exact hbearer (h.mono goesBy_bearer hs)
  · exact hhex (h.mono goesBy_hexKey hs)

/-! ## Listed secrets -/

/-- Other secrets are replaced without bringing one back. -/
theorem infix_of_foldl {s : Text} (h : Apart [] redacted s) (hne : s ≠ []) (text : Text)
    (secrets : List (Option Text)) : s <:+: secrets.foldl replaceSecret text → s <:+: text := by
  induction secrets generalizing text with
  | nil => exact fun hs => hs
  | cons secret secrets ih =>
      intro hs
      have hs' := ih (replaceSecret text secret) hs
      cases secret with
      | none => exact hs'
      | some r =>
          rw [replaceSecret] at hs'
          split_ifs at hs' with hr
          · exact hs'
          · exact infix_of_substitute (keeps_nil _) h hne hs'

/-- **A secret that is listed is not in the result**, if it is detached from what is put in. -/
theorem not_infix_redactText {s : Text} (h : Detached s) (hne : s ≠ []) {text : Text}
    {secrets : List (Option Text)} (hmem : some s ∈ secrets) :
    ¬ s <:+: redactText text secrets := by
  intro hs
  have hbearer := infix_of_substitute keeps_hexKey h.hex hne hs
  have hfold := infix_of_substitute keeps_bearer h.bearer hne hbearer
  obtain ⟨before, after, rfl⟩ := List.append_of_mem hmem
  rw [List.foldl_append, List.foldl_cons] at hfold
  have hreplaced := infix_of_foldl h.replaced hne _ after hfold
  rw [replaceSecret, if_neg hne] at hreplaced
  exact not_infix_substitute (keeps_nil _) h.replaced hne
    (fun u hu => (word_ne_zero hne).mpr hu) _ hreplaced

/-- One that begins as the marker ends can come back. -/
example : redactText "d>abcdefabcdef".toList [some "d>abcdef".toList]
    = "<redacte".toList ++ "d>abcdef".toList := by decide

/-! ## Secrets that are not listed -/

/-- A character that no expression matches. -/
structure Inert (c : Char) : Prop where
  space : isSpace c = false
  token : isTokenChar c = false
  hex : isHexChar c = false
  bearer : c ∉ bearerText
  hexStart : c ∉ hexStart

theorem not_bearer_across {c : Char} (hc : Inert c) (t rest : Text) :
    bearer (t ++ c :: rest) ≤ t.length := by
  have hmatch : ∀ t : Text, ∀ d ∈ t.take (bearer t),
      d ∈ bearerText ∨ isSpace d = true ∨ isTokenChar d = true := by
    intro t d hd
    by_cases hzero : bearer t = 0
    · rw [hzero] at hd
      exact nomatch hd
    · obtain ⟨spaces, token, rest, rfl, _, _, hspaces, htoken, hlength⟩ := bearer_match hzero
      rw [hlength, List.take_length_add_append, List.take_length_add_append,
        List.take_left] at hd
      rcases List.mem_append.mp hd with h | h
      · exact .inl h
      · rcases List.mem_append.mp h with h | h
        · exact .inr (.inl (hspaces d h))
        · exact .inr (.inr (htoken d h))
  refine match_le_length hmatch ?_ t rest
  rw [hc.space, hc.token]
  simp [hc.bearer]

theorem not_hexKey_across {c : Char} (hc : Inert c) (t rest : Text) :
    hexKey (t ++ c :: rest) ≤ t.length := by
  have hmatch : ∀ t : Text, ∀ d ∈ t.take (hexKey t), d ∈ hexStart ∨ isHexChar d = true := by
    intro t d hd
    by_cases hzero : hexKey t = 0
    · rw [hzero] at hd
      exact nomatch hd
    · obtain ⟨digits, rest, rfl, hdigits, hhex, hlength⟩ := hexKey_match hzero
      rw [hlength, List.take_length_add_append, ← hdigits, List.take_left] at hd
      rcases List.mem_append.mp hd with h | h
      · exact .inl h
      · exact .inr (hhex d h)
  refine match_le_length hmatch ?_ t rest
  rw [hc.hex]
  simp [hc.hexStart]

/-- A word that does not start by `c` is not found in a row of these, but in what follows. -/
theorem infix_of_infix_replicate {c : Char} {w rest : Text} (hw : ∀ d ∈ w.head?, d ≠ c)
    (hne : w ≠ []) (n : Nat) : w <:+: List.replicate n c ++ rest → w <:+: rest := by
  induction n with
  | zero => exact fun h => h
  | succ n ih =>
      intro h
      rw [List.replicate_succ, List.cons_append, List.infix_cons_iff] at h
      rcases h with h | h
      · obtain ⟨d, w, rfl⟩ := List.exists_cons_of_ne_nil hne
        exact absurd (List.cons_prefix_cons.mp h).1 (hw d rfl)
      · exact ih h

theorem bearerWord_head {w : Text} (hw : BearerWord w) : ∀ d ∈ w.head?, d ∈ bearerText := by
  obtain ⟨spaces, c, _, _, _, rfl⟩ := hw
  intro d hd
  obtain rfl : 'B' = d := Option.some.inj hd
  decide

theorem hexWord_head {w : Text} (hw : HexWord w) : ∀ d ∈ w.head?, d ∈ hexStart := by
  obtain ⟨digits, _, _, rfl⟩ := hw
  intro d hd
  obtain rfl : '0' = d := Option.some.inj hd
  decide

/-- How much of what stands before a secret the replacements can take. -/
def reach : List (Option Text) → Nat
  | [] => 0
  | secret :: secrets => (secret.getD []).length + reach secrets

section Through

variable {c : Char} {s : Text}

/-- One replacement takes from the row no more than it replaces. -/
theorem replaceSecret_end {secret : Option Text} (hhead : ∀ r ∈ secret, ∀ d ∈ r.head?, d ≠ c)
    (hin : ∀ r ∈ secret, r ≠ [] → ¬ r <:+: s) (before : Text) {n : Nat}
    (hn : (secret.getD []).length ≤ n) : ∃ before' m, n ≤ m + (secret.getD []).length ∧
      replaceSecret (before ++ (List.replicate n c ++ s)) secret
        = before' ++ (List.replicate m c ++ s) := by
  cases secret with
  | none => exact ⟨before, n, Nat.le_add_right _ _, rfl⟩
  | some r =>
      rw [replaceSecret]
      split_ifs with hr
      · exact ⟨before, n, Nat.le_add_right _ _, rfl⟩
      · have hquiet : ¬ Found (word r) (List.replicate n c ++ s) := by
          intro hfound
          obtain ⟨w, rfl, hw⟩ := (found_iff (goesBy_word hr)).mp hfound
          exact hin w rfl hr (infix_of_infix_replicate (hhead w rfl) hr n hw)
        have hreach : ∀ t, t ≠ [] → word r (t ++ (List.replicate n c ++ s)) ≤ t.length + r.length :=
          fun t _ => (word_le r _).trans (Nat.le_add_left _ _)
        obtain ⟨before', k, hk, h⟩ := substitute_append hquiet hreach _ before rfl
        refine ⟨before', n - k, ?_, ?_⟩
        · show n ≤ n - k + r.length
          omega
        · have hkn : k ≤ n := hk.trans hn
          rw [h, List.drop_append_of_le_length (by rw [List.length_replicate]; exact hkn),
            List.drop_replicate]

/-- **The replacements leave a part of the row, and the secret behind it.**  Induction on the
    listed secrets: each takes its own length of the row at most. -/
theorem foldl_replaceSecret_end (secrets : List (Option Text)) :
    (∀ r, some r ∈ secrets → ∀ d ∈ r.head?, d ≠ c) →
    (∀ r, some r ∈ secrets → r ≠ [] → ¬ r <:+: s) → ∀ (before : Text) (n : Nat),
    reach secrets ≤ n → ∃ before' m, n ≤ m + reach secrets ∧
      secrets.foldl replaceSecret (before ++ (List.replicate n c ++ s))
        = before' ++ (List.replicate m c ++ s) := by
  induction secrets with
  | nil => exact fun _ _ before n _ => ⟨before, n, Nat.le_refl _, rfl⟩
  | cons secret secrets ih =>
      intro hheads hin before n hn
      rw [reach] at hn ⊢
      obtain ⟨before', m, hm, h⟩ := replaceSecret_end
        (fun r hr => hheads r (hr ▸ List.mem_cons_self ..))
        (fun r hr => hin r (hr ▸ List.mem_cons_self ..)) before (by omega : _ ≤ n)
      obtain ⟨before'', m', hm', h'⟩ := ih (fun r hr => hheads r (List.mem_cons_of_mem _ hr))
        (fun r hr => hin r (List.mem_cons_of_mem _ hr)) before' m (by omega)
      refine ⟨before'', m', by omega, ?_⟩
      rw [List.foldl_cons, h, h']

/-- Neither expression matches what stands behind an inert character, if the secret there is
    not masked. -/
theorem substitute_row {p : Pattern Char} {marker : Text} {words : Text → Prop}
    (hwords : GoesBy p words) (hne : ∀ w, words w → w ≠ [])
    (hhead : ∀ w, words w → ∀ d ∈ w.head?, d ≠ c)
    (hacross : ∀ t rest : Text, p (t ++ c :: rest) ≤ t.length) (hs : ¬ Found p s)
    (before : Text) (n : Nat) : ∃ before', substitute p marker
      (before ++ (List.replicate (n + 1) c ++ s)) = before' ++ (List.replicate (n + 1) c ++ s) := by
  have hquiet : ¬ Found p (List.replicate (n + 1) c ++ s) := by
    intro hfound
    obtain ⟨w, hw, hws⟩ := (found_iff hwords).mp hfound
    exact hs ((found_iff hwords).mpr
      ⟨w, hw, infix_of_infix_replicate (hhead w hw) (hne w hw) (n + 1) hws⟩)
  have hreach : ∀ t, t ≠ [] → p (t ++ (List.replicate (n + 1) c ++ s)) ≤ t.length + 0 := by
    intro t _
    rw [List.replicate_succ, List.cons_append]
    exact hacross t _
  obtain ⟨before', k, hk, h⟩ := substitute_append hquiet hreach _ before rfl
  obtain rfl : k = 0 := Nat.le_zero.mp hk
  exact ⟨before', h⟩

/-- **Any other secret gets through**, behind a row of inert characters by which no listed
    secret starts. -/
theorem redactText_end (hc : Inert c) {secrets : List (Option Text)}
    (hheads : ∀ r, some r ∈ secrets → ∀ d ∈ r.head?, d ≠ c)
    (hin : ∀ r, some r ∈ secrets → r ≠ [] → ¬ r <:+: s) (hs : ¬ Masked s) (before : Text) :
    s <:+: redactText (before ++ (List.replicate (reach secrets + 1) c ++ s)) secrets := by
  obtain ⟨hbearer, hhex⟩ := not_or.mp hs
  obtain ⟨before₁, m, hm, h₁⟩ := foldl_replaceSecret_end secrets hheads hin before
    (reach secrets + 1) (Nat.le_succ _)
  obtain ⟨m, rfl⟩ := Nat.exists_eq_add_of_lt (by omega : 0 < m)
  rw [Nat.zero_add] at h₁
  have hbearerHead : ∀ w, BearerWord w → ∀ d ∈ w.head?, d ≠ c := by
    rintro w hw d hd rfl
    exact hc.bearer (bearerWord_head hw d hd)
  have hhexHead : ∀ w, HexWord w → ∀ d ∈ w.head?, d ≠ c := by
    rintro w hw d hd rfl
    exact hc.hexStart (hexWord_head hw d hd)
  obtain ⟨before₂, h₂⟩ : ∃ before₂, substitute bearer bearerMarker _ = before₂ ++ _ :=
    substitute_row goesBy_bearer (fun _ => bearerWord_ne_nil) hbearerHead
      (not_bearer_across hc) hbearer before₁ m
  obtain ⟨before₃, h₃⟩ : ∃ before₃, substitute hexKey hexMarker _ = before₃ ++ _ :=
    substitute_row goesBy_hexKey (fun _ => hexWord_ne_nil) hhexHead
      (not_hexKey_across hc) hhex before₂ m
  refine ⟨before₃ ++ List.replicate (m + 1) c, [], ?_⟩
  rw [redactText, h₁, h₂, h₃, List.append_nil, List.append_assoc]

end Through

def inertMarks : Text := ['!', '#', '$', '%', '&']

theorem inert_of_mem {c : Char} (h : c ∈ inertMarks) : Inert c := by
  have hall : inertMarks.all (fun c => !isSpace c && !isTokenChar c && !isHexChar c &&
      !bearerText.contains c && !hexStart.contains c) = true := by decide
  have hc := List.all_eq_true.mp hall c h
  simp only [Bool.and_eq_true, Bool.not_eq_true', List.contains_eq_mem, decide_eq_false_iff_not]
    at hc
  obtain ⟨⟨⟨⟨hspace, htoken⟩, hhex⟩, hbearer⟩, hstart⟩ := hc
  exact ⟨hspace, htoken, hhex, hbearer, hstart⟩

/-- Four secrets can not start by five characters. -/
theorem exists_inert {secrets : List (Option Text)} (hlength : secrets.length ≤ 4) :
    ∃ c, Inert c ∧ ∀ r, some r ∈ secrets → ∀ d ∈ r.head?, d ≠ c := by
  by_contra hnone
  have hsubset : inertMarks ⊆ secrets.filterMap (fun secret => secret.bind List.head?) := by
    intro c hc
    by_contra hfree
    refine hnone ⟨c, inert_of_mem hc, ?_⟩
    rintro r hr d hd rfl
    exact hfree (List.mem_filterMap.mpr ⟨some r, hr, hd⟩)
  have hle := List.Nodup.length_le_of_subset (by decide : inertMarks.Nodup) hsubset
  have hheads := List.length_filterMap_le (fun secret => secret.bind List.head?) secrets
  have hmarks : inertMarks.length = 5 := rfl
  omega

/-- Where no more than four secrets are listed, any other one that is not masked can be told. -/
theorem exists_redactText {s : Text} {secrets : List (Option Text)} (hlength : secrets.length ≤ 4)
    (hin : ∀ r, some r ∈ secrets → r ≠ [] → ¬ r <:+: s) (hs : ¬ Masked s) :
    ∃ told : Text, ∀ before, s <:+: redactText (before ++ told) secrets := by
  obtain ⟨c, hc, hheads⟩ := exists_inert hlength
  exact ⟨_, redactText_end hc hheads hin hs⟩

end Redaction
