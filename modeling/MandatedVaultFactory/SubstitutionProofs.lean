import Mathlib.Data.List.Basic
import Mathlib.Data.List.Infix

/-!
# Replacing what a pattern matches

A text is read from left to right; where a pattern matches, what it matches is left out and a
marker put in its place, and the reading goes on behind it.

* **`substitute`** — the replacement.
* **`Apart`** — the word can not be put together with a piece of the marker.
* **`unmatched_of_infix`** — such a word, found in the result, was in the text, and not
  matched there; `not_infix_substitute`, `infix_of_substitute`.
* **`substitute_append`** — an end of the text in which nothing is matched is kept, but for
  what a match before it has taken. -/

namespace Substitution

variable {α : Type}

/-- How much is matched at the start of a text; nothing, if zero. -/
abbrev Pattern (α : Type) : Type := List α → Nat

/-- The replacement, with so many items still to be left out. -/
def substituteFrom (p : Pattern α) (marker : List α) : Nat → List α → List α
  | _, [] => []
  | skip + 1, _ :: t => substituteFrom p marker skip t
  | 0, a :: t =>
      if p (a :: t) = 0 then a :: substituteFrom p marker 0 t
      else marker ++ substituteFrom p marker (p (a :: t) - 1) t

def substitute (p : Pattern α) (marker : List α) (t : List α) : List α :=
  substituteFrom p marker 0 t

/-- The pattern that matches one word. -/
def word [DecidableEq α] (w : List α) : Pattern α := fun t =>
  if w.isPrefixOf t then w.length else 0

variable {p : Pattern α} {marker : List α}

theorem substituteFrom_eq (skip : Nat) (t : List α) :
    substituteFrom p marker skip t = substitute p marker (t.drop skip) := by
  induction t generalizing skip with
  | nil => rw [List.drop_nil, substitute, substituteFrom, substituteFrom]
  | cons a t ih =>
      cases skip with
      | zero => rfl
      | succ skip =>
          rw [substituteFrom, ih]
          rfl

theorem substitute_kept {a : α} {t : List α} (h : p (a :: t) = 0) :
    substitute p marker (a :: t) = a :: substitute p marker t := by
  rw [substitute, substituteFrom, if_pos h, substitute]

theorem substitute_matched {t : List α} (h : p t ≠ 0) (hne : t ≠ []) :
    substitute p marker t = marker ++ substitute p marker (t.drop (p t)) := by
  obtain ⟨a, t, rfl⟩ := List.exists_cons_of_ne_nil hne
  rw [substitute, substituteFrom, if_neg h, substituteFrom_eq]
  have hdrop : (a :: t).drop (p (a :: t)) = t.drop (p (a :: t) - 1) := by
    obtain ⟨n, hn⟩ := Nat.exists_eq_succ_of_ne_zero h
    rw [hn]
    rfl
  rw [hdrop]

theorem word_ne_zero [DecidableEq α] {w t : List α} (hne : w ≠ []) :
    word w t ≠ 0 ↔ w <+: t := by
  rw [word]
  split_ifs with h
  · exact ⟨fun _ => List.isPrefixOf_iff_prefix.mp h,
      fun _ hzero => hne (List.length_eq_zero_iff.mp hzero)⟩
  · exact ⟨fun hzero => absurd rfl hzero, fun hw => absurd (List.isPrefixOf_iff_prefix.mpr hw) h⟩

theorem word_le [DecidableEq α] (w t : List α) : word w t ≤ w.length := by
  rw [word]
  split_ifs with h
  · exact Nat.le_refl _
  · exact Nat.zero_le _

/-- A match ends before an item that no match has. -/
theorem match_le_length {inMatch : α → Prop} (h : ∀ t : List α, ∀ a ∈ t.take (p t), inMatch a) {a : α}
    (ha : ¬ inMatch a) (t rest : List α) : p (t ++ a :: rest) ≤ t.length := by
  by_contra hlt
  obtain ⟨n, hn⟩ := Nat.exists_eq_add_of_lt (Nat.lt_of_not_le hlt)
  refine ha (h (t ++ a :: rest) a ?_)
  have htake : (t ++ a :: rest).take (p (t ++ a :: rest)) = t ++ a :: rest.take n := by
    rw [hn, Nat.add_assoc, List.take_length_add_append, List.take_succ_cons]
  rw [htake]
  exact List.mem_append_right _ (List.mem_cons_self ..)

/-! ## Nothing is put together -/

/-- The word shares no piece with the marker, but for the marker's start `keep`. -/
structure Apart (keep marker w : List α) : Prop where
  start : ∀ v, v ≠ [] → v <:+ marker → ¬ v <+: w
  stop : ∀ v, v <+: marker → v <:+ w → v <+: keep
  inside : ¬ marker <:+: w
  outside : ¬ w <:+: marker

/-- What is matched starts by `keep`. -/
def Keeps (p : Pattern α) (keep : List α) : Prop := ∀ t, p t ≠ 0 → keep <+: t

theorem keeps_nil (p : Pattern α) : Keeps p [] := fun _ _ => List.nil_prefix

/-- The start of the result was the start of the text.  Induction on the text: behind each item
    that is kept a shorter word is left, with the same end. -/
theorem prefix_of_substituteFrom {keep : List α} (hkeep : Keeps p keep) (skip : Nat)
    (t : List α) : ∀ w, (∀ v, v <+: marker → v <:+ w → v <+: keep) → ¬ marker <:+: w →
    w <+: substituteFrom p marker skip t → w <+: t.drop skip := by
  induction skip, t using substituteFrom.induct (p := p) with
  | case1 skip =>
      intro w _ _ hw
      rw [substituteFrom] at hw
      rwa [List.drop_nil]
  | case2 skip a t ih =>
      intro w hstop hinside hw
      rw [substituteFrom] at hw
      exact ih w hstop hinside hw
  | case3 a t hzero ih =>
      intro w hstop hinside hw
      rw [substituteFrom, if_pos hzero] at hw
      cases w with
      | nil => exact List.nil_prefix
      | cons b w =>
          obtain ⟨hb, htail⟩ := List.cons_prefix_cons.mp hw
          refine List.cons_prefix_cons.mpr ⟨hb, ih w ?_ ?_ htail⟩
          · exact fun v hv hsuffix => hstop v hv (hsuffix.trans (List.suffix_cons ..))
          · exact fun h => hinside (h.trans (List.infix_cons (List.infix_refl w)))
  | case4 a t hmatch ih =>
      intro w hstop hinside hw
      rw [substituteFrom, if_neg hmatch] at hw
      -- either the word ends within the marker, or the marker lies within the word
      rcases List.prefix_or_prefix_of_prefix hw (List.prefix_append marker _) with h | h
      · exact (hstop w h (List.suffix_refl w)).trans (hkeep _ hmatch)
      · exact absurd h.isInfix hinside

/-- A word that begins in the marker is not there. -/
theorem not_prefix_of_apart {keep w v rest : List α} (h : Apart keep marker w) (hne : v ≠ [])
    (hv : v <:+ marker) : ¬ w <+: v ++ rest := by
  intro hw
  rcases List.prefix_or_prefix_of_prefix hw (List.prefix_append v rest) with hwv | hvw
  · exact h.outside (hwv.isInfix.trans hv.isInfix)
  · exact h.start v hne hv hvw

theorem infix_append_of_apart {keep w : List α} (h : Apart keep marker w) (rest : List α) :
    ∀ v, v <:+ marker → w <:+: v ++ rest → w <:+: rest := by
  intro v
  induction v with
  | nil => exact fun _ hw => hw
  | cons a v ih =>
      intro hv hw
      rw [List.cons_append, List.infix_cons_iff, ← List.cons_append] at hw
      rcases hw with hw | hw
      · exact absurd hw (not_prefix_of_apart h (List.cons_ne_nil a v) hv)
      · exact ih ((List.suffix_cons a v).trans hv) hw

/-- **A word of the result that is apart from the marker was in the text, and not matched
    there.**  Induction on the text. -/
theorem unmatched_of_infix {keep w : List α} (hkeep : Keeps p keep) (h : Apart keep marker w)
    (hne : w ≠ []) (skip : Nat) (t : List α) : w <:+: substituteFrom p marker skip t →
    ∃ u, u <:+ t.drop skip ∧ w <+: u ∧ p u = 0 := by
  induction skip, t using substituteFrom.induct (p := p) with
  | case1 skip =>
      intro hw
      rw [substituteFrom] at hw
      exact absurd (List.infix_nil.mp hw) hne
  | case2 skip a t ih =>
      intro hw
      rw [substituteFrom] at hw
      exact ih hw
  | case3 a t hzero ih =>
      intro hw
      rw [substituteFrom, if_pos hzero, List.infix_cons_iff] at hw
      rcases hw with hw | hw
      · -- the word starts here, where the pattern does not match
        have hkept : w <+: substituteFrom p marker 0 (a :: t) := by
          rw [substituteFrom, if_pos hzero]
          exact hw
        exact ⟨a :: t, List.suffix_refl _,
          prefix_of_substituteFrom hkeep 0 (a :: t) w h.stop h.inside hkept, hzero⟩
      · obtain ⟨u, hu, hwu, hpu⟩ := ih hw
        exact ⟨u, List.IsSuffix.trans hu (List.suffix_cons ..), hwu, hpu⟩
  | case4 a t hmatch ih =>
      intro hw
      rw [substituteFrom, if_neg hmatch] at hw
      -- the marker and the word are apart, so it lies in what follows the match
      obtain ⟨u, hu, hwu, hpu⟩ := ih (infix_append_of_apart h _ marker (List.suffix_refl _) hw)
      exact ⟨u, hu.trans ((List.drop_suffix ..).trans (List.suffix_cons ..)), hwu, hpu⟩

/-- No occurrence is new. -/
theorem infix_of_substitute {keep w t : List α} (hkeep : Keeps p keep)
    (h : Apart keep marker w) (hne : w ≠ []) (hw : w <:+: substitute p marker t) : w <:+: t := by
  obtain ⟨u, hu, hwu, _⟩ := unmatched_of_infix hkeep h hne 0 t hw
  exact hwu.isInfix.trans hu.isInfix

/-- A word that is matched wherever it stands does not occur. -/
theorem not_infix_substitute {keep w : List α} (hkeep : Keeps p keep) (h : Apart keep marker w)
    (hne : w ≠ []) (hmatched : ∀ u, w <+: u → p u ≠ 0) (t : List α) :
    ¬ w <:+: substitute p marker t := by
  intro hw
  obtain ⟨u, _, hwu, hpu⟩ := unmatched_of_infix hkeep h hne 0 t hw
  exact hmatched u hwu hpu

/-! ## What a pattern finds -/

/-- The pattern matches somewhere in the text. -/
def Found (p : Pattern α) (t : List α) : Prop := ∃ u, u <:+ t ∧ p u ≠ 0

/-- The words that the pattern goes by: it matches where one of them stands. -/
def GoesBy (p : Pattern α) (words : List α → Prop) : Prop :=
  ∀ t, p t ≠ 0 ↔ ∃ w, words w ∧ w <+: t

theorem goesBy_word [DecidableEq α] {w : List α} (hne : w ≠ []) : GoesBy (word w) (· = w) := by
  intro t
  rw [word_ne_zero hne]
  exact ⟨fun h => ⟨w, rfl, h⟩, fun ⟨_, hw, h⟩ => hw ▸ h⟩

theorem found_iff {words : List α → Prop} (hwords : GoesBy p words) {t : List α} :
    Found p t ↔ ∃ w, words w ∧ w <:+: t := by
  refine ⟨?_, ?_⟩
  · rintro ⟨u, hu, hmatch⟩
    obtain ⟨w, hw, hwu⟩ := (hwords u).mp hmatch
    exact ⟨w, hw, hwu.isInfix.trans hu.isInfix⟩
  · rintro ⟨w, hw, before, after, rfl⟩
    refine ⟨w ++ after, ⟨before, by rw [List.append_assoc]⟩, ?_⟩
    exact (hwords _).mpr ⟨w, hw, List.prefix_append w after⟩

theorem Found.mono {words : List α → Prop} (hwords : GoesBy p words) {t u : List α}
    (h : Found p t) (htu : t <:+: u) : Found p u := by
  obtain ⟨w, hw, hwt⟩ := (found_iff hwords).mp h
  exact (found_iff hwords).mpr ⟨w, hw, hwt.trans htu⟩

/-- **A pattern finds nothing where what it matches was replaced**, if its words are apart from
    the marker. -/
theorem not_found_substitute {keep : List α} {words : List α → Prop} (hkeep : Keeps p keep)
    (hwords : GoesBy p words) (hapart : ∀ w, words w → w ≠ [] ∧ Apart keep marker w)
    (t : List α) : ¬ Found p (substitute p marker t) := by
  intro h
  obtain ⟨w, hw, hwt⟩ := (found_iff hwords).mp h
  obtain ⟨hne, hw'⟩ := hapart w hw
  exact not_infix_substitute hkeep hw' hne (fun u hu => (hwords u).mpr ⟨w, hw, hu⟩) t hwt

/-- It finds nothing new where what another one matches is replaced. -/
theorem found_of_substitute {keep : List α} {q : Pattern α} {words : List α → Prop}
    (hkeep : Keeps p keep) (hwords : GoesBy q words)
    (hapart : ∀ w, words w → w ≠ [] ∧ Apart keep marker w) {t : List α}
    (h : Found q (substitute p marker t)) : Found q t := by
  obtain ⟨w, hw, hwt⟩ := (found_iff hwords).mp h
  obtain ⟨hne, hw'⟩ := hapart w hw
  exact (found_iff hwords).mpr ⟨w, hw, infix_of_substitute hkeep hw' hne hwt⟩

/-! ## What is left alone -/

theorem substitute_of_not_found {t : List α} (h : ¬ Found p t) : substitute p marker t = t := by
  induction t with
  | nil => rfl
  | cons a t ih =>
      have hzero : p (a :: t) = 0 := by
        by_contra hmatch
        exact h ⟨a :: t, List.suffix_refl _, hmatch⟩
      have htail : ¬ Found p t := fun ⟨u, hu, hmatch⟩ =>
        h ⟨u, hu.trans (List.suffix_cons ..), hmatch⟩
      rw [substitute_kept hzero, ih htail]

/-- **The end of a text in which nothing is found is kept**, but for as much as a match before
    it reaches into it.  Induction on the length of what is before it. -/
theorem substitute_append {rest : List α} (hrest : ¬ Found p rest) {reach : Nat}
    (hreach : ∀ t, t ≠ [] → p (t ++ rest) ≤ t.length + reach) (n : Nat) :
    ∀ t, t.length = n → ∃ before k, k ≤ reach ∧
      substitute p marker (t ++ rest) = before ++ rest.drop k := by
  induction n using Nat.strongRecOn with
  | ind n ih =>
      intro t hn
      cases t with
      | nil => exact ⟨[], 0, Nat.zero_le _, substitute_of_not_found hrest⟩
      | cons a t =>
          by_cases hzero : p (a :: t ++ rest) = 0
          · obtain ⟨before, k, hk, h⟩ := ih t.length (by rw [← hn]; exact Nat.lt_succ_self _) t rfl
            refine ⟨a :: before, k, hk, ?_⟩
            have hkept : substitute p marker (a :: t ++ rest) = a :: substitute p marker (t ++ rest) :=
              substitute_kept hzero
            rw [hkept, h, List.cons_append]
          · have hne : a :: t ++ rest ≠ [] := List.cons_ne_nil _ _
            have hlength := hreach (a :: t) (List.cons_ne_nil _ _)
            rw [substitute_matched hzero hne]
            rcases Nat.lt_or_ge (a :: t).length (p (a :: t ++ rest)) with hlt | hle
            · -- the match ends in `rest`
              refine ⟨marker, p (a :: t ++ rest) - (a :: t).length, by omega, ?_⟩
              rw [List.drop_append, List.drop_of_length_le (Nat.le_of_lt hlt), List.nil_append]
              have hquiet : ¬ Found p (rest.drop (p (a :: t ++ rest) - (a :: t).length)) :=
                fun ⟨u, hu, hmatch⟩ => hrest ⟨u, hu.trans (List.drop_suffix ..), hmatch⟩
              rw [substitute_of_not_found hquiet]
            · have hshorter : ((a :: t).drop (p (a :: t ++ rest))).length < n := by
                rw [List.length_drop, hn]
                have hpos : 0 < n := by rw [← hn]; exact Nat.succ_pos _
                omega
              obtain ⟨before, k, hk, h⟩ := ih _ hshorter _ rfl
              refine ⟨marker ++ before, k, hk, ?_⟩
              rw [List.drop_append_of_le_length hle, h, List.append_assoc]

end Substitution
