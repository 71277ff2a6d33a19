import MandatedVaultFactory.JsonProofs

/-!
# Writing JSON

Python's `json.dumps`, in its default form: a space after every comma and colon, and nothing
but ASCII.  With an indent, the comma ends the line.

* **`ofValue`** — the syntax `dumps` chooses; **`loads_dumps`**: it is read back.
* **`oneLine_ofValue`** — what `dumps` writes has no newline.
* **`dumpsIndent`** — a line for every element and member; **`loads_dumpsIndent`**. -/

namespace Json

open Texts

/-! ## The syntax of `dumps` -/

/-- The two halves of a character beyond the basic plane. -/
def highSurrogate (c : Char) : Nat := 0xd800 + (c.toNat - 0x10000) / 1024

def lowSurrogate (c : Char) : Nat := 0xdc00 + (c.toNat - 0x10000) % 1024

/-- A character is no half of a pair. -/
theorem not_surrogate (c : Char) : c.toNat < 0xd800 ∨ 0xdfff < c.toNat ∧ c.toNat < 0x110000 := by
  rcases c.valid with h | ⟨h, h'⟩
  · exact Or.inl h
  · exact Or.inr ⟨h, h'⟩

theorem surrogates (c : Char) (h : 0x10000 ≤ c.toNat) :
    (0xd800 ≤ highSurrogate c ∧ highSurrogate c < 0xdc00)
      ∧ (0xdc00 ≤ lowSurrogate c ∧ lowSurrogate c ≤ 0xdfff)
      ∧ 0x10000 + (highSurrogate c - 0xd800) * 1024 + (lowSurrogate c - 0xdc00) = c.toNat := by
  have hc := not_surrogate c
  simp only [highSurrogate, lowSurrogate]
  omega

/-- The escape of a code unit. -/
def escape (n : Nat) (h : n < 0x10000) : StrItem := .unicode n h fun _ => false

/-- `ensure_ascii`: what is not printable ASCII is escaped. -/
def asciiChar (c : Char) : List StrItem :=
  if c = '"' then [.short .quote]
  else if c = '\\' then [.short .backslash]
  else if c = '\x08' then [.short .backspace]
  else if c = '\x0c' then [.short .formFeed]
  else if c = '\n' then [.short .newline]
  else if c = '\r' then [.short .carriageReturn]
  else if c = '\t' then [.short .tab]
  else if h : 32 ≤ c.toNat ∧ c ≠ '"' ∧ c ≠ '\\' ∧ c.toNat < 127 then
    [.raw c ⟨h.1, h.2.1, h.2.2.1⟩]
  else if h : c.toNat < 0x10000 then [escape c.toNat h]
  else
    have halves := surrogates c (Nat.le_of_not_lt h)
    [escape (highSurrogate c) (by omega), escape (lowSurrogate c) (by omega)]

theorem half_lt {n : Nat} (h : 0xd800 ≤ n ∧ n ≤ 0xdfff) : n < 0x10000 := by omega

def asciiItems : CodePoint → List StrItem
  | .char c => asciiChar c
  | .half n h => [escape n (half_lt h)]

/-- How a string is written. -/
def ofStr (s : Str) : List StrItem := s.points.flatMap asciiItems

def noSpace : Ws := ⟨[], List.forall_mem_nil _⟩

theorem isJsonSpace_space : ∀ c ∈ [' '], isJsonSpace c = true :=
  List.all_eq_true.mp (by decide)

def oneSpace : Ws := ⟨[' '], isJsonSpace_space⟩

mutual

/-- What `json.dumps` writes, with a space after every comma and colon. -/
def ofValue (floats : Floats) : Loaded floats.Float → Syntax
  | .null => .null
  | .bool b => .bool b
  | .int n => .number { negative := n < 0, whole := n.natAbs, frac := none, exp := none }
  | .float x =>
      match floats.repr x with
      | .number n _ => .number n
      | .special s => .special s
  | .str s => .str (ofStr s)
  | .arr items =>
      match ofItems floats noSpace items with
      | none => .emptyArr noSpace
      | some elems => .arr elems
  | .obj members =>
      match ofMembers floats noSpace members with
      | none => .emptyObj noSpace
      | some members => .obj members

def ofItems (floats : Floats) (before : Ws) : List (Loaded floats.Float) → Option Elems
  | [] => none
  | v :: rest =>
      match ofItems floats oneSpace rest with
      | none => some (.last before (ofValue floats v) noSpace)
      | some rest => some (.cons before (ofValue floats v) noSpace rest)

def ofMembers (floats : Floats) (before : Ws) : List (Str × Loaded floats.Float) → Option Members
  | [] => none
  | (key, v) :: rest =>
      match ofMembers floats oneSpace rest with
      | none => some
          (.last before (ofStr key) noSpace oneSpace (ofValue floats v) noSpace)
      | some rest => some
          (.cons before (ofStr key) noSpace oneSpace (ofValue floats v) noSpace rest)

end

/-- `json.dumps(v)`. -/
def dumps (floats : Floats) (v : Loaded floats.Float) : Text := (ofValue floats v).text

mutual

/-- The keys of every object are different, as those of a dictionary are. -/
def Value.Keyed {F S : Type} : Value F S → Prop
  | .arr items => KeyedItems items
  | .obj members => (members.map Prod.fst).Nodup ∧ KeyedMembers members
  | _ => True

def KeyedItems {F S : Type} : List (Value F S) → Prop
  | [] => True
  | v :: rest => v.Keyed ∧ KeyedItems rest

def KeyedMembers {F S : Type} : List (S × Value F S) → Prop
  | [] => True
  | (_, v) :: rest => v.Keyed ∧ KeyedMembers rest

end

/-! ## One line -/

/-- No newline in it. -/
abbrev OneLine (t : Text) : Prop := '\n' ∉ t

theorem OneLine.append {t u : Text} (h : OneLine t) (h' : OneLine u) : OneLine (t ++ u) :=
  fun hmem => (List.mem_append.mp hmem).elim h h'

theorem OneLine.cons {c : Char} {t : Text} (hc : c ≠ '\n') (h : OneLine t) : OneLine (c :: t) :=
  fun hmem => (List.mem_cons.mp hmem).elim (fun heq => hc heq.symm) h

theorem oneLine_digits {t : Text} (h : ∀ c ∈ t, c.isDigit = true) : OneLine t :=
  fun hmem => absurd (h _ hmem) (by decide)

theorem oneLine_number (n : Number) : OneLine n.text := by
  have hsign : OneLine n.sign := by
    rw [Number.sign]
    cases n.negative <;> decide
  have hfrac : OneLine n.fracText := by
    rw [Number.fracText]
    cases n.frac with
    | none => decide
    | some digits => exact .cons (by decide) (oneLine_digits digits.2.2)
  have hexp : OneLine n.expText := by
    rw [Number.expText]
    cases n.exp with
    | none => decide
    | some e =>
        have hletter : e.letter.1 ≠ '\n' := by
          rcases e.letter.2 with h | h
          · rw [h]
            decide
          · rw [h]
            decide
        have hsign' : OneLine e.sign.1 := by
          rcases e.sign.2 with h | h | h
          · rw [h]
            decide
          · rw [h]
            decide
          · rw [h]
            decide
        exact .cons hletter (hsign'.append (oneLine_digits e.digits.2.2))
  exact ((hsign.append (oneLine_digits fun c hc => isDigit_of_mem_decimal hc)).append hfrac).append
    hexp

theorem oneLine_hex4 (n : Nat) : OneLine (hex4 (fun _ => false) n) := by
  have hdigit : ∀ k < 16, hexDigitCase false k ≠ '\n' := by decide
  refine .cons (hdigit _ ?_) (.cons (hdigit _ ?_) (.cons (hdigit _ ?_) (.cons (hdigit _ ?_) ?_)))
  · omega
  · omega
  · omega
  · omega
  · exact List.not_mem_nil

theorem oneLine_short (e : Short) : OneLine (StrItem.short e).text := by
  cases e <;> decide

theorem oneLine_escape (n : Nat) (h : n < 0x10000) : OneLine (escape n h).text :=
  .cons (by decide) (.cons (by decide) (oneLine_hex4 n))

/-- How a code point is written: as itself, or as the two halves of a character. -/
inductive Written : CodePoint → List StrItem → Prop where
  | one (i : StrItem) : Written i.point [i]
  | two (c : Char) (n m : Nat) (hn : n < 0x10000) (hm : m < 0x10000) :
      0xd800 ≤ n ∧ n < 0xdc00 → 0xdc00 ≤ m ∧ m ≤ 0xdfff → pairChar n m = c →
      Written (.char c) [escape n hn, escape m hm]

theorem codeUnit_char {c : Char} : codeUnit c.toNat = .char c := by
  have hc := not_surrogate c
  rw [codeUnit, dif_neg (by omega), Char.ofNat_toNat]

theorem asciiChar_spec (c : Char) :
    Written (.char c) (asciiChar c) ∧ ∀ i ∈ asciiChar c, OneLine i.text := by
  have hshort : ∀ e : Short, Written (.char e.char) [.short e]
      ∧ ∀ i ∈ [StrItem.short e], OneLine i.text := fun e =>
    ⟨.one (.short e), List.forall_mem_singleton.mpr (oneLine_short e)⟩
  rw [asciiChar]
  by_cases h1 : c = '"'
  · rw [if_pos h1, h1]
    exact hshort .quote
  rw [if_neg h1]
  by_cases h2 : c = '\\'
  · rw [if_pos h2, h2]
    exact hshort .backslash
  rw [if_neg h2]
  by_cases h3 : c = '\x08'
  · rw [if_pos h3, h3]
    exact hshort .backspace
  rw [if_neg h3]
  by_cases h4 : c = '\x0c'
  · rw [if_pos h4, h4]
    exact hshort .formFeed
  rw [if_neg h4]
  by_cases h5 : c = '\n'
  · rw [if_pos h5, h5]
    exact hshort .newline
  rw [if_neg h5]
  by_cases h6 : c = '\r'
  · rw [if_pos h6, h6]
    exact hshort .carriageReturn
  rw [if_neg h6]
  by_cases h7 : c = '\t'
  · rw [if_pos h7, h7]
    exact hshort .tab
  rw [if_neg h7]
  by_cases h8 : 32 ≤ c.toNat ∧ c ≠ '"' ∧ c ≠ '\\' ∧ c.toNat < 127
  · rw [dif_pos h8]
    exact ⟨.one (.raw c _), List.forall_mem_singleton.mpr (.cons h5 List.not_mem_nil)⟩
  rw [dif_neg h8]
  by_cases h9 : c.toNat < 0x10000
  · rw [dif_pos h9]
    refine ⟨?_, List.forall_mem_singleton.mpr (oneLine_escape _ h9)⟩
    have hone := Written.one (escape c.toNat h9)
    rwa [escape, StrItem.point, codeUnit_char] at hone
  · rw [dif_neg h9]
    obtain ⟨hhigh, hlow, hsum⟩ := surrogates c (Nat.le_of_not_lt h9)
    refine ⟨.two c _ _ _ _ hhigh hlow ?_, ?_⟩
    · rw [pairChar, hsum, Char.ofNat_toNat]
    · exact List.forall_mem_cons.mpr ⟨oneLine_escape _ _,
        List.forall_mem_singleton.mpr (oneLine_escape _ _)⟩

theorem asciiItems_spec (p : CodePoint) :
    Written p (asciiItems p) ∧ ∀ i ∈ asciiItems p, OneLine i.text := by
  cases p with
  | char c => exact asciiChar_spec c
  | half n h =>
      refine ⟨?_, List.forall_mem_singleton.mpr (oneLine_escape _ _)⟩
      have hone := Written.one (escape n (by omega))
      rwa [escape, StrItem.point, codeUnit, dif_pos h] at hone

/-- What a code point is written as is read as that code point, where no pair arises. -/
theorem strValue_written {p : CodePoint} {items : List StrItem} (h : Written p items)
    {rest : List StrItem} (happart : Apart (p :: (strValue rest).points)) :
    (strValue (items ++ rest)).points = p :: (strValue rest).points := by
  cases h with
  | one i => exact join_of_apart happart
  | two c n m hn hm hhigh hlow hc =>
      have hn' : codeUnit n = .half n ⟨hhigh.1, by omega⟩ := dif_pos _
      have hm' : codeUnit m = .half m ⟨by omega, hlow.2⟩ := dif_pos _
      have hlast : join (codeUnit m) (strValue rest).points
          = codeUnit m :: (strValue rest).points := by
        rw [hm']
        refine join_of_apart ?_
        cases hpoints : (strValue rest).points with
        | nil => exact .singleton _
        | cons q points =>
            refine .cons_cons (fun hpair => ?_) (hpoints ▸ (strValue rest).apart)
            exact absurd hpair.1 (Nat.not_lt_of_le hlow.1)
      show join (codeUnit n) (join (codeUnit m) (strValue rest).points) = _
      rw [hlast, hn', hm', join, if_pos ⟨hhigh.2, hlow.1⟩, hc]

/-- **A string is read back.**  Induction on its code points. -/
theorem strValue_ofStr (s : Str) : strValue (ofStr s) = s := by
  obtain ⟨points, happart⟩ := s
  have hpoints : (strValue (points.flatMap asciiItems)).points = points := by
    induction points with
    | nil => rfl
    | cons p points ih =>
        have hrest := ih happart.tail
        rw [List.flatMap_cons, strValue_written (asciiItems_spec p).1 (hrest.symm ▸ happart),
          hrest]
  show strValue (points.flatMap asciiItems) = _
  cases hvalue : strValue (points.flatMap asciiItems) with
  | mk points' happart' =>
      rw [hvalue] at hpoints
      obtain rfl : points' = points := hpoints
      rfl

mutual

/-- What is written denotes the value.  Induction on it. -/
theorem value_ofValue (floats : Floats) : ∀ v : Loaded floats.Float, v.Keyed →
    (ofValue floats v).value floats = v
  | .null, _ => rfl
  | .bool b, _ => rfl
  | .int n, _ => by
      have hint : Number.IsInt { negative := n < 0, whole := n.natAbs, frac := none, exp := none } :=
        ⟨rfl, rfl⟩
      have hn : (if n < 0 then -(n.natAbs : Int) else n.natAbs) = n := by omega
      simp only [ofValue, Syntax.value, Number.value, if_pos hint, decide_eq_true_eq, hn]
  | .float x, _ => by
      have hread := floats.ofText_repr x
      cases hx : floats.repr x with
      | number n hn =>
          rw [hx] at hread
          simp only [ofValue, hx, Syntax.value, Number.value, if_neg hn]
          exact congrArg Value.float hread
      | special s =>
          rw [hx] at hread
          simp only [ofValue, hx, Syntax.value]
          exact congrArg Value.float hread
  | .str s, _ => by simp only [ofValue, Syntax.value, strValue_ofStr]
  | .arr items, h => by
      rcases values_ofItems floats items noSpace h with ⟨hnone, rfl⟩ | ⟨elems, hsome, hvalues⟩
      · rfl
      · simp only [ofValue, hsome, Syntax.value, hvalues]
  | .obj members, h => by
      rcases pairs_ofMembers floats members noSpace h.2 with ⟨hnone, rfl⟩ | ⟨m, hsome, hpairs⟩
      · rfl
      · simp only [ofValue, hsome, Syntax.value, hpairs, dict_of_nodup h.1]

theorem values_ofItems (floats : Floats) : ∀ (items : List (Loaded floats.Float)) (before : Ws),
    KeyedItems items → (ofItems floats before items = none ∧ items = [])
      ∨ ∃ elems, ofItems floats before items = some elems ∧ elems.values floats = items
  | [], _, _ => Or.inl ⟨rfl, rfl⟩
  | v :: rest, before, h => by
      refine Or.inr ?_
      have hv := value_ofValue floats v h.1
      rcases values_ofItems floats rest oneSpace h.2 with ⟨hnone, rfl⟩ | ⟨elems, hsome, hvalues⟩
      · exact ⟨.last before (ofValue floats v) noSpace, by simp only [ofItems],
          by simp only [Elems.values, hv]⟩
      · exact ⟨.cons before (ofValue floats v) noSpace elems, by simp only [ofItems, hsome],
          by simp only [Elems.values, hv, hvalues]⟩

theorem pairs_ofMembers (floats : Floats) :
    ∀ (members : List (Str × Loaded floats.Float)) (before : Ws), KeyedMembers members →
    (ofMembers floats before members = none ∧ members = [])
      ∨ ∃ m, ofMembers floats before members = some m ∧ m.pairs floats = members
  | [], _, _ => Or.inl ⟨rfl, rfl⟩
  | (key, v) :: rest, before, h => by
      refine Or.inr ?_
      have hv := value_ofValue floats v h.1
      rcases pairs_ofMembers floats rest oneSpace h.2 with ⟨hnone, rfl⟩ | ⟨m, hsome, hpairs⟩
      · exact ⟨.last before (ofStr key) noSpace oneSpace (ofValue floats v) noSpace,
          by simp only [ofMembers], by simp only [Members.pairs, hv, strValue_ofStr]⟩
      · exact ⟨.cons before (ofStr key) noSpace oneSpace (ofValue floats v) noSpace m,
          by simp only [ofMembers, hsome],
          by simp only [Members.pairs, hv, hpairs, strValue_ofStr]⟩

end

/-! ## Limits -/

mutual

/-- The first limit that a value meets within `level` brackets, when it is read or written. -/
def Value.limit (floats : Floats) (deepest : Option Nat) (level : Nat) :
    Loaded floats.Float → Option Limit
  | .int n => digitLimit floats (decimal n.natAbs).length
  | .arr items => (depthLimit deepest level).or (itemsLimit floats deepest (level + 1) items)
  | .obj members => (depthLimit deepest level).or (membersLimit floats deepest (level + 1) members)
  | _ => none

def itemsLimit (floats : Floats) (deepest : Option Nat) (level : Nat) :
    List (Loaded floats.Float) → Option Limit
  | [] => none
  | v :: rest => (v.limit floats deepest level).or (itemsLimit floats deepest level rest)

def membersLimit (floats : Floats) (deepest : Option Nat) (level : Nat) :
    List (Str × Loaded floats.Float) → Option Limit
  | [] => none
  | (_, v) :: rest => (v.limit floats deepest level).or (membersLimit floats deepest level rest)

end

mutual

/-- What is written meets the limits of the value.  Induction on it. -/
theorem limit_ofValue (floats : Floats) : ∀ (v : Loaded floats.Float) (level : Nat),
    (ofValue floats v).limit floats level = v.limit floats floats.readDepth level
  | .null, _ => rfl
  | .bool b, _ => rfl
  | .int n, level => by
      have hint : Number.IsInt { negative := n < 0, whole := n.natAbs, frac := none, exp := none } :=
        ⟨rfl, rfl⟩
      simp only [ofValue, Syntax.limit, Number.limit, if_pos hint, Value.limit]
  | .float x, level => by
      cases hx : floats.repr x with
      | number n hn => simp only [ofValue, hx, Syntax.limit, Number.limit, if_neg hn, Value.limit]
      | special s => simp only [ofValue, hx, Syntax.limit, Value.limit]
  | .str s, _ => rfl
  | .arr items, level => by
      have hitems := limit_ofItems floats items noSpace (level + 1)
      cases h : ofItems floats noSpace items with
      | none =>
          rw [h] at hitems
          simp only [ofValue, h, Syntax.limit, Value.limit, ← hitems, Option.elim, Option.or_none]
      | some elems =>
          rw [h] at hitems
          simp only [ofValue, h, Syntax.limit, Value.limit, ← hitems, Option.elim]
  | .obj members, level => by
      have hmembers := limit_ofMembers floats members noSpace (level + 1)
      cases h : ofMembers floats noSpace members with
      | none =>
          rw [h] at hmembers
          simp only [ofValue, h, Syntax.limit, Value.limit, ← hmembers, Option.elim, Option.or_none]
      | some m =>
          rw [h] at hmembers
          simp only [ofValue, h, Syntax.limit, Value.limit, ← hmembers, Option.elim]

theorem limit_ofItems (floats : Floats) :
    ∀ (items : List (Loaded floats.Float)) (before : Ws) (level : Nat),
    (ofItems floats before items).elim none (Elems.limit floats level)
      = itemsLimit floats floats.readDepth level items
  | [], _, _ => rfl
  | v :: rest, before, level => by
      have hv := limit_ofValue floats v level
      have hrest := limit_ofItems floats rest oneSpace level
      cases h : ofItems floats oneSpace rest with
      | none =>
          rw [h] at hrest
          simp only [ofItems, h, Option.elim, Elems.limit, itemsLimit, hv, ← hrest, Option.or_none]
      | some more =>
          rw [h] at hrest
          simp only [ofItems, h, Option.elim, Elems.limit, itemsLimit, hv, ← hrest]

theorem limit_ofMembers (floats : Floats) :
    ∀ (members : List (Str × Loaded floats.Float)) (before : Ws) (level : Nat),
    (ofMembers floats before members).elim none (Members.limit floats level)
      = membersLimit floats floats.readDepth level members
  | [], _, _ => rfl
  | (key, v) :: rest, before, level => by
      have hv := limit_ofValue floats v level
      have hrest := limit_ofMembers floats rest oneSpace level
      cases h : ofMembers floats oneSpace rest with
      | none =>
          rw [h] at hrest
          simp only [ofMembers, h, Option.elim, Members.limit, membersLimit, hv, ← hrest,
            Option.or_none]
      | some more =>
          rw [h] at hrest
          simp only [ofMembers, h, Option.elim, Members.limit, membersLimit, hv, ← hrest]

end

/-- **What `dumps` writes, `loads` reads**, unless the value meets a limit. -/
theorem loads_dumps (floats : Floats) {v : Loaded floats.Float} (h : v.Keyed) :
    loads floats (dumps floats v) = unlessLimit (v.limit floats floats.readDepth 0) v := by
  have hread := loads_document floats { before := noSpace, body := ofValue floats v, after := noSpace }
  rw [Document.text, value_ofValue floats v h, limit_ofValue] at hread
  simpa [noSpace, dumps] using hread

theorem oneLine_strText (s : Str) : OneLine (strText (ofStr s)) := by
  refine OneLine.append (fun hmem => ?_) (by decide)
  obtain ⟨i, hi, hchar⟩ := List.mem_flatMap.mp hmem
  obtain ⟨p, _, hp⟩ := List.mem_flatMap.mp hi
  exact (asciiItems_spec p).2 i hp hchar

mutual

/-- `dumps` writes one line.  Induction on the value. -/
theorem oneLine_ofValue (floats : Floats) : ∀ v : Loaded floats.Float,
    OneLine (ofValue floats v).text
  | .null => (by decide : OneLine nullText)
  | .bool b => (by cases b <;> decide : OneLine (boolText b))
  | .int n => oneLine_number _
  | .float x => by
      cases hx : floats.repr x with
      | number n hn =>
          simp only [ofValue, hx]
          exact oneLine_number n
      | special s =>
          simp only [ofValue, hx]
          cases s <;> decide
  | .str s => .cons (by decide) (oneLine_strText s)
  | .arr items => by
      cases hitems : ofItems floats noSpace items with
      | none =>
          simp only [ofValue, hitems]
          decide
      | some elems =>
          simp only [ofValue, hitems]
          exact .cons (by decide) (oneLine_ofItems floats items noSpace elems (by decide) hitems)
  | .obj members => by
      cases hmembers : ofMembers floats noSpace members with
      | none =>
          simp only [ofValue, hmembers]
          decide
      | some m =>
          simp only [ofValue, hmembers]
          exact .cons (by decide) (oneLine_ofMembers floats members noSpace m (by decide) hmembers)

theorem oneLine_ofItems (floats : Floats) : ∀ (items : List (Loaded floats.Float)) (before : Ws)
    (elems : Elems), OneLine before.1 → ofItems floats before items = some elems →
    OneLine elems.text
  | [], _, _, _, h => by simp only [ofItems, reduceCtorEq] at h
  | v :: rest, before, elems, hbefore, h => by
      have hv := oneLine_ofValue floats v
      cases hrest : ofItems floats oneSpace rest with
      | none =>
          simp only [ofItems, hrest, Option.some.injEq] at h
          rw [← h]
          exact hbefore.append (hv.append (by decide))
      | some more =>
          simp only [ofItems, hrest, Option.some.injEq] at h
          have hmore := oneLine_ofItems floats rest oneSpace more (by decide) hrest
          rw [← h]
          exact hbefore.append (hv.append (.cons (by decide) hmore))

theorem oneLine_ofMembers (floats : Floats) :
    ∀ (members : List (Str × Loaded floats.Float)) (before : Ws) (m : Members),
    OneLine before.1 → ofMembers floats before members = some m → OneLine m.text
  | [], _, _, _, h => by simp only [ofMembers, reduceCtorEq] at h
  | (key, v) :: rest, before, m, hbefore, h => by
      have hv := oneLine_ofValue floats v
      have hkey := oneLine_strText key
      cases hrest : ofMembers floats oneSpace rest with
      | none =>
          simp only [ofMembers, hrest, Option.some.injEq] at h
          rw [← h]
          exact hbefore.append (.cons (by decide) (hkey.append (.cons (by decide)
            (.cons (by decide) (hv.append (by decide))))))
      | some more =>
          simp only [ofMembers, hrest, Option.some.injEq] at h
          have hmore := oneLine_ofMembers floats rest oneSpace more (by decide) hrest
          rw [← h]
          exact hbefore.append (.cons (by decide) (hkey.append (.cons (by decide)
            (.cons (by decide) (hv.append (.cons (by decide) hmore))))))

end

/-! ## Indented -/

/-- A new line, and two spaces for each level. -/
def newLine (level : Nat) : Ws :=
  ⟨'\n' :: List.replicate (2 * level) ' ', fun c hc => by
    rcases List.mem_cons.mp hc with rfl | hc
    · decide
    · rw [List.eq_of_mem_replicate hc]
      decide⟩

mutual

/-- What `json.dumps` writes with `indent=2`, at a level. -/
def indentValue (floats : Floats) (level : Nat) : Loaded floats.Float → Syntax
  | .arr items =>
      match indentItems floats (level + 1) items with
      | none => .emptyArr noSpace
      | some elems => .arr elems
  | .obj members =>
      match indentMembers floats (level + 1) members with
      | none => .emptyObj noSpace
      | some members => .obj members
  | v => ofValue floats v

/-- The elements, at the level inside the brackets. -/
def indentItems (floats : Floats) (level : Nat) : List (Loaded floats.Float) → Option Elems
  | [] => none
  | v :: rest =>
      match indentItems floats level rest with
      | none => some (.last (newLine level) (indentValue floats level v) (newLine (level - 1)))
      | some rest => some (.cons (newLine level) (indentValue floats level v) noSpace rest)

def indentMembers (floats : Floats) (level : Nat) :
    List (Str × Loaded floats.Float) → Option Members
  | [] => none
  | (key, v) :: rest =>
      match indentMembers floats level rest with
      | none => some (.last (newLine level) (ofStr key) noSpace oneSpace
          (indentValue floats level v) (newLine (level - 1)))
      | some rest => some (.cons (newLine level) (ofStr key) noSpace oneSpace
          (indentValue floats level v) noSpace rest)

end

/-- `json.dumps(v, indent=2)`. -/
def dumpsIndent (floats : Floats) (v : Loaded floats.Float) : Text := (indentValue floats 0 v).text

mutual

/-- Indentation changes nothing of what is denoted. -/
theorem value_indentValue (floats : Floats) (level : Nat) : ∀ v : Loaded floats.Float, v.Keyed →
    (indentValue floats level v).value floats = v
  | .null, h => value_ofValue floats .null h
  | .bool b, h => value_ofValue floats (.bool b) h
  | .int n, h => value_ofValue floats (.int n) h
  | .float x, h => value_ofValue floats (.float x) h
  | .str s, h => value_ofValue floats (.str s) h
  | .arr items, h => by
      rcases values_indentItems floats (level + 1) items h with
        ⟨hnone, rfl⟩ | ⟨elems, hsome, hvalues⟩
      · rfl
      · simp only [indentValue, hsome, Syntax.value, hvalues]
  | .obj members, h => by
      rcases pairs_indentMembers floats (level + 1) members h.2 with
        ⟨hnone, rfl⟩ | ⟨m, hsome, hpairs⟩
      · rfl
      · simp only [indentValue, hsome, Syntax.value, hpairs, dict_of_nodup h.1]

theorem values_indentItems (floats : Floats) (level : Nat) :
    ∀ items : List (Loaded floats.Float), KeyedItems items →
    (indentItems floats level items = none ∧ items = [])
      ∨ ∃ elems, indentItems floats level items = some elems ∧ elems.values floats = items
  | [], _ => Or.inl ⟨rfl, rfl⟩
  | v :: rest, h => by
      refine Or.inr ?_
      have hv := value_indentValue floats level v h.1
      rcases values_indentItems floats level rest h.2 with ⟨hnone, rfl⟩ | ⟨elems, hsome, hvalues⟩
      · refine ⟨.last (newLine level) (indentValue floats level v) (newLine (level - 1)), ?_, ?_⟩
        · simp only [indentItems]
        · simp only [Elems.values, hv]
      · refine ⟨.cons (newLine level) (indentValue floats level v) noSpace elems, ?_, ?_⟩
        · simp only [indentItems, hsome]
        · simp only [Elems.values, hv, hvalues]

theorem pairs_indentMembers (floats : Floats) (level : Nat) :
    ∀ members : List (Str × Loaded floats.Float), KeyedMembers members →
    (indentMembers floats level members = none ∧ members = [])
      ∨ ∃ m, indentMembers floats level members = some m ∧ m.pairs floats = members
  | [], _ => Or.inl ⟨rfl, rfl⟩
  | (key, v) :: rest, h => by
      refine Or.inr ?_
      have hv := value_indentValue floats level v h.1
      rcases pairs_indentMembers floats level rest h.2 with ⟨hnone, rfl⟩ | ⟨m, hsome, hpairs⟩
      · refine ⟨.last (newLine level) (ofStr key) noSpace oneSpace
          (indentValue floats level v) (newLine (level - 1)), ?_, ?_⟩
        · simp only [indentMembers]
        · simp only [Members.pairs, hv, strValue_ofStr]
      · refine ⟨.cons (newLine level) (ofStr key) noSpace oneSpace
          (indentValue floats level v) noSpace m, ?_, ?_⟩
        · simp only [indentMembers, hsome]
        · simp only [Members.pairs, hv, hpairs, strValue_ofStr]

end

mutual

/-- Nor of the limits that are met. -/
theorem limit_indentValue (floats : Floats) (level : Nat) :
    ∀ (v : Loaded floats.Float) (brackets : Nat),
    (indentValue floats level v).limit floats brackets = v.limit floats floats.readDepth brackets
  | .null, brackets => limit_ofValue floats .null brackets
  | .bool b, brackets => limit_ofValue floats (.bool b) brackets
  | .int n, brackets => limit_ofValue floats (.int n) brackets
  | .float x, brackets => limit_ofValue floats (.float x) brackets
  | .str s, brackets => limit_ofValue floats (.str s) brackets
  | .arr items, brackets => by
      have hitems := limit_indentItems floats (level + 1) items (brackets + 1)
      cases h : indentItems floats (level + 1) items with
      | none =>
          rw [h] at hitems
          simp only [indentValue, h, Syntax.limit, Value.limit, ← hitems, Option.elim,
            Option.or_none]
      | some elems =>
          rw [h] at hitems
          simp only [indentValue, h, Syntax.limit, Value.limit, ← hitems, Option.elim]
  | .obj members, brackets => by
      have hmembers := limit_indentMembers floats (level + 1) members (brackets + 1)
      cases h : indentMembers floats (level + 1) members with
      | none =>
          rw [h] at hmembers
          simp only [indentValue, h, Syntax.limit, Value.limit, ← hmembers, Option.elim,
            Option.or_none]
      | some m =>
          rw [h] at hmembers
          simp only [indentValue, h, Syntax.limit, Value.limit, ← hmembers, Option.elim]

theorem limit_indentItems (floats : Floats) (level : Nat) :
    ∀ (items : List (Loaded floats.Float)) (brackets : Nat),
    (indentItems floats level items).elim none (Elems.limit floats brackets)
      = itemsLimit floats floats.readDepth brackets items
  | [], _ => rfl
  | v :: rest, brackets => by
      have hv := limit_indentValue floats level v brackets
      have hrest := limit_indentItems floats level rest brackets
      cases h : indentItems floats level rest with
      | none =>
          rw [h] at hrest
          simp only [indentItems, h, Option.elim, Elems.limit, itemsLimit, hv, ← hrest,
            Option.or_none]
      | some more =>
          rw [h] at hrest
          simp only [indentItems, h, Option.elim, Elems.limit, itemsLimit, hv, ← hrest]

theorem limit_indentMembers (floats : Floats) (level : Nat) :
    ∀ (members : List (Str × Loaded floats.Float)) (brackets : Nat),
    (indentMembers floats level members).elim none (Members.limit floats brackets)
      = membersLimit floats floats.readDepth brackets members
  | [], _ => rfl
  | (key, v) :: rest, brackets => by
      have hv := limit_indentValue floats level v brackets
      have hrest := limit_indentMembers floats level rest brackets
      cases h : indentMembers floats level rest with
      | none =>
          rw [h] at hrest
          simp only [indentMembers, h, Option.elim, Members.limit, membersLimit, hv, ← hrest,
            Option.or_none]
      | some more =>
          rw [h] at hrest
          simp only [indentMembers, h, Option.elim, Members.limit, membersLimit, hv, ← hrest]

end

/-- **What is written with an indent, `loads` reads**, unless the value meets a limit. -/
theorem loads_dumpsIndent (floats : Floats) {v : Loaded floats.Float} (h : v.Keyed) :
    loads floats (dumpsIndent floats v) = unlessLimit (v.limit floats floats.readDepth 0) v := by
  have hread := loads_document floats
    { before := noSpace, body := indentValue floats 0 v, after := noSpace }
  rw [Document.text, value_indentValue floats 0 v h, limit_indentValue] at hread
  simpa [noSpace, dumpsIndent] using hread

example : dumpsIndent nanFloats (.arr [.obj [(['a'], .int 1), (['b'], .arr [])], .null])
    = "[\n  \x7b\n    \"a\": 1,\n    \"b\": []\n  \x7d,\n  null\n]".toList := by rfl

end Json
