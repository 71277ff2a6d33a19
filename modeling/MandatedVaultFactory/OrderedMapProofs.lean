import Mathlib.Data.List.Nodup

/-!
# Maps that keep the order of their keys

A map in the order in which its keys came, and what a list of records has to do with one: the
records have keys, some twice, some none, and the first with a key is the one that counts.

* **`OrderedMap`** — no key twice; `OrderedMap.set`, `OrderedMap.get`.
* **`upsert`**, **`find`** — the two loops over a list of records.
* **`abs_upsert`**, **`get_abs`** — they are `set` and `get` on the map of the list.
* **`get_sets`** — after any number of `set`s: what was set last, or what was there. -/

namespace OrderedMaps

variable {κ α : Type} [DecidableEq κ]

/-- A map whose keys have an order. -/
@[ext] structure OrderedMap (κ α : Type) where
  entries : List (κ × α)
  nodup : (entries.map Prod.fst).Nodup

namespace OrderedMap

def keys (m : OrderedMap κ α) : List κ := m.entries.map Prod.fst

def get (k : κ) (m : OrderedMap κ α) : Option α :=
  (m.entries.find? fun e => e.1 = k).map Prod.snd

/-- The entries with `k` set: a key that is there stays where it is, a new one comes last. -/
def setEntries (k : κ) (a : α) (entries : List (κ × α)) : List (κ × α) :=
  if k ∈ entries.map Prod.fst then entries.map fun e => if e.1 = k then (k, a) else e
  else entries ++ [(k, a)]

theorem keys_setEntries (k : κ) (a : α) (entries : List (κ × α)) :
    (setEntries k a entries).map Prod.fst
      = if k ∈ entries.map Prod.fst then entries.map Prod.fst
        else entries.map Prod.fst ++ [k] := by
  rw [setEntries]
  by_cases hk : k ∈ entries.map Prod.fst
  · rw [if_pos hk, if_pos hk, List.map_map]
    refine List.map_congr_left fun e _ => ?_
    show (if e.1 = k then (k, a) else e).1 = e.1
    by_cases he : e.1 = k
    · rw [if_pos he, he]
    · rw [if_neg he]
  · rw [if_neg hk, if_neg hk, List.map_append]
    rfl

def set (k : κ) (a : α) (m : OrderedMap κ α) : OrderedMap κ α where
  entries := setEntries k a m.entries
  nodup := by
    rw [keys_setEntries]
    by_cases hk : k ∈ m.entries.map Prod.fst
    · rw [if_pos hk]
      exact m.nodup
    · rw [if_neg hk]
      exact List.nodup_append'.mpr ⟨m.nodup, List.nodup_singleton k,
        fun x hx hxk => hk (List.mem_singleton.mp hxk ▸ hx)⟩

end OrderedMap

open OrderedMap

/-! ## Lists of records -/

section Records

variable (key : α → Option κ)

/-- The first record with the key is replaced, and without one the record goes to the end. -/
def upsert (k : κ) (a : α) : List α → List α
  | [] => [a]
  | x :: rest => if key x = some k then a :: rest else x :: upsert k a rest

/-- The first record with the key. -/
def find (k : κ) (records : List α) : Option α := records.find? fun x => key x = some k

/-- The records that have another key, or none. -/
def others (k : κ) (records : List α) : List α := records.filter fun x => key x ≠ some k

/-- What an upsert makes of a list, place by place. -/
def Upserts (k : κ) (a : α) (records records' : List α) : Prop :=
  ((∀ x ∈ records, key x ≠ some k) ∧ records' = records ++ [a]) ∨
  ∃ before old after, records = before ++ old :: after ∧ key old = some k
    ∧ (∀ x ∈ before, key x ≠ some k) ∧ records' = before ++ a :: after

variable {key} {k : κ} {a : α}

theorem upserts_upsert (k : κ) (a : α) (records : List α) :
    Upserts key k a records (upsert key k a records) := by
  induction records with
  | nil => exact Or.inl ⟨List.forall_mem_nil _, rfl⟩
  | cons x rest ih =>
      rw [upsert]
      by_cases hx : key x = some k
      · rw [if_pos hx]
        exact Or.inr ⟨[], x, rest, rfl, hx, List.forall_mem_nil _, rfl⟩
      · rw [if_neg hx]
        rcases ih with ⟨hnew, heq⟩ | ⟨before, old, after, hsplit, hold, hbefore, heq⟩
        · exact Or.inl ⟨List.forall_mem_cons.mpr ⟨hx, hnew⟩, by rw [heq]; rfl⟩
        · exact Or.inr ⟨x :: before, old, after, by rw [hsplit]; rfl, hold,
            List.forall_mem_cons.mpr ⟨hx, hbefore⟩, by rw [heq]; rfl⟩

/-- There are the new record, and all but the first one with its key. -/
theorem mem_upsert {records : List α} {x : α} :
    x ∈ upsert key k a records ↔ x = a ∨ x ∈ records.eraseP fun y => key y = some k := by
  induction records with
  | nil => exact List.mem_singleton.trans (or_iff_left List.not_mem_nil).symm
  | cons y rest ih =>
      rw [upsert]
      by_cases hy : key y = some k
      · rw [if_pos hy, List.eraseP_cons_of_pos (by simpa using hy), List.mem_cons]
      · rw [if_neg hy, List.eraseP_cons_of_neg (by simpa using hy), List.mem_cons, List.mem_cons, ih]
        exact or_left_comm

theorem mem_of_mem_upsert {records : List α} {x : α} (h : x ∈ upsert key k a records) :
    x = a ∨ x ∈ records := (mem_upsert.mp h).imp_right List.mem_of_mem_eraseP

omit [DecidableEq κ] in
/-- **The frame of an upsert**: what a test refuses in the new record, and in every record with
    its key, is there afterwards as it was before, and in the same order. -/
theorem filter_of_upserts {p : α → Bool} {records records' : List α}
    (h : Upserts key k a records records') (ha : p a = false)
    (hp : ∀ x, key x = some k → p x = false) : records'.filter p = records.filter p := by
  rcases h with ⟨_, rfl⟩ | ⟨before, old, after, rfl, hold, _, rfl⟩
  · rw [List.filter_append, List.filter_cons_of_neg (by simp [ha]), List.filter_nil,
      List.append_nil]
  · rw [List.filter_append, List.filter_append, List.filter_cons_of_neg (by simp [ha]),
      List.filter_cons_of_neg (by simp [hp old hold])]

theorem others_upsert (ha : key a = some k) (records : List α) :
    others key k (upsert key k a records) = others key k records :=
  filter_of_upserts (upserts_upsert k a records) (by simp [ha]) fun x hx => by simp [hx]

/-! ## The map of a list -/

theorem mem_keys_filter {k' : κ} (hk : k' ≠ k) {entries : List (κ × α)} :
    k ∈ (entries.filter fun e => e.1 ≠ k').map Prod.fst ↔ k ∈ entries.map Prod.fst := by
  simp only [List.mem_map, List.mem_filter]
  constructor
  · rintro ⟨e, he, rfl⟩
    exact ⟨e, he.1, rfl⟩
  · rintro ⟨e, he, rfl⟩
    exact ⟨e, ⟨he, by simpa using hk.symm⟩, rfl⟩

variable (key) in
/-- The first record of every key. -/
def firsts : List α → List (κ × α)
  | [] => []
  | x :: rest =>
      match key x with
      | none => firsts rest
      | some k => (k, x) :: (firsts rest).filter fun e => e.1 ≠ k

theorem nodup_firsts (records : List α) : ((firsts key records).map Prod.fst).Nodup := by
  induction records with
  | nil => exact List.nodup_nil
  | cons x rest ih =>
      unfold firsts
      split
      · exact ih
      · rw [List.map_cons, List.nodup_cons]
        refine ⟨fun hmem => ?_, ih.sublist (List.filter_sublist.map Prod.fst)⟩
        obtain ⟨e, he, heq⟩ := List.mem_map.mp hmem
        exact of_decide_eq_true (List.mem_filter.mp he).2 heq

variable (key) in
/-- The map that a list of records stands for. -/
def abs (records : List α) : OrderedMap κ α := ⟨firsts key records, nodup_firsts records⟩

/-- **`find` is `get` on the map.** -/
theorem get_abs (k : κ) (records : List α) : (abs key records).get k = find key k records := by
  show ((firsts key records).find? fun e => e.1 = k).map Prod.snd = find key k records
  induction records with
  | nil => rfl
  | cons x rest ih =>
      unfold firsts
      split
      · rename_i hx
        rw [ih, find, find, List.find?_cons_of_neg (by simp [hx])]
      · rename_i k' hx
        by_cases hk : k' = k
        · rw [find, List.find?_cons_of_pos (by simp [hk]), List.find?_cons_of_pos (by simp [hx, hk])]
          rfl
        · rw [find, List.find?_cons_of_neg (by simp [hk]), List.find?_cons_of_neg (by simp [hx, hk]),
            List.find?_filter, ← find, ← ih]
          congr 2
          funext e
          by_cases he : e.1 = k
          · simp [he, Ne.symm hk]
          · simp [he]

theorem setEntries_cons_self (k : κ) (a x : α) {entries : List (κ × α)}
    (h : k ∉ entries.map Prod.fst) : setEntries k a ((k, x) :: entries) = (k, a) :: entries := by
  have hne : ∀ e ∈ entries, e.1 ≠ k := by
    rintro e he rfl
    exact h (List.mem_map_of_mem he)
  rw [setEntries, if_pos (by simp), List.map_cons, if_pos rfl]
  refine congrArg _ ?_
  calc entries.map (fun e => if e.1 = k then (k, a) else e) = entries.map id :=
        List.map_congr_left fun e he => if_neg (hne e he)
    _ = entries := List.map_id _

theorem setEntries_cons_of_ne {k' : κ} (hk : k' ≠ k) (a x : α) (entries : List (κ × α)) :
    setEntries k a ((k', x) :: entries) = (k', x) :: setEntries k a entries := by
  have hmem : k ∈ ((k', x) :: entries).map Prod.fst ↔ k ∈ entries.map Prod.fst := by
    rw [List.map_cons, List.mem_cons]
    exact or_iff_right hk.symm
  unfold setEntries
  by_cases h : k ∈ entries.map Prod.fst
  · rw [if_pos (hmem.mpr h), if_pos h, List.map_cons, if_neg hk]
  · rw [if_neg (hmem.not.mpr h), if_neg h]
    rfl

theorem filter_setEntries {k' : κ} (hk : k' ≠ k) (a : α) (entries : List (κ × α)) :
    (setEntries k a entries).filter (fun e => e.1 ≠ k')
      = setEntries k a (entries.filter fun e => e.1 ≠ k') := by
  unfold setEntries
  by_cases h : k ∈ entries.map Prod.fst
  · rw [if_pos h, if_pos ((mem_keys_filter hk).mpr h), List.filter_map]
    refine congrArg _ (List.filter_congr fun e _ => ?_)
    show decide ((if e.1 = k then (k, a) else e).1 ≠ k') = decide (e.1 ≠ k')
    by_cases he : e.1 = k
    · rw [if_pos he, he]
    · rw [if_neg he]
  · rw [if_neg h, if_neg ((mem_keys_filter hk).not.mpr h), List.filter_append,
      List.filter_cons_of_pos (by simpa using hk.symm), List.filter_nil]

/-- **`upsert` is `set` on the map.**  Induction on the records. -/
theorem abs_upsert (ha : key a = some k) (records : List α) :
    abs key (upsert key k a records) = (abs key records).set k a := by
  refine OrderedMap.ext ?_
  show firsts key (upsert key k a records) = setEntries k a (firsts key records)
  induction records with
  | nil =>
      show firsts key [a] = [(k, a)]
      simp [firsts, ha]
  | cons x rest ih =>
      rw [upsert]
      by_cases hx : key x = some k
      · have hkey : k ∉ ((firsts key rest).filter fun e => e.1 ≠ k).map Prod.fst := by
          intro hmem
          obtain ⟨e, he, heq⟩ := List.mem_map.mp hmem
          exact of_decide_eq_true (List.mem_filter.mp he).2 heq
        rw [if_pos hx]
        simp only [firsts, ha, hx]
        exact (setEntries_cons_self k a x hkey).symm
      · rw [if_neg hx]
        cases hkey : key x with
        | none =>
            simp only [firsts, hkey]
            exact ih
        | some k' =>
            have hne : k' ≠ k := fun heq => hx (heq ▸ hkey)
            simp only [firsts, hkey]
            rw [ih, filter_setEntries hne, setEntries_cons_of_ne hne]

/-- The records may be written in another way. -/
theorem upsert_map {β : Type} {key' : β → Option κ} {f : α → β} (hf : ∀ x, key' (f x) = key x)
    (k : κ) (a : α) (records : List α) :
    upsert key' k (f a) (records.map f) = (upsert key k a records).map f := by
  induction records with
  | nil => rfl
  | cons x rest ih =>
      rw [List.map_cons, upsert, upsert, hf]
      by_cases hx : key x = some k
      · rw [if_pos hx, if_pos hx]
        rfl
      · rw [if_neg hx, if_neg hx, ih]
        rfl

end Records

/-! ## Many sets -/

namespace OrderedMap

theorem get_set (k k' : κ) (a : α) (m : OrderedMap κ α) :
    (m.set k a).get k' = if k = k' then some a else m.get k' := by
  show ((setEntries k a m.entries).find? fun e => e.1 = k').map Prod.snd = _
  rw [setEntries]
  by_cases hmem : k ∈ m.entries.map Prod.fst
  · have hkey : (fun e => decide (e.1 = k')) ∘ (fun e : κ × α => if e.1 = k then (k, a) else e)
        = fun e => decide (e.1 = k') := by
      funext e
      show decide ((if e.1 = k then (k, a) else e).1 = k') = decide (e.1 = k')
      by_cases he : e.1 = k
      · rw [if_pos he, he]
      · rw [if_neg he]
    rw [if_pos hmem, List.find?_map, hkey, OrderedMap.get, Option.map_map]
    by_cases hk : k = k'
    · subst hk
      obtain ⟨e, he, heq⟩ := List.mem_map.mp hmem
      have hsome : (m.entries.find? fun e => e.1 = k).isSome :=
        List.find?_isSome.mpr ⟨e, he, by simpa using heq⟩
      obtain ⟨e', he'⟩ := Option.isSome_iff_exists.mp hsome
      have hkey' : e'.1 = k := by simpa using List.find?_some he'
      rw [if_pos rfl, he', Option.map_some, Function.comp_apply, if_pos hkey']
    · rw [if_neg hk]
      refine Option.map_congr fun e he => ?_
      have hkey' : e.1 = k' := by simpa using List.find?_some he
      rw [Function.comp_apply, if_neg fun h => hk (h.symm.trans hkey')]
  · rw [if_neg hmem, List.find?_append]
    by_cases hk : k = k'
    · subst hk
      have hnone : (m.entries.find? fun e => e.1 = k) = none := List.find?_eq_none.mpr fun e he =>
        by simpa using fun heq : e.1 = k => hmem (heq ▸ List.mem_map_of_mem he)
      rw [hnone, if_pos rfl]
      simp
    · rw [if_neg hk, List.find?_cons_of_neg (by simpa using hk), List.find?_nil, Option.or_none]
      rfl

variable {ι : Type} (key : ι → κ) (val : ι → α)

/-- `set` for each of a list. -/
def sets (m : OrderedMap κ α) (l : List ι) : OrderedMap κ α :=
  l.foldl (fun m i => m.set (key i) (val i)) m

/-- What a list sets last under a key. -/
def lastSet (k : κ) (l : List ι) : Option α := (l.reverse.find? fun i => key i = k).map val

/-- **After any number of sets** there is what was set last, and else what was there. -/
theorem get_sets (k : κ) (l : List ι) : ∀ m : OrderedMap κ α,
    (m.sets key val l).get k = (lastSet key val k l).or (m.get k) := by
  induction l with
  | nil =>
      intro m
      rfl
  | cons i l ih =>
      intro m
      show ((m.set (key i) (val i)).sets key val l).get k = _
      rw [ih, get_set, lastSet, lastSet, List.reverse_cons, List.find?_append]
      cases (l.reverse.find? fun i => key i = k) with
      | some j => rfl
      | none =>
          by_cases hk : key i = k
          · rw [if_pos hk, List.find?_cons_of_pos (by simpa using hk)]
            rfl
          · rw [if_neg hk, List.find?_cons_of_neg (by simpa using hk)]
            rfl

end OrderedMap

/-! ## Many upserts -/

section Runs

variable {ι : Type} (key : α → Option κ) (id : ι → κ) (record : ι → α)

/-- One upsert after another. -/
def upserts (records : List α) (l : List ι) : List α :=
  l.foldl (fun records i => upsert key (id i) (record i) records) records

variable {key id record}

/-- **A run of upserts is a run of `set`s** on the map.  Induction on the upserts. -/
theorem abs_upserts (h : ∀ i, key (record i) = some (id i)) (l : List ι) : ∀ records : List α,
    abs key (upserts key id record records l) = (abs key records).sets id record l := by
  induction l with
  | nil =>
      intro records
      rfl
  | cons i l ih =>
      intro records
      show abs key (upserts key id record (upsert key (id i) (record i) records) l) = _
      rw [ih, abs_upsert (h i)]
      rfl

/-- What a test refuses in every record with one of the keys is there after a run as it was
    before.  Induction on the upserts. -/
theorem filter_upserts (h : ∀ i, key (record i) = some (id i)) {p : α → Bool} (l : List ι) :
    ∀ records : List α, (∀ i ∈ l, ∀ x, key x = some (id i) → p x = false) →
      (upserts key id record records l).filter p = records.filter p := by
  induction l with
  | nil =>
      intro records _
      rfl
  | cons i l ih =>
      intro records hp
      rw [List.forall_mem_cons] at hp
      show (upserts key id record (upsert key (id i) (record i) records) l).filter p = _
      rw [ih _ hp.2]
      exact filter_of_upserts (upserts_upsert _ _ _) (hp.1 _ (h i)) hp.1

end Runs

end OrderedMaps
