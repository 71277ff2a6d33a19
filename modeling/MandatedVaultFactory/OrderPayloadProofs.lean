import MandatedVaultFactory.ApiClientProofs

/-!
# The body of an order

How the client of the exchange turns an order into the body of its request.  A caller may spell
names in snake case or in camel case, may wrap everything in `data`, and may put the fields of
the order under `order` or leave them where they are.

* **`serializeCreateOrderPayload`** — the body, as the code builds it.
* **`orderBody`** — the body that is meant; **`serialize_payload`**: it is built from every
  payload that gives the same fields.
* **`get_orderBody`**, **`serialize_orderBody`** — nothing is dropped from it, and building it
  again changes nothing. -/

namespace Predict

open Texts Json

variable {F : Type}

/-! ## Names -/

/-- `str.upper` of one character, which may be several. -/
structure Upper where
  upper : Char → Text
  ascii : ∀ c, c.toNat < 128 → upper c = [c.toUpper]
  underscore : ∀ c, c ≠ '_' → '_' ∉ upper c

/-- `t.split(c)`: its first part, and the others. -/
def splitAll (c : Char) : Text → Text × List Text
  | [] => ([], [])
  | d :: t =>
      if d = c then ([], (splitAll c t).1 :: (splitAll c t).2)
      else (d :: (splitAll c t).1, (splitAll c t).2)

/-- `part[:1].upper() + part[1:]`. -/
def capitalize (up : Upper) : Text → Text
  | [] => []
  | c :: t => up.upper c ++ t

/-- `_camelize_key`. -/
def camelizeKey (up : Upper) (key : Text) : Text :=
  if '_' ∈ key then
    (splitAll '_' key).1 ++ (splitAll '_' key).2.flatMap (capitalize up)
  else key

theorem notMem_splitAll (c : Char) (t : Text) :
    c ∉ (splitAll c t).1 ∧ ∀ part ∈ (splitAll c t).2, c ∉ part := by
  induction t with
  | nil => exact ⟨List.not_mem_nil, List.forall_mem_nil _⟩
  | cons d t ih =>
      rw [splitAll]
      by_cases hd : d = c
      · rw [if_pos hd]
        exact ⟨List.not_mem_nil, List.forall_mem_cons.mpr ⟨ih.1, ih.2⟩⟩
      · rw [if_neg hd]
        refine ⟨fun hmem => ?_, ih.2⟩
        exact (List.mem_cons.mp hmem).elim (fun heq => hd heq.symm) ih.1

theorem underscore_notMem_capitalize (up : Upper) {part : Text} (h : '_' ∉ part) :
    '_' ∉ capitalize up part := by
  cases part with
  | nil => exact List.not_mem_nil
  | cons c t =>
      rw [List.mem_cons, not_or] at h
      exact List.not_mem_append (up.underscore c (Ne.symm h.1)) h.2

/-- No underscore is left. -/
theorem underscore_notMem_camelizeKey (up : Upper) (key : Text) :
    '_' ∉ camelizeKey up key := by
  rw [camelizeKey]
  by_cases hkey : '_' ∈ key
  · rw [if_pos hkey]
    obtain ⟨hhead, htail⟩ := notMem_splitAll '_' key
    refine List.not_mem_append hhead fun hmem => ?_
    obtain ⟨part, hpart, hchar⟩ := List.mem_flatMap.mp hmem
    exact underscore_notMem_capitalize up (htail part hpart) hchar
  · rw [if_neg hkey]
    exact hkey

/-- A name in camel case keeps it. -/
theorem camelizeKey_camelizeKey (up : Upper) (key : Text) :
    camelizeKey up (camelizeKey up key) = camelizeKey up key := by
  conv => lhs; rw [camelizeKey]
  exact if_neg (underscore_notMem_camelizeKey up key)

/-! ## The code -/

/-- What is said about an order beside it. -/
inductive MetaField where
  | pricePerShare | strategy | slippageBps | expirationMinutes
deriving DecidableEq

def MetaField.camel : MetaField → Text
  | .pricePerShare => "pricePerShare".toList
  | .strategy => "strategy".toList
  | .slippageBps => "slippageBps".toList
  | .expirationMinutes => "expirationMinutes".toList

def MetaField.snake : MetaField → Text
  | .pricePerShare => "price_per_share".toList
  | .strategy => "strategy".toList
  | .slippageBps => "slippage_bps".toList
  | .expirationMinutes => "expiration_minutes".toList

/-- `_CREATE_ORDER_META_FIELD_MAP`. -/
def createOrderMetaFieldMap : List (Text × Text) :=
  [("pricePerShare".toList, "pricePerShare".toList),
    ("price_per_share".toList, "pricePerShare".toList),
    ("strategy".toList, "strategy".toList),
    ("slippageBps".toList, "slippageBps".toList),
    ("slippage_bps".toList, "slippageBps".toList),
    ("expirationMinutes".toList, "expirationMinutes".toList),
    ("expiration_minutes".toList, "expirationMinutes".toList)]

def metaKeys : List Text := createOrderMetaFieldMap.map Prod.fst

/-- `value is None`. -/
def isNull : Value F → Bool
  | .null => true
  | _ => false

mutual

/-- `_drop_none`. -/
def dropNone : Value F → Value F
  | .obj members => .obj (dropNoneMembers members)
  | .arr items => .arr (dropNoneItems items)
  | .null => .null
  | .bool b => .bool b
  | .int n => .int n
  | .float x => .float x
  | .str s => .str s

def dropNoneItems : List (Value F) → List (Value F)
  | [] => []
  | v :: rest => if isNull v then dropNoneItems rest else dropNone v :: dropNoneItems rest

def dropNoneMembers : List (Text × Value F) → List (Text × Value F)
  | [] => []
  | (key, v) :: rest =>
      if isNull v then dropNoneMembers rest else (key, dropNone v) :: dropNoneMembers rest

end

/-- `_camelize_order_payload`. -/
def camelizeOrderPayload (up : Upper) (orderPayload : List (Text × Value F)) :
    List (Text × Value F) :=
  dict ((orderPayload.filter fun m => !isNull m.2 && !metaKeys.contains m.1).map
    fun m => (camelizeKey up m.1, m.2))

/-- One round of the loop over the map of names. -/
def setMeta (data normalized : List (Text × Value F)) (names : Text × Text) :
    List (Text × Value F) :=
  match get names.1 data with
  | none => normalized
  | some value => if isNull value then normalized else insert names.2 value normalized

/-- `_normalize_create_order_data`. -/
def normalizeCreateOrderData (up : Upper) (data : List (Text × Value F)) :
    List (Text × Value F) :=
  let order := match get orderKey data with
    | some (.obj orderValue) => camelizeOrderPayload up orderValue
    | _ => camelizeOrderPayload up data
  dropNoneMembers (createOrderMetaFieldMap.foldl (setMeta data) [(orderKey, .obj order)])

/-- `_serialize_create_order_payload`. -/
def serializeCreateOrderPayload (up : Upper) (payload : List (Text × Value F)) :
    List (Text × Value F) :=
  match get dataKey payload with
  | some (.obj data) => insert dataKey (.obj (normalizeCreateOrderData up data)) payload
  | _ => [(dataKey, .obj (normalizeCreateOrderData up payload))]

/-! ## Nulls -/

theorem dropNoneMembers_eq (members : List (Text × Value F)) :
    dropNoneMembers members
      = (members.filter fun m => !isNull m.2).map fun m => (m.1, dropNone m.2) := by
  induction members with
  | nil => rfl
  | cons m rest ih =>
      obtain ⟨key, v⟩ := m
      rw [dropNoneMembers]
      cases hv : isNull v with
      | true => simp [hv, ih]
      | false => simp [hv, ih]

theorem isNull_dropNone (v : Value F) : isNull (dropNone v) = isNull v := by
  cases v <;> rfl

mutual

/-- What is left has no nulls to drop.  Induction on the value. -/
theorem dropNone_dropNone : ∀ v : Value F, dropNone (dropNone v) = dropNone v
  | .obj members => congrArg Value.obj (dropNoneMembers_dropNoneMembers members)
  | .arr items => congrArg Value.arr (dropNoneItems_dropNoneItems items)
  | .null => rfl
  | .bool _ => rfl
  | .int _ => rfl
  | .float _ => rfl
  | .str _ => rfl

theorem dropNoneItems_dropNoneItems : ∀ items : List (Value F),
    dropNoneItems (dropNoneItems items) = dropNoneItems items
  | [] => rfl
  | v :: rest => by
      have hrest := dropNoneItems_dropNoneItems rest
      rw [dropNoneItems]
      cases hv : isNull v with
      | true => exact hrest
      | false =>
          show dropNoneItems (dropNone v :: dropNoneItems rest) = dropNone v :: dropNoneItems rest
          rw [dropNoneItems, isNull_dropNone, hv, dropNone_dropNone v, hrest]
          rfl

theorem dropNoneMembers_dropNoneMembers : ∀ members : List (Text × Value F),
    dropNoneMembers (dropNoneMembers members) = dropNoneMembers members
  | [] => rfl
  | (key, v) :: rest => by
      have hrest := dropNoneMembers_dropNoneMembers rest
      rw [dropNoneMembers]
      cases hv : isNull v with
      | true => exact hrest
      | false =>
          show dropNoneMembers ((key, dropNone v) :: dropNoneMembers rest)
            = (key, dropNone v) :: dropNoneMembers rest
          rw [dropNoneMembers, isNull_dropNone, hv, dropNone_dropNone v, hrest]
          rfl

end

/-- The members without a null, under any names. -/
theorem dropNoneMembers_map (name : Text → Text) (members : List (Text × Value F)) :
    dropNoneMembers ((members.filter fun m => !isNull m.2).map fun m => (name m.1, m.2))
      = dropNoneMembers (members.map fun m => (name m.1, m.2)) := by
  rw [dropNoneMembers_eq, dropNoneMembers_eq, List.filter_map, List.filter_map, List.filter_filter]
  simp [Function.comp_def]

/-! ## What a payload gives -/

/-- The fields of an order: their names are different in camel case, and none is the name of
    something that is said beside it. -/
structure OrderFields (up : Upper) (F : Type) where
  fields : List (Text × Value F)
  distinct : (fields.map fun f => camelizeKey up f.1).Nodup
  noMeta : ∀ f ∈ fields, ∀ m : MetaField, camelizeKey up f.1 ≠ m.camel

/-- The fields under their names in camel case. -/
def OrderFields.camel {up : Upper} (o : OrderFields up F) : List (Text × Value F) :=
  o.fields.map fun f => (camelizeKey up f.1, f.2)

/-- The members of `data` give what is said beside the order, each thing under one name. -/
structure WritesMeta (given : MetaField → Option (Value F)) (data : List (Text × Value F)) :
    Prop where
  value : ∀ m : MetaField, (get m.camel data).or (get m.snake data) = given m
  once : ∀ m : MetaField, m.camel ≠ m.snake → get m.camel data = none ∨ get m.snake data = none

/-- The fields stand where they are, in any place between the others. -/
structure Flat {up : Upper} (o : OrderFields up F) (given : MetaField → Option (Value F))
    (data : List (Text × Value F)) : Prop where
  beside : WritesMeta given data
  fields : (data.filter fun m => !metaKeys.contains m.1) = o.fields
  unnamed : ∀ f ∈ o.fields, f.1 ≠ orderKey ∧ f.1 ≠ dataKey

/-- The fields stand under `order`. -/
structure Nested {up : Upper} (o : OrderFields up F) (given : MetaField → Option (Value F))
    (data : List (Text × Value F)) : Prop where
  beside : WritesMeta given data
  order : get orderKey data = some (.obj o.fields)
  noData : get dataKey data = none

/-- The payloads that give an order. -/
inductive Payload {up : Upper} (o : OrderFields up F) (given : MetaField → Option (Value F)) :
    List (Text × Value F) → Prop
  | bare (data : List (Text × Value F)) (h : Flat o given data ∨ Nested o given data) :
      Payload o given data
  | wrapped (data : List (Text × Value F)) (h : Flat o given data ∨ Nested o given data) :
      Payload o given [(dataKey, .obj data)]

/-- The fields that are said beside an order. -/
def metaFields : List MetaField := [.pricePerShare, .strategy, .slippageBps, .expirationMinutes]

/-- What is not `None`. -/
def present (v : Option (Value F)) : Option (Value F) := v.filter fun v => !isNull v

/-- All that is said beside the order. -/
def metaMembers (given : MetaField → Option (Value F)) : List (Text × Value F) :=
  metaFields.filterMap fun m => (present (given m)).map fun v => (m.camel, v)

/-- What stands under `data`. -/
def orderData (fields : List (Text × Value F)) (given : MetaField → Option (Value F)) :
    List (Text × Value F) :=
  dropNoneMembers ((orderKey, .obj fields) :: metaMembers given)

/-- **The body that is meant.** -/
def orderBody (fields : List (Text × Value F)) (given : MetaField → Option (Value F)) :
    List (Text × Value F) :=
  [(dataKey, .obj (orderData fields given))]

/-! ## The names of what is beside an order -/

theorem camelizeKey_snake (up : Upper) (m : MetaField) : camelizeKey up m.snake = m.camel := by
  cases m with
  | pricePerShare =>
      show "price".toList ++ ((up.upper 'p' ++ "er".toList) ++ ((up.upper 's' ++ "hare".toList) ++ []))
        = MetaField.pricePerShare.camel
      rw [up.ascii 'p' (by decide), up.ascii 's' (by decide)]
      rfl
  | strategy => rfl
  | slippageBps =>
      show "slippage".toList ++ ((up.upper 'b' ++ "ps".toList) ++ []) = MetaField.slippageBps.camel
      rw [up.ascii 'b' (by decide)]
      rfl
  | expirationMinutes =>
      show "expiration".toList ++ ((up.upper 'm' ++ "inutes".toList) ++ [])
        = MetaField.expirationMinutes.camel
      rw [up.ascii 'm' (by decide)]
      rfl

theorem camelizeKey_camel (up : Upper) (m : MetaField) : camelizeKey up m.camel = m.camel := by
  cases m <;> rfl

/-- Each name in the map is one of the two names of a field. -/
theorem mem_metaKeys {key : Text} (h : key ∈ metaKeys) :
    ∃ m : MetaField, key = m.camel ∨ key = m.snake := by
  simp only [metaKeys, createOrderMetaFieldMap, List.map_cons, List.map_nil, List.mem_cons,
    List.not_mem_nil, or_false] at h
  rcases h with h | h | h | h | h | h | h
  · exact ⟨.pricePerShare, Or.inl h⟩
  · exact ⟨.pricePerShare, Or.inr h⟩
  · exact ⟨.strategy, Or.inl h⟩
  · exact ⟨.slippageBps, Or.inl h⟩
  · exact ⟨.slippageBps, Or.inr h⟩
  · exact ⟨.expirationMinutes, Or.inl h⟩
  · exact ⟨.expirationMinutes, Or.inr h⟩

/-- No field of an order is dropped with them. -/
theorem OrderFields.notMem_metaKeys {up : Upper} (o : OrderFields up F) {f : Text × Value F}
    (hf : f ∈ o.fields) : f.1 ∉ metaKeys := by
  intro hmem
  obtain ⟨m, hm⟩ := mem_metaKeys hmem
  refine o.noMeta f hf m ?_
  rcases hm with hm | hm
  · rw [hm, camelizeKey_camel]
  · rw [hm, camelizeKey_snake]

/-- Different fields have different names. -/
theorem MetaField.camel_inj {m m' : MetaField} (h : m.camel = m'.camel) : m = m' := by
  cases m <;> cases m' <;> first | rfl | exact absurd h (by decide)

theorem mem_metaFields (m : MetaField) : m ∈ metaFields := by
  cases m <;> simp [metaFields]

/-! ## What is set beside the order -/

/-- The rounds of the loop in which a field is set. -/
def rounds (m : MetaField) : List (Text × Text) :=
  if m.camel = m.snake then [(m.camel, m.camel)] else [(m.camel, m.camel), (m.snake, m.camel)]

theorem createOrderMetaFieldMap_eq : createOrderMetaFieldMap = metaFields.flatMap rounds := rfl

/-- One round. -/
theorem setMeta_eq (data : List (Text × Value F)) {normalized : List (Text × Value F)}
    {source target : Text} (h : target ∉ normalized.map Prod.fst) :
    setMeta data normalized (source, target)
      = normalized ++ ((present (get source data)).map fun v => (target, v)).toList := by
  rw [setMeta]
  cases get source data with
  | none => exact (List.append_nil _).symm
  | some v =>
      cases hv : isNull v with
      | true => simp [present, hv]
      | false => simp [present, hv, insert_of_notMem _ h, Option.filter]

/-- The rounds of one field: one of its names gives the value. -/
theorem foldl_rounds {given : MetaField → Option (Value F)} {data : List (Text × Value F)}
    (hdata : WritesMeta given data) {normalized : List (Text × Value F)} (m : MetaField)
    (h : m.camel ∉ normalized.map Prod.fst) :
    (rounds m).foldl (setMeta data) normalized
      = normalized ++ ((present (given m)).map fun v => (m.camel, v)).toList := by
  have hvalue := hdata.value m
  rw [rounds]
  by_cases hname : m.camel = m.snake
  · rw [if_pos hname, List.foldl_cons, List.foldl_nil, setMeta_eq data h]
    rw [← hname, Option.or_self] at hvalue
    rw [hvalue]
  · rw [if_neg hname, List.foldl_cons, List.foldl_cons, List.foldl_nil, setMeta_eq data h]
    rcases hdata.once m hname with hnone | hnone
    · rw [hnone, Option.none_or] at hvalue
      have hsame : normalized ++ ((present (none : Option (Value F))).map
          fun v => (m.camel, v)).toList = normalized := List.append_nil normalized
      rw [hnone, hsame, setMeta_eq data h, hvalue]
    · rw [hnone, Option.or_none] at hvalue
      rw [setMeta, hnone, hvalue]

/-- The whole loop.  Induction on the fields that are still to be set. -/
theorem foldl_metaFields {given : MetaField → Option (Value F)} {data : List (Text × Value F)}
    (hdata : WritesMeta given data) (ms : List MetaField) :
    ∀ normalized : List (Text × Value F), ms.Nodup →
      (∀ m ∈ ms, m.camel ∉ normalized.map Prod.fst) →
      (ms.flatMap rounds).foldl (setMeta data) normalized
        = normalized ++ ms.filterMap fun m => (present (given m)).map fun v => (m.camel, v) := by
  induction ms with
  | nil => intro normalized _ _; exact (List.append_nil normalized).symm
  | cons m ms ih =>
      intro normalized hnodup hnew
      obtain ⟨hm, hms⟩ := List.nodup_cons.mp hnodup
      obtain ⟨hnewm, hnewms⟩ := List.forall_mem_cons.mp hnew
      rw [List.flatMap_cons, List.foldl_append, foldl_rounds hdata m hnewm]
      rw [ih _ hms]
      · rw [List.filterMap_cons, List.append_assoc]
        cases present (given m) <;> rfl
      · intro m' hm'
        rw [List.map_append, List.mem_append, not_or]
        refine ⟨hnewms m' hm', ?_⟩
        cases present (given m) with
        | none => exact List.not_mem_nil
        | some v =>
            show m'.camel ∉ [m.camel]
            rw [List.mem_singleton]
            exact fun h => hm (MetaField.camel_inj h ▸ hm')

/-! ## The body does not depend on how the payload is written -/

/-- The fields of the order, wherever they stand. -/
theorem camelizeOrderPayload_eq {up : Upper} (o : OrderFields up F)
    {members : List (Text × Value F)}
    (h : (members.filter fun m => !metaKeys.contains m.1) = o.fields) :
    camelizeOrderPayload up members
      = (o.fields.filter fun f => !isNull f.2).map fun f => (camelizeKey up f.1, f.2) := by
  rw [camelizeOrderPayload, ← List.filter_filter, h, dict_of_nodup]
  rw [List.map_map]
  exact o.distinct.sublist (List.Sublist.map _ List.filter_sublist)

theorem OrderFields.filter_metaKeys {up : Upper} (o : OrderFields up F) :
    (o.fields.filter fun m => !metaKeys.contains m.1) = o.fields := by
  refine List.filter_eq_self.mpr fun f hf => ?_
  simpa using o.notMem_metaKeys hf

theorem get_of_forall_ne {α : Type} {key : Text} {members : List (Text × α)}
    (h : ∀ m ∈ members, m.1 ≠ key) : get key members = none := by
  rw [Json.get, List.find?_eq_none.mpr fun m hm => by simpa using h m hm]
  rfl

/-- Flat fields leave the names `order` and `data` alone. -/
theorem Flat.get_eq_none {up : Upper} {o : OrderFields up F}
    {given : MetaField → Option (Value F)} {data : List (Text × Value F)} (h : Flat o given data) :
    get orderKey data = none ∧ get dataKey data = none := by
  have hmember : ∀ m ∈ data, m.1 ∉ metaKeys → m ∈ o.fields := by
    intro m hm hkey
    rw [← h.fields, List.mem_filter]
    exact ⟨hm, by simpa using hkey⟩
  constructor
  · refine get_of_forall_ne fun m hm hkey => ?_
    exact (h.unnamed m (hmember m hm (by rw [hkey]; decide))).1 hkey
  · refine get_of_forall_ne fun m hm hkey => ?_
    exact (h.unnamed m (hmember m hm (by rw [hkey]; decide))).2 hkey

/-- What stands under `data` in the body. -/
theorem normalize_data {up : Upper} {o : OrderFields up F} {given : MetaField → Option (Value F)}
    {data : List (Text × Value F)} (h : Flat o given data ∨ Nested o given data) :
    normalizeCreateOrderData up data = orderData o.camel given := by
  have hbeside : WritesMeta given data := h.elim Flat.beside Nested.beside
  have horder : (match get orderKey data with
      | some (.obj orderValue) => camelizeOrderPayload up orderValue
      | _ => camelizeOrderPayload up data)
      = (o.fields.filter fun f => !isNull f.2).map fun f => (camelizeKey up f.1, f.2) := by
    rcases h with h | h
    · rw [h.get_eq_none.1]
      exact camelizeOrderPayload_eq o h.fields
    · rw [h.order]
      exact camelizeOrderPayload_eq o o.filter_metaKeys
  rw [normalizeCreateOrderData, horder, createOrderMetaFieldMap_eq,
    foldl_metaFields hbeside metaFields _ (by decide)]
  · show (orderKey, dropNone (.obj _)) :: dropNoneMembers (metaMembers given)
      = (orderKey, dropNone (.obj _)) :: dropNoneMembers (metaMembers given)
    rw [dropNone, dropNone, dropNoneMembers_map, OrderFields.camel]
  · intro m _
    show m.camel ∉ [orderKey]
    cases m <;> decide

/-- **ONE BODY**: every payload that gives the fields and what is beside them leads to it. -/
theorem serialize_payload {up : Upper} {o : OrderFields up F}
    {given : MetaField → Option (Value F)} {payload : List (Text × Value F)}
    (h : Payload o given payload) :
    serializeCreateOrderPayload up payload = orderBody o.camel given := by
  cases h with
  | bare data h =>
      have hdata : get dataKey payload = none :=
        h.elim (fun hflat => hflat.get_eq_none.2) Nested.noData
      rw [serializeCreateOrderPayload, hdata, orderBody, ← normalize_data h]
  | wrapped data h =>
      show [(dataKey, Value.obj (normalizeCreateOrderData up data))] = _
      rw [orderBody, ← normalize_data h]

/-! ## What the body says -/

theorem present_of_isNull {v : Value F} (h : isNull v = true) : present (some v) = none := by
  simp [present, Option.filter, h]

theorem present_of_not_isNull {v : Value F} (h : isNull v = false) :
    present (some v) = some v := by
  simp [present, Option.filter, h]

/-- What is beside the order in the body. -/
theorem dropNoneMembers_metaMembers (given : MetaField → Option (Value F)) :
    dropNoneMembers (metaMembers given) = metaMembers fun m => (given m).map dropNone := by
  rw [metaMembers, metaMembers]
  generalize metaFields = ms
  induction ms with
  | nil => rfl
  | cons m ms ih =>
      rw [List.filterMap_cons, List.filterMap_cons]
      cases hm : given m with
      | none => exact ih
      | some v =>
          rw [Option.map_some]
          cases hv : isNull v with
          | true =>
              rw [present_of_isNull hv, present_of_isNull (isNull_dropNone v ▸ hv)]
              exact ih
          | false =>
              rw [present_of_not_isNull hv, present_of_not_isNull (isNull_dropNone v ▸ hv)]
              simp only [Option.map_some]
              rw [dropNoneMembers, if_neg (by rw [hv]; exact Bool.false_ne_true), ih]

theorem orderData_eq (fields : List (Text × Value F)) (given : MetaField → Option (Value F)) :
    orderData fields given
      = (orderKey, .obj (dropNoneMembers fields))
        :: metaMembers fun m => (given m).map dropNone :=
  congrArg (_ :: ·) (dropNoneMembers_metaMembers given)

/-- The names beside the order. -/
theorem mem_metaMembers {given : MetaField → Option (Value F)} {key : Text}
    (h : key ∈ (metaMembers given).map Prod.fst) : ∃ m : MetaField, key = m.camel := by
  obtain ⟨member, hmember, rfl⟩ := List.mem_map.mp h
  obtain ⟨m, _, hm⟩ := List.mem_filterMap.mp hmember
  obtain ⟨v, _, rfl⟩ := Option.map_eq_some_iff.mp hm
  exact ⟨m, rfl⟩

/-- Each thing that is said stands there once. -/
theorem get_metaMembers (given : MetaField → Option (Value F)) (m : MetaField) :
    get m.camel (metaMembers given) = present (given m)
      ∧ ((metaMembers given).map Prod.fst).count m.camel = (present (given m)).toList.length := by
  suffices hlist : ∀ ms : List MetaField, ms.Nodup →
      get m.camel (ms.filterMap fun m => (present (given m)).map fun v => (m.camel, v))
          = (if m ∈ ms then present (given m) else none)
        ∧ ((ms.filterMap fun m => (present (given m)).map fun v => (m.camel, v)).map
            Prod.fst).count m.camel
          = if m ∈ ms then (present (given m)).toList.length else 0 by
    have hall := hlist metaFields (by decide)
    rw [if_pos (mem_metaFields m), if_pos (mem_metaFields m)] at hall
    exact hall
  intro ms
  induction ms with
  | nil => exact fun _ => ⟨rfl, rfl⟩
  | cons m' ms ih =>
      intro hnodup
      obtain ⟨hm', hms⟩ := List.nodup_cons.mp hnodup
      obtain ⟨hget, hcount⟩ := ih hms
      rw [List.filterMap_cons]
      by_cases hm : m = m'
      · subst hm
        rw [if_neg hm'] at hget hcount
        rw [if_pos (List.mem_cons_self ..), if_pos (List.mem_cons_self ..)]
        cases hv : present (given m) with
        | none => exact ⟨hget, hcount⟩
        | some v =>
            constructor
            · simp [Json.get]
            · simpa using hcount
      · have hname : m'.camel ≠ m.camel := fun h => hm (MetaField.camel_inj h).symm
        have hmem : m ∈ m' :: ms ↔ m ∈ ms := by simp [hm]
        simp only [hmem]
        cases present (given m') with
        | none => exact ⟨hget, hcount⟩
        | some v =>
            constructor
            · rw [← hget]
              simp [Json.get, hname]
            · rw [← hcount]
              simp [hname]

/-- An order's fields as the body has them. -/
def OrderFields.written {up : Upper} (o : OrderFields up F) : OrderFields up F where
  fields := dropNoneMembers o.camel
  distinct := by
    rw [dropNoneMembers_eq, List.map_map]
    refine List.Nodup.sublist (List.Sublist.map _ List.filter_sublist) ?_
    rw [OrderFields.camel, List.map_map]
    simpa [Function.comp_def, camelizeKey_camelizeKey] using o.distinct
  noMeta := by
    intro f hf m
    rw [dropNoneMembers_eq] at hf
    obtain ⟨f', hf', rfl⟩ := List.mem_map.mp hf
    obtain ⟨f'', hf'', rfl⟩ := List.mem_map.mp (List.mem_filter.mp hf').1
    rw [camelizeKey_camelizeKey]
    exact o.noMeta f'' hf'' m

/-- They are under their names in camel case already. -/
theorem OrderFields.written_camel {up : Upper} (o : OrderFields up F) :
    o.written.camel = o.written.fields := by
  refine (List.map_congr_left fun f hf => ?_).trans (List.map_id _)
  have hfield : f ∈ dropNoneMembers o.camel := hf
  rw [dropNoneMembers_eq] at hfield
  obtain ⟨f', hf', rfl⟩ := List.mem_map.mp hfield
  obtain ⟨f'', _, rfl⟩ := List.mem_map.mp (List.mem_filter.mp hf').1
  rw [camelizeKey_camelizeKey]
  rfl

theorem get_of_mem {α : Type} {key : Text} {v : α} {members : List (Text × α)}
    (hnodup : (members.map Prod.fst).Nodup) (h : (key, v) ∈ members) :
    get key members = some v := by
  induction members with
  | nil => exact absurd h List.not_mem_nil
  | cons m members ih =>
      obtain ⟨hm, hmembers⟩ := List.nodup_cons.mp hnodup
      rcases List.mem_cons.mp h with heq | hmem
      · simp [Json.get, ← heq]
      · have hne : m.1 ≠ key := fun heq => hm (heq ▸ List.mem_map_of_mem hmem)
        simpa [Json.get, hne] using ih hmembers hmem

/-- **NOTHING IS DROPPED** from the order but nulls. -/
theorem get_orderBody {up : Upper} (o : OrderFields up F) {f : Text × Value F}
    (hf : f ∈ o.fields) (hnull : isNull f.2 = false) :
    get (camelizeKey up f.1) o.written.fields = some (dropNone f.2) := by
  have hnames := o.written.distinct
  have hcamel : (o.written.fields.map fun f => camelizeKey up f.1)
      = o.written.fields.map Prod.fst := by
    rw [← o.written_camel, OrderFields.camel, List.map_map, List.map_map]
    simp [Function.comp_def, camelizeKey_camelizeKey]
  refine get_of_mem (hcamel ▸ hnames) ?_
  show _ ∈ dropNoneMembers o.camel
  rw [dropNoneMembers_eq]
  refine List.mem_map.mpr ⟨(camelizeKey up f.1, f.2), List.mem_filter.mpr ⟨?_, ?_⟩, rfl⟩
  · exact List.mem_map.mpr ⟨f, hf, rfl⟩
  · rw [hnull]
    rfl

theorem underscore_mem_snake {m : MetaField} (h : m.snake ≠ m.camel) : '_' ∈ m.snake := by
  cases m with
  | strategy => exact absurd rfl h
  | pricePerShare | slippageBps | expirationMinutes => decide

/-- Nothing that is said beside the order is put into it. -/
theorem notMem_written {up : Upper} (o : OrderFields up F) (m : MetaField) :
    m.camel ∉ o.written.fields.map Prod.fst ∧ m.snake ∉ o.written.fields.map Prod.fst := by
  have hcamel : m.camel ∉ o.written.fields.map Prod.fst := by
    intro hmem
    obtain ⟨f, hf, hname⟩ := List.mem_map.mp hmem
    refine o.written.noMeta f hf m ?_
    rw [hname, camelizeKey_camel]
  refine ⟨hcamel, fun hmem => ?_⟩
  by_cases hname : m.snake = m.camel
  · exact hcamel (hname ▸ hmem)
  · -- every name in the order is in camel case
    rw [← o.written_camel] at hmem
    obtain ⟨f, hf, hfst⟩ := List.mem_map.mp hmem
    obtain ⟨f', _, rfl⟩ := List.mem_map.mp hf
    have hfst : camelizeKey up f'.1 = m.snake := hfst
    exact underscore_notMem_camelizeKey up f'.1 (hfst ▸ underscore_mem_snake hname)

/-! ## Once more -/

/-- The body is itself a payload that gives its order. -/
theorem payload_orderBody {up : Upper} (o : OrderFields up F)
    (given : MetaField → Option (Value F)) :
    Payload o.written (fun m => present ((given m).map dropNone)) (orderBody o.camel given) := by
  rw [orderBody, orderData_eq]
  have hget : ∀ m : MetaField, get m.camel ((orderKey, Value.obj (dropNoneMembers o.camel))
      :: metaMembers fun m => (given m).map dropNone) = present ((given m).map dropNone) := by
    intro m
    rw [← (get_metaMembers (fun m => (given m).map dropNone) m).1]
    cases m <;> rfl
  have hsnake : ∀ m : MetaField, m.camel ≠ m.snake →
      get m.snake ((orderKey, Value.obj (dropNoneMembers o.camel))
        :: metaMembers fun m => (given m).map dropNone) = none := by
    intro m hname
    refine get_of_forall_ne fun member hmember hkey => ?_
    rcases List.mem_cons.mp hmember with rfl | hmember
    · have hkey : orderKey = m.snake := hkey
      have hmem : '_' ∈ orderKey := hkey ▸ underscore_mem_snake (Ne.symm hname)
      exact absurd hmem (by decide)
    · obtain ⟨m', hm'⟩ := mem_metaMembers (List.mem_map_of_mem hmember)
      have hmem : '_' ∈ m'.camel := hm' ▸ hkey ▸ underscore_mem_snake (Ne.symm hname)
      cases m' <;> exact absurd hmem (by decide)
  refine Payload.wrapped _ (Or.inr ⟨⟨fun m => ?_, fun m hname => Or.inr (hsnake m hname)⟩, rfl, ?_⟩)
  · by_cases hname : m.camel = m.snake
    · rw [← hname, Option.or_self]
      exact hget m
    · rw [hsnake m hname, Option.or_none]
      exact hget m
  · refine get_of_forall_ne fun member hmember hkey => ?_
    rcases List.mem_cons.mp hmember with rfl | hmember
    · have hkey : orderKey = dataKey := hkey
      exact absurd hkey (by decide)
    · obtain ⟨m, hm⟩ := mem_metaMembers (List.mem_map_of_mem hmember)
      rw [hkey] at hm
      cases m <;> exact absurd hm (by decide)

theorem present_present (v : Option (Value F)) : present (present v) = present v := by
  rw [present, present, Option.filter_filter]
  simp

/-- **A FIXED POINT**: the body of the body is the body. -/
theorem serialize_orderBody {up : Upper} (o : OrderFields up F)
    (given : MetaField → Option (Value F)) :
    serializeCreateOrderPayload up (orderBody o.camel given) = orderBody o.camel given := by
  rw [serialize_payload (payload_orderBody o given), o.written_camel, orderBody, orderBody]
  have hbeside : (metaMembers fun m => present ((given m).map dropNone))
      = metaMembers fun m => (given m).map dropNone := by
    simp only [metaMembers, present_present]
  have hdata : orderData o.written.fields (fun m => present ((given m).map dropNone))
      = dropNoneMembers (orderData o.camel given) := by
    show dropNoneMembers (_ :: metaMembers _) = _
    rw [hbeside, orderData_eq]
    rfl
  rw [hdata, orderData, dropNoneMembers_dropNoneMembers]

theorem create_order_body {up : Upper} (o : OrderFields up F)
    (given : MetaField → Option (Value F)) {payload : List (Text × Value F)}
    (h : Payload o given payload) :
    ∃ order beside : List (Text × Value F),
      serializeCreateOrderPayload up payload = [(dataKey, .obj ((orderKey, .obj order) :: beside))]
      ∧ (∀ (o' : OrderFields up F) (payload' : List (Text × Value F)), o'.camel = o.camel →
          Payload o' given payload' →
          serializeCreateOrderPayload up payload' = serializeCreateOrderPayload up payload)
      ∧ (∀ f ∈ o.fields, isNull f.2 = false →
          get (camelizeKey up f.1) order = some (dropNone f.2))
      ∧ (∀ (m : MetaField) (v : Value F), given m = some v → isNull v = false →
          get m.camel beside = some (dropNone v)
          ∧ (beside.map Prod.fst).count m.camel = 1
          ∧ (m.snake ≠ m.camel → m.snake ∉ beside.map Prod.fst)
          ∧ m.camel ∉ order.map Prod.fst ∧ m.snake ∉ order.map Prod.fst)
      ∧ serializeCreateOrderPayload up (serializeCreateOrderPayload up payload)
          = serializeCreateOrderPayload up payload := by
  refine ⟨o.written.fields, metaMembers fun m => (given m).map dropNone, ?_, ?_, ?_, ?_, ?_⟩
  · rw [serialize_payload h, orderBody, orderData_eq]
    rfl
  · intro o' payload' hcamel h'
    rw [serialize_payload h, serialize_payload h', hcamel]
  · exact fun f hf hnull => get_orderBody o hf hnull
  · intro m v hv hnull
    have hpresent : present ((given m).map dropNone) = some (dropNone v) := by
      rw [hv, Option.map_some, present_of_not_isNull (isNull_dropNone v ▸ hnull)]
    obtain ⟨hget, hcount⟩ := get_metaMembers (fun m => (given m).map dropNone) m
    refine ⟨hget.trans hpresent, hcount.trans (by rw [hpresent]; rfl), fun hname hmem => ?_, ?_⟩
    · obtain ⟨m', hm'⟩ := mem_metaMembers hmem
      have hunderscore : '_' ∈ m'.camel := hm' ▸ underscore_mem_snake hname
      cases m' <;> exact absurd hunderscore (by decide)
    · exact notMem_written o m
  · rw [serialize_payload h]
    exact serialize_orderBody o given

/-- Upper case where only the ASCII letters have it. -/
def asciiUpper : Upper where
  upper := fun c => [c.toUpper]
  ascii := fun _ _ => rfl
  underscore := by
    intro c hc hmem
    have heq : '_' = c.toUpper := List.mem_singleton.mp hmem
    delta Char.toUpper at heq
    split at heq
    case isTrue h =>
      have hval := congrArg Char.val heq
      have hlow := UInt32.le_iff_toNat_le.mp h.1
      have hhigh := UInt32.le_iff_toNat_le.mp h.2
      have hnat := congrArg UInt32.toNat hval
      simp [UInt32.toNat_add] at hlow hhigh hnat
      omega
    case isFalse => exact hc heq.symm

/-- An order at the market price. -/
def marketOrder : OrderFields asciiUpper Unit where
  fields := [("token_id".toList, .str "1001".toList), ("salt".toList, .null)]
  distinct := by decide
  noMeta := by
    intro f hf m
    rcases List.mem_cons.mp hf with rfl | hf
    · cases m <;> decide
    · rw [List.mem_singleton.mp hf]
      cases m <;> decide

def marketGiven : MetaField → Option (Value Unit)
  | .pricePerShare => some (.str "625".toList)
  | .strategy => some (.str "MARKET".toList)
  | .slippageBps => some .null
  | .expirationMinutes => none

theorem create_order_body_market :
    ∃ order beside : List (Text × Value Unit),
      serializeCreateOrderPayload asciiUpper
          [("token_id".toList, .str "1001".toList), ("price_per_share".toList, .str "625".toList),
            ("salt".toList, .null), ("strategy".toList, .str "MARKET".toList),
            ("slippage_bps".toList, .null)]
        = [(dataKey, .obj ((orderKey, .obj order) :: beside))]
      ∧ get "tokenId".toList order = some (.str "1001".toList)
      ∧ get "pricePerShare".toList beside = some (.str "625".toList) := by
  have hflat : Flat marketOrder marketGiven
      [("token_id".toList, .str "1001".toList), ("price_per_share".toList, .str "625".toList),
        ("salt".toList, .null), ("strategy".toList, .str "MARKET".toList),
        ("slippage_bps".toList, .null)] := by
    refine ⟨⟨fun m => ?_, fun m hname => ?_⟩, rfl, fun f hf => ?_⟩
    · cases m <;> rfl
    · cases m with
      | strategy => exact absurd rfl hname
      | pricePerShare | slippageBps | expirationMinutes => exact Or.inl rfl
    · rcases List.mem_cons.mp hf with rfl | hf
      · decide
      · rw [List.mem_singleton.mp hf]
        decide
  obtain ⟨order, beside, hbody, _, horder, hbeside, _⟩ :=
    create_order_body marketOrder marketGiven (Payload.bare _ (Or.inl hflat))
  refine ⟨order, beside, hbody, ?_, ?_⟩
  · exact horder ("token_id".toList, .str "1001".toList) (List.mem_cons_self ..) rfl
  · exact (hbeside .pricePerShare (.str "625".toList) rfl rfl).1

end Predict
