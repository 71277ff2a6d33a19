import MandatedVaultFactory.JsonPrefixProofs
import MandatedVaultFactory.OrderedMapProofs
import MandatedVaultFactory.PositionStorageProofs

/-!
# `positions.json`, as it stands in its file

`PositionStorage` keeps its records in a JSON text.  Every operation reads the whole file, with
the spellings of older records, and writes it anew.

* **`listPositions`**, **`getPosition`**, **`upsert`** — the storage; its state is the file.
* **`upsert_eq_ok_iff`** — when an upsert returns, and what is read after it.
* **`refinesOrderedMap_iff`** — the storage is a map that keeps the order of its ids exactly if
  the file can be read and the records meet no limit of the interpreter;
  **`not_refinesOrderedMap_long`** is a file that cannot. -/

namespace PositionStorage

open Json hiding get insert
open Encoding Texts
open OrderedMaps (OrderedMap abs find others Upserts)

/-! ## Records -/

/-- `LocalPosition`.  Nothing checks a field on its way from the file, so each holds whatever
    JSON has. -/
structure LocalPosition (F : Type) where
  positionId : Loaded F
  marketId : Loaded F
  question : Loaded F
  outcomeName : Loaded F
  tokenId : Loaded F
  side : Loaded F
  strategy : Loaded F
  entryTime : Loaded F
  entryPrice : Loaded F
  quantity : Loaded F
  notionalUsdt : Loaded F
  orderHash : Loaded F
  orderStatus : Loaded F
  fillAmount : Loaded F
  feeRateBps : Loaded F
  source : Loaded F
  notes : Loaded F
  status : Loaded F

/-- `to_dict`. -/
def LocalPosition.toDict {F : Type} (p : LocalPosition F) : List (Str × Loaded F) :=
  [("position_id".toList, p.positionId),
    ("market_id".toList, p.marketId),
    ("question".toList, p.question),
    ("outcome_name".toList, p.outcomeName),
    ("token_id".toList, p.tokenId),
    ("side".toList, p.side),
    ("strategy".toList, p.strategy),
    ("entry_time".toList, p.entryTime),
    ("entry_price".toList, p.entryPrice),
    ("quantity".toList, p.quantity),
    ("notional_usdt".toList, p.notionalUsdt),
    ("order_hash".toList, p.orderHash),
    ("order_status".toList, p.orderStatus),
    ("fill_amount".toList, p.fillAmount),
    ("fee_rate_bps".toList, p.feeRateBps),
    ("source".toList, p.source),
    ("notes".toList, p.notes),
    ("status".toList, p.status)]

/-- `payload.get(key, default)`. -/
def getOr {F : Type} (payload : List (Str × Loaded F)) (key : String) (default : Loaded F) :
    Loaded F :=
  (lookup key.toList payload).getD default

/-- `from_dict`. -/
def fromDict (floats : Floats) (payload : List (Str × Loaded floats.Float)) :
    LocalPosition floats.Float where
  positionId := getOr payload "position_id" (getOr payload "positionId" (.str .nil))
  marketId := getOr payload "market_id" (getOr payload "marketId" (.str .nil))
  question := getOr payload "question" (getOr payload "market_question" (.str .nil))
  outcomeName := getOr payload "outcome_name" (getOr payload "outcome" (.str ↑"UNKNOWN".toList))
  tokenId := getOr payload "token_id" (getOr payload "tokenId" (.str .nil))
  side := getOr payload "side" (.str ↑"BUY".toList)
  strategy := getOr payload "strategy" (.str ↑"MARKET".toList)
  entryTime := getOr payload "entry_time" (getOr payload "created_at" (.str .nil))
  entryPrice := getOr payload "entry_price" (.float (floats.ofText "0.0".toList))
  quantity := getOr payload "quantity" (getOr payload "size_wei" (.str ↑"0".toList))
  notionalUsdt := getOr payload "notional_usdt" (.float (floats.ofText "0.0".toList))
  orderHash := getOr payload "order_hash" (.str .nil)
  orderStatus := getOr payload "order_status" (getOr payload "status" (.str ↑"OPEN".toList))
  fillAmount := getOr payload "fill_amount" .null
  feeRateBps := getOr payload "fee_rate_bps" (.int 0)
  source := getOr payload "source" (.str ↑"tracked".toList)
  notes := getOr payload "notes" .null
  status := getOr payload "status" (.str ↑"OPEN".toList)

/-- **A record is read back from its dictionary.** -/
theorem fromDict_toDict (floats : Floats) (p : LocalPosition floats.Float) :
    fromDict floats p.toDict = p := rfl

/-- The fields are values of Python. -/
def LocalPosition.Keyed {F : Type} (p : LocalPosition F) : Prop := KeyedMembers p.toDict

theorem nodup_toDict {F : Type} (p : LocalPosition F) : (p.toDict.map Prod.fst).Nodup := by
  have hkeys : ["position_id".toList, "market_id".toList, "question".toList,
      "outcome_name".toList, "token_id".toList, "side".toList, "strategy".toList,
      "entry_time".toList, "entry_price".toList, "quantity".toList, "notional_usdt".toList,
      "order_hash".toList, "order_status".toList, "fill_amount".toList, "fee_rate_bps".toList,
      "source".toList, "notes".toList, "status".toList].Nodup := by decide
  exact Str.nodup_ofText hkeys

/-- What holds of every member holds of what is found, and of the default. -/
theorem getOr_of_forall {F : Type} {P : Loaded F → Prop} {payload : List (Str × Loaded F)}
    (h : ∀ m ∈ payload, P m.2) (key : String) {default : Loaded F} (hdefault : P default) :
    P (getOr payload key default) := by
  rw [getOr, lookup, Json.get]
  cases hv : payload.find? fun m => m.1 = Str.ofText key.toList with
  | none => exact hdefault
  | some m => exact h m (List.mem_of_find?_eq_some hv)

theorem forall_of_keyedMembers {F : Type} {members : List (Str × Loaded F)}
    (h : KeyedMembers members) : ∀ m ∈ members, m.2.Keyed := by
  induction members with
  | nil => exact List.forall_mem_nil _
  | cons m members ih => exact List.forall_mem_cons.mpr ⟨h.1, ih h.2⟩

theorem keyed_fromDict (floats : Floats) {payload : List (Str × Loaded floats.Float)}
    (h : KeyedMembers payload) : (fromDict floats payload).Keyed := by
  have field := getOr_of_forall (forall_of_keyedMembers h)
  exact ⟨field _ (field _ trivial), field _ (field _ trivial), field _ (field _ trivial),
    field _ (field _ trivial), field _ (field _ trivial), field _ trivial, field _ trivial,
    field _ (field _ trivial), field _ trivial, field _ (field _ trivial), field _ trivial,
    field _ trivial, field _ (field _ trivial), field _ trivial, field _ trivial,
    field _ trivial, field _ trivial, field _ trivial, trivial⟩

/-- The record meets no limit in the list. -/
def LocalPosition.Fits (floats : Floats) (deepest : Option Nat)
    (p : LocalPosition floats.Float) : Prop :=
  (Value.obj p.toDict).limit floats deepest 1 = none

theorem fits_fromDict {floats : Floats} {payload : List (Str × Loaded floats.Float)}
    (h : (Value.obj payload).limit floats floats.readDepth 1 = none) :
    (fromDict floats payload).Fits floats floats.readDepth := by
  rw [Value.limit, Option.or_eq_none_iff, membersLimit_eq_none] at h
  have field := getOr_of_forall (P := fun v => v.limit floats floats.readDepth 2 = none) h.2
  have hzero : (Value.int 0 : Loaded floats.Float).limit floats floats.readDepth 2 = none :=
    digitLimit_eq_none floats (by decide)
  rw [LocalPosition.Fits, Value.limit, h.1, Option.none_or, LocalPosition.toDict]
  simp only [membersLimit, Option.or_eq_none_iff]
  exact ⟨field _ (field _ rfl), field _ (field _ rfl), field _ (field _ rfl),
    field _ (field _ rfl), field _ (field _ rfl), field _ rfl, field _ rfl,
    field _ (field _ rfl), field _ rfl, field _ (field _ rfl), field _ rfl,
    field _ rfl, field _ (field _ rfl), field _ rfl, field _ hzero,
    field _ rfl, field _ rfl, field _ rfl, trivial⟩

/-! ## The storage -/

/-- What escapes from an operation. -/
inductive Raised where
  | unicodeDecodeError
  | valueError
  | recursionError

def Raised.ofLimit : Limit → Raised
  | .digits => .valueError
  | .depth => .recursionError

/-- `_read_payload`: what is no dictionary is left out, and what is no list has none; only
    `JSONDecodeError` is caught. -/
def readPayload (floats : Floats) :
    Option Bytes → Except Raised (List (List (Str × Loaded floats.Float)))
  | none => .ok []
  | some bytes =>
      match decodeUtf8 bytes with
      | none => .error .unicodeDecodeError
      | some text =>
          match loads floats text with
          | .ok (.arr items) => .ok (items.filterMap asDict)
          | .ok _ => .ok []
          | .error .jsonDecodeError => .ok []
          | .error .valueError => .error .valueError
          | .error .recursionError => .error .recursionError

/-- `_write_payload`; where `json.dumps` raises, the file stays. -/
def writePayload (floats : Floats) (payload : List (List (Str × Loaded floats.Float))) :
    Except Raised (Option Bytes) :=
  let v : Loaded floats.Float := .arr (payload.map .obj)
  match v.limit floats floats.writeDepth 0 with
  | some limit => .error (.ofLimit limit)
  | none => .ok (some (encodeUtf8 (dumpsIndent floats v)))

/-- `list_positions`. -/
def listPositions (floats : Floats) (file : Option Bytes) :
    Except Raised (List (LocalPosition floats.Float)) :=
  (readPayload floats file).map fun payload => payload.map (fromDict floats)

/-- The id that a record is found by: nothing but a string is equal to one. -/
def recordId {F : Type} (p : LocalPosition F) : Option Str :=
  match p.positionId with
  | .str id => some id
  | _ => none

/-- `get_position`. -/
def getPosition (floats : Floats) (id : Str) (file : Option Bytes) :
    Except Raised (Option (LocalPosition floats.Float)) :=
  (listPositions floats file).map (find recordId id)

/-- A record that the program makes: its fields are values of Python, and its id is a string. -/
structure Position (F : Type) where
  record : LocalPosition F
  id : Str
  positionId_eq : record.positionId = .str id
  keyed : record.Keyed

/-- The loop of `upsert`. -/
def upsertRecord {F : Type} (position : Position F) (positions : List (LocalPosition F)) :
    List (LocalPosition F) :=
  OrderedMaps.upsert recordId position.id position.record positions

/-- `upsert`. -/
def upsert (floats : Floats) (file : Option Bytes) (position : Position floats.Float) :
    Except Raised (Option Bytes) := do
  let positions ← listPositions floats file
  writePayload floats ((upsertRecord position positions).map LocalPosition.toDict)

/-- One upsert after another, up to one that raises. -/
def upserts (floats : Floats) (file : Option Bytes) (positions : List (Position floats.Float)) :
    Except Raised (Option Bytes) :=
  positions.foldlM (upsert floats) file

variable {floats : Floats}

theorem recordId_record (p : Position floats.Float) : recordId p.record = some p.id := by
  rw [recordId, p.positionId_eq]

/-! ## What is written and read -/

/-- A list meets no limit if its records do not. -/
theorem limit_records {deepest : Option Nat} {records : List (LocalPosition floats.Float)}
    (hne : records ≠ []) :
    (Value.arr ((records.map LocalPosition.toDict).map Value.obj)).limit floats deepest 0 = none
      ↔ ∀ r ∈ records, r.Fits floats deepest := by
  have hshallow : ∀ r : LocalPosition floats.Float, r.Fits floats deepest →
      depthLimit deepest 0 = none := by
    intro r hr
    rw [LocalPosition.Fits, Value.limit, Option.or_eq_none_iff] at hr
    exact depthLimit_mono (Nat.zero_le 1) hr.1
  rw [Value.limit, Option.or_eq_none_iff, itemsLimit_eq_none, List.map_map, List.forall_mem_map]
  constructor
  · exact fun h => h.2
  · intro h
    obtain ⟨r, hr⟩ := List.exists_mem_of_ne_nil records hne
    exact ⟨hshallow r (h r hr), h⟩

theorem keyedItems_iff {items : List (Loaded floats.Float)} :
    KeyedItems items ↔ ∀ v ∈ items, v.Keyed := by
  induction items with
  | nil => exact ⟨fun _ => List.forall_mem_nil _, fun _ => trivial⟩
  | cons v items ih => rw [KeyedItems, ih, List.forall_mem_cons]

theorem keyed_records {records : List (LocalPosition floats.Float)} (h : ∀ r ∈ records, r.Keyed) :
    (Value.arr ((records.map LocalPosition.toDict).map Value.obj)).Keyed := by
  refine keyedItems_iff.mpr fun v hv => ?_
  obtain ⟨members, hmembers, rfl⟩ := List.mem_map.mp hv
  obtain ⟨r, hr, rfl⟩ := List.mem_map.mp hmembers
  exact ⟨nodup_toDict r, h r hr⟩

/-- What was written is read, unless it meets a limit. -/
theorem listPositions_written {records records' : List (LocalPosition floats.Float)}
    (hne : records ≠ []) (h : ∀ r ∈ records, r.Keyed) :
    listPositions floats (some (encodeUtf8 (dumpsIndent floats
        (.arr ((records.map LocalPosition.toDict).map .obj))))) = .ok records'
      ↔ (∀ r ∈ records, r.Fits floats floats.readDepth) ∧ records' = records := by
  have hitems : ((records.map LocalPosition.toDict).map Value.obj).filterMap asDict
      = records.map LocalPosition.toDict := by
    rw [List.filterMap_map]
    exact (congrFun List.filterMap_eq_map _).trans (List.map_id _)
  have hrecords : (records.map LocalPosition.toDict).map (fromDict floats) = records := by
    rw [List.map_map]
    exact (List.map_congr_left fun p _ => fromDict_toDict floats p).trans (List.map_id _)
  have hread := loads_dumpsIndent floats (keyed_records h)
  rw [← limit_records hne, listPositions, readPayload, decodeUtf8_encodeUtf8]
  dsimp only
  rw [hread]
  cases hlimit : (Value.arr ((records.map LocalPosition.toDict).map Value.obj)).limit floats
      floats.readDepth 0 with
  | none =>
      show (Except.ok _ : Except Raised _).map _ = _ ↔ _
      rw [hitems, Except.map, hrecords, Except.ok.injEq]
      exact ⟨fun heq => ⟨rfl, heq.symm⟩, fun heq => heq.2.symm⟩
  | some limit =>
      refine ⟨fun heq => ?_, fun heq => by cases heq.1⟩
      cases limit with
      | digits => cases heq
      | depth => cases heq

/-- The records of a file are values of Python, and were not too deep to be read. -/
theorem of_listPositions {file : Option Bytes} {records : List (LocalPosition floats.Float)}
    (h : listPositions floats file = .ok records) :
    ∀ r ∈ records, r.Keyed ∧ r.Fits floats floats.readDepth := by
  obtain ⟨payload, hpayload, rfl⟩ := map_eq_ok.mp h
  intro r hr
  obtain ⟨members, hmembers, rfl⟩ := List.mem_map.mp hr
  have hloaded : ∃ items, KeyedItems items
      ∧ itemsLimit floats floats.readDepth 1 items = none ∧ payload = items.filterMap asDict := by
    rw [readPayload.eq_def] at hpayload
    split at hpayload
    · cases hpayload
      exact ⟨[], trivial, rfl, rfl⟩
    split at hpayload
    · cases hpayload
    split at hpayload
    · rename_i items hread
      cases hpayload
      have hlimit := limit_of_loads hread
      rw [Value.limit, Option.or_eq_none_iff] at hlimit
      exact ⟨items, keyed_of_loads hread, hlimit.2, rfl⟩
    · cases hpayload
      exact ⟨[], trivial, rfl, rfl⟩
    · cases hpayload
      exact ⟨[], trivial, rfl, rfl⟩
    · cases hpayload
    · cases hpayload
  obtain ⟨items, hkeyed, hlimit, rfl⟩ := hloaded
  obtain ⟨v, hv, hdict⟩ := List.mem_filterMap.mp hmembers
  rw [asDict_eq_some hdict] at hv
  exact ⟨keyed_fromDict floats (keyedItems_iff.mp hkeyed _ hv).2,
    fits_fromDict (itemsLimit_eq_none.mp hlimit _ hv)⟩

/-- **When an upsert returns**, and what is read after it: if all that is written meets no limit,
    and the new record none when it is read. -/
theorem upsert_eq_ok_iff {file : Option Bytes} {records records' : List (LocalPosition floats.Float)}
    (h : listPositions floats file = .ok records) (p : Position floats.Float) :
    (upsert floats file p >>= listPositions floats) = .ok records'
      ↔ (∀ r ∈ upsertRecord p records, r.Fits floats floats.writeDepth)
        ∧ p.record.Fits floats floats.readDepth ∧ records' = upsertRecord p records := by
  have hmem : ∀ {r}, r ∈ upsertRecord p records → r = p.record ∨ r ∈ records :=
    OrderedMaps.mem_of_mem_upsert
  have hown : p.record ∈ upsertRecord p records := OrderedMaps.mem_upsert.mpr (.inl rfl)
  have hne : upsertRecord p records ≠ [] := List.ne_nil_of_mem hown
  have hkeyed : ∀ r ∈ upsertRecord p records, r.Keyed := by
    intro r hr
    rcases hmem hr with rfl | hr
    · exact p.keyed
    · exact (of_listPositions h r hr).1
  have hread : (∀ r ∈ upsertRecord p records, r.Fits floats floats.readDepth)
      ↔ p.record.Fits floats floats.readDepth := by
    refine ⟨fun hall => hall _ hown, fun hp r hr => ?_⟩
    rcases hmem hr with rfl | hr
    · exact hp
    · exact (of_listPositions h r hr).2
  rw [upsert, h, ← limit_records hne, ← hread]
  show (writePayload floats _ >>= _) = _ ↔ _
  rw [writePayload]
  cases (Value.arr (((upsertRecord p records).map LocalPosition.toDict).map Value.obj)).limit floats
      floats.writeDepth 0 with
  | some limit =>
      refine ⟨fun heq => ?_, fun heq => ?_⟩
      · cases heq
      · cases heq.1
  | none =>
      refine (listPositions_written hne hkeyed).trans ⟨fun heq => ⟨rfl, heq⟩, fun heq => heq.2⟩

/-! ## Runs -/

/-- What a run starts with and what it is given meet no limit: the file can be read, the records
    that the first upsert leaves can be written, and the new ones be written and read. -/
structure Within (floats : Floats) (file : Option Bytes) (positions : List (Position floats.Float)) :
    Prop where
  reads : ∀ bytes ∈ file, ∃ text, decodeUtf8 bytes = some text ∧ ¬ Raises floats text
  left : ∀ records, listPositions floats file = .ok records → ∀ p ∈ positions.head?,
    ∀ r ∈ records.eraseP fun r => recordId r = some p.id, r.Fits floats floats.writeDepth
  given : ∀ p ∈ positions,
    p.record.Fits floats floats.writeDepth ∧ p.record.Fits floats floats.readDepth

/-- When a file can be read. -/
theorem readable_iff {file : Option Bytes} :
    (∀ bytes ∈ file, ∃ text, decodeUtf8 bytes = some text ∧ ¬ Raises floats text)
      ↔ ∃ records, listPositions floats file = .ok records := by
  cases file with
  | none => exact ⟨fun _ => ⟨[], rfl⟩, fun _ bytes h => by cases h⟩
  | some bytes =>
      simp only [Option.mem_def, Option.some.injEq, forall_eq']
      rw [listPositions, readPayload]
      cases decodeUtf8 bytes with
      | none =>
          constructor
          · rintro ⟨text, htext, _⟩
            cases htext
          · rintro ⟨records, h⟩
            cases h
      | some text =>
          dsimp only
          constructor
          · rintro ⟨t, ht, hraises⟩
            obtain rfl := Option.some.inj ht
            rcases not_raises_iff.mp hraises with ⟨v, hloads⟩ | hloads
            · rw [hloads]
              cases v <;> exact ⟨_, rfl⟩
            · rw [hloads]
              exact ⟨_, rfl⟩
          · rintro ⟨records, h⟩
            refine ⟨text, rfl, ?_⟩
            rintro (hloads | hloads)
            · rw [hloads] at h
              cases h
            · rw [hloads] at h
              cases h

/-- The records after a run on a list. -/
def upsertRecords (records : List (LocalPosition floats.Float))
    (positions : List (Position floats.Float)) : List (LocalPosition floats.Float) :=
  OrderedMaps.upserts recordId Position.id Position.record records positions

/-- **A run that stays within the limits** is one on the list of its records.  Induction on the
    upserts; what is written once can be written again. -/
theorem upserts_eq_ok {positions : List (Position floats.Float)} :
    ∀ {file : Option Bytes} {records : List (LocalPosition floats.Float)},
    listPositions floats file = .ok records → Within floats file positions →
    (upserts floats file positions >>= listPositions floats)
      = .ok (upsertRecords records positions) := by
  induction positions with
  | nil =>
      intro file records h _
      exact h
  | cons p positions ih =>
      intro file records h hwithin
      rw [upserts, List.foldlM_cons]
      have hgiven := List.forall_mem_cons.mp hwithin.given
      have hwritten : ∀ r ∈ upsertRecord p records, r.Fits floats floats.writeDepth := by
        intro r hr
        rcases OrderedMaps.mem_upsert.mp hr with rfl | hr
        · exact hgiven.1.1
        · exact hwithin.left records h p rfl r hr
      have hstep := (upsert_eq_ok_iff h p).mpr ⟨hwritten, hgiven.1.2, rfl⟩
      cases hupsert : upsert floats file p with
      | error raised =>
          rw [hupsert] at hstep
          cases hstep
      | ok file' =>
          rw [hupsert] at hstep
          have hread : listPositions floats file' = .ok (upsertRecord p records) := hstep
          refine ih hread ⟨readable_iff.mpr ⟨_, hread⟩, fun records' h' q _ r hr => ?_, hgiven.2⟩
          rw [hread] at h'
          rw [← Except.ok.inj h'] at hr
          exact hwritten r (List.mem_of_mem_eraseP hr)

theorem Within.start {file : Option Bytes} {before after : List (Position floats.Float)}
    (h : Within floats file (before ++ after)) : Within floats file before where
  reads := h.reads
  left records hrecords p hp := by
    refine h.left records hrecords p ?_
    cases before with
    | nil => cases hp
    | cons q before => exact hp
  given p hp := h.given p (List.mem_append_left _ hp)

/-- The records whose ids are not among those of a list. -/
def untouched (positions : List (Position floats.Float)) :
    List (LocalPosition floats.Float) → List (LocalPosition floats.Float) :=
  List.filter fun q => decide (∀ p ∈ positions, recordId q ≠ some p.id)

/-- **What the storage is expected to be**: a map in the order of its ids.  `reads` says that the
    file can be read, `refines` what the records stand for after a run, `latest` what is found,
    `step` what each upsert does to the list, `kept` that records with other ids read as before,
    `dict` that a record is read back from its dictionary. -/
structure RefinesOrderedMap (floats : Floats) (file : Option Bytes)
    (positions : List (Position floats.Float)) : Prop where
  reads : ∃ records, listPositions floats file = .ok records
  refines : (upserts floats file positions >>= listPositions floats).map (abs recordId)
    = (listPositions floats file).map fun records =>
        (abs recordId records).sets Position.id Position.record positions
  latest : ∀ id, (upserts floats file positions >>= getPosition floats id)
    = (getPosition floats id file).map fun found =>
        (OrderedMap.lastSet Position.id Position.record id positions).or found
  step : ∀ before p after, positions = before ++ p :: after → ∃ records records',
    (upserts floats file before >>= listPositions floats) = .ok records
      ∧ (upserts floats file (before ++ [p]) >>= listPositions floats) = .ok records'
      ∧ Upserts recordId p.id p.record records records'
      ∧ others recordId p.id records' = others recordId p.id records
  kept : (upserts floats file positions >>= listPositions floats).map (untouched positions)
    = (listPositions floats file).map (untouched positions)
  dict : ∀ p : LocalPosition floats.Float, fromDict floats p.toDict = p

theorem refinesOrderedMap_of_within {file : Option Bytes}
    {positions : List (Position floats.Float)} (h : Within floats file positions) :
    RefinesOrderedMap floats file positions := by
  obtain ⟨records, hrecords⟩ := readable_iff.mp h.reads
  have hrun := upserts_eq_ok hrecords h
  have habs := OrderedMaps.abs_upserts recordId_record positions records
  constructor
  · exact ⟨records, hrecords⟩
  · rw [hrun, hrecords]
    exact congrArg Except.ok habs
  · intro id
    have hfound : find recordId id (upsertRecords records positions)
        = (OrderedMap.lastSet Position.id Position.record id positions).or
          (find recordId id records) := by
      rw [← OrderedMaps.get_abs, ← OrderedMaps.get_abs, upsertRecords, habs, OrderedMap.get_sets]
    have hget : (upserts floats file positions >>= getPosition floats id)
        = (upserts floats file positions >>= listPositions floats).map (find recordId id) := by
      cases upserts floats file positions <;> rfl
    rw [hget, hrun, getPosition, hrecords]
    exact congrArg Except.ok hfound
  · rintro before p after rfl
    have hall : Within floats file ((before ++ [p]) ++ after) := by
      rwa [List.append_assoc]
    have hafter : Within floats file (before ++ [p]) := hall.start
    refine ⟨_, _, upserts_eq_ok hrecords h.start, upserts_eq_ok hrecords hafter, ?_⟩
    have hlast : upsertRecords records (before ++ [p])
        = upsertRecord p (upsertRecords records before) := List.foldl_concat ..
    rw [hlast]
    exact ⟨OrderedMaps.upserts_upsert _ _ _, OrderedMaps.others_upsert (recordId_record p) _⟩
  · rw [hrun, hrecords]
    refine congrArg Except.ok ?_
    exact OrderedMaps.filter_upserts recordId_record positions records fun p hp q hq =>
      decide_eq_false fun h => h p hp hq
  · exact fromDict_toDict floats

/-- Each upsert of a run that returns stays within the limits. -/
theorem within_of_refinesOrderedMap {file : Option Bytes}
    {positions : List (Position floats.Float)} (h : RefinesOrderedMap floats file positions) :
    Within floats file positions := by
  have hstep : ∀ before p after, positions = before ++ p :: after → ∃ file' records,
      upserts floats file before = .ok file' ∧ listPositions floats file' = .ok records
        ∧ (∀ r ∈ upsertRecord p records, r.Fits floats floats.writeDepth)
        ∧ p.record.Fits floats floats.readDepth := by
    intro before p after heq
    obtain ⟨records, records', hbefore, hafter, _⟩ := h.step before p after heq
    rw [upserts, List.foldlM_append] at hafter
    cases hupserts : upserts floats file before with
    | error raised =>
        rw [hupserts] at hbefore
        cases hbefore
    | ok file' =>
        rw [hupserts] at hbefore
        have hread : listPositions floats file' = .ok records := hbefore
        rw [show List.foldlM (upsert floats) file before = .ok file' from hupserts] at hafter
        have hlast : (upsert floats file' p >>= listPositions floats) = .ok records' := by
          rw [← hafter]
          show _ = ((upsert floats file' p >>= pure) >>= listPositions floats)
          rw [bind_pure]
        obtain ⟨hwrite, hfits, _⟩ := (upsert_eq_ok_iff hread p).mp hlast
        exact ⟨file', records, rfl, hread, hwrite, hfits⟩
  refine ⟨readable_iff.mpr h.reads, fun records hrecords p hp r hr => ?_, fun p hp => ?_⟩
  · obtain ⟨rest, rfl⟩ : ∃ rest, positions = p :: rest := by
      cases positions with
      | nil => cases hp
      | cons q rest => exact ⟨rest, by rw [Option.some.inj hp]⟩
    obtain ⟨file', records', hfile, hread, hwrite, _⟩ := hstep [] p rest rfl
    obtain rfl : file = file' := Except.ok.inj hfile
    rw [hrecords] at hread
    obtain rfl := Except.ok.inj hread
    exact hwrite r (OrderedMaps.mem_upsert.mpr (.inr hr))
  · obtain ⟨before, after, heq⟩ := List.append_of_mem hp
    obtain ⟨_, records, _, _, hwrite, hread⟩ := hstep before p after heq
    exact ⟨hwrite _ (OrderedMaps.mem_upsert.mpr (.inl rfl)), hread⟩

/-- **WHEN THE STORAGE IS A MAP THAT KEEPS THE ORDER OF ITS IDS**: exactly if neither the file it
    starts with nor a record meets a limit. -/
theorem refinesOrderedMap_iff (floats : Floats) (file : Option Bytes)
    (positions : List (Position floats.Float)) :
    RefinesOrderedMap floats file positions ↔ Within floats file positions :=
  ⟨within_of_refinesOrderedMap, refinesOrderedMap_of_within⟩

/-- `[1…1]`, an integer of 5000 digits. -/
def longList : Loaded limitedFloats.Float := .arr [.int (ones 5000)]

theorem limit_longList :
    longList.limit limitedFloats limitedFloats.readDepth 0 = some .digits := by
  rw [longList, Value.limit, itemsLimit, Value.limit, Int.natAbs_natCast, digitLimit_ones]
  rfl

def longFile : Bytes := encodeUtf8 (dumps limitedFloats longList)

/-- That file is a list with an item that is no object, and nothing is read: `ValueError` comes
    instead. -/
theorem not_refinesOrderedMap_long : ¬ RefinesOrderedMap limitedFloats (some longFile) [] := by
  intro h
  obtain ⟨text, htext, hraises⟩ := (within_of_refinesOrderedMap h).reads longFile rfl
  rw [longFile, decodeUtf8_encodeUtf8] at htext
  rw [← Option.some.inj htext] at hraises
  have hkeyed : longList.Keyed := ⟨trivial, trivial⟩
  refine hraises (.inl ?_)
  rw [loads_dumps limitedFloats hkeyed, limit_longList]
  rfl

/-! ## Records of the declared types -/

/-- A record with a value of its declared type in every field; the float of `none` is infinite. -/
def ofTyped (price : Option ℚ → floats.Float) (p : Predict.LocalPosition) :
    LocalPosition floats.Float where
  positionId := .str p.positionId
  marketId := .str p.marketId
  question := .str p.question
  outcomeName := .str p.outcomeName
  tokenId := .str p.tokenId
  side := .str p.side
  strategy := .str p.strategy
  entryTime := .str p.entryTime
  entryPrice := .float (price (some p.entryPrice))
  quantity := .str p.quantity
  notionalUsdt := .float (price p.notionalUsdt)
  orderHash := .str p.orderHash
  orderStatus := .str p.orderStatus
  fillAmount := p.fillAmount.elim .null fun t => .str t
  feeRateBps := .int p.feeRateBps
  source := .str p.source
  notes := p.notes.elim .null fun t => .str t
  status := .str p.status

theorem keyed_elim {F : Type} (t : Option Text) :
    (t.elim .null fun t => .str t : Loaded F).Keyed := by
  cases t with
  | none => trivial
  | some t => trivial

def positionOfTyped (price : Option ℚ → floats.Float) (p : Predict.LocalPosition) :
    Position floats.Float where
  record := ofTyped price p
  id := p.positionId
  positionId_eq := rfl
  keyed := ⟨trivial, trivial, trivial, trivial, trivial, trivial, trivial, trivial, trivial,
    trivial, trivial, trivial, trivial, keyed_elim _, trivial, trivial, keyed_elim _, trivial,
    trivial⟩

theorem upsertInto_eq (p : Predict.LocalPosition) (records : List Predict.LocalPosition) :
    Predict.upsertInto p records
      = OrderedMaps.upsert (fun q => some (Str.ofText q.positionId)) (Str.ofText p.positionId) p
        records := by
  induction records with
  | nil => rfl
  | cons q records ih =>
      rw [Predict.upsertInto, OrderedMaps.upsert, ih]
      by_cases hq : q.positionId = p.positionId
      · rw [if_pos hq, if_pos (by rw [hq])]
      · rw [if_neg hq, if_neg fun h => hq (Str.ofText_injective (Option.some.inj h))]

/-- **The records that the commands reason about are those of the file**, unless it meets a
    limit. -/
theorem listPositions_typed (price : Option ℚ → floats.Float) {file : Option Bytes}
    {records : List Predict.LocalPosition}
    (h : listPositions floats file = .ok (records.map (ofTyped price))) (p : Predict.LocalPosition)
    (hwithin : Within floats file [positionOfTyped price p]) :
    (upsert floats file (positionOfTyped price p) >>= listPositions floats)
      = .ok (((Predict.PositionsFile.records records).upsert p).listPositions.map
        (ofTyped price)) := by
  have hrun := upserts_eq_ok h hwithin
  have hone : upserts floats file [positionOfTyped price p]
      = upsert floats file (positionOfTyped price p) := bind_pure _
  rw [hone] at hrun
  refine hrun.trans (congrArg Except.ok ?_)
  show OrderedMaps.upsert recordId _ _ _ = (Predict.upsertInto p records).map (ofTyped price)
  rw [upsertInto_eq]
  exact OrderedMaps.upsert_map (f := ofTyped price) (fun _ => rfl) (Str.ofText p.positionId) p
    records

end PositionStorage
