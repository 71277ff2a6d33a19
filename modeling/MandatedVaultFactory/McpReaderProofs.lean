import MandatedVaultFactory.McpFramingProofs

/-!
# The stream of an MCP server that may be broken

`_read_message` over any bytes, with what the model of well-formed streams leaves out: a stream
that has not ended may have nothing to read, and `int` reads more than ASCII.

* **`Reader`**, **`readMessage`** — the functions over such a stream; a call that waits has no
  outcome.
* **`Ends`** — how a block of headers ends; `readHeaders_spec`.
* **`readStdoutExactly_there`**, **`readStdoutExactly_missing`**, **`readStdoutExactly_neg`** — a
  body, by its length.
* **`readMessage_ofReader`** — on streams that have ended it is the model of well-formed ones.
* **`bounded_readMessage`** — calls leave less than one read in the buffer. -/

namespace Mcp.Live

open Encoding Texts Json

/-! ## The stream -/

/-- Standard output of the process: the bytes that have been delivered and not read, whether
    the stream has ended behind them, and how many of them each read finds. -/
structure Pipe where
  delivered : Bytes
  ended : Bool
  sizes : Nat → Nat
  reads : Nat

/-- `await process.stdout.read(n)`; without bytes it waits, unless the stream has ended. -/
def Pipe.read (p : Pipe) (n : Nat) : Option (Bytes × Pipe) :=
  if p.delivered = [] ∧ p.ended = false then none
  else
    let found := min (max 1 (p.sizes p.reads)) n
    some (p.delivered.take found,
      { p with delivered := p.delivered.drop found, reads := p.reads + 1 })

/-- `self._stdout_buffer`, and what it is filled from. -/
structure Reader where
  buffer : Bytes
  pipe : Pipe

/-- Everything that is there. -/
def Reader.pending (r : Reader) : Bytes := r.buffer ++ r.pipe.delivered

/-- A read finds bytes, as many as were asked for at most, or the end of the stream. -/
theorem Pipe.read_spec {p q : Pipe} {n : Nat} {chunk : Bytes} (h : p.read n = some (chunk, q)) :
    chunk ++ q.delivered = p.delivered ∧ q.ended = p.ended ∧ chunk.length ≤ n
      ∧ (0 < n → chunk = [] → p.delivered = [] ∧ p.ended = true) := by
  rw [Pipe.read] at h
  split at h
  · cases h
  · rename_i hthere
    simp only [Option.some.injEq, Prod.mk.injEq] at h
    obtain ⟨rfl, rfl⟩ := h
    refine ⟨List.take_append_drop _ _, rfl, ?_, fun hn hnil => ?_⟩
    · rw [List.length_take]
      omega
    · have hnone : p.delivered = [] := by
        rcases List.take_eq_nil_iff.mp hnil with hzero | hnil
        · omega
        · exact hnil
      refine ⟨hnone, ?_⟩
      cases hended : p.ended with
      | true => rfl
      | false => exact absurd ⟨hnone, hended⟩ hthere

theorem Pipe.read_eq_none {p : Pipe} {n : Nat} (h : p.read n = none) :
    p.delivered = [] ∧ p.ended = false := by
  rw [Pipe.read] at h
  split at h
  · rename_i hwaits
    exact hwaits
  · cases h

/-! ## The functions -/

/-- `_read_stdout_line`. -/
def readStdoutLine (r : Reader) : Option (Bytes × Reader) :=
  match splitLine r.buffer with
  | some (line, rest) => some (line, { r with buffer := rest })
  | none =>
      match _hread : r.pipe.read 65536 with
      | none => none
      | some (chunk, pipe) =>
          if _hend : chunk = [] then
            if r.buffer = [] then some ([], { r with pipe := pipe })
            else some (r.buffer, { buffer := [], pipe := pipe })
          else readStdoutLine { buffer := r.buffer ++ chunk, pipe := pipe }
termination_by r.pipe.delivered.length
decreasing_by
  have happend := congrArg List.length (Pipe.read_spec _hread).1
  have hpos := List.length_pos_iff.mpr _hend
  rw [List.length_append] at happend
  omega

/-- The line at the start of what is there: up to a newline, or to the end of the stream. -/
def lineAt (ended : Bool) (bytes : Bytes) : Option (Bytes × Bytes) :=
  match splitLine bytes with
  | some p => some p
  | none => if ended = true then some (bytes, []) else none

theorem lineAt_append {ended : Bool} {bytes line rest : Bytes}
    (h : lineAt ended bytes = some (line, rest)) : bytes = line ++ rest := by
  unfold lineAt at h
  split at h
  · rename_i p hsplit
    rw [Option.some.inj h] at hsplit
    exact eq_append_of_splitLine hsplit
  · split at h
    · cases h
      exact (List.append_nil _).symm
    · cases h

theorem not_ended_of_lineAt {ended : Bool} {bytes : Bytes} (h : lineAt ended bytes = none) :
    ended = false := by
  cases ended with
  | false => rfl
  | true =>
      unfold lineAt at h
      split at h
      · cases h
      · cases h

theorem readStdoutLine_buffered {r : Reader} {line rest : Bytes}
    (h : splitLine r.buffer = some (line, rest)) :
    readStdoutLine r = some (line, { r with buffer := rest }) := by
  rw [readStdoutLine, h]

/-- Without a newline in the buffer there is a read first. -/
theorem readStdoutLine_read {r : Reader} (h : splitLine r.buffer = none) :
    readStdoutLine r = match r.pipe.read 65536 with
      | none => none
      | some (chunk, pipe) =>
          if chunk = [] then some (r.buffer, { buffer := [], pipe := pipe })
          else readStdoutLine { buffer := r.buffer ++ chunk, pipe := pipe } := by
  rw [readStdoutLine, h]
  dsimp only
  split
  · rename_i hnone
    rw [hnone]
  · rename_i chunk pipe hsome
    rw [hsome]
    dsimp only
    by_cases hchunk : chunk = []
    · rw [dif_pos hchunk, if_pos hchunk]
      by_cases hnil : r.buffer = []
      · rw [if_pos hnil, hnil]
      · rw [if_neg hnil]
    · rw [dif_neg hchunk, if_neg hchunk]

theorem readStdoutLine_waits {r : Reader} (h : splitLine r.buffer = none)
    (hread : r.pipe.read 65536 = none) : readStdoutLine r = none := by
  rw [readStdoutLine_read h, hread]

theorem readStdoutLine_end {r : Reader} {pipe : Pipe} (h : splitLine r.buffer = none)
    (hread : r.pipe.read 65536 = some ([], pipe)) :
    readStdoutLine r = some (r.buffer, { buffer := [], pipe := pipe }) := by
  rw [readStdoutLine_read h, hread]
  exact if_pos rfl

theorem readStdoutLine_more {r : Reader} {chunk : Bytes} {pipe : Pipe}
    (h : splitLine r.buffer = none) (hread : r.pipe.read 65536 = some (chunk, pipe))
    (hmore : chunk ≠ []) :
    readStdoutLine r = readStdoutLine { buffer := r.buffer ++ chunk, pipe := pipe } := by
  rw [readStdoutLine_read h, hread]
  exact if_neg hmore

/-- **A line is what stands there, wherever the reads cut it**, and without one the call waits.
    Induction on the reads. -/
theorem readStdoutLine_spec (r : Reader) :
    (readStdoutLine r).map (fun p => (p.1, p.2.pending, p.2.pipe.ended))
      = (lineAt r.pipe.ended r.pending).map fun p => (p.1, p.2, r.pipe.ended) := by
  induction hlength : r.pipe.delivered.length using Nat.strongRecOn generalizing r with
  | ind n ih =>
      cases hsplit : splitLine r.buffer with
      | some p =>
          rw [readStdoutLine_buffered hsplit, lineAt, Reader.pending,
            splitLine_append_of_some hsplit]
          rfl
      | none =>
          cases hread : r.pipe.read 65536 with
          | none =>
              obtain ⟨hnone, hended⟩ := Pipe.read_eq_none hread
              have hpending : r.pending = r.buffer := by
                rw [Reader.pending, hnone, List.append_nil]
              rw [readStdoutLine_waits hsplit hread, hpending, lineAt, hsplit, hended]
              rfl
          | some found =>
              obtain ⟨chunk, pipe⟩ := found
              obtain ⟨happend, hended, _, hend⟩ := Pipe.read_spec hread
              by_cases hchunk : chunk = []
              · subst hchunk
                obtain ⟨hnone, htrue⟩ := hend (by decide) rfl
                have hrest : pipe.delivered = [] := happend.trans hnone
                have hpending : r.pending = r.buffer := by
                  rw [Reader.pending, hnone, List.append_nil]
                rw [readStdoutLine_end hsplit hread, hpending, lineAt, hsplit, htrue]
                show some (r.buffer, [] ++ pipe.delivered, pipe.ended) = some (r.buffer, [], true)
                rw [hrest, hended, htrue]
                rfl
              · have hpos := List.length_pos_iff.mpr hchunk
                have hlengths := congrArg List.length happend
                rw [List.length_append] at hlengths
                have hpending : (Reader.mk (r.buffer ++ chunk) pipe).pending = r.pending := by
                  show r.buffer ++ chunk ++ pipe.delivered = r.buffer ++ r.pipe.delivered
                  rw [List.append_assoc, happend]
                have hnext := ih pipe.delivered.length (by omega)
                  (Reader.mk (r.buffer ++ chunk) pipe) rfl
                rw [readStdoutLine_more hsplit hread hchunk, hnext, hpending]
                show (lineAt pipe.ended r.pending).map (fun p => (p.1, p.2, pipe.ended)) = _
                rw [hended]

/-- A call that reads a line. -/
theorem readStdoutLine_some {r r' : Reader} {line : Bytes}
    (h : readStdoutLine r = some (line, r')) :
    lineAt r.pipe.ended r.pending = some (line, r'.pending) ∧ r'.pipe.ended = r.pipe.ended := by
  have hspec := readStdoutLine_spec r
  rw [h, Option.map_some, eq_comm, Option.map_eq_some_iff] at hspec
  obtain ⟨p, hp, heq⟩ := hspec
  simp only [Prod.mk.injEq] at heq
  rw [hp, ← heq.1, ← heq.2.1]
  exact ⟨rfl, heq.2.2.symm⟩

theorem exists_readStdoutLine {r : Reader} {line rest : Bytes}
    (h : lineAt r.pipe.ended r.pending = some (line, rest)) :
    ∃ r', readStdoutLine r = some (line, r') ∧ r'.pending = rest
      ∧ r'.pipe.ended = r.pipe.ended := by
  have hspec := readStdoutLine_spec r
  rw [h, Option.map_some, Option.map_eq_some_iff] at hspec
  obtain ⟨p, hp, heq⟩ := hspec
  simp only [Prod.mk.injEq] at heq
  exact ⟨p.2, by rw [hp, ← heq.1], heq.2⟩

theorem readStdoutLine_eq_none {r : Reader} :
    readStdoutLine r = none ↔ lineAt r.pipe.ended r.pending = none := by
  have hspec := congrArg Option.isNone (readStdoutLine_spec r)
  rw [Option.isNone_map, Option.isNone_map] at hspec
  rw [← Option.isNone_iff_eq_none, ← Option.isNone_iff_eq_none, hspec]

/-- Read until nothing is missing; no bytes where the stream ends before. -/
def readRemaining (remaining : Int) (chunks : Bytes) (p : Pipe) : Option (Option Bytes × Pipe) :=
  if 0 < remaining then
    match _hread : p.read remaining.toNat with
    | none => none
    | some (chunk, q) =>
        if _hend : chunk = [] then some (none, q)
        else readRemaining (remaining - chunk.length) (chunks ++ chunk) q
  else some (some chunks, p)
termination_by remaining.toNat
decreasing_by
  have hpos := List.length_pos_iff.mpr _hend
  omega

/-- `_read_stdout_exactly`. -/
def readStdoutExactly (length : Int) (r : Reader) : Option (Option Bytes × Reader) :=
  let buffered := sliceTo r.buffer length
  (readRemaining (length - buffered.length) buffered r.pipe).map fun rest =>
    (rest.1, { buffer := r.buffer.drop buffered.length, pipe := rest.2 })

/-- The header loop of `_read_message`, up to a blank line. -/
def readHeaders (headers : List (Text × Text)) (headerLine : Text) (r : Reader) :
    Option (Except Failure (List (Text × Text)) × Reader) :=
  if headerLine = [] then some (.ok headers, r)
  else match splitOnce ':' headerLine with
    | none => some (.error (.unavailable (.malformedHeaders headerLine)), r)
    | some (key, value) =>
        match _hread : readStdoutLine r with
        | none => none
        | some (nextLine, r') =>
            if _hline : nextLine = [] then some (.error (.unavailable .processExit), r')
            else match decodeUtf8 nextLine with
              | none => some (.error .unicodeDecodeError, r')
              | some line =>
                  readHeaders (insert (lower key) (strip value) headers) (strip line) r'
termination_by r.pending.length
decreasing_by
  have happend := congrArg List.length (lineAt_append (readStdoutLine_some _hread).1)
  have hpos := List.length_pos_iff.mpr _hline
  rw [List.length_append] at happend
  omega

/-- The body that `Content-Length: length` announces; `toInt` is `int(text)`. -/
def readBody (floats : Floats) (toInt : Text → Option Int) (length : Text) (r : Reader) :
    Option (Except Failure (Payload floats) × Reader) :=
  match toInt length with
  | none => some (.error (.unavailable .invalidPayload), r)
  | some n =>
      (readStdoutExactly n r).map fun body =>
        match body.1 with
        | none => (.error (.unavailable .invalidPayload), body.2)
        | some bytes => (loadsBody floats bytes, body.2)

/-- The first line of a block. -/
def isHeader (stripped : Text) : Bool := (contentLength ++ [':']).isPrefixOf (lower stripped)

/-- What is done with the length that the headers announce. -/
def readAnnounced (floats : Floats) (toInt : Text → Option Int) (announced : Option Text)
    (r : Reader) : Option (Except Failure (Payload floats) × Reader) :=
  match announced with
  | none => some (.error (.unavailable .omittedContentLength), r)
  | some length => readBody floats toInt length r

/-- What is done with the headers. -/
def readBlock (floats : Floats) (toInt : Text → Option Int)
    (found : Except Failure (List (Text × Text)) × Reader) :
    Option (Except Failure (Payload floats) × Reader) :=
  match found with
  | (.error raised, r) => some (.error raised, r)
  | (.ok headers, r) => readAnnounced floats toInt (Json.get contentLength headers) r

/-- `_read_message`. -/
def readMessage (floats : Floats) (toInt : Text → Option Int) (r : Reader) :
    Option (Except Failure (Payload floats) × Reader) :=
  match readStdoutLine r with
  | none => none
  | some (line, r') =>
      if line = [] then some (.error (.unavailable .processExit), r')
      else match decodeUtf8 line with
        | none => some (.error (.unavailable .undecodable), r')
        | some text =>
            if isHeader (strip text) = true then
              (readHeaders [] (strip text) r').bind (readBlock floats toInt)
            else some (loadsLine floats (strip text), r')

/-- A line that is text. -/
theorem readMessage_decoded (floats : Floats) (toInt : Text → Option Int) {r r' : Reader}
    {line : Bytes} {t : Text} (hread : readStdoutLine r = some (line, r')) (hne : line ≠ [])
    (hdecode : decodeUtf8 line = some t) :
    readMessage floats toInt r = if isHeader (strip t) = true
      then (readHeaders [] (strip t) r').bind (readBlock floats toInt)
      else some (loadsLine floats (strip t), r') := by
  rw [readMessage, hread]
  dsimp only
  rw [if_neg hne, hdecode]

/-! ## Headers -/

/-- How the reading of headers ends. -/
inductive Stop where
  | blank
  | malformed (headerLine : Text)
  | exit
  | undecodable
  | waits

/-- The headers from `headerLine` on, up to where they end, and what is left behind them. -/
inductive Ends (ended : Bool) : Text → Bytes → List Text → Stop → Bytes → Prop where
  | blank (bytes : Bytes) : Ends ended [] bytes [] .blank bytes
  | malformed (headerLine : Text) (bytes : Bytes) :
      headerLine ≠ [] → ':' ∉ headerLine →
      Ends ended headerLine bytes [] (.malformed headerLine) bytes
  | exit (headerLine : Text) (bytes rest : Bytes) :
      ':' ∈ headerLine → lineAt ended bytes = some ([], rest) →
      Ends ended headerLine bytes [headerLine] .exit rest
  | undecodable (headerLine : Text) (bytes line rest : Bytes) :
      ':' ∈ headerLine → lineAt ended bytes = some (line, rest) → line ≠ [] →
      decodeUtf8 line = none →
      Ends ended headerLine bytes [headerLine] .undecodable rest
  | waits (headerLine : Text) (bytes : Bytes) :
      ':' ∈ headerLine → lineAt ended bytes = none →
      Ends ended headerLine bytes [headerLine] .waits bytes
  | more (headerLine : Text) (bytes line rest : Bytes) (t : Text) (headers : List Text)
      (stop : Stop) (after : Bytes) :
      ':' ∈ headerLine → lineAt ended bytes = some (line, rest) → line ≠ [] →
      decodeUtf8 line = some t → Ends ended (strip t) rest headers stop after →
      Ends ended headerLine bytes (headerLine :: headers) stop after

/-- `headers[key.lower()] = value.strip()`. -/
def recordHeader (dict : List (Text × Text)) (h : Text) : List (Text × Text) :=
  match splitOnce ':' h with
  | none => dict
  | some (key, value) => insert (lower key) (strip value) dict

def record (dict : List (Text × Text)) (headers : List Text) : List (Text × Text) :=
  headers.foldl recordHeader dict

def Stop.outcome (headers : List (Text × Text)) :
    Stop → Option (Except Failure (List (Text × Text)))
  | .blank => some (.ok headers)
  | .malformed headerLine => some (.error (.unavailable (.malformedHeaders headerLine)))
  | .exit => some (.error (.unavailable .processExit))
  | .undecodable => some (.error .unicodeDecodeError)
  | .waits => none

theorem splitOnce_of_mem {c : Char} {t : Text} (h : c ∈ t) :
    ∃ key value, splitOnce c t = some (key, value) := by
  obtain ⟨before, after, rfl, hbefore⟩ := List.eq_append_cons_of_mem h
  exact ⟨before, after, splitOnce_append hbefore after⟩

theorem splitOnce_of_notMem {c : Char} {t : Text} (h : c ∉ t) : splitOnce c t = none := by
  induction t with
  | nil => rfl
  | cons d t ih =>
      rw [List.mem_cons, not_or] at h
      rw [splitOnce, if_neg (Ne.symm h.1), ih h.2]
      rfl

theorem record_cons {h key value : Text} (hsplit : splitOnce ':' h = some (key, value))
    (dict : List (Text × Text)) (headers : List Text) :
    record dict (h :: headers) = record (insert (lower key) (strip value) dict) headers := by
  rw [record, List.foldl_cons, recordHeader, hsplit]
  rfl

/-- A header is recorded, and the next line decides. -/
theorem readHeaders_read {headerLine key value : Text} (r : Reader)
    (hsplit : splitOnce ':' headerLine = some (key, value)) (dict : List (Text × Text)) :
    readHeaders dict headerLine r = match readStdoutLine r with
      | none => none
      | some (line, r') =>
          if line = [] then some (.error (.unavailable .processExit), r')
          else match decodeUtf8 line with
            | none => some (.error .unicodeDecodeError, r')
            | some t => readHeaders (insert (lower key) (strip value) dict) (strip t) r' := by
  have hne : headerLine ≠ [] := by
    rintro rfl
    cases hsplit
  rw [readHeaders, if_neg hne, hsplit]
  dsimp only
  split
  · rename_i hnone
    rw [hnone]
  · rename_i line r' hsome
    rw [hsome]
    dsimp only
    by_cases hline : line = []
    · rw [dif_pos hline, if_pos hline]
    · rw [dif_neg hline, if_neg hline]

theorem readHeaders_exit {headerLine key value : Text} {r r' : Reader}
    (hsplit : splitOnce ':' headerLine = some (key, value)) (dict : List (Text × Text))
    (hread : readStdoutLine r = some ([], r')) :
    readHeaders dict headerLine r = some (.error (.unavailable .processExit), r') := by
  rw [readHeaders_read r hsplit dict, hread]
  exact if_pos rfl

theorem readHeaders_undecodable {headerLine key value : Text} {r r' : Reader} {line : Bytes}
    (hsplit : splitOnce ':' headerLine = some (key, value)) (dict : List (Text × Text))
    (hread : readStdoutLine r = some (line, r')) (hne : line ≠ [])
    (hdecode : decodeUtf8 line = none) :
    readHeaders dict headerLine r = some (.error .unicodeDecodeError, r') := by
  rw [readHeaders_read r hsplit dict, hread]
  dsimp only
  rw [if_neg hne, hdecode]

theorem readHeaders_more {headerLine key value t : Text} {r r' : Reader} {line : Bytes}
    (hsplit : splitOnce ':' headerLine = some (key, value)) (dict : List (Text × Text))
    (hread : readStdoutLine r = some (line, r')) (hne : line ≠ [])
    (hdecode : decodeUtf8 line = some t) :
    readHeaders dict headerLine r
      = readHeaders (insert (lower key) (strip value) dict) (strip t) r' := by
  rw [readHeaders_read r hsplit dict, hread]
  dsimp only
  rw [if_neg hne, hdecode]

theorem readHeaders_waits {headerLine key value : Text} {r : Reader}
    (hsplit : splitOnce ':' headerLine = some (key, value)) (dict : List (Text × Text))
    (hread : readStdoutLine r = none) : readHeaders dict headerLine r = none := by
  rw [readHeaders_read r hsplit dict, hread]

/-- **The header loop does what the headers say.**  Induction on them. -/
theorem readHeaders_spec {ended : Bool} {headerLine : Text} {bytes after : Bytes}
    {headers : List Text} {stop : Stop} (h : Ends ended headerLine bytes headers stop after) :
    ∀ (dict : List (Text × Text)) (r : Reader), r.pending = bytes → r.pipe.ended = ended →
    (readHeaders dict headerLine r).map (fun p => (p.1, p.2.pending, p.2.pipe.ended))
      = (stop.outcome (record dict headers)).map fun o => (o, after, ended) := by
  induction h with
  | blank bytes =>
      rintro dict r rfl rfl
      rw [readHeaders, if_pos rfl]
      rfl
  | malformed headerLine bytes hne hcolon =>
      rintro dict r rfl rfl
      rw [readHeaders, if_neg hne, splitOnce_of_notMem hcolon]
      rfl
  | exit headerLine bytes rest hcolon hline =>
      rintro dict r rfl rfl
      obtain ⟨key, value, hsplit⟩ := splitOnce_of_mem hcolon
      obtain ⟨r', hread, rfl, hended⟩ := exists_readStdoutLine hline
      rw [readHeaders_exit hsplit dict hread, ← hended]
      rfl
  | undecodable headerLine bytes line rest hcolon hline hne hdecode =>
      rintro dict r rfl rfl
      obtain ⟨key, value, hsplit⟩ := splitOnce_of_mem hcolon
      obtain ⟨r', hread, rfl, hended⟩ := exists_readStdoutLine hline
      rw [readHeaders_undecodable hsplit dict hread hne hdecode, ← hended]
      rfl
  | waits headerLine bytes hcolon hline =>
      rintro dict r rfl rfl
      obtain ⟨key, value, hsplit⟩ := splitOnce_of_mem hcolon
      rw [readHeaders_waits hsplit dict (readStdoutLine_eq_none.mpr hline)]
      rfl
  | more headerLine bytes line rest t headers stop after hcolon hline hne hdecode _ ih =>
      rintro dict r rfl rfl
      obtain ⟨key, value, hsplit⟩ := splitOnce_of_mem hcolon
      obtain ⟨r', hread, hrest, hended⟩ := exists_readStdoutLine hline
      rw [readHeaders_more hsplit dict hread hne hdecode, record_cons hsplit]
      exact ih _ r' hrest hended

/-- The headers end somehow.  Strong induction on the bytes. -/
theorem exists_ends (ended : Bool) (headerLine : Text) (bytes : Bytes) :
    ∃ headers stop after, Ends ended headerLine bytes headers stop after := by
  induction hlength : bytes.length using Nat.strongRecOn generalizing headerLine bytes with
  | ind n ih =>
      by_cases hnil : headerLine = []
      · subst hnil
        exact ⟨_, _, _, .blank bytes⟩
      by_cases hcolon : ':' ∈ headerLine
      · cases hline : lineAt ended bytes with
        | none => exact ⟨_, _, _, .waits headerLine bytes hcolon hline⟩
        | some p =>
            obtain ⟨line, rest⟩ := p
            by_cases hempty : line = []
            · subst hempty
              exact ⟨_, _, _, .exit headerLine bytes rest hcolon hline⟩
            cases hdecode : decodeUtf8 line with
            | none =>
                exact ⟨_, _, _, .undecodable headerLine bytes line rest hcolon hline hempty hdecode⟩
            | some t =>
                have hlengths := congrArg List.length (lineAt_append hline)
                have hpos := List.length_pos_iff.mpr hempty
                rw [List.length_append] at hlengths
                obtain ⟨headers, stop, after, hends⟩ :=
                  ih rest.length (by omega) (strip t) rest rfl
                exact ⟨_, _, _, .more headerLine bytes line rest t headers stop after hcolon hline
                  hempty hdecode hends⟩
      · exact ⟨_, _, _, .malformed headerLine bytes hnil hcolon⟩

/-- What a header says of the length. -/
def lengthValue (h : Text) : Option Text :=
  (splitOnce ':' h).bind fun p => if lower p.1 = contentLength then some (strip p.2) else none

/-- The length that headers announce; the last that does counts. -/
def announced (headers : List Text) : Option Text := headers.reverse.findSome? lengthValue

theorem get_recordHeader (dict : List (Text × Text)) (h : Text) :
    Json.get contentLength (recordHeader dict h)
      = (lengthValue h).or (Json.get contentLength dict) := by
  rw [recordHeader, lengthValue]
  cases splitOnce ':' h with
  | none => rfl
  | some p =>
      obtain ⟨key, value⟩ := p
      rw [Option.bind_some]
      by_cases hkey : lower key = contentLength
      · rw [if_pos hkey, Option.some_or]
        show Json.get contentLength (insert (lower key) (strip value) dict) = _
        rw [hkey, get_insert_self]
      · rw [if_neg hkey, Option.none_or]
        exact get_insert_of_ne hkey _ _

theorem get_record (headers : List Text) : ∀ dict : List (Text × Text),
    Json.get contentLength (record dict headers)
      = (announced headers).or (Json.get contentLength dict) := by
  induction headers with
  | nil =>
      intro dict
      rfl
  | cons h headers ih =>
      intro dict
      have hannounced : announced (h :: headers) = (announced headers).or (lengthValue h) := by
        rw [announced, List.reverse_cons, List.findSome?_append, List.findSome?_singleton]
        rfl
      show Json.get contentLength (record (recordHeader dict h) headers) = _
      rw [ih, get_recordHeader, hannounced, Option.or_assoc]

/-- A block of headers, and what stands behind the blank line. -/
def HeaderBlock (ended : Bool) (bytes : Bytes) (headers : List Text) (stop : Stop)
    (after : Bytes) : Prop :=
  ∃ line rest t, lineAt ended bytes = some (line, rest) ∧ line ≠ [] ∧ decodeUtf8 line = some t
    ∧ isHeader (strip t) = true ∧ Ends ended (strip t) rest headers stop after

theorem HeaderBlock.outcome_eq {ended : Bool} {bytes after after' : Bytes}
    {headers headers' : List Text} {stop stop' : Stop}
    (h : HeaderBlock ended bytes headers stop after)
    (h' : HeaderBlock ended bytes headers' stop' after') :
    (stop.outcome (record [] headers)).map (fun o => (o, after, ended))
      = (stop'.outcome (record [] headers')).map fun o => (o, after', ended) := by
  obtain ⟨line, rest, t, hline, _, hdecode, _, hends⟩ := h
  obtain ⟨line', rest', t', hline', _, hdecode', _, hends'⟩ := h'
  rw [hline] at hline'
  cases hline'
  rw [hdecode] at hdecode'
  cases hdecode'
  let r : Reader := { buffer := rest, pipe := ⟨[], ended, fun _ => 0, 0⟩ }
  have hpending : r.pending = rest := List.append_nil _
  rw [← readHeaders_spec hends [] r hpending rfl, ← readHeaders_spec hends' [] r hpending rfl]

/-- A block is a block in one way only. -/
theorem HeaderBlock.unique {ended : Bool} {bytes after after' : Bytes}
    {headers headers' : List Text} {stop : Stop} (h : HeaderBlock ended bytes headers .blank after)
    (h' : HeaderBlock ended bytes headers' stop after') :
    announced headers' = announced headers ∧ stop = .blank ∧ after' = after := by
  have hsame := h.outcome_eq h'
  cases stop with
  | blank =>
      simp only [Stop.outcome, Option.map_some, Option.some.injEq, Prod.mk.injEq,
        Except.ok.injEq] at hsame
      have hget := congrArg (Json.get contentLength) hsame.1
      have hnone : ∀ o : Option Text, o.or (Json.get contentLength []) = o :=
        fun o => Option.or_none
      rw [get_record, get_record, hnone, hnone] at hget
      exact ⟨hget.symm, rfl, hsame.2.1.symm⟩
  | malformed headerLine => simp [Stop.outcome] at hsame
  | exit => simp [Stop.outcome] at hsame
  | undecodable => simp [Stop.outcome] at hsame
  | waits => simp [Stop.outcome] at hsame

theorem HeaderBlock.waits_unique {ended : Bool} {bytes after after' : Bytes}
    {headers headers' : List Text} {stop : Stop}
    (h : HeaderBlock ended bytes headers .waits after)
    (h' : HeaderBlock ended bytes headers' stop after') : stop = .waits := by
  have hsame := h.outcome_eq h'
  cases stop with
  | waits => rfl
  | blank => simp [Stop.outcome] at hsame
  | malformed headerLine => simp [Stop.outcome] at hsame
  | exit => simp [Stop.outcome] at hsame
  | undecodable => simp [Stop.outcome] at hsame

/-- At the end of the stream no headers are waited for.  Induction on the headers. -/
theorem Ends.not_ended {ended : Bool} {headerLine : Text} {bytes after : Bytes}
    {headers : List Text} {stop : Stop} (h : Ends ended headerLine bytes headers stop after) :
    stop = .waits → ended = false := by
  induction h with
  | blank bytes =>
      intro hstop
      cases hstop
  | malformed headerLine bytes _ _ =>
      intro hstop
      cases hstop
  | exit headerLine bytes rest _ _ =>
      intro hstop
      cases hstop
  | undecodable headerLine bytes line rest _ _ _ _ =>
      intro hstop
      cases hstop
  | waits headerLine bytes _ hline =>
      intro _
      exact not_ended_of_lineAt hline
  | more headerLine bytes line rest t headers stop after _ _ _ _ _ ih => exact ih

/-! ## The body -/

theorem readRemaining_done {remaining : Int} (h : ¬ 0 < remaining) (chunks : Bytes) (p : Pipe) :
    readRemaining remaining chunks p = some (some chunks, p) := by
  rw [readRemaining, if_neg h]

/-- While bytes are missing there is a read. -/
theorem readRemaining_read {remaining : Int} (h : 0 < remaining) (chunks : Bytes) (p : Pipe) :
    readRemaining remaining chunks p = match p.read remaining.toNat with
      | none => none
      | some (chunk, q) =>
          if chunk = [] then some (none, q)
          else readRemaining (remaining - chunk.length) (chunks ++ chunk) q := by
  rw [readRemaining, if_pos h]
  split
  · rename_i hnone
    rw [hnone]
  · rename_i chunk q hsome
    rw [hsome]
    dsimp only
    by_cases hchunk : chunk = []
    · rw [dif_pos hchunk, if_pos hchunk]
    · rw [dif_neg hchunk, if_neg hchunk]

theorem readRemaining_waits {remaining : Int} (h : 0 < remaining) (chunks : Bytes) {p : Pipe}
    (hread : p.read remaining.toNat = none) : readRemaining remaining chunks p = none := by
  rw [readRemaining_read h, hread]

theorem readRemaining_some {remaining : Int} (h : 0 < remaining) (chunks : Bytes) {p q : Pipe}
    {chunk : Bytes} (hread : p.read remaining.toNat = some (chunk, q)) :
    readRemaining remaining chunks p = if chunk = [] then some (none, q)
      else readRemaining (remaining - chunk.length) (chunks ++ chunk) q := by
  rw [readRemaining_read h, hread]

/-- Bytes that are there are read, however they arrive.  Induction on what is missing. -/
theorem readRemaining_there (n : Nat) : ∀ (chunks : Bytes) (p : Pipe), n ≤ p.delivered.length →
    ∃ q, readRemaining n chunks p = some (some (chunks ++ p.delivered.take n), q)
      ∧ q.delivered = p.delivered.drop n ∧ q.ended = p.ended := by
  induction n using Nat.strongRecOn with
  | ind n ih =>
      intro chunks p hthere
      by_cases hn : n = 0
      · subst hn
        refine ⟨p, ?_, rfl, rfl⟩
        rw [readRemaining_done (by omega), List.take_zero, List.append_nil]
      have hpos : (0 : Int) < n := by omega
      cases hread : p.read (n : Int).toNat with
      | none =>
          rw [(Pipe.read_eq_none hread).1, List.length_nil] at hthere
          omega
      | some found =>
          obtain ⟨chunk, q⟩ := found
          obtain ⟨happend, hended, hle, hend⟩ := Pipe.read_spec hread
          rw [Int.toNat_natCast] at hle hend
          have hne : chunk ≠ [] := by
            intro hnil
            rw [(hend (by omega) hnil).1, List.length_nil] at hthere
            omega
          have hchunk := List.length_pos_iff.mpr hne
          rw [← happend, List.length_append] at hthere
          have hmissing : (n : Int) - chunk.length = ((n - chunk.length : Nat) : Int) := by omega
          obtain ⟨q', hrest, hdelivered, hended'⟩ := ih (n - chunk.length) (by omega)
            (chunks ++ chunk) q (by omega)
          refine ⟨q', ?_, ?_, hended'.trans hended⟩
          · rw [readRemaining_some hpos chunks hread, if_neg hne, hmissing, hrest, ← happend,
              List.take_append, List.take_of_length_le hle, List.append_assoc]
          · rw [hdelivered, ← happend, List.drop_append, List.drop_of_length_le hle,
              List.nil_append]

/-- Without them the end of the stream leaves nothing, and before it the call waits. -/
theorem readRemaining_missing (n : Nat) : ∀ (chunks : Bytes) (p : Pipe), p.delivered.length < n →
    (p.ended = true → ∃ q, readRemaining n chunks p = some (none, q))
      ∧ (p.ended = false → readRemaining n chunks p = none) := by
  induction n using Nat.strongRecOn with
  | ind n ih =>
      intro chunks p hmissing
      have hpos : (0 : Int) < n := by omega
      cases hread : p.read (n : Int).toNat with
      | none =>
          refine ⟨fun htrue => ?_, fun _ => readRemaining_waits hpos chunks hread⟩
          rw [(Pipe.read_eq_none hread).2] at htrue
          cases htrue
      | some found =>
          obtain ⟨chunk, q⟩ := found
          obtain ⟨happend, hended, hle, hend⟩ := Pipe.read_spec hread
          rw [Int.toNat_natCast] at hle hend
          rw [readRemaining_some hpos chunks hread]
          by_cases hnil : chunk = []
          · rw [if_pos hnil]
            refine ⟨fun _ => ⟨q, rfl⟩, fun hfalse => ?_⟩
            rw [(hend (by omega) hnil).2] at hfalse
            cases hfalse
          · have hchunk := List.length_pos_iff.mpr hnil
            have hlengths := congrArg List.length happend
            rw [List.length_append] at hlengths
            have hrest : (n : Int) - chunk.length = ((n - chunk.length : Nat) : Int) := by omega
            rw [if_neg hnil, hrest, ← hended]
            exact ih (n - chunk.length) (by omega) (chunks ++ chunk) q (by omega)

theorem sliceTo_natCast (xs : Bytes) (n : Nat) : sliceTo xs n = xs.take n := by
  rw [sliceTo, if_pos (Int.natCast_nonneg n), Int.toNat_natCast]

/-- What is missing when the buffer has been used. -/
theorem missing_eq (xs : Bytes) (n : Nat) :
    (n : Int) - (xs.take n).length = ((n - xs.length : Nat) : Int) := by
  rw [List.length_take]
  omega

theorem readStdoutExactly_there {n : Nat} {r : Reader} (h : n ≤ r.pending.length) :
    ∃ r', readStdoutExactly n r = some (some (r.pending.take n), r')
      ∧ r'.pending = r.pending.drop n ∧ r'.pipe.ended = r.pipe.ended := by
  rw [Reader.pending, List.length_append] at h
  obtain ⟨q, hread, hdelivered, hended⟩ := readRemaining_there (n - r.buffer.length)
    (r.buffer.take n) r.pipe (by omega)
  refine ⟨{ buffer := r.buffer.drop (r.buffer.take n).length, pipe := q }, ?_, ?_, hended⟩
  · rw [readStdoutExactly, sliceTo_natCast, missing_eq, hread, Reader.pending, List.take_append]
    rfl
  · show r.buffer.drop (r.buffer.take n).length ++ q.delivered = _
    rw [hdelivered, Reader.pending, List.drop_append]
    refine congrArg (· ++ _) ?_
    rw [List.drop_eq_drop_iff, List.length_take]
    omega

theorem readStdoutExactly_missing {n : Nat} {r : Reader} (h : r.pending.length < n) :
    (r.pipe.ended = true → ∃ r', readStdoutExactly n r = some (none, r'))
      ∧ (r.pipe.ended = false → readStdoutExactly n r = none) := by
  rw [Reader.pending, List.length_append] at h
  obtain ⟨hend, hwaits⟩ := readRemaining_missing (n - r.buffer.length) (r.buffer.take n) r.pipe
    (by omega)
  rw [readStdoutExactly, sliceTo_natCast, missing_eq]
  constructor
  · intro htrue
    obtain ⟨q, hread⟩ := hend htrue
    exact ⟨_, by rw [hread]; rfl⟩
  · intro hfalse
    rw [hwaits hfalse]
    rfl

/-- A negative length leaves out the end of the buffer, whatever is in it. -/
theorem readStdoutExactly_neg {n : Int} (h : n < 0) (r : Reader) :
    ∃ r', readStdoutExactly n r = some (some (sliceTo r.buffer n), r') := by
  have hdone : ¬ 0 < n - (sliceTo r.buffer n).length := by omega
  exact ⟨_, by rw [readStdoutExactly, readRemaining_done hdone]; rfl⟩

/-! ## Streams that have ended

On these the functions are those of well-formed streams. -/

def ofStdout (s : Stdout) : Pipe :=
  { delivered := s.unread, ended := true, sizes := s.sizes, reads := s.reads }

def ofReader (r : Mcp.Reader) : Reader := { buffer := r.buffer, pipe := ofStdout r.stdout }

theorem read_ofStdout (s : Stdout) (n : Nat) :
    (ofStdout s).read n = some ((s.read n).1, ofStdout (s.read n).2) := by
  rw [Pipe.read, if_neg (by rintro ⟨_, hended⟩; cases hended)]
  rfl

theorem readStdoutLine_ofReader (r : Mcp.Reader) :
    readStdoutLine (ofReader r)
      = some ((Mcp.readStdoutLine r).1, ofReader (Mcp.readStdoutLine r).2) := by
  induction r using Mcp.readStdoutLine.induct with
  | case1 r line rest hsplit =>
      rw [Mcp.readStdoutLine_buffered hsplit]
      exact readStdoutLine_buffered hsplit
  | case2 r hsplit hend hnil =>
      have hread := read_ofStdout r.stdout 65536
      rw [hend] at hread
      rw [Mcp.readStdoutLine, hsplit]
      dsimp only
      rw [dif_pos hend, if_pos hnil]
      refine (readStdoutLine_end hsplit hread).trans ?_
      show some (r.buffer, Reader.mk [] _) = some ([], Reader.mk r.buffer _)
      rw [hnil]
  | case3 r hsplit hend hbuffer =>
      have hread := read_ofStdout r.stdout 65536
      rw [hend] at hread
      rw [Mcp.readStdoutLine, hsplit]
      dsimp only
      rw [dif_pos hend, if_neg hbuffer]
      exact readStdoutLine_end hsplit hread
  | case4 r hsplit hmore ih =>
      rw [Mcp.readStdoutLine, hsplit]
      dsimp only
      rw [dif_neg hmore, ← ih]
      exact readStdoutLine_more hsplit (read_ofStdout r.stdout 65536) hmore

theorem readRemaining_ofStdout (remaining : Int) (chunks : Bytes) (s : Stdout) :
    readRemaining remaining chunks (ofStdout s)
      = some ((Mcp.readRemaining remaining chunks s).1,
          ofStdout (Mcp.readRemaining remaining chunks s).2) := by
  induction remaining, chunks, s using Mcp.readRemaining.induct with
  | case1 remaining chunks s hpos hend =>
      rw [readRemaining_some hpos chunks (read_ofStdout s _), if_pos hend, Mcp.readRemaining,
        if_pos hpos, dif_pos hend]
  | case2 remaining chunks s hpos hmore ih =>
      rw [readRemaining_some hpos chunks (read_ofStdout s _), if_neg hmore, Mcp.readRemaining,
        if_pos hpos, dif_neg hmore]
      exact ih
  | case3 remaining chunks s hdone =>
      rw [readRemaining_done hdone, Mcp.readRemaining, if_neg hdone]

theorem readStdoutExactly_ofReader (length : Int) (r : Mcp.Reader) :
    readStdoutExactly length (ofReader r)
      = some ((Mcp.readStdoutExactly length r).1,
          ofReader (Mcp.readStdoutExactly length r).2) := by
  show (readRemaining (length - (sliceTo r.buffer length).length) (sliceTo r.buffer length)
    (ofStdout r.stdout)).map _ = _
  rw [readRemaining_ofStdout]
  rfl

theorem readHeaders_ofReader (headers : List (Text × Text)) (headerLine : Text) (r : Mcp.Reader) :
    readHeaders headers headerLine (ofReader r)
      = some ((Mcp.readHeaders headers headerLine r).1,
          ofReader (Mcp.readHeaders headers headerLine r).2) := by
  induction headers, headerLine, r using Mcp.readHeaders.induct with
  | case1 headers r =>
      rw [readHeaders, if_pos rfl, Mcp.readHeaders, if_pos rfl]
  | case2 headers headerLine r hne hsplit =>
      rw [readHeaders, if_neg hne, hsplit, Mcp.readHeaders, if_neg hne, hsplit]
  | case3 headers headerLine r hne key value hsplit hnil =>
      have hread := readStdoutLine_ofReader r
      rw [hnil] at hread
      rw [readHeaders_exit hsplit headers hread, Mcp.readHeaders, if_neg hne, hsplit]
      dsimp only
      rw [dif_pos hnil]
  | case4 headers headerLine r hne key value hsplit hline hdecode =>
      rw [readHeaders_undecodable hsplit headers (readStdoutLine_ofReader r) hline hdecode,
        Mcp.readHeaders, if_neg hne, hsplit]
      dsimp only
      rw [dif_neg hline, hdecode]
  | case5 headers headerLine r hne key value hsplit hline t hdecode ih =>
      rw [readHeaders_more hsplit headers (readStdoutLine_ofReader r) hline hdecode,
        Mcp.readHeaders, if_neg hne, hsplit]
      dsimp only
      rw [dif_neg hline, hdecode]
      exact ih

theorem readBody_ofReader (floats : Floats) (length : Text) (r : Mcp.Reader) :
    readBody floats (lengthOf floats) length (ofReader r)
      = some ((Mcp.readBody floats length r).1,
          ofReader (Mcp.readBody floats length r).2) := by
  rw [readBody, Mcp.readBody]
  cases lengthOf floats length with
  | none => rfl
  | some n =>
      dsimp only
      rw [readStdoutExactly_ofReader, Option.map_some]
      cases (Mcp.readStdoutExactly n r).1 with
      | none => rfl
      | some bytes => rfl

/-- **Streams that have ended are read as well-formed ones are.** -/
theorem readMessage_ofReader (floats : Floats) (r : Mcp.Reader) :
    readMessage floats (lengthOf floats) (ofReader r)
      = some ((Mcp.readMessage floats r).1,
          ofReader (Mcp.readMessage floats r).2) := by
  rw [readMessage, readStdoutLine_ofReader, Mcp.readMessage]
  dsimp only
  by_cases hline : (Mcp.readStdoutLine r).1 = []
  · rw [if_pos hline, if_pos hline]
  rw [if_neg hline, if_neg hline]
  cases decodeUtf8 (Mcp.readStdoutLine r).1 with
  | none => rfl
  | some t =>
      dsimp only
      rw [isHeader]
      by_cases hheader : (contentLength ++ [':']).isPrefixOf (lower (strip t)) = true
      · rw [if_pos hheader, if_pos hheader, readHeaders_ofReader, Option.bind_some]
        obtain ⟨outcome, r'⟩ := Mcp.readHeaders [] (strip t) (Mcp.readStdoutLine r).2
        cases outcome with
        | error failure => rfl
        | ok headers =>
            show (match Json.get contentLength headers with | none => _ | some length => _) = _
            dsimp only
            cases Json.get contentLength headers with
            | none => rfl
            | some length => exact readBody_ofReader floats length r'
      · rw [if_neg hheader, if_neg hheader]

/-! ## The buffer -/

/-- What a call leaves in the buffer came with one read, behind a newline. -/
def Reader.Bounded (r : Reader) : Prop := r.buffer.length < 65536

theorem length_lt_of_splitLine {bytes line rest : Bytes} (h : splitLine bytes = some (line, rest)) :
    rest.length < bytes.length := by
  induction bytes generalizing line with
  | nil => cases h
  | cons b bytes ih =>
      rw [splitLine] at h
      split at h
      · cases h
        exact Nat.lt_succ_self _
      · rw [Option.map_eq_some_iff] at h
        obtain ⟨⟨line', rest'⟩, hsplit, heq⟩ := h
        cases heq
        exact Nat.lt_succ_of_lt (ih hsplit)

theorem splitLine_append_of_none {bytes : Bytes} (h : splitLine bytes = none) (more : Bytes) :
    splitLine (bytes ++ more) = (splitLine more).map fun p => (bytes ++ p.1, p.2) := by
  induction bytes with
  | nil =>
      rw [List.nil_append]
      exact Option.map_id'.symm
  | cons b bytes ih =>
      rw [splitLine] at h
      split at h
      · cases h
      · rename_i hb
        rw [Option.map_eq_none_iff] at h
        rw [List.cons_append, splitLine, if_neg hb, ih h, Option.map_map]
        rfl

/-- Behind a newline there is less than one read.  Induction on the reads. -/
theorem bounded_readStdoutLine (r : Reader) :
    (∀ line rest, splitLine r.buffer = some (line, rest) → rest.length < 65536) →
    ∀ p ∈ readStdoutLine r, p.2.Bounded := by
  induction hlength : r.pipe.delivered.length using Nat.strongRecOn generalizing r with
  | ind n ih =>
      intro hbuffer p hp
      cases hsplit : splitLine r.buffer with
      | some q =>
          rw [readStdoutLine_buffered hsplit] at hp
          rw [← Option.some.inj hp]
          exact hbuffer q.1 q.2 hsplit
      | none =>
          cases hread : r.pipe.read 65536 with
          | none =>
              rw [readStdoutLine_waits hsplit hread] at hp
              cases hp
          | some found =>
              obtain ⟨chunk, pipe⟩ := found
              obtain ⟨happend, _, hle, _⟩ := Pipe.read_spec hread
              by_cases hchunk : chunk = []
              · subst hchunk
                rw [readStdoutLine_end hsplit hread] at hp
                rw [← Option.some.inj hp]
                exact Nat.zero_lt_succ _
              · have hpos := List.length_pos_iff.mpr hchunk
                have hlengths := congrArg List.length happend
                rw [List.length_append] at hlengths
                rw [readStdoutLine_more hsplit hread hchunk] at hp
                refine ih pipe.delivered.length (by omega) (Reader.mk (r.buffer ++ chunk) pipe) rfl
                  (fun line rest hline => ?_) p hp
                rw [splitLine_append_of_none hsplit, Option.map_eq_some_iff] at hline
                obtain ⟨q, hq, heq⟩ := hline
                have hlt := length_lt_of_splitLine hq
                rw [← (Prod.mk.inj heq).2]
                omega

theorem Reader.Bounded.line {r r' : Reader} {line : Bytes} (h : r.Bounded)
    (hread : readStdoutLine r = some (line, r')) : r'.Bounded := by
  refine bounded_readStdoutLine r (fun _ rest hsplit => ?_) (line, r') hread
  have hlt := length_lt_of_splitLine hsplit
  rw [Reader.Bounded] at h
  omega

theorem bounded_readHeaders {ended : Bool} {headerLine : Text} {bytes after : Bytes}
    {headers : List Text} {stop : Stop} (h : Ends ended headerLine bytes headers stop after) :
    ∀ (dict : List (Text × Text)) (r : Reader), r.pending = bytes → r.pipe.ended = ended →
    r.Bounded → ∀ p ∈ readHeaders dict headerLine r, p.2.Bounded := by
  induction h with
  | blank bytes =>
      intro dict r _ _ hr p hp
      rw [readHeaders, if_pos rfl] at hp
      rw [← Option.some.inj hp]
      exact hr
  | malformed headerLine bytes hne hcolon =>
      intro dict r _ _ hr p hp
      rw [readHeaders, if_neg hne, splitOnce_of_notMem hcolon] at hp
      rw [← Option.some.inj hp]
      exact hr
  | exit headerLine bytes rest hcolon hline =>
      rintro dict r rfl rfl hr p hp
      obtain ⟨key, value, hsplit⟩ := splitOnce_of_mem hcolon
      obtain ⟨r', hread, _, _⟩ := exists_readStdoutLine hline
      rw [readHeaders_exit hsplit dict hread] at hp
      rw [← Option.some.inj hp]
      exact hr.line hread
  | undecodable headerLine bytes line rest hcolon hline hne hdecode =>
      rintro dict r rfl rfl hr p hp
      obtain ⟨key, value, hsplit⟩ := splitOnce_of_mem hcolon
      obtain ⟨r', hread, _, _⟩ := exists_readStdoutLine hline
      rw [readHeaders_undecodable hsplit dict hread hne hdecode] at hp
      rw [← Option.some.inj hp]
      exact hr.line hread
  | waits headerLine bytes hcolon hline =>
      rintro dict r rfl rfl _ p hp
      obtain ⟨key, value, hsplit⟩ := splitOnce_of_mem hcolon
      rw [readHeaders_waits hsplit dict (readStdoutLine_eq_none.mpr hline)] at hp
      cases hp
  | more headerLine bytes line rest t headers stop after hcolon hline hne hdecode _ ih =>
      rintro dict r rfl rfl hr p hp
      obtain ⟨key, value, hsplit⟩ := splitOnce_of_mem hcolon
      obtain ⟨r', hread, hrest, hended⟩ := exists_readStdoutLine hline
      rw [readHeaders_more hsplit dict hread hne hdecode] at hp
      exact ih _ r' hrest hended (hr.line hread) p hp

theorem bounded_readBlock {floats : Floats} {toInt : Text → Option Int}
    {found : Except Failure (List (Text × Text)) × Reader} (h : found.2.Bounded) :
    ∀ p ∈ readBlock floats toInt found, p.2.Bounded := by
  intro p hp
  obtain ⟨outcome, r⟩ := found
  cases outcome with
  | error raised =>
      rw [readBlock] at hp
      rw [← Option.some.inj hp]
      exact h
  | ok headers =>
      cases hlength : Json.get contentLength headers with
      | none =>
          rw [readBlock, hlength] at hp
          rw [← Option.some.inj hp]
          exact h
      | some length =>
          rw [readBlock, hlength] at hp
          replace hp : readBody floats toInt length r = some p := hp
          cases hn : toInt length with
          | none =>
              rw [readBody, hn] at hp
              rw [← Option.some.inj hp]
              exact h
          | some n =>
              rw [readBody, hn] at hp
              replace hp : (readStdoutExactly n r).map _ = some p := hp
              rw [readStdoutExactly, Option.map_map, Option.map_eq_some_iff] at hp
              obtain ⟨⟨body, pipe⟩, _, rfl⟩ := hp
              have hdrop : (r.buffer.drop (sliceTo r.buffer n).length).length < 65536 := by
                rw [List.length_drop]
                exact Nat.lt_of_le_of_lt (Nat.sub_le _ _) h
              cases body with
              | none => exact hdrop
              | some bytes => exact hdrop

/-- **A call leaves less than one read in the buffer.** -/
theorem bounded_readMessage {floats : Floats} {toInt : Text → Option Int} {r : Reader}
    (h : r.Bounded) : ∀ p ∈ readMessage floats toInt r, p.2.Bounded := by
  intro p hp
  cases hread : readStdoutLine r with
  | none =>
      rw [readMessage, hread] at hp
      cases hp
  | some found =>
      obtain ⟨line, r'⟩ := found
      have hr' := h.line hread
      rw [readMessage, hread] at hp
      replace hp : (if line = [] then _ else _) = some p := hp
      split at hp
      · rw [← Option.some.inj hp]
        exact hr'
      · split at hp
        · rw [← Option.some.inj hp]
          exact hr'
        · rename_i t _
          split at hp
          · obtain ⟨headers, stop, after, hends⟩ := exists_ends r'.pipe.ended (strip t) r'.pending
            obtain ⟨found, hfound, hblock⟩ := Option.bind_eq_some_iff.mp hp
            have hheaders := bounded_readHeaders hends [] r' rfl rfl hr' found hfound
            exact bounded_readBlock hheaders p hblock
          · rw [← Option.some.inj hp]
            exact hr'

/-- What calls leave, one after another; at first the buffer is empty. -/
inductive Reachable (floats : Floats) (toInt : Text → Option Int) : Reader → Prop where
  | start (p : Pipe) : Reachable floats toInt { buffer := [], pipe := p }
  | call (r r' : Reader) (outcome : Except Failure (Payload floats)) :
      Reachable floats toInt r → readMessage floats toInt r = some (outcome, r') →
      Reachable floats toInt r'

/-- Induction on the calls. -/
theorem Reachable.bounded {floats : Floats} {toInt : Text → Option Int} {r : Reader}
    (h : Reachable floats toInt r) : r.Bounded := by
  induction h with
  | start p => exact Nat.zero_lt_succ _
  | call r r' outcome _ hcall ih => exact bounded_readMessage ih (outcome, r') hcall

end Mcp.Live
