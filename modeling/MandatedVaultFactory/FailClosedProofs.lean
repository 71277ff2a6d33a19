import MandatedVaultFactory.McpReaderProofs

/-!
# What a broken MCP server can do

* **`FrameAt`**, **`Enough`** — what is well formed at a position, and when enough is there.
* **`FailsClosed`** — what is expected of a call of `_read_message`.
* **`failsClosed_iff`** — every call at some bytes fails closed, however they arrive, exactly if
  the bytes are `Harmless`; **`not_failsClosed_header`** has some that are not. -/

namespace Mcp.Live

open Encoding Texts Json

/-! ## What is expected -/

/-- A well-formed frame at the start of `bytes`, its object and what stands behind it: a line of
    JSON, or a block that announces a length, not negative, with as many bytes of JSON.  White
    space around a line or a header does not count. -/
inductive FrameAt (floats : Floats) (toInt : Text → Option Int) (ended : Bool) (bytes : Bytes) :
    Payload floats → Bytes → Prop where
  | line (line rest : Bytes) (t : Text) (members : Payload floats) :
      lineAt ended bytes = some (line, rest) → decodeUtf8 line = some t →
      loads floats (strip t) = .ok (.obj members) → FrameAt floats toInt ended bytes members rest
  | block (headers : List Text) (length : Text) (body rest : Bytes) (t : Text)
      (members : Payload floats) :
      HeaderBlock ended bytes headers .blank (body ++ rest) → announced headers = some length →
      toInt length = some (body.length : Int) → decodeUtf8 body = some t →
      loads floats t = .ok (.obj members) → FrameAt floats toInt ended bytes members rest

/-- Enough is there for a call to end: the stream has ended, or the line is there, and if it is
    the first of a block, its headers up to a blank line or to one that is no header, and as many
    bytes as they announce. -/
inductive Enough (toInt : Text → Option Int) : Bool → Bytes → Prop where
  | ended (bytes : Bytes) : Enough toInt true bytes
  | line (ended : Bool) (bytes line rest : Bytes) :
      lineAt ended bytes = some (line, rest) →
      (∀ t, decodeUtf8 line = some t → isHeader (strip t) = false) → Enough toInt ended bytes
  | headers (ended : Bool) (bytes : Bytes) (headers : List Text) (stop : Stop) (after : Bytes) :
      HeaderBlock ended bytes headers stop after → stop ≠ .blank → stop ≠ .waits →
      Enough toInt ended bytes
  | block (ended : Bool) (bytes : Bytes) (headers : List Text) (after : Bytes) :
      HeaderBlock ended bytes headers .blank after →
      (∀ length n, announced headers = some length → toInt length = some n → n ≤ after.length) →
      Enough toInt ended bytes

/-- **What is expected of a call**: it ends when enough is there; it raises nothing but
    `MandatedVaultMcpUnavailableError`; and what it returns is the object of a well-formed
    frame, which it takes away. -/
structure FailsClosed (floats : Floats) (toInt : Text → Option Int) (r : Reader) : Prop where
  ends : Enough toInt r.pipe.ended r.pending → readMessage floats toInt r ≠ none
  raises : ∀ raised r', readMessage floats toInt r = some (.error raised, r') →
    ∃ why, raised = .unavailable why
  returns : ∀ members r', readMessage floats toInt r = some (.ok members, r') →
    FrameAt floats toInt r.pipe.ended r.pending members r'.pending

/-- Nothing at the start of `bytes` goes wrong: no header behind the first is undecodable, no
    limit of the interpreter is met where its error is not caught, and behind a block with a
    negative length `-n` no object (and nothing too deep) stands before `n` bytes more, in less
    than one read. -/
structure Harmless (floats : Floats) (toInt : Text → Option Int) (ended : Bool)
    (bytes : Bytes) : Prop where
  headers : ∀ headers after, ¬ HeaderBlock ended bytes headers .undecodable after
  line : ∀ line rest t, lineAt ended bytes = some (line, rest) → line ≠ [] →
    decodeUtf8 line = some t → isHeader (strip t) = false →
    loads floats (strip t) ≠ .error .valueError ∧ loads floats (strip t) ≠ .error .recursionError
  body : ∀ headers length body rest t, HeaderBlock ended bytes headers .blank (body ++ rest) →
    announced headers = some length → toInt length = some (body.length : Int) →
    decodeUtf8 body = some t → loads floats t ≠ .error .recursionError
  negative : ∀ headers length (n : Nat) body rest t,
    HeaderBlock ended bytes headers .blank (body ++ rest) →
    announced headers = some length → toInt length = some (-(n : Int)) → 0 < n →
    n ≤ rest.length → body.length + n < 65536 → decodeUtf8 body = some t →
    loads floats t ≠ .error .recursionError ∧ ∀ members, loads floats t ≠ .ok (.obj members)

/-! ## What a call does -/

variable {floats : Floats} {toInt : Text → Option Int}

variable (floats toInt) in
/-- A line that is no header. -/
theorem readMessage_line {r : Reader} {line rest : Bytes} {t : Text}
    (hline : lineAt r.pipe.ended r.pending = some (line, rest)) (hne : line ≠ [])
    (hdecode : decodeUtf8 line = some t) (hheader : isHeader (strip t) = false) :
    ∃ r', readMessage floats toInt r = some (loadsLine floats (strip t), r') ∧ r'.pending = rest := by
  obtain ⟨r', hread, hrest, _⟩ := exists_readStdoutLine hline
  refine ⟨r', ?_, hrest⟩
  rw [readMessage_decoded floats toInt hread hne hdecode, if_neg (by rw [hheader]; decide)]

variable (floats toInt) in
/-- A line that is one. -/
theorem readMessage_block {r : Reader} {headers : List Text} {stop : Stop} {after : Bytes}
    (h : HeaderBlock r.pipe.ended r.pending headers stop after) :
    (stop = .waits → readMessage floats toInt r = none) ∧
    ∀ o, stop.outcome (record [] headers) = some o →
      ∃ r', readMessage floats toInt r = readBlock floats toInt (o, r') ∧ r'.pending = after
        ∧ r'.pipe.ended = r.pipe.ended ∧ (r.Bounded → r'.Bounded) := by
  obtain ⟨line, rest, t, hline, hne, hdecode, hheader, hends⟩ := h
  obtain ⟨r₁, hread, hrest, hended⟩ := exists_readStdoutLine hline
  have hmessage : readMessage floats toInt r
      = (readHeaders [] (strip t) r₁).bind (readBlock floats toInt) := by
    rw [readMessage_decoded floats toInt hread hne hdecode, if_pos hheader]
  have hspec := readHeaders_spec hends [] r₁ hrest hended
  rw [hmessage]
  constructor
  · rintro rfl
    rw [Stop.outcome, Option.map_none, Option.map_eq_none_iff] at hspec
    rw [hspec]
    rfl
  · intro o ho
    rw [ho, Option.map_some, Option.map_eq_some_iff] at hspec
    obtain ⟨p, hp, heq⟩ := hspec
    obtain ⟨rfl, rfl, hended'⟩ := Prod.mk.inj heq |>.imp_right Prod.mk.inj
    refine ⟨p.2, by rw [hp]; rfl, rfl, hended', fun hbounded => ?_⟩
    exact bounded_readHeaders hends [] r₁ hrest hended (hbounded.line hread) p hp

variable (floats toInt) in
/-- The body of a block. -/
theorem readMessage_blank {r : Reader} {headers : List Text} {after : Bytes}
    (h : HeaderBlock r.pipe.ended r.pending headers .blank after) :
    ∃ r', r'.pending = after ∧ r'.pipe.ended = r.pipe.ended ∧ (r.Bounded → r'.Bounded) ∧
      readMessage floats toInt r = readAnnounced floats toInt (announced headers) r' := by
  obtain ⟨r', hmessage, hrest, hended, hbounded⟩ := (readMessage_block floats toInt h).2 _ rfl
  refine ⟨r', hrest, hended, hbounded, ?_⟩
  have hget : Json.get contentLength (record [] headers) = announced headers :=
    (get_record headers []).trans Option.or_none
  rw [hmessage, readBlock, hget]

variable (floats) in
theorem readBody_there {length : Text} {n : Nat} {r : Reader}
    (hlength : toInt length = some (n : Int)) (hthere : n ≤ r.pending.length) :
    ∃ r', readBody floats toInt length r = some (loadsBody floats (r.pending.take n), r')
      ∧ r'.pending = r.pending.drop n := by
  obtain ⟨r', hread, hrest, _⟩ := readStdoutExactly_there hthere
  exact ⟨r', by rw [readBody, hlength]; dsimp only; rw [hread]; rfl, hrest⟩

variable (floats) in
theorem readBody_neg {length : Text} {n : Int} (hlength : toInt length = some n) (hneg : n < 0)
    (r : Reader) :
    ∃ r', readBody floats toInt length r = some (loadsBody floats (sliceTo r.buffer n), r') := by
  obtain ⟨r', hread⟩ := readStdoutExactly_neg hneg r
  exact ⟨r', by rw [readBody, hlength]; dsimp only; rw [hread]; rfl⟩

/-! ## Outcomes that are expected -/

theorem failsClosed_waits {r : Reader} (h : readMessage floats toInt r = none)
    (hwaits : ¬ Enough toInt r.pipe.ended r.pending) : FailsClosed floats toInt r where
  ends := fun henough => absurd henough hwaits
  raises := fun _ _ hraised => by
    rw [h] at hraised
    cases hraised
  returns := fun _ _ hreturned => by
    rw [h] at hreturned
    cases hreturned

theorem failsClosed_unavailable {r r' : Reader} {why : Reason}
    (h : readMessage floats toInt r = some (.error (.unavailable why), r')) :
    FailsClosed floats toInt r where
  ends := fun _ hnone => by
    rw [h] at hnone
    cases hnone
  raises := fun raised _ hraised => by
    rw [h] at hraised
    cases hraised
    exact ⟨why, rfl⟩
  returns := fun _ _ hreturned => by
    rw [h] at hreturned
    cases hreturned

/-- What JSON there is must be framed. -/
theorem failsClosed_payload {r r' : Reader} {v : Loaded floats.Float}
    (h : readMessage floats toInt r = some (asPayload floats v, r'))
    (hframe : ∀ members, v = .obj members →
      FrameAt floats toInt r.pipe.ended r.pending members r'.pending) :
    FailsClosed floats toInt r := by
  cases v with
  | obj members =>
      constructor
      · intro _ hnone
        rw [h] at hnone
        cases hnone
      · intro raised r'' hraised
        rw [h] at hraised
        cases hraised
      · intro members' r'' hreturned
        rw [h] at hreturned
        cases hreturned
        exact hframe members rfl
  | null => exact failsClosed_unavailable h
  | bool b => exact failsClosed_unavailable h
  | int n => exact failsClosed_unavailable h
  | float x => exact failsClosed_unavailable h
  | str s => exact failsClosed_unavailable h
  | arr items => exact failsClosed_unavailable h

/-- A line that meets no limit. -/
theorem failsClosed_line {r r' : Reader} {t : Text}
    (h : readMessage floats toInt r = some (loadsLine floats t, r'))
    (hdigits : loads floats t ≠ .error .valueError)
    (hdepth : loads floats t ≠ .error .recursionError)
    (hframe : ∀ members, loads floats t = .ok (.obj members) →
      FrameAt floats toInt r.pipe.ended r.pending members r'.pending) :
    FailsClosed floats toInt r := by
  rw [loadsLine] at h
  cases hloads : loads floats t with
  | ok v =>
      rw [hloads] at h
      exact failsClosed_payload h fun members hv => hframe members (hv ▸ hloads)
  | error e =>
      rw [hloads] at h
      cases e with
      | jsonDecodeError => exact failsClosed_unavailable h
      | valueError => exact absurd hloads hdigits
      | recursionError => exact absurd hloads hdepth

/-- Nothing else is raised by a body that is not too deep. -/
theorem failsClosed_body {r r' : Reader} {body : Bytes}
    (h : readMessage floats toInt r = some (loadsBody floats body, r'))
    (hdepth : ∀ t, decodeUtf8 body = some t → loads floats t ≠ .error .recursionError)
    (hframe : ∀ t members, decodeUtf8 body = some t → loads floats t = .ok (.obj members) →
      FrameAt floats toInt r.pipe.ended r.pending members r'.pending) :
    FailsClosed floats toInt r := by
  rw [loadsBody] at h
  cases hdecode : decodeUtf8 body with
  | none =>
      rw [hdecode] at h
      exact failsClosed_unavailable h
  | some t =>
      rw [hdecode] at h
      dsimp only at h
      cases hloads : loads floats t with
      | ok v =>
          rw [hloads] at h
          exact failsClosed_payload h fun members hv => hframe t members hdecode (hv ▸ hloads)
      | error e =>
          rw [hloads] at h
          cases e with
          | jsonDecodeError => exact failsClosed_unavailable h
          | valueError => exact failsClosed_unavailable h
          | recursionError => exact absurd hloads (hdepth t hdecode)

/-! ## Streams that do no harm -/

theorem not_enough_of_lineAt {ended : Bool} {bytes : Bytes} (h : lineAt ended bytes = none) :
    ¬ Enough toInt ended bytes := by
  rintro (_ | ⟨_, _, line, rest, hline, _⟩ | ⟨_, _, _, _, _, ⟨_, _, _, hline, _⟩, _, _⟩
    | ⟨_, _, _, _, ⟨_, _, _, hline, _⟩, _⟩)
  · exact absurd (not_ended_of_lineAt h) (by decide)
  · rw [h] at hline
    cases hline
  · rw [h] at hline
    cases hline
  · rw [h] at hline
    cases hline

/-- A block is no line of its own. -/
theorem HeaderBlock.not_line {ended : Bool} {bytes after line rest : Bytes} {headers : List Text}
    {stop : Stop} (h : HeaderBlock ended bytes headers stop after)
    (hline : lineAt ended bytes = some (line, rest)) :
    ¬ ∀ t, decodeUtf8 line = some t → isHeader (strip t) = false := by
  obtain ⟨line', rest', t, hline', _, hdecode, hheader, _⟩ := h
  rw [hline] at hline'
  cases hline'
  intro hall
  rw [hall t hdecode] at hheader
  cases hheader

theorem not_enough_of_waits {ended : Bool} {bytes after : Bytes} {headers : List Text}
    (h : HeaderBlock ended bytes headers .waits after) : ¬ Enough toInt ended bytes := by
  have hended : ended = false := by
    obtain ⟨_, _, _, _, _, _, _, hends⟩ := h
    exact hends.not_ended rfl
  intro henough
  cases henough with
  | ended => cases hended
  | line _ _ line rest hline hall => exact h.not_line hline hall
  | headers _ _ headers' stop after' hblock _ hstop => exact hstop (h.waits_unique hblock)
  | block _ _ headers' after' hblock _ => cases h.waits_unique hblock

theorem not_enough_of_missing {bytes after : Bytes} {headers : List Text} {length : Text} {n : Int}
    (h : HeaderBlock false bytes headers .blank after) (hlength : announced headers = some length)
    (hn : toInt length = some n) (hmissing : after.length < n) : ¬ Enough toInt false bytes := by
  intro henough
  cases henough with
  | line _ _ line rest hline hall => exact h.not_line hline hall
  | headers _ _ headers' stop after' hblock hstop _ => exact hstop (h.unique hblock).2.1
  | block _ _ headers' after' hblock hthere =>
      obtain ⟨hsame, _, rfl⟩ := h.unique hblock
      have hle := hthere length n (hsame.trans hlength) hn
      omega

/-- The body of a block with a negative length: what is in the buffer, less its end. -/
theorem failsClosed_negative {r r₁ : Reader} {headers : List Text} {after : Bytes} {length : Text}
    {n : Int} (h : Harmless floats toInt r.pipe.ended r.pending)
    (hblock : HeaderBlock r.pipe.ended r.pending headers .blank after)
    (hlength : announced headers = some length) (hn : toInt length = some n) (hneg : n < 0)
    (hrest : r₁.pending = after) (hbounded : r₁.Bounded)
    (hmessage : readMessage floats toInt r = readBody floats toInt length r₁) : FailsClosed floats toInt r := by
  obtain ⟨k, hk⟩ : ∃ k : Nat, n = -(k : Int) := ⟨(-n).toNat, by omega⟩
  obtain ⟨r', hbody⟩ := readBody_neg floats hn hneg r₁
  have hslice : sliceTo r₁.buffer n = r₁.buffer.take (r₁.buffer.length - k) := by
    rw [sliceTo, if_neg (by omega), hk, Int.neg_neg, Int.toNat_natCast]
  have hnothing : ∀ t, decodeUtf8 (sliceTo r₁.buffer n) = some t →
      loads floats t ≠ .error .recursionError ∧ ∀ members, loads floats t ≠ .ok (.obj members) := by
    intro t ht
    by_cases hshort : r₁.buffer.length < k
    · -- nothing is left of the buffer
      rw [hslice, Nat.sub_eq_zero_of_le (Nat.le_of_lt hshort), List.take_zero] at ht
      obtain rfl : [] = t := Option.some.inj ht
      have hnil : loads floats [] = .error .jsonDecodeError := rfl
      rw [hnil]
      refine ⟨fun hdepth => ?_, fun members hloads => ?_⟩
      · cases hdepth
      · cases hloads
    · have hsplit : after = r₁.buffer.take (r₁.buffer.length - k)
          ++ (r₁.buffer.drop (r₁.buffer.length - k) ++ r₁.pipe.delivered) := by
        rw [← List.append_assoc, List.take_append_drop, ← hrest]
        rfl
      rw [hsplit] at hblock
      rw [Reader.Bounded] at hbounded
      rw [hslice] at ht
      refine h.negative headers length k _ _ t hblock hlength (hk ▸ hn) (by omega) ?_ ?_ ht
      · rw [List.length_append, List.length_drop]
        omega
      · rw [List.length_take]
        omega
  refine failsClosed_body (hmessage.trans hbody) (fun t ht => (hnothing t ht).1) ?_
  intro t members ht hloads
  exact absurd hloads ((hnothing t ht).2 members)

/-- The body of a block with any other: as many bytes, once they are there. -/
theorem Harmless.failsClosed_counted {r r₁ : Reader} {headers : List Text} {after : Bytes}
    {length : Text} {k : Nat} (h : Harmless floats toInt r.pipe.ended r.pending)
    (hblock : HeaderBlock r.pipe.ended r.pending headers .blank after)
    (hlength : announced headers = some length) (hn : toInt length = some (k : Int))
    (hrest : r₁.pending = after) (hended : r₁.pipe.ended = r.pipe.ended)
    (hmessage : readMessage floats toInt r = readBody floats toInt length r₁) : FailsClosed floats toInt r := by
  by_cases hthere : k ≤ r₁.pending.length
  · obtain ⟨r', hbody, hrest'⟩ := readBody_there floats hn hthere
    have hsplit : after = r₁.pending.take k ++ r'.pending := by
      rw [hrest', List.take_append_drop, hrest]
    have htaken : (r₁.pending.take k).length = k := List.length_take_of_le hthere
    rw [hsplit] at hblock
    rw [← htaken] at hn
    refine failsClosed_body (hmessage.trans hbody) (fun t ht => ?_) fun t members ht hloads => ?_
    · exact h.body headers length _ _ t hblock hlength hn ht
    · exact .block headers length _ _ t members hblock hlength hn ht hloads
  · obtain ⟨hend, hwait⟩ := readStdoutExactly_missing (Nat.lt_of_not_le hthere)
    rw [hended] at hend hwait
    cases hstream : r.pipe.ended with
    | true =>
        obtain ⟨r', hexactly⟩ := hend hstream
        have hbody : readBody floats toInt length r₁
            = some (.error (.unavailable .invalidPayload), r') := by
          rw [readBody, hn]
          dsimp only
          rw [hexactly]
          rfl
        exact failsClosed_unavailable (hmessage.trans hbody)
    | false =>
        have hbody : readBody floats toInt length r₁ = none := by
          rw [readBody, hn]
          dsimp only
          rw [hwait hstream]
          rfl
        rw [hstream] at hblock
        refine failsClosed_waits (hmessage.trans hbody) ?_
        rw [hstream]
        exact not_enough_of_missing hblock hlength hn (by rw [← hrest]; omega)

/-- The block of a stream that does no harm. -/
theorem Harmless.failsClosed_block {r : Reader} (h : Harmless floats toInt r.pipe.ended r.pending)
    (hr : r.Bounded) {headers : List Text} {stop : Stop} {after : Bytes}
    (hblock : HeaderBlock r.pipe.ended r.pending headers stop after) : FailsClosed floats toInt r := by
  obtain ⟨hwaits, hstops⟩ := readMessage_block floats toInt hblock
  cases stop with
  | waits => exact failsClosed_waits (hwaits rfl) (not_enough_of_waits hblock)
  | undecodable => exact absurd hblock (h.headers headers after)
  | malformed headerLine =>
      obtain ⟨r', hmessage, _⟩ := hstops _ rfl
      exact failsClosed_unavailable hmessage
  | exit =>
      obtain ⟨r', hmessage, _⟩ := hstops _ rfl
      exact failsClosed_unavailable hmessage
  | blank =>
      obtain ⟨r₁, hrest, hended, hbounded, hmessage⟩ := readMessage_blank floats toInt hblock
      cases hannounced : announced headers with
      | none =>
          rw [hannounced] at hmessage
          exact failsClosed_unavailable hmessage
      | some length =>
          rw [hannounced] at hmessage
          cases hn : toInt length with
          | none =>
              have hbody : readBody floats toInt length r₁
                  = some (.error (.unavailable .invalidPayload), r₁) := by rw [readBody, hn]
              exact failsClosed_unavailable (hmessage.trans hbody)
          | some n =>
              by_cases hneg : n < 0
              · exact failsClosed_negative h hblock hannounced hn hneg hrest (hbounded hr) hmessage
              obtain ⟨k, rfl⟩ : ∃ k : Nat, n = k := ⟨n.toNat, by omega⟩
              exact h.failsClosed_counted hblock hannounced hn hrest hended hmessage

/-- **On a stream that does no harm every call fails closed.** -/
theorem Harmless.failsClosed {r : Reader} (h : Harmless floats toInt r.pipe.ended r.pending)
    (hr : r.Bounded) : FailsClosed floats toInt r := by
  cases hline : lineAt r.pipe.ended r.pending with
  | none =>
      refine failsClosed_waits ?_ (not_enough_of_lineAt hline)
      rw [readMessage, readStdoutLine_eq_none.mpr hline]
  | some p =>
      obtain ⟨line, rest⟩ := p
      obtain ⟨r₀, hread, _, _⟩ := exists_readStdoutLine hline
      by_cases hnil : line = []
      · have hmessage : readMessage floats toInt r = some (.error (.unavailable .processExit), r₀) := by
          rw [readMessage, hread]
          exact if_pos hnil
        exact failsClosed_unavailable hmessage
      cases hdecode : decodeUtf8 line with
      | none =>
          have hmessage : readMessage floats toInt r
              = some (.error (.unavailable .undecodable), r₀) := by
            rw [readMessage, hread]
            show (if line = [] then _ else _) = _
            rw [if_neg hnil, hdecode]
          exact failsClosed_unavailable hmessage
      | some t =>
          cases hheader : isHeader (strip t) with
          | false =>
              obtain ⟨r', hmessage, hrest⟩ := readMessage_line floats toInt hline hnil
                hdecode hheader
              obtain ⟨hdigits, hdepth⟩ := h.line line rest t hline hnil hdecode hheader
              refine failsClosed_line hmessage hdigits hdepth fun members hloads => ?_
              rw [hrest]
              exact .line line rest t members hline hdecode hloads
          | true =>
              obtain ⟨headers, stop, after, hends⟩ := exists_ends r.pipe.ended (strip t) rest
              exact h.failsClosed_block hr ⟨line, rest, t, hline, hnil, hdecode, hheader, hends⟩

/-! ## Streams that do harm -/

theorem splitLine_of_notMem {bytes : Bytes} (h : (10 : UInt8) ∉ bytes) :
    splitLine bytes = none := by
  induction bytes with
  | nil => rfl
  | cons b bytes ih =>
      rw [List.mem_cons, not_or] at h
      rw [splitLine, if_neg (Ne.symm h.1), ih h.2]
      rfl

theorem splitLine_some {bytes line rest : Bytes} (h : splitLine bytes = some (line, rest)) :
    ∃ content, line = content ++ [10] ∧ (10 : UInt8) ∉ content := by
  induction bytes generalizing line with
  | nil => cases h
  | cons b bytes ih =>
      rw [splitLine] at h
      split at h
      · rename_i hb
        cases h
        exact ⟨[], by rw [hb]; rfl, List.not_mem_nil⟩
      · rename_i hb
        rw [Option.map_eq_some_iff] at h
        obtain ⟨⟨line', rest'⟩, hsplit, heq⟩ := h
        cases heq
        obtain ⟨content, rfl, hcontent⟩ := ih hsplit
        refine ⟨b :: content, rfl, fun hmem => ?_⟩
        exact (List.mem_cons.mp hmem).elim (fun heq => hb heq.symm) hcontent

/-- A line with something behind it ends with a newline. -/
theorem lineAt_full {ended : Bool} {bytes line rest : Bytes}
    (h : lineAt ended bytes = some (line, rest)) (hrest : rest ≠ []) :
    ∃ content, line = content ++ [10] ∧ (10 : UInt8) ∉ content ∧ bytes = content ++ 10 :: rest := by
  unfold lineAt at h
  split at h
  · rename_i p hsplit
    rw [Option.some.inj h] at hsplit
    obtain ⟨content, rfl, hcontent⟩ := splitLine_some hsplit
    refine ⟨content, rfl, hcontent, ?_⟩
    rw [eq_append_of_splitLine hsplit]
    simp
  · split at h
    · cases h
      exact absurd rfl hrest
    · cases h

theorem Ends.of_nil {ended : Bool} {headerLine : Text} {bytes after : Bytes} {headers : List Text}
    {stop : Stop} (h : Ends ended headerLine bytes headers stop after) (hnil : headerLine = []) :
    headers = [] ∧ after = bytes := by
  cases h with
  | blank => exact ⟨rfl, rfl⟩
  | malformed _ _ hne => exact absurd hnil hne
  | exit _ _ _ hcolon => rw [hnil] at hcolon; cases hcolon
  | undecodable _ _ _ _ hcolon => rw [hnil] at hcolon; cases hcolon
  | waits _ _ hcolon => rw [hnil] at hcolon; cases hcolon
  | more _ _ _ _ _ _ _ _ hcolon => rw [hnil] at hcolon; cases hcolon

/-- The induction on headers that end with a blank line. -/
theorem Ends.blank_induction {ended : Bool} {after : Bytes}
    {motive : (headerLine : Text) → (bytes : Bytes) → (headers : List Text) →
      Ends ended headerLine bytes headers .blank after → Prop}
    (blank : motive [] after [] (.blank after))
    (more : ∀ (headerLine : Text) (bytes line rest : Bytes) (t : Text) (headers : List Text)
      (hcolon : ':' ∈ headerLine) (hline : lineAt ended bytes = some (line, rest))
      (hne : line ≠ []) (hdecode : decodeUtf8 line = some t)
      (hends : Ends ended (strip t) rest headers .blank after), motive (strip t) rest headers hends →
      motive headerLine bytes (headerLine :: headers)
        (.more headerLine bytes line rest t headers .blank after hcolon hline hne hdecode hends))
    {headerLine : Text} {bytes : Bytes} {headers : List Text}
    (h : Ends ended headerLine bytes headers .blank after) :
    motive headerLine bytes headers h := by
  have hall : ∀ stop (h : Ends ended headerLine bytes headers stop after) (hstop : stop = .blank),
      motive headerLine bytes headers (hstop ▸ h) := by
    intro stop h
    induction h with
    | blank bytes =>
        intro _
        exact blank
    | malformed headerLine bytes _ _ =>
        intro hstop
        cases hstop
    | exit headerLine bytes rest _ _ =>
        intro hstop
        cases hstop
    | undecodable headerLine bytes line rest _ _ _ _ =>
        intro hstop
        cases hstop
    | waits headerLine bytes _ _ =>
        intro hstop
        cases hstop
    | more headerLine bytes line rest t headers stop after hcolon hline hne hdecode hends ih =>
        rintro rfl
        exact more headerLine bytes line rest t headers hcolon hline hne hdecode hends
          (ih blank more hends rfl)
  exact hall .blank h rfl

/-- Headers take at least a line. -/
theorem Ends.length_lt {ended : Bool} {headerLine : Text} {bytes after : Bytes}
    {headers : List Text} (h : Ends ended headerLine bytes headers .blank after) :
    headerLine ≠ [] → after.length < bytes.length := by
  induction h using Ends.blank_induction with
  | blank =>
      intro hne
      exact absurd rfl hne
  | more headerLine bytes line rest t headers _ hline hne _ hends ih =>
      intro _
      have hlengths := congrArg List.length (lineAt_append hline)
      have hpos := List.length_pos_iff.mpr hne
      rw [List.length_append] at hlengths
      by_cases hnil : strip t = []
      · rw [(hends.of_nil hnil).2]
        omega
      · have hlt := ih hnil
        omega

/-- A stream that comes byte by byte, but for one read that finds `k` bytes more. -/
def sizes (last k : Nat) (i : Nat) : Nat := if i = last then k + 1 else 1

/-- Such a stream, after `j` reads. -/
def dripping (ended : Bool) (last k j : Nat) (bytes : Bytes) : Pipe :=
  { delivered := bytes, ended := ended, sizes := sizes last k, reads := j }

theorem read_dripping (ended : Bool) (last : Nat) {k : Nat} (hk : k < 65536) (j : Nat) (b : UInt8)
    (bytes : Bytes) :
    (dripping ended last k j (b :: bytes)).read 65536
      = some (b :: bytes.take (sizes last k j - 1),
          dripping ended last k (j + 1) (bytes.drop (sizes last k j - 1))) := by
  have hfound : min (max 1 (sizes last k j)) 65536 = (sizes last k j - 1) + 1 := by
    rw [sizes]
    split
    · omega
    · rfl
  rw [Pipe.read, if_neg (by rintro ⟨h, _⟩; cases h)]
  show some ((b :: bytes).take (min (max 1 (sizes last k j)) 65536), _) = _
  show some (_, Pipe.mk ((b :: bytes).drop (min (max 1 (sizes last k j)) 65536)) _ _ _) = _
  rw [hfound, List.take_succ_cons, List.drop_succ_cons]
  rfl

/-- A line of it, byte by byte.  Induction on the line. -/
theorem readStdoutLine_dripping (ended : Bool) (last : Nat) {k : Nat} (hk : k < 65536)
    {content : Bytes} (hcontent : (10 : UInt8) ∉ content) (rest : Bytes) :
    ∀ (buffer : Bytes) (j : Nat), (10 : UInt8) ∉ buffer → j + content.length ≤ last →
    readStdoutLine { buffer := buffer, pipe := dripping ended last k j (content ++ 10 :: rest) }
      = some (buffer ++ content ++ [10],
          { buffer := rest.take (sizes last k (j + content.length) - 1),
            pipe := dripping ended last k (j + content.length + 1)
              (rest.drop (sizes last k (j + content.length) - 1)) }) := by
  induction content with
  | nil =>
      intro buffer j hbuffer _
      rw [readStdoutLine_more (splitLine_of_notMem hbuffer) (read_dripping ended last hk j 10 rest)
        (List.cons_ne_nil _ _), readStdoutLine_buffered (splitLine_append hbuffer _)]
      simp
  | cons b content ih =>
      intro buffer j hbuffer hlast
      rw [List.mem_cons, not_or] at hcontent
      rw [List.length_cons] at hlast
      have hsize : sizes last k j - 1 = 0 := by
        rw [sizes, if_neg (by omega)]
      have hread := read_dripping ended last hk j b (content ++ 10 :: rest)
      rw [hsize, List.take_zero, List.drop_zero] at hread
      have hnext : (10 : UInt8) ∉ buffer ++ [b] := by
        rw [List.mem_append, List.mem_singleton]
        exact not_or.mpr ⟨hbuffer, hcontent.1⟩
      rw [List.cons_append, readStdoutLine_more (splitLine_of_notMem hbuffer) hread
        (List.cons_ne_nil _ _)]
      show readStdoutLine { buffer := buffer ++ [b], pipe := _ } = _
      rw [ih hcontent.2 (buffer ++ [b]) (j + 1) hnext (by omega)]
      have hindex : j + 1 + content.length = j + (b :: content).length := by
        rw [List.length_cons]
        omega
      rw [hindex]
      simp

/-- The header that is read last, and what comes with it. -/
theorem readHeaders_dripping {ended : Bool} (last : Nat) {k : Nat} (hk : k < 65536)
    {headerLine : Text} {bytes after : Bytes} {headers : List Text}
    (h : Ends ended headerLine bytes headers .blank after) :
    headerLine ≠ [] → after ≠ [] → ∀ (dict : List (Text × Text)) (j : Nat),
    j + bytes.length = last + 1 + after.length →
    readHeaders dict headerLine { buffer := [], pipe := dripping ended last k j bytes }
      = some (.ok (record dict headers),
          { buffer := after.take k, pipe := dripping ended last k (last + 1) (after.drop k) }) := by
  induction h using Ends.blank_induction with
  | blank =>
      intro hne
      exact absurd rfl hne
  | more headerLine bytes line rest t headers hcolon hline hne hdecode hends ih =>
      intro _ hafter dict j hlast
      obtain ⟨key, value, hsplit⟩ := splitOnce_of_mem hcolon
      have hrest : rest ≠ [] := by
        rintro rfl
        by_cases hnil : strip t = []
        · exact hafter (hends.of_nil hnil).2
        · exact absurd (hends.length_lt hnil) (Nat.not_lt_zero _)
      obtain ⟨content, rfl, hcontent, rfl⟩ := lineAt_full hline hrest
      rw [List.length_append, List.length_cons] at hlast
      have hread := readStdoutLine_dripping ended last hk hcontent rest [] j
        List.not_mem_nil
      by_cases hnil : strip t = []
      · -- the blank line: more comes with it
        obtain ⟨rfl, rfl⟩ := hends.of_nil hnil
        have hindex : j + content.length = last := by omega
        have hsize : sizes last k last - 1 = k := by rw [sizes, if_pos rfl, Nat.add_sub_cancel]
        rw [hindex, hsize] at hread
        rw [readHeaders_more hsplit dict (hread (Nat.le_refl _)) hne hdecode, hnil, readHeaders,
          if_pos rfl, record_cons hsplit]
        rfl
      · have hlt := hends.length_lt hnil
        have hsize : sizes last k (j + content.length) - 1 = 0 := by
          rw [sizes, if_neg (by omega)]
        rw [hsize, List.take_zero, List.drop_zero] at hread
        rw [readHeaders_more hsplit dict (hread (by omega)) hne hdecode, record_cons hsplit]
        exact ih hnil hafter _ _ (by omega)

/-- No object is the first line of a block. -/
theorem not_object_of_isHeader {t : Text} (h : isHeader t = true) (members : Payload floats) :
    loads floats t ≠ .ok (.obj members) := by
  intro hloads
  obtain ⟨doc, htext, _, hvalue⟩ := (loads_iff floats).mp hloads
  obtain ⟨b, hb⟩ := (isObj_of_value hvalue).text_eq
  have hfirst : ∀ c ∈ t.head?, c.toLower = 'c' := by
    intro c hc
    rw [isHeader, List.isPrefixOf_iff_prefix] at h
    obtain ⟨rest, hrest⟩ := h
    have hhead := congrArg List.head? hrest
    rw [lower, List.head?_map, hc] at hhead
    exact (Option.some.inj hhead).symm
  rw [htext, Document.text, hb] at hfirst
  cases hbefore : doc.before.1 with
  | nil =>
      rw [hbefore] at hfirst
      exact absurd (hfirst '{' rfl) (by decide)
  | cons c ws =>
      rw [hbefore] at hfirst
      have hlower := hfirst c rfl
      have hspace := isSpace_ws doc.before c (hbefore ▸ List.mem_cons_self ..)
      rw [toLower_of_isSpace hspace] at hlower
      rw [hlower] at hspace
      exact absurd hspace (by decide)

/-- Behind a block with a negative length nothing is framed. -/
theorem not_frame_of_negative {ended : Bool} {bytes after rest : Bytes} {headers : List Text}
    {length : Text} {n : Int} (h : HeaderBlock ended bytes headers .blank after)
    (hlength : announced headers = some length) (hn : toInt length = some n) (hneg : n < 0)
    (members : Payload floats) : ¬ FrameAt floats toInt ended bytes members rest := by
  intro hframe
  cases hframe with
  | line line _ t _ hline hdecode hloads =>
      obtain ⟨line', _, t', hline', _, hdecode', hheader, _⟩ := h
      rw [hline] at hline'
      cases hline'
      rw [hdecode] at hdecode'
      cases hdecode'
      exact not_object_of_isHeader hheader members hloads
  | block headers' length' body _ t _ hblock hlength' hn' _ _ =>
      have hsame := (h.unique hblock).1
      rw [hlength, hlength'] at hsame
      cases hsame
      rw [hn] at hn'
      cases hn'
      omega

/-- A stream that comes byte by byte. -/
def slow (ended : Bool) (bytes : Bytes) : Reader :=
  { buffer := [], pipe := dripping ended 0 0 0 bytes }

/-- The reads that cut a block with a negative length behind an object. -/
def cutting (ended : Bool) (bytes after : Bytes) (k : Nat) : Reader :=
  { buffer := [], pipe := dripping ended (bytes.length - after.length - 1) k 0 bytes }

/-- What a call makes of such a block. -/
theorem readMessage_cutting (floats : Floats) (toInt : Text → Option Int) {ended : Bool}
    {bytes after : Bytes} {headers : List Text} {length : Text} {n k : Nat}
    (h : HeaderBlock ended bytes headers .blank after) (hlength : announced headers = some length)
    (hn : toInt length = some (-(n : Int))) (hpos : 0 < n) (hk : k < 65536) (hafter : after ≠ []) :
    ∃ r', readMessage floats toInt (cutting ended bytes after k)
      = some (loadsBody floats ((after.take k).take ((after.take k).length - n)), r') := by
  obtain ⟨line, rest, t, hline, hne, hdecode, hheader, hends⟩ := h
  have hheaderNe : strip t ≠ [] := by
    intro hnil
    rw [hnil] at hheader
    cases hheader
  have hlt := hends.length_lt hheaderNe
  have hrest : rest ≠ [] := by
    rintro rfl
    exact absurd hlt (Nat.not_lt_zero _)
  obtain ⟨content, rfl, hcontent, rfl⟩ := lineAt_full hline hrest
  let last := (content ++ 10 :: rest).length - after.length - 1
  have hlast : last = content.length + rest.length - after.length := by
    show (content ++ 10 :: rest).length - after.length - 1 = _
    rw [List.length_append, List.length_cons]
    omega
  have hsize : sizes last k (0 + content.length) - 1 = 0 := by
    rw [sizes, if_neg (by omega)]
  have hread := readStdoutLine_dripping ended last hk hcontent rest [] 0 List.not_mem_nil (by omega)
  rw [hsize, List.take_zero, List.drop_zero] at hread
  have hheaders := readHeaders_dripping last hk hends hheaderNe hafter []
    (0 + content.length + 1) (by omega)
  have hget : Json.get contentLength (record [] headers) = some length :=
    ((get_record headers []).trans Option.or_none).trans hlength
  obtain ⟨r', hbody⟩ := readBody_neg floats hn (by omega)
    { buffer := after.take k, pipe := dripping ended last k (last + 1) (after.drop k) }
  have hslice : sliceTo (after.take k) (-(n : Int))
      = (after.take k).take ((after.take k).length - n) := by
    rw [sliceTo, if_neg (by omega), Int.neg_neg, Int.toNat_natCast]
  rw [hslice] at hbody
  have hfirst : readStdoutLine (cutting ended (content ++ 10 :: rest) after k) = _ := hread
  refine ⟨r', ?_⟩
  rw [readMessage_decoded floats toInt hfirst hne hdecode, if_pos hheader, hheaders, Option.bind_some,
    readBlock, hget]
  exact hbody

theorem FailsClosed.decodable {r : Reader} (h : FailsClosed floats toInt r) (headers : List Text)
    (after : Bytes) : ¬ HeaderBlock r.pipe.ended r.pending headers .undecodable after := by
  intro hblock
  obtain ⟨r', hmessage, _⟩ := (readMessage_block floats toInt hblock).2 _ rfl
  obtain ⟨why, hwhy⟩ := h.raises _ r' hmessage
  cases hwhy

/-- On a line only `JSONDecodeError` is caught. -/
theorem FailsClosed.line_caught {r : Reader} (h : FailsClosed floats toInt r) {line rest : Bytes}
    {t : Text} (hline : lineAt r.pipe.ended r.pending = some (line, rest)) (hne : line ≠ [])
    (hdecode : decodeUtf8 line = some t) (hheader : isHeader (strip t) = false) :
    loads floats (strip t) ≠ .error .valueError
      ∧ loads floats (strip t) ≠ .error .recursionError := by
  obtain ⟨r', hmessage, _⟩ := readMessage_line floats toInt hline hne hdecode hheader
  rw [loadsLine] at hmessage
  constructor
  · intro hloads
    rw [hloads] at hmessage
    obtain ⟨why, hwhy⟩ := h.raises _ r' hmessage
    cases hwhy
  · intro hloads
    rw [hloads] at hmessage
    obtain ⟨why, hwhy⟩ := h.raises _ r' hmessage
    cases hwhy

/-- What is too deep is not caught. -/
theorem FailsClosed.not_depth {r r' : Reader} (h : FailsClosed floats toInt r) {body : Bytes} {t : Text}
    (hmessage : readMessage floats toInt r = some (loadsBody floats body, r'))
    (hdecode : decodeUtf8 body = some t) : loads floats t ≠ .error .recursionError := by
  intro hloads
  rw [loadsBody, hdecode] at hmessage
  dsimp only at hmessage
  rw [hloads] at hmessage
  obtain ⟨why, hwhy⟩ := h.raises _ r' hmessage
  cases hwhy

theorem FailsClosed.body_depth {r : Reader} (h : FailsClosed floats toInt r) {headers : List Text}
    {length : Text} {body rest : Bytes} {t : Text}
    (hblock : HeaderBlock r.pipe.ended r.pending headers .blank (body ++ rest))
    (hlength : announced headers = some length) (hn : toInt length = some (body.length : Int))
    (hdecode : decodeUtf8 body = some t) : loads floats t ≠ .error .recursionError := by
  obtain ⟨r₁, hrest, _, _, hmessage⟩ := readMessage_blank floats toInt hblock
  have hthere : body.length ≤ r₁.pending.length := by
    rw [hrest, List.length_append]
    omega
  obtain ⟨r', hbody, _⟩ := readBody_there floats hn hthere
  rw [hlength] at hmessage
  rw [hrest, List.take_left] at hbody
  exact h.not_depth (hmessage.trans hbody) hdecode

/-- Where the reads cut a block with a negative length behind `body`, that is what is loaded. -/
theorem FailsClosed.cut {ended : Bool} {headers : List Text} {length : Text} {n : Nat}
    {bytes body rest : Bytes} {t : Text}
    (h : FailsClosed floats toInt (cutting ended bytes (body ++ rest) (body.length + n)))
    (hblock : HeaderBlock ended bytes headers .blank (body ++ rest))
    (hlength : announced headers = some length) (hn : toInt length = some (-(n : Int)))
    (hpos : 0 < n) (hle : n ≤ rest.length) (hk : body.length + n < 65536)
    (hdecode : decodeUtf8 body = some t) :
    loads floats t ≠ .error .recursionError ∧ ∀ members, loads floats t ≠ .ok (.obj members) := by
  have hafter : body ++ rest ≠ [] := by
    intro hnil
    rw [(List.append_eq_nil_iff.mp hnil).2, List.length_nil] at hle
    omega
  have hbuffer : ((body ++ rest).take (body.length + n)).take
      (((body ++ rest).take (body.length + n)).length - n) = body := by
    have hlength : ((body ++ rest).take (body.length + n)).length = body.length + n := by
      rw [List.length_take, List.length_append]
      omega
    rw [hlength, Nat.add_sub_cancel, List.take_take, Nat.min_eq_left (Nat.le_add_right _ _),
      List.take_left]
  obtain ⟨r', hmessage⟩ := readMessage_cutting floats toInt hblock hlength hn hpos hk hafter
  rw [hbuffer] at hmessage
  refine ⟨h.not_depth hmessage hdecode, fun members hloads => ?_⟩
  rw [loadsBody, hdecode] at hmessage
  dsimp only at hmessage
  rw [hloads] at hmessage
  exact not_frame_of_negative hblock hlength hn (by omega) members (h.returns members r' hmessage)

/-- **A stream on which every call fails closed does no harm.** -/
theorem harmless_of_failsClosed {ended : Bool} {bytes : Bytes}
    (h : ∀ r : Reader, Reachable floats toInt r → r.pending = bytes → r.pipe.ended = ended →
      FailsClosed floats toInt r) : Harmless floats toInt ended bytes := by
  have hslow : FailsClosed floats toInt (slow ended bytes) := h _ (.start _) rfl rfl
  have hcut : ∀ after k, FailsClosed floats toInt (cutting ended bytes after k) :=
    fun after k => h _ (.start _) rfl rfl
  constructor
  · exact hslow.decodable
  · intro line rest t hline hne hdecode hheader
    exact hslow.line_caught hline hne hdecode hheader
  · intro headers length body rest t hblock hlength hn hdecode
    exact hslow.body_depth hblock hlength hn hdecode
  · intro headers length n body rest t hblock hlength hn hpos hle hk hdecode
    exact (hcut _ _).cut hblock hlength hn hpos hle hk hdecode

/-- **WHEN CALLS FAIL CLOSED**: a call that starts at these bytes does, after any calls and
    however the bytes arrive, exactly if they do no harm. -/
theorem failsClosed_iff (floats : Floats) (toInt : Text → Option Int) (ended : Bool) (bytes : Bytes) :
    (∀ r : Reader, Reachable floats toInt r → r.pending = bytes → r.pipe.ended = ended →
        FailsClosed floats toInt r)
      ↔ Harmless floats toInt ended bytes := by
  constructor
  · intro h
    exact harmless_of_failsClosed h
  · rintro h r hr rfl rfl
    exact h.failsClosed hr.bounded

/-- `Content-Length: 2`, and a header of a byte that is no text. -/
def undecodableHeader : Bytes := lineBytes "Content-Length: 2".toList false ++ [0xff, 10]

theorem headerBlock_undecodableHeader :
    HeaderBlock true undecodableHeader ["Content-Length: 2".toList] .undecodable [] := by
  have hdecode : decodeUtf8 [0xff, 10] = none := by
    rw [decodeUtf8, Option.map_eq_none_iff, ByteArray.utf8Decode?, ByteArray.utf8Decode?.go]
    decide
  have hstrip : strip ("Content-Length: 2".toList ++ lineEnd false)
      = "Content-Length: 2".toList := by
    decide
  refine ⟨lineBytes "Content-Length: 2".toList false, [0xff, 10], _, by decide +kernel,
    lineBytes_ne_nil _ _, decodeUtf8_lineBytes _ _, by decide, ?_⟩
  rw [hstrip]
  exact .undecodable _ _ [0xff, 10] [] (by decide) (by decide) (List.cons_ne_nil _ _) hdecode

/-- A header that is no text escapes as a `UnicodeDecodeError`. -/
theorem not_failsClosed_header :
    ¬ ∀ r : Reader, Reachable nanFloats (lengthOf nanFloats) r → FailsClosed nanFloats (lengthOf nanFloats) r := by
  intro h
  have hslow := h (slow true undecodableHeader) (.start _)
  obtain ⟨r', hmessage, _⟩ := (readMessage_block nanFloats (lengthOf nanFloats)
    (r := slow true undecodableHeader) headerBlock_undecodableHeader).2 _ rfl
  obtain ⟨why, hwhy⟩ := hslow.raises _ r' hmessage
  cases hwhy

end Mcp.Live
