import MandatedVaultFactory.JsonSoundProofs

/-!
# Messages on the standard streams of the MCP server

How the client of the MCP server writes a message, and how it reads one: a line of JSON, or a
block of headers with as many bytes of JSON as they announce.

* **`readStdoutLine_line`**, **`readStdoutExactly_append`** — a line and a body are read as they
  were sent, whatever the buffer holds of them and however the rest arrives.
* **`readMessage_frame`** — one message, in every way to frame it, if it fits the interpreter.
* **`readMessages_frames`** — all messages of a stream, in order, and then the end of it, exactly
  if all of them fit.

`pending` carries all of it: what is in the buffer, and what is still to be read. -/

namespace Mcp

open Encoding Texts Json

/-! ## The stream -/

/-- Standard output of the process: the bytes that nobody has read, and how many of them each
    read finds there. -/
structure Stdout where
  unread : Bytes
  sizes : Nat → Nat
  reads : Nat

/-- `await process.stdout.read(n)`: at most `n` bytes, and none only at the end. -/
def Stdout.read (s : Stdout) (n : Nat) : Bytes × Stdout :=
  let found := min (max 1 (s.sizes s.reads)) n
  (s.unread.take found, { s with unread := s.unread.drop found, reads := s.reads + 1 })

theorem Stdout.read_append (s : Stdout) (n : Nat) :
    (s.read n).1 ++ (s.read n).2.unread = s.unread :=
  List.take_append_drop _ _

theorem Stdout.length_read_le (s : Stdout) (n : Nat) : (s.read n).1.length ≤ n := by
  rw [Stdout.read, List.length_take]
  omega

theorem Stdout.read_eq_nil {s : Stdout} {n : Nat} (hn : 0 < n) (h : (s.read n).1 = []) :
    s.unread = [] := by
  rcases List.take_eq_nil_iff.mp h with hzero | hnil
  · omega
  · exact hnil

/-- The client's side of the stream, `self._stdout_buffer` and what it is filled from. -/
structure Reader where
  buffer : Bytes
  stdout : Stdout

/-- Everything that is still to come. -/
def Reader.pending (r : Reader) : Bytes := r.buffer ++ r.stdout.unread

/-! ## Lines -/

/-- Cut after the first newline. -/
def splitLine : Bytes → Option (Bytes × Bytes)
  | [] => none
  | b :: bs => if b = 10 then some ([b], bs) else (splitLine bs).map fun p => (b :: p.1, p.2)

theorem splitLine_append {line : Bytes} (h : (10 : UInt8) ∉ line) (rest : Bytes) :
    splitLine (line ++ 10 :: rest) = some (line ++ [10], rest) := by
  induction line with
  | nil => rfl
  | cons b line ih =>
      rw [List.mem_cons, not_or] at h
      rw [List.cons_append, splitLine, if_neg (Ne.symm h.1), ih h.2]
      rfl

/-- What comes later does not move the first newline. -/
theorem splitLine_append_of_some {bs line rest : Bytes} (h : splitLine bs = some (line, rest))
    (more : Bytes) : splitLine (bs ++ more) = some (line, rest ++ more) := by
  induction bs generalizing line with
  | nil => simp [splitLine] at h
  | cons b bs ih =>
      rw [splitLine] at h
      rw [List.cons_append, splitLine]
      by_cases hb : b = 10
      · rw [if_pos hb, Option.some.injEq, Prod.mk.injEq] at h
        rw [if_pos hb, ← h.1, ← h.2]
      · rw [if_neg hb, Option.map_eq_some_iff] at h
        obtain ⟨⟨l, r⟩, hsplit, heq⟩ := h
        rw [Prod.mk.injEq] at heq
        obtain ⟨rfl, rfl⟩ := heq
        rw [if_neg hb, ih hsplit]
        rfl

theorem eq_append_of_splitLine {bs line rest : Bytes} (h : splitLine bs = some (line, rest)) :
    bs = line ++ rest := by
  induction bs generalizing line with
  | nil => simp [splitLine] at h
  | cons b bs ih =>
      rw [splitLine] at h
      by_cases hb : b = 10
      · rw [if_pos hb, Option.some.injEq, Prod.mk.injEq] at h
        rw [← h.1, ← h.2]
        rfl
      · rw [if_neg hb, Option.map_eq_some_iff] at h
        obtain ⟨⟨l, r⟩, hsplit, heq⟩ := h
        rw [Prod.mk.injEq] at heq
        obtain ⟨rfl, rfl⟩ := heq
        rw [ih hsplit]
        rfl

/-- `_read_stdout_line`: up to a newline, or to the end of the stream. -/
def readStdoutLine (r : Reader) : Bytes × Reader :=
  match splitLine r.buffer with
  | some (line, rest) => (line, { r with buffer := rest })
  | none =>
      if _hend : (r.stdout.read 65536).1 = [] then
        if r.buffer = [] then ([], { r with stdout := (r.stdout.read 65536).2 })
        else (r.buffer, { buffer := [], stdout := (r.stdout.read 65536).2 })
      else
        readStdoutLine
          { buffer := r.buffer ++ (r.stdout.read 65536).1, stdout := (r.stdout.read 65536).2 }
termination_by r.stdout.unread.length
decreasing_by
  have happend := congrArg List.length (r.stdout.read_append 65536)
  have hpos := List.length_pos_iff.mpr _hend
  rw [List.length_append] at happend
  omega

theorem readStdoutLine_buffered {r : Reader} {line rest : Bytes}
    (h : splitLine r.buffer = some (line, rest)) :
    readStdoutLine r = (line, { r with buffer := rest }) := by
  rw [readStdoutLine, h]

/-- At the end of the stream the buffer is the last line. -/
theorem readStdoutLine_end {r : Reader} (h : splitLine r.buffer = none)
    (hend : (r.stdout.read 65536).1 = []) :
    (readStdoutLine r).1 = ((splitLine r.pending).getD (r.pending, [])).1 ∧
    (readStdoutLine r).2.pending = ((splitLine r.pending).getD (r.pending, [])).2 := by
  have hunread : r.stdout.unread = [] := Stdout.read_eq_nil (by decide) hend
  have hrest : (r.stdout.read 65536).2.unread = [] := by
    have happend := r.stdout.read_append 65536
    rw [hunread, List.append_eq_nil_iff] at happend
    exact happend.2
  have hpending : r.pending = r.buffer := by rw [Reader.pending, hunread, List.append_nil]
  rw [readStdoutLine, hpending, h]
  simp only [dif_pos hend, Option.getD_none]
  by_cases hnil : r.buffer = []
  · rw [if_pos hnil, Reader.pending, hnil, hrest]
    exact ⟨rfl, rfl⟩
  · rw [if_neg hnil, Reader.pending, hrest]
    exact ⟨rfl, rfl⟩

theorem readStdoutLine_more {r : Reader} (h : splitLine r.buffer = none)
    (hmore : (r.stdout.read 65536).1 ≠ []) :
    readStdoutLine r = readStdoutLine
      { buffer := r.buffer ++ (r.stdout.read 65536).1, stdout := (r.stdout.read 65536).2 } := by
  rw [readStdoutLine, h]
  simp only [dif_neg hmore]

/-- A read moves bytes into the buffer, and loses none. -/
theorem pending_read (r : Reader) (n : Nat) :
    (Reader.mk (r.buffer ++ (r.stdout.read n).1) (r.stdout.read n).2).pending = r.pending := by
  rw [Reader.pending, List.append_assoc, r.stdout.read_append]
  rfl

/-- A line is what there is up to the first newline, wherever the reads cut it, and without a
    newline the rest of the stream.  Induction on the reads. -/
theorem readStdoutLine_spec (r : Reader) :
    (readStdoutLine r).1 = ((splitLine r.pending).getD (r.pending, [])).1 ∧
    (readStdoutLine r).2.pending = ((splitLine r.pending).getD (r.pending, [])).2 := by
  induction r using readStdoutLine.induct with
  | case1 r line rest hsplit =>
      rw [readStdoutLine_buffered hsplit, Reader.pending, Reader.pending,
        splitLine_append_of_some hsplit]
      exact ⟨rfl, rfl⟩
  | case2 r hsplit hend hnil => exact readStdoutLine_end hsplit hend
  | case3 r hsplit hend hne => exact readStdoutLine_end hsplit hend
  | case4 r hsplit hmore ih =>
      rw [pending_read] at ih
      rw [readStdoutLine_more hsplit hmore]
      exact ih

/-- Reading a line takes it away, and nothing else. -/
theorem readStdoutLine_append (r : Reader) :
    (readStdoutLine r).1 ++ (readStdoutLine r).2.pending = r.pending := by
  obtain ⟨hline, hrest⟩ := readStdoutLine_spec r
  rw [hline, hrest]
  cases hsplit : splitLine r.pending with
  | none => exact List.append_nil _
  | some p => exact (eq_append_of_splitLine hsplit).symm

/-! ## Counted bytes -/

/-- `xs[:n]`, where a negative `n` counts from the end. -/
def sliceTo (xs : Bytes) (n : Int) : Bytes :=
  if 0 ≤ n then xs.take n.toNat else xs.take (xs.length - (-n).toNat)

/-- Read until nothing is missing, `none` where the stream ends before. -/
def readRemaining (remaining : Int) (chunks : Bytes) (s : Stdout) : Option Bytes × Stdout :=
  if 0 < remaining then
    if _hend : (s.read remaining.toNat).1 = [] then (none, (s.read remaining.toNat).2)
    else
      readRemaining (remaining - (s.read remaining.toNat).1.length)
        (chunks ++ (s.read remaining.toNat).1) (s.read remaining.toNat).2
  else (some chunks, s)
termination_by remaining.toNat
decreasing_by
  have hpos := List.length_pos_iff.mpr _hend
  omega

/-- `_read_stdout_exactly`: first from the buffer, then from the stream. -/
def readStdoutExactly (length : Int) (r : Reader) : Option Bytes × Reader :=
  let buffered := sliceTo r.buffer length
  let rest := readRemaining (length - buffered.length) buffered r.stdout
  (rest.1, { buffer := r.buffer.drop buffered.length, stdout := rest.2 })

/-- What is missing comes from the stream, however it arrives.  Induction on the reads. -/
theorem readRemaining_spec (remaining : Int) (chunks : Bytes) (s : Stdout) :
    remaining.toNat ≤ s.unread.length →
    (readRemaining remaining chunks s).1 = some (chunks ++ s.unread.take remaining.toNat) ∧
    (readRemaining remaining chunks s).2.unread = s.unread.drop remaining.toNat := by
  induction remaining, chunks, s using readRemaining.induct with
  | case1 remaining chunks s hpos hend =>
      intro hlength
      rw [Stdout.read_eq_nil (by omega) hend, List.length_nil] at hlength
      omega
  | case2 remaining chunks s hpos hmore ih =>
      intro hlength
      have happend := s.read_append remaining.toNat
      have hle := s.length_read_le remaining.toNat
      have hmissing : (remaining - (s.read remaining.toNat).1.length).toNat
          = remaining.toNat - (s.read remaining.toNat).1.length := by omega
      rw [← happend, List.length_append] at hlength
      obtain ⟨hbytes, hrest⟩ := ih (by omega)
      rw [readRemaining, if_pos hpos, dif_neg hmore, hbytes, hrest, hmissing]
      conv => rhs; rw [← happend]
      conv => lhs; rhs; rw [← happend]
      rw [List.take_append, List.drop_append, List.take_of_length_le hle,
        List.drop_of_length_le hle, List.append_assoc]
      exact ⟨rfl, rfl⟩
  | case3 remaining chunks s hpos =>
      intro _
      have hzero : remaining.toNat = 0 := by omega
      rw [readRemaining, if_neg hpos, hzero]
      simp

/-- **As many bytes as were asked for are read, from wherever they are.** -/
theorem readStdoutExactly_append {r : Reader} {body rest : Bytes}
    (h : r.pending = body ++ rest) :
    (readStdoutExactly body.length r).1 = some body ∧
    (readStdoutExactly body.length r).2.pending = rest := by
  have hbody : body = r.buffer.take body.length
      ++ r.stdout.unread.take (body.length - r.buffer.length) := by
    rw [← List.take_append, ← Reader.pending, h, List.take_left]
  have hrest : rest = r.buffer.drop body.length
      ++ r.stdout.unread.drop (body.length - r.buffer.length) := by
    rw [← List.drop_append, ← Reader.pending, h, List.drop_left]
  have hlength := congrArg List.length h
  rw [Reader.pending, List.length_append, List.length_append] at hlength
  have hslice : sliceTo r.buffer body.length = r.buffer.take body.length :=
    if_pos (Int.natCast_nonneg _)
  have hdrop : r.buffer.drop (r.buffer.take body.length).length = r.buffer.drop body.length := by
    rw [List.drop_eq_drop_iff, List.length_take]
    omega
  have hremaining : ((body.length : Int) - (r.buffer.take body.length).length).toNat
      = body.length - r.buffer.length := by
    rw [List.length_take]
    omega
  have hread := readRemaining_spec (body.length - (r.buffer.take body.length).length)
    (r.buffer.take body.length) r.stdout (by omega)
  rw [hremaining] at hread
  simp only [readStdoutExactly, hslice, Reader.pending, hread.1, hread.2, hdrop]
  exact ⟨congrArg some hbody.symm, hrest.symm⟩

/-! ## Reading a message -/

/-- Why a message is not returned. -/
inductive Reason where
  | processExit
  | undecodable
  | malformedHeaders (headerLine : Text)
  | omittedContentLength
  | invalidPayload
  | notAnObject

inductive Failure where
  /-- `MandatedVaultMcpUnavailableError`. -/
  | unavailable (why : Reason)
  /-- Of a header line after the first, which nothing catches. -/
  | unicodeDecodeError
  /-- Of an integer with too many digits, which nothing catches on a line. -/
  | valueError
  /-- Of JSON that is nested too deep, which nothing catches. -/
  | recursionError

/-- The members of an object, as a dictionary holds them. -/
abbrev Payload (floats : Floats) : Type := List (Str × Loaded floats.Float)

def contentLength : Text :=
  ['c', 'o', 'n', 't', 'e', 'n', 't', '-', 'l', 'e', 'n', 'g', 't', 'h']

/-- The header loop of `_read_message`, up to a blank line. -/
def readHeaders (headers : List (Text × Text)) (headerLine : Text) (r : Reader) :
    Except Failure (List (Text × Text)) × Reader :=
  if headerLine = [] then (.ok headers, r)
  else match splitOnce ':' headerLine with
    | none => (.error (.unavailable (.malformedHeaders headerLine)), r)
    | some (key, value) =>
        if _hline : (readStdoutLine r).1 = [] then
          (.error (.unavailable .processExit), (readStdoutLine r).2)
        else match decodeUtf8 (readStdoutLine r).1 with
          | none => (.error .unicodeDecodeError, (readStdoutLine r).2)
          | some line =>
              readHeaders (insert (lower key) (strip value) headers) (strip line)
                (readStdoutLine r).2
termination_by r.pending.length
decreasing_by
  have happend := congrArg List.length (readStdoutLine_append r)
  have hpos := List.length_pos_iff.mpr _hline
  rw [List.length_append] at happend
  omega

/-- Only an object is a message. -/
def asPayload (floats : Floats) : Loaded floats.Float → Except Failure (Payload floats)
  | .obj members => .ok members
  | _ => .error (.unavailable .notAnObject)

/-- A line of JSON; of the errors of `json.loads` only `JSONDecodeError` is caught. -/
def loadsLine (floats : Floats) (t : Text) : Except Failure (Payload floats) :=
  match loads floats t with
  | .ok v => asPayload floats v
  | .error .jsonDecodeError => .error (.unavailable .invalidPayload)
  | .error .valueError => .error .valueError
  | .error .recursionError => .error .recursionError

/-- A body; `ValueError` is caught, and with it the errors of decoding and of the digits. -/
def loadsBody (floats : Floats) (body : Bytes) : Except Failure (Payload floats) :=
  match decodeUtf8 body with
  | none => .error (.unavailable .invalidPayload)
  | some t =>
      match loads floats t with
      | .ok v => asPayload floats v
      | .error .recursionError => .error .recursionError
      | .error _ => .error (.unavailable .invalidPayload)

/-- `int(content_length)` of a text in ASCII. -/
def lengthOf (floats : Floats) (length : Text) : Option Int :=
  if exceeds floats.maxDigits (length.countP Char.isDigit) then none else int length

/-- The body that `Content-Length: length` announces. -/
def readBody (floats : Floats) (length : Text) (r : Reader) :
    Except Failure (Payload floats) × Reader :=
  match lengthOf floats length with
  | none => (.error (.unavailable .invalidPayload), r)
  | some n =>
      let body := readStdoutExactly n r
      match body.1 with
      | none => (.error (.unavailable .invalidPayload), body.2)
      | some bytes => (loadsBody floats bytes, body.2)

/-- `_read_message`. -/
def readMessage (floats : Floats) (r : Reader) : Except Failure (Payload floats) × Reader :=
  let line := readStdoutLine r
  if line.1 = [] then (.error (.unavailable .processExit), line.2)
  else match decodeUtf8 line.1 with
    | none => (.error (.unavailable .undecodable), line.2)
    | some text =>
        let stripped := strip text
        if (contentLength ++ [':']).isPrefixOf (lower stripped) then
          match readHeaders [] stripped line.2 with
          | (.error failure, r') => (.error failure, r')
          | (.ok headers, r') =>
              match get contentLength headers with
              | none => (.error (.unavailable .omittedContentLength), r')
              | some length => readBody floats length r'
        else (loadsLine floats stripped, line.2)

/-- Calls of `_read_message`, one after another. -/
def readMessages (floats : Floats) :
    Nat → Reader → List (Except Failure (Payload floats)) × Reader
  | 0, r => ([], r)
  | n + 1, r =>
      let first := readMessage floats r
      let rest := readMessages floats n first.2
      (first.1 :: rest.1, rest.2)

/-- What a client sends: a dictionary, its keys different at every level. -/
abbrev Message (floats : Floats) : Type :=
  { members : Payload floats // (Value.obj members).Keyed }

/-- The bytes that `_write_message` writes, unless `json.dumps` raises. -/
def writeMessage (floats : Floats) (m : Message floats) : Except Limit Bytes :=
  match (Value.obj m.1).limit floats floats.writeDepth 0 with
  | none => .ok (encodeUtf8 (dumps floats (.obj m.1) ++ ['\n']))
  | some limit => .error limit

/-! ## Framed messages -/

/-- The end of a line. -/
def lineEnd (crlf : Bool) : Text := if crlf then ['\r', '\n'] else ['\n']

def lineBytes (t : Text) (crlf : Bool) : Bytes := encodeUtf8 (t ++ lineEnd crlf)

/-- A JSON text of an object. -/
structure ObjectText (floats : Floats) where
  document : Document
  members : Payload floats
  denotes : document.body.value floats = .obj members

/-- It meets no limit of the interpreter. -/
def ObjectText.Fits {floats : Floats} (o : ObjectText floats) : Prop :=
  o.document.body.limit floats 0 = none

/-- The characters of a header's name: visible ones in ASCII but the colon. -/
def isToken (c : Char) : Bool := 33 ≤ c.toNat && c.toNat ≤ 126 && c ≠ ':'

/-- A header other than `Content-Length`. -/
structure Header where
  name : Text
  name_ne_nil : name ≠ []
  token : ∀ c ∈ name, isToken c = true
  other : lower name ≠ contentLength
  value : Text
  oneLine : OneLine value
  crlf : Bool

def Header.bytes (h : Header) : Bytes := lineBytes (h.name ++ ':' :: h.value) h.crlf

/-- Spaces and tabs. -/
abbrev Blank : Type := { t : Text // ∀ c ∈ t, c = ' ' ∨ c = '\t' }

/-- The header `Content-Length`, its name in any case and its number in any width. -/
structure LengthHeader where
  name : Text
  named : lower name = contentLength
  before : Blank
  zeros : Nat
  after : Blank
  crlf : Bool

def LengthHeader.digits (h : LengthHeader) (n : Nat) : Text :=
  List.replicate h.zeros '0' ++ decimal n

def LengthHeader.bytes (h : LengthHeader) (n : Nat) : Bytes :=
  lineBytes (h.name ++ ':' :: (h.before.1 ++ h.digits n ++ h.after.1)) h.crlf

/-- A message as a server may send it. -/
inductive Frame (floats : Floats) where
  | line (o : ObjectText floats) (oneLine : OneLine o.document.text) (crlf : Bool)
  | block (length : LengthHeader) (headers : List Header) (crlf : Bool) (o : ObjectText floats)

def Frame.bytes {floats : Floats} : Frame floats → Bytes
  | .line o _ crlf => lineBytes o.document.text crlf
  | .block length headers crlf o =>
      length.bytes (encodeUtf8 o.document.text).length ++ headers.flatMap Header.bytes
        ++ lineBytes [] crlf ++ encodeUtf8 o.document.text

/-- The object that is framed. -/
def Frame.object {floats : Floats} : Frame floats → Payload floats
  | .line o _ _ => o.members
  | .block _ _ _ o => o.members

/-- Neither its object nor the length that it announces is too much for the interpreter. -/
def Frame.Fits {floats : Floats} : Frame floats → Prop
  | .line o _ _ => o.Fits
  | .block length _ _ o => o.Fits ∧
      exceeds floats.maxDigits (length.digits (encodeUtf8 o.document.text).length).length = false

/-! ## What is read of a line -/

theorem lineBytes_eq (t : Text) (crlf : Bool) :
    lineBytes t crlf = encodeUtf8 (t ++ if crlf then ['\r'] else []) ++ [10] := by
  have hend : t ++ lineEnd crlf = (t ++ if crlf then ['\r'] else []) ++ ['\n'] := by
    cases crlf <;> simp [lineEnd]
  rw [lineBytes, hend, encodeUtf8_append]
  rfl

theorem lineBytes_ne_nil (t : Text) (crlf : Bool) : lineBytes t crlf ≠ [] := by
  rw [lineBytes_eq]
  exact List.append_ne_nil_of_right_ne_nil _ (List.cons_ne_nil _ _)

theorem decodeUtf8_lineBytes (t : Text) (crlf : Bool) :
    decodeUtf8 (lineBytes t crlf) = some (t ++ lineEnd crlf) :=
  decodeUtf8_encodeUtf8 _

theorem isSpace_lineEnd (crlf : Bool) : ∀ c ∈ lineEnd crlf, isSpace c = true := by
  have hall : (lineEnd crlf).all isSpace = true := by cases crlf <;> decide
  exact List.all_eq_true.mp hall

/-- **A line is read as it was sent.** -/
theorem readStdoutLine_line {r : Reader} {t : Text} {crlf : Bool} {rest : Bytes}
    (ht : OneLine t) (h : r.pending = lineBytes t crlf ++ rest) :
    (readStdoutLine r).1 = lineBytes t crlf ∧ (readStdoutLine r).2.pending = rest := by
  have honeLine : OneLine (t ++ if crlf then ['\r'] else []) :=
    ht.append (by cases crlf <;> decide)
  have hsplit : splitLine r.pending = some (lineBytes t crlf, rest) := by
    rw [h, lineBytes_eq, List.append_assoc]
    exact splitLine_append (newline_notMem_encodeUtf8 honeLine) rest
  obtain ⟨hline, hrest⟩ := readStdoutLine_spec r
  rw [hsplit] at hline hrest
  exact ⟨hline, hrest⟩

/-- Every text is a trimmed end away from one whose last character is no white space. -/
theorem exists_trimmed_last (t : Text) : ∃ core after, t = core ++ after ∧
    (∀ c ∈ after, isSpace c = true) ∧ ∀ c ∈ core.getLast?, isSpace c = false := by
  refine ⟨(t.reverse.dropWhile isSpace).reverse, (t.reverse.takeWhile isSpace).reverse, ?_, ?_, ?_⟩
  · rw [← List.reverse_append, List.takeWhile_append_dropWhile, List.reverse_reverse]
  · intro c hc
    exact List.all_eq_true.mp List.all_takeWhile c (List.mem_reverse.mp hc)
  · intro c hc
    have hhead := List.head?_dropWhile_not isSpace t.reverse
    rw [List.getLast?_reverse, Option.mem_def] at hc
    rwa [hc] at hhead

/-! ## What is read of a header -/

theorem not_isSpace_of_isToken {c : Char} (h : isToken c = true) : isSpace c = false := by
  have hvisible : 33 ≤ c.toNat ∧ c.toNat ≤ 126 := by
    simp only [isToken, Bool.and_eq_true, decide_eq_true_eq] at h
    exact h.1
  exact not_isSpace_of_visible hvisible.1 hvisible.2

theorem colon_notMem_of_token {name : Text} (h : ∀ c ∈ name, isToken c = true) : ':' ∉ name :=
  fun hmem => absurd (h ':' hmem) (by decide)

/-- A header's line loses the white space at its end. -/
theorem strip_named {name : Text} (hne : name ≠ []) (hname : ∀ c ∈ name, isSpace c = false)
    {core after : Text} (hcore : ∀ c ∈ core.getLast?, isSpace c = false)
    (hafter : ∀ c ∈ after, isSpace c = true) :
    strip (name ++ ':' :: core ++ after) = name ++ ':' :: core := by
  have htrimmed : Trimmed (name ++ ':' :: core) := by
    refine ⟨fun c hc => ?_, fun c hc => ?_⟩
    · rw [List.head?_append_of_ne_nil _ hne] at hc
      exact hname c (List.mem_of_mem_head? hc)
    · rw [List.getLast?_append_of_ne_nil _ (List.cons_ne_nil _ _)] at hc
      cases core with
      | nil =>
          obtain rfl : ':' = c := by simpa using hc
          decide
      | cons d core => exact hcore c (by simpa using hc)
  have hstrip : strip ([] ++ (name ++ ':' :: core) ++ after) = name ++ ':' :: core :=
    strip_eq (fun _ hc => nomatch hc) hafter htrimmed
  rwa [List.nil_append] at hstrip

theorem Header.strip_line (h : Header) :
    ∃ core, strip (h.name ++ ':' :: h.value ++ lineEnd h.crlf) = h.name ++ ':' :: core := by
  obtain ⟨core, after, hsplit, hafter, hlast⟩ := exists_trimmed_last (h.value ++ lineEnd h.crlf)
  have hline : h.name ++ ':' :: h.value ++ lineEnd h.crlf = h.name ++ ':' :: core ++ after := by
    simp [hsplit]
  refine ⟨core, ?_⟩
  rw [hline]
  exact strip_named h.name_ne_nil (fun c hc => not_isSpace_of_isToken (h.token c hc)) hlast hafter

theorem Header.oneLine_line (h : Header) : OneLine (h.name ++ ':' :: h.value) :=
  OneLine.append (fun hmem => absurd (h.token _ hmem) (by decide)) (.cons (by decide) h.oneLine)

/-- One header, and the line after it. -/
theorem readHeaders_step {name : Text} (hname : ':' ∉ name) (headers : List (Text × Text))
    (value : Text) {r : Reader} {t : Text} {crlf : Bool}
    (hline : (readStdoutLine r).1 = lineBytes t crlf) :
    readHeaders headers (name ++ ':' :: value) r =
      readHeaders (insert (lower name) (strip value) headers) (strip (t ++ lineEnd crlf))
        (readStdoutLine r).2 := by
  have hne : name ++ ':' :: value ≠ [] := List.append_ne_nil_of_right_ne_nil _ (List.cons_ne_nil _ _)
  rw [readHeaders, if_neg hne, splitOnce_append hname]
  simp only [hline, dif_neg (lineBytes_ne_nil t crlf), decodeUtf8_lineBytes]

theorem strip_lineEnd (crlf : Bool) : strip ([] ++ lineEnd crlf) = [] := by
  cases crlf <;> decide

/-- **Headers are read up to the blank line, and none of them is taken for the length.**
    Induction on them. -/
theorem readHeaders_headers (hs : List Header) {crlf : Bool} {rest : Bytes} :
    ∀ {name : Text}, ':' ∉ name → ∀ (value : Text) (headers : List (Text × Text)) (r : Reader),
    r.pending = hs.flatMap Header.bytes ++ lineBytes [] crlf ++ rest →
    ∃ found r', readHeaders headers (name ++ ':' :: value) r = (.ok found, r') ∧
      r'.pending = rest ∧
      get contentLength found
        = get contentLength (insert (lower name) (strip value) headers) := by
  induction hs with
  | nil =>
      intro name hname value headers r hpending
      obtain ⟨hline, hrest⟩ := readStdoutLine_line (t := []) (by decide) hpending
      refine ⟨insert (lower name) (strip value) headers, (readStdoutLine r).2, ?_, hrest, rfl⟩
      rw [readHeaders_step hname headers value hline, strip_lineEnd, readHeaders, if_pos rfl]
  | cons h hs ih =>
      intro name hname value headers r hpending
      rw [List.flatMap_cons, List.append_assoc, List.append_assoc, ← List.append_assoc _ _ rest]
        at hpending
      obtain ⟨hline, hrest⟩ := readStdoutLine_line h.oneLine_line hpending
      obtain ⟨core, hcore⟩ := h.strip_line
      obtain ⟨found, r', hread, hrest', hget⟩ := ih (colon_notMem_of_token h.token) core
        (insert (lower name) (strip value) headers) (readStdoutLine r).2 hrest
      refine ⟨found, r', ?_, hrest', ?_⟩
      · rw [readHeaders_step hname headers value hline, hcore, hread]
      · rw [hget, get_insert_of_ne h.other]

/-! ## The header of the length -/

namespace LengthHeader

theorem toLower_mem (h : LengthHeader) {c : Char} (hc : c ∈ h.name) :
    c.toLower ∈ contentLength := by
  rw [← h.named]
  exact List.mem_map_of_mem hc

theorem colon_notMem (h : LengthHeader) : ':' ∉ h.name := fun hmem =>
  absurd (h.toLower_mem hmem) (by decide)

theorem not_isSpace (h : LengthHeader) : ∀ c ∈ h.name, isSpace c = false := by
  intro c hc
  rw [Bool.eq_false_iff]
  intro hspace
  have hmem := h.toLower_mem hc
  have hnone : contentLength.any isSpace = false := by decide
  rw [toLower_of_isSpace hspace] at hmem
  exact List.any_eq_false.mp hnone c hmem hspace

theorem name_ne_nil (h : LengthHeader) : h.name ≠ [] := by
  intro hnil
  have hnamed := h.named
  rw [hnil] at hnamed
  cases hnamed

theorem isDigit_digits (h : LengthHeader) (n : Nat) : ∀ c ∈ h.digits n, c.isDigit = true := by
  intro c hc
  rcases List.mem_append.mp hc with hzero | hdecimal
  · rw [List.eq_of_mem_replicate hzero]
    decide
  · exact isDigit_of_mem_decimal hdecimal

theorem digits_ne_nil (h : LengthHeader) (n : Nat) : h.digits n ≠ [] :=
  List.append_ne_nil_of_right_ne_nil _ (decimal_ne_nil n)

/-- The zeros in front do not count. -/
theorem int_digits (h : LengthHeader) (n : Nat) : int (h.digits n) = some (n : Int) := by
  rw [int_of_digits (h.isDigit_digits n) (h.digits_ne_nil n), digits, Nat.ofDigitChars_append,
    Nat.ofDigitChars_replicate_zero, Nat.mul_zero, decimal, Nat.ofDigitChars_ten_toDigits]

theorem countP_digits (h : LengthHeader) (n : Nat) :
    (h.digits n).countP Char.isDigit = (h.digits n).length :=
  List.countP_eq_length.mpr (h.isDigit_digits n)

theorem lengthOf_digits {floats : Floats} (h : LengthHeader) (n : Nat)
    (hfits : exceeds floats.maxDigits (h.digits n).length = false) :
    lengthOf floats (h.digits n) = some (n : Int) := by
  rw [lengthOf, countP_digits, hfits, h.int_digits]
  rfl

theorem lengthOf_eq_none {floats : Floats} (h : LengthHeader) (n : Nat)
    (hexceeds : exceeds floats.maxDigits (h.digits n).length = true) :
    lengthOf floats (h.digits n) = none := by
  rw [lengthOf, countP_digits, if_pos hexceeds]

theorem isSpace_blank (b : Blank) : ∀ c ∈ b.1, isSpace c = true := by
  intro c hc
  rcases b.2 c hc with rfl | rfl
  · decide
  · decide

theorem oneLine_line (h : LengthHeader) (n : Nat) :
    OneLine (h.name ++ ':' :: (h.before.1 ++ h.digits n ++ h.after.1)) := by
  have hblank : ∀ b : Blank, OneLine b.1 := fun b hmem => by
    rcases b.2 _ hmem with heq | heq <;> exact absurd heq (by decide)
  have hname : OneLine h.name := fun hmem => absurd (h.not_isSpace _ hmem) (by decide)
  exact hname.append (.cons (by decide)
    (((hblank _).append (oneLine_digits (h.isDigit_digits n))).append (hblank _)))

/-- The first line of a block, as the loop sees it. -/
theorem strip_line (h : LengthHeader) (n : Nat) :
    strip (h.name ++ ':' :: (h.before.1 ++ h.digits n ++ h.after.1) ++ lineEnd h.crlf)
      = h.name ++ ':' :: (h.before.1 ++ h.digits n) := by
  have hdigits := trimmed_of_digits (h.isDigit_digits n)
  have hline : h.name ++ ':' :: (h.before.1 ++ h.digits n ++ h.after.1) ++ lineEnd h.crlf
      = h.name ++ ':' :: (h.before.1 ++ h.digits n) ++ (h.after.1 ++ lineEnd h.crlf) := by
    simp
  rw [hline]
  refine strip_named h.name_ne_nil h.not_isSpace (fun c hc => ?_) (fun c hc => ?_)
  · rw [List.getLast?_append_of_ne_nil _ (h.digits_ne_nil n)] at hc
    exact hdigits.last c hc
  · rcases List.mem_append.mp hc with hblank | hend
    · exact isSpace_blank _ c hblank
    · exact isSpace_lineEnd _ c hend

/-- The value of the header, as it goes into the dictionary. -/
theorem strip_value (h : LengthHeader) (n : Nat) : strip (h.before.1 ++ h.digits n) = h.digits n := by
  have hstrip : strip (h.before.1 ++ h.digits n ++ []) = h.digits n :=
    strip_eq (isSpace_blank h.before) (fun _ hc => nomatch hc)
      (trimmed_of_digits (h.isDigit_digits n))
  rwa [List.append_nil] at hstrip

end LengthHeader

/-! ## The text of an object -/

theorem isSpace_ws (ws : Ws) : ∀ c ∈ ws.1, isSpace c = true := by
  intro c hc
  have hspace := ws.2 c hc
  simp only [isJsonSpace, Bool.or_eq_true, decide_eq_true_eq] at hspace
  rcases hspace with ((rfl | rfl) | rfl) | rfl <;> decide

namespace ObjectText

variable {floats : Floats} (o : ObjectText floats)

theorem trimmed : Trimmed o.document.body.text := by
  obtain ⟨t, ht⟩ := (isObj_of_value o.denotes).text_eq
  refine ⟨fun c hc => ?_, fun c hc => ?_⟩
  · rw [ht] at hc
    obtain rfl : '{' = c := by simpa using hc
    decide
  · rw [ht, ← List.cons_append, List.getLast?_concat] at hc
    obtain rfl : '}' = c := by simpa using hc
    decide

/-- The white space around it goes with the end of the line. -/
theorem strip_line (crlf : Bool) :
    strip (o.document.text ++ lineEnd crlf) = o.document.body.text := by
  rw [Document.text, List.append_assoc]
  refine strip_eq (isSpace_ws _) (fun c hc => ?_) o.trimmed
  rcases List.mem_append.mp hc with hafter | hend
  · exact isSpace_ws _ c hafter
  · exact isSpace_lineEnd _ c hend

/-- No object is taken for a header. -/
theorem not_header :
    (contentLength ++ [':']).isPrefixOf (lower o.document.body.text) = false := by
  obtain ⟨t, ht⟩ := (isObj_of_value o.denotes).text_eq
  rw [ht]
  rfl

theorem loads_body : loads floats o.document.body.text
    = unlessLimit (o.document.body.limit floats 0) (.obj o.members) := by
  have hread := loads_document floats
    { before := noSpace, body := o.document.body, after := noSpace }
  rw [o.denotes] at hread
  simpa [Document.text, noSpace] using hread

theorem loads_text : loads floats o.document.text
    = unlessLimit (o.document.body.limit floats 0) (.obj o.members) := by
  rw [loads_document, o.denotes]

theorem loadsLine_body : (o.Fits → loadsLine floats o.document.body.text = .ok o.members) ∧
    (¬ o.Fits → ∀ members, loadsLine floats o.document.body.text ≠ .ok members) := by
  rw [loadsLine, o.loads_body, Fits]
  cases hlimit : o.document.body.limit floats 0 with
  | none => exact ⟨fun _ => rfl, fun h => absurd rfl h⟩
  | some limit =>
      refine ⟨fun h => ?_, fun _ members h => ?_⟩
      · cases h
      · cases limit with
        | digits => cases h
        | depth => cases h

theorem loadsBody_text : (o.Fits → loadsBody floats (encodeUtf8 o.document.text) = .ok o.members) ∧
    (¬ o.Fits → ∀ members, loadsBody floats (encodeUtf8 o.document.text) ≠ .ok members) := by
  simp only [loadsBody, decodeUtf8_encodeUtf8, o.loads_text, Fits]
  cases hlimit : o.document.body.limit floats 0 with
  | none => exact ⟨fun _ => rfl, fun h => absurd rfl h⟩
  | some limit =>
      refine ⟨fun h => ?_, fun _ members h => ?_⟩
      · cases h
      · cases limit with
        | digits => cases h
        | depth => cases h

end ObjectText

/-! ## Messages -/

theorem isPrefixOf_length (h : LengthHeader) (t : Text) :
    (contentLength ++ [':']).isPrefixOf (lower (h.name ++ ':' :: t)) = true := by
  have hlower : lower (h.name ++ ':' :: t) = contentLength ++ [':'] ++ lower t := by
    rw [← h.named]
    simp [lower]
  rw [hlower, List.isPrefixOf_iff_prefix]
  exact List.prefix_append _ _

/-- A line of JSON. -/
theorem readMessage_line {floats : Floats} (o : ObjectText floats)
    (honeLine : OneLine o.document.text) (crlf : Bool) {r : Reader} {rest : Bytes}
    (h : r.pending = lineBytes o.document.text crlf ++ rest) :
    ∃ r', readMessage floats r = (loadsLine floats o.document.body.text, r')
      ∧ r'.pending = rest := by
  obtain ⟨hline, hrest⟩ := readStdoutLine_line honeLine h
  refine ⟨(readStdoutLine r).2, ?_, hrest⟩
  simp only [readMessage, hline, if_neg (lineBytes_ne_nil _ _), decodeUtf8_lineBytes,
    o.strip_line, o.not_header, Bool.false_eq_true, if_false]

/-- The body of a block. -/
theorem readBody_object {floats : Floats} (o : ObjectText floats) {length : Text}
    (hlength : lengthOf floats length = some ((encodeUtf8 o.document.text).length : Int))
    {r : Reader} {rest : Bytes} (h : r.pending = encodeUtf8 o.document.text ++ rest) :
    ∃ r', readBody floats length r = (loadsBody floats (encodeUtf8 o.document.text), r')
      ∧ r'.pending = rest := by
  obtain ⟨hbody, hrest⟩ := readStdoutExactly_append h
  refine ⟨(readStdoutExactly (encodeUtf8 o.document.text).length r).2, ?_, hrest⟩
  simp only [readBody, hlength, hbody]

/-- A block of headers, up to its body. -/
theorem readMessage_block {floats : Floats} (length : LengthHeader) (headers : List Header)
    (crlf : Bool) (o : ObjectText floats) {r : Reader} {rest : Bytes}
    (h : r.pending = (Frame.block length headers crlf o).bytes ++ rest) :
    ∃ r', readMessage floats r
        = readBody floats (length.digits (encodeUtf8 o.document.text).length) r'
      ∧ r'.pending = encodeUtf8 o.document.text ++ rest := by
  let n := (encodeUtf8 o.document.text).length
  have hpending : r.pending = length.bytes n ++ (headers.flatMap Header.bytes ++ lineBytes [] crlf
      ++ (encodeUtf8 o.document.text ++ rest)) := by
    rw [h, Frame.bytes]
    simp [n]
  obtain ⟨hline, hrest⟩ := readStdoutLine_line (length.oneLine_line n) hpending
  obtain ⟨found, r₁, hheaders, hrest₁, hget⟩ := readHeaders_headers headers length.colon_notMem
    (length.before.1 ++ length.digits n) [] (readStdoutLine r).2 hrest
  rw [length.named, get_insert_self, length.strip_value] at hget
  refine ⟨r₁, ?_, hrest₁⟩
  simp only [readMessage, hline, if_neg (lineBytes_ne_nil _ _), decodeUtf8_lineBytes,
    length.strip_line, isPrefixOf_length, if_true, hheaders, hget, n]

/-- **A framed object that fits is read, and nothing after it.** -/
theorem readMessage_frame {floats : Floats} (f : Frame floats) (hfits : f.Fits) {r : Reader}
    {rest : Bytes} (h : r.pending = f.bytes ++ rest) :
    ∃ r', readMessage floats r = (.ok f.object, r') ∧ r'.pending = rest := by
  cases f with
  | line o oneLine crlf =>
      obtain ⟨r', hread, hrest⟩ := readMessage_line o oneLine crlf h
      exact ⟨r', by rw [hread, o.loadsLine_body.1 hfits]; rfl, hrest⟩
  | block length headers crlf o =>
      obtain ⟨r₁, hread, hrest₁⟩ := readMessage_block length headers crlf o h
      obtain ⟨r', hbody, hrest⟩ := readBody_object o (length.lengthOf_digits _ hfits.2) hrest₁
      exact ⟨r', by rw [hread, hbody, o.loadsBody_text.1 hfits.1]; rfl, hrest⟩

/-- One that does not fit is not. -/
theorem readMessage_unfit {floats : Floats} (f : Frame floats) (hfits : ¬ f.Fits) {r : Reader}
    {rest : Bytes} (h : r.pending = f.bytes ++ rest) (members : Payload floats) :
    (readMessage floats r).1 ≠ .ok members := by
  cases f with
  | line o oneLine crlf =>
      obtain ⟨r', hread, _⟩ := readMessage_line o oneLine crlf h
      rw [hread]
      exact o.loadsLine_body.2 hfits members
  | block length headers crlf o =>
      obtain ⟨r₁, hread, hrest₁⟩ := readMessage_block length headers crlf o h
      rw [hread]
      let n := (encodeUtf8 o.document.text).length
      by_cases hdigits : exceeds floats.maxDigits (length.digits n).length = false
      · obtain ⟨r', hbody, _⟩ := readBody_object o (length.lengthOf_digits _ hdigits) hrest₁
        rw [hbody]
        exact o.loadsBody_text.2 (fun hbody => hfits ⟨hbody, hdigits⟩) members
      · rw [readBody, length.lengthOf_eq_none _ (Bool.eq_true_of_not_eq_false hdigits)]
        intro hread
        cases hread

/-- At the end of the stream there is no message. -/
theorem readMessage_end (floats : Floats) {r : Reader} (h : r.pending = []) :
    (readMessage floats r).1 = .error (.unavailable .processExit) := by
  have hline := (readStdoutLine_spec r).1
  rw [h] at hline
  simp only [readMessage, hline]
  rfl

/-- As many calls as there are frames return their objects, if these fit.  Induction on the
    frames. -/
theorem readMessages_append {floats : Floats} (front : List (Frame floats)) {rest : Bytes} :
    ∀ r : Reader, (∀ f ∈ front, f.Fits) → r.pending = front.flatMap Frame.bytes ++ rest →
    (readMessages floats front.length r).1 = front.map (fun f => .ok f.object) ∧
    (readMessages floats front.length r).2.pending = rest := by
  induction front with
  | nil =>
      intro r _ h
      exact ⟨rfl, h⟩
  | cons f front ih =>
      intro r hfits h
      rw [List.forall_mem_cons] at hfits
      rw [List.flatMap_cons, List.append_assoc] at h
      obtain ⟨r', hread, hpending⟩ := readMessage_frame f hfits.1 h
      obtain ⟨hobjects, hrest⟩ := ih r' hfits.2 hpending
      simp only [List.length_cons, readMessages, hread, List.map_cons, hobjects, hrest]
      exact ⟨trivial, trivial⟩

/-- And only then.  Induction on the frames. -/
theorem fits_of_readMessages {floats : Floats} (frames : List (Frame floats)) :
    ∀ r : Reader, r.pending = frames.flatMap Frame.bytes →
    (readMessages floats frames.length r).1 = frames.map (fun f => .ok f.object) →
    ∀ f ∈ frames, f.Fits := by
  induction frames with
  | nil =>
      intro r _ _ f hf
      cases hf
  | cons f frames ih =>
      intro r h hread
      rw [List.flatMap_cons] at h
      simp only [List.length_cons, readMessages, List.map_cons, List.cons.injEq] at hread
      have hfits : f.Fits := by
        by_contra hunfit
        exact readMessage_unfit f hunfit h f.object hread.1
      obtain ⟨r', hfirst, hpending⟩ := readMessage_frame f hfits h
      rw [hfirst] at hread
      exact List.forall_mem_cons.mpr ⟨hfits, ih r' hpending hread.2⟩

/-! ## Every message takes bytes away -/

theorem length_readRemaining_le (remaining : Int) (chunks : Bytes) (s : Stdout) :
    (readRemaining remaining chunks s).2.unread.length ≤ s.unread.length := by
  have hread : ∀ (s : Stdout) n, (s.read n).2.unread.length ≤ s.unread.length := fun s n => by
    have happend := congrArg List.length (s.read_append n)
    rw [List.length_append] at happend
    omega
  induction remaining, chunks, s using readRemaining.induct with
  | case1 remaining chunks s hpos hend =>
      rw [readRemaining, if_pos hpos, dif_pos hend]
      exact hread s _
  | case2 remaining chunks s hpos hmore ih =>
      rw [readRemaining, if_pos hpos, dif_neg hmore]
      exact ih.trans (hread s _)
  | case3 remaining chunks s hpos =>
      rw [readRemaining, if_neg hpos]

theorem length_readStdoutExactly_le (length : Int) (r : Reader) :
    (readStdoutExactly length r).2.pending.length ≤ r.pending.length := by
  have hrest := length_readRemaining_le (length - (sliceTo r.buffer length).length)
    (sliceTo r.buffer length) r.stdout
  simp only [readStdoutExactly, Reader.pending, List.length_append, List.length_drop]
  omega

theorem length_readStdoutLine (r : Reader) :
    (readStdoutLine r).1.length + (readStdoutLine r).2.pending.length = r.pending.length := by
  rw [← List.length_append, readStdoutLine_append]

theorem length_readHeaders_le (headers : List (Text × Text)) (headerLine : Text) (r : Reader) :
    (readHeaders headers headerLine r).2.pending.length ≤ r.pending.length := by
  induction headers, headerLine, r using readHeaders.induct with
  | case1 headers r => rw [readHeaders, if_pos rfl]
  | case2 headers headerLine r hne hsplit => rw [readHeaders, if_neg hne, hsplit]
  | case3 headers headerLine r hne key value hsplit hline =>
      have hlength := length_readStdoutLine r
      rw [readHeaders, if_neg hne, hsplit]
      simp only [dif_pos hline]
      omega
  | case4 headers headerLine r hne key value hsplit hline hdecode =>
      have hlength := length_readStdoutLine r
      rw [readHeaders, if_neg hne, hsplit]
      simp only [dif_neg hline, hdecode]
      omega
  | case5 headers headerLine r hne key value hsplit hline line hdecode ih =>
      have hlength := length_readStdoutLine r
      rw [readHeaders, if_neg hne, hsplit]
      simp only [dif_neg hline, hdecode]
      omega

theorem length_readBody_le (floats : Floats) (length : Text) (r : Reader) :
    (readBody floats length r).2.pending.length ≤ r.pending.length := by
  have hread := fun n => length_readStdoutExactly_le n r
  rw [readBody]
  cases lengthOf floats length with
  | none => exact le_rfl
  | some n =>
      dsimp only
      cases (readStdoutExactly n r).1 with
      | none => exact hread n
      | some bytes => exact hread n

/-- What a call returns is no longer there for the next. -/
theorem length_readMessage_lt {floats : Floats} {r : Reader} {message : Payload floats}
    (h : (readMessage floats r).1 = .ok message) :
    (readMessage floats r).2.pending.length < r.pending.length := by
  have hlength := length_readStdoutLine r
  simp only [readMessage] at h ⊢
  by_cases hline : (readStdoutLine r).1 = []
  · rw [if_pos hline] at h
    cases h
  have hpos := List.length_pos_iff.mpr hline
  have hless : (readStdoutLine r).2.pending.length < r.pending.length := by omega
  rw [if_neg hline] at h ⊢
  cases hdecode : decodeUtf8 (readStdoutLine r).1 with
  | none =>
      rw [hdecode] at h
      cases h
  | some text =>
      simp only
      by_cases hheader : (contentLength ++ [':']).isPrefixOf (lower (strip text)) = true
      · have hheaders := length_readHeaders_le [] (strip text) (readStdoutLine r).2
        rw [if_pos hheader]
        cases hread : readHeaders [] (strip text) (readStdoutLine r).2 with
        | mk found r' =>
            rw [hread] at hheaders
            cases found with
            | error failure => exact lt_of_le_of_lt hheaders hless
            | ok headers =>
                cases hget : get contentLength headers with
                | none => simpa only [hget] using lt_of_le_of_lt hheaders hless
                | some length =>
                    have hbody := length_readBody_le floats length r'
                    simpa only [hget] using lt_of_le_of_lt (hbody.trans hheaders) hless
      · rw [if_neg hheader]
        exact hless

/-- What a client writes is a line that frames what it sends. -/
def Frame.ofMessage {floats : Floats} (m : Message floats) : Frame floats :=
  .line
    { document := { before := noSpace, body := ofValue floats (.obj m.1), after := noSpace }
      members := m.1
      denotes := value_ofValue floats (.obj m.1) m.2 }
    (by simpa [Document.text, noSpace] using oneLine_ofValue floats (.obj m.1)) false

theorem object_ofMessage {floats : Floats} (m : Message floats) :
    (Frame.ofMessage m).object = m.1 := rfl

theorem writeMessage_eq_ok_iff {floats : Floats} (m : Message floats) (bytes : Bytes) :
    writeMessage floats m = .ok bytes
      ↔ (Value.obj m.1).limit floats floats.writeDepth 0 = none
        ∧ (Frame.ofMessage m).bytes = bytes := by
  have hbytes : (Frame.ofMessage m).bytes = encodeUtf8 (dumps floats (.obj m.1) ++ ['\n']) := by
    simp [Frame.ofMessage, Frame.bytes, lineBytes, Document.text, noSpace, lineEnd, dumps]
  rw [writeMessage, hbytes]
  cases (Value.obj m.1).limit floats floats.writeDepth 0 with
  | none => simp
  | some limit => simp

/-- What is sent is read, unless it meets a limit. -/
theorem fits_ofMessage {floats : Floats} {m : Message floats} :
    (Frame.ofMessage m).Fits ↔ (Value.obj m.1).limit floats floats.readDepth 0 = none := by
  rw [← limit_ofValue]
  rfl

/-- **What is expected of the reader**: after each message the next frames are what is left, and
    after the last there is no message. -/
structure ReadsFrames (floats : Floats) (frames : List (Frame floats)) (r : Reader) : Prop where
  objects : ∀ n, (readMessages floats (frames.take n).length r).1
    = (frames.take n).map (fun f => .ok f.object)
  rest : ∀ n, (readMessages floats (frames.take n).length r).2.pending
    = (frames.drop n).flatMap Frame.bytes
  ends : (readMessage floats (readMessages floats frames.length r).2).1
    = .error (.unavailable .processExit)

/-- **A stream of frames is read as the objects it frames**, however it arrives, exactly if they
    fit.  What a client writes is such a frame. -/
theorem readMessages_frames (floats : Floats) (frames : List (Frame floats))
    (sizes : Nat → Nat) :
    (ReadsFrames floats frames ⟨[], ⟨frames.flatMap Frame.bytes, sizes, 0⟩⟩
      ↔ ∀ f ∈ frames, f.Fits) ∧
    ∀ (m : Message floats) (bytes : Bytes),
      (writeMessage floats m = .ok bytes ↔
        (Value.obj m.1).limit floats floats.writeDepth 0 = none
          ∧ (Frame.ofMessage m).bytes = bytes)
      ∧ (Frame.ofMessage m).object = m.1 := by
  let r : Reader := ⟨[], ⟨frames.flatMap Frame.bytes, sizes, 0⟩⟩
  have hpending : r.pending = frames.flatMap Frame.bytes := rfl
  refine ⟨⟨fun hreads => ?_, fun hfits => ⟨fun n => ?_, fun n => ?_, ?_⟩⟩, fun m bytes => ?_⟩
  · have hobjects := hreads.objects frames.length
    rw [List.take_length] at hobjects
    exact fits_of_readMessages frames r hpending hobjects
  · have hsplit := congrArg (List.flatMap Frame.bytes) (List.take_append_drop n frames)
    rw [List.flatMap_append] at hsplit
    exact (readMessages_append (frames.take n) r (fun f hf => hfits f (List.mem_of_mem_take hf))
      (hpending.trans hsplit.symm)).1
  · have hsplit := congrArg (List.flatMap Frame.bytes) (List.take_append_drop n frames)
    rw [List.flatMap_append] at hsplit
    exact (readMessages_append (frames.take n) r (fun f hf => hfits f (List.mem_of_mem_take hf))
      (hpending.trans hsplit.symm)).2
  · exact readMessage_end floats
      (readMessages_append frames r hfits (hpending.trans (List.append_nil _).symm)).2
  · exact ⟨writeMessage_eq_ok_iff m bytes, object_ofMessage m⟩

/-- `{"n": 1…1}`, a line with an integer of 5000 digits. -/
def longMembers : Payload limitedFloats := [(['n'], .int (ones 5000))]

theorem keyed_longMembers : (Value.obj longMembers).Keyed :=
  ⟨List.nodup_singleton _, trivial, trivial⟩

def longFrame : Frame limitedFloats := Frame.ofMessage ⟨longMembers, keyed_longMembers⟩

theorem not_fits_longFrame : ¬ longFrame.Fits := by
  rw [longFrame, fits_ofMessage]
  dsimp only
  rw [longMembers, Value.limit, Option.or_eq_none_iff, membersLimit_eq_none]
  rintro ⟨_, hmembers⟩
  have hdigits := hmembers _ (List.mem_cons_self ..)
  rw [Value.limit, Int.natAbs_natCast, digitLimit_ones] at hdigits
  cases hdigits

/-- That line is a frame, and it is not read: `ValueError` comes instead. -/
theorem not_readsFrames_long : ¬ ∀ (floats : Floats) (frames : List (Frame floats))
    (sizes : Nat → Nat), ReadsFrames floats frames ⟨[], ⟨frames.flatMap Frame.bytes, sizes, 0⟩⟩ := by
  intro hall
  exact not_fits_longFrame (fits_of_readMessages [longFrame] _ rfl
    ((hall limitedFloats [longFrame] fun _ => 1).objects 1) longFrame (List.mem_cons_self ..))

end Mcp
