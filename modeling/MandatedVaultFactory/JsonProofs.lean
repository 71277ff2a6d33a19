import MandatedVaultFactory.TextProofs
import Mathlib.Data.List.Nodup

/-!
# JSON texts

Python's `json`: what texts there are, what they denote, and how they are read.

* **`Str`** — Python's strings, in which half a surrogate pair may stand alone.
* **`Syntax`** — a JSON text with all its freedom: white space, escapes, ways to write a
  number; `Syntax.text`, and `Syntax.value`, what it denotes.
* **`Syntax.limit`** — the first of the interpreter's limits that a text meets.
* **`loads`** — the reader; **`loads_document`**: it reads every JSON text as what it denotes,
  unless a limit is met. -/

namespace Json

open Texts

/-! ## Strings -/

/-- A code point.  `half n` is half of a surrogate pair, which is no character. -/
inductive CodePoint where
  | char (c : Char)
  | half (n : Nat) (h : 0xd800 ≤ n ∧ n ≤ 0xdfff)
deriving DecidableEq

/-- The half that comes first in a pair. -/
def CodePoint.IsHigh : CodePoint → Prop
  | .char _ => False
  | .half n _ => n < 0xdc00

def CodePoint.IsLow : CodePoint → Prop
  | .char _ => False
  | .half n _ => 0xdc00 ≤ n

/-- No pair in it: its halves were the one character. -/
def Apart (points : List CodePoint) : Prop :=
  points.IsChain fun p q => ¬ (p.IsHigh ∧ q.IsLow)

/-- A string of Python, as a text of JSON can denote it. -/
structure Str where
  points : List CodePoint
  apart : Apart points
deriving DecidableEq

/-- The character whose halves are these. -/
def pairChar (high low : Nat) : Char :=
  Char.ofNat (0x10000 + (high - 0xd800) * 1024 + (low - 0xdc00))

/-- A code point before others; two halves make a character. -/
def join : CodePoint → List CodePoint → List CodePoint
  | .half n h, .half m h' :: points =>
      if n < 0xdc00 ∧ 0xdc00 ≤ m then .char (pairChar n m) :: points
      else .half n h :: .half m h' :: points
  | p, points => p :: points

theorem apart_char (c : Char) {points : List CodePoint} (h : Apart points) :
    Apart (.char c :: points) := by
  cases points with
  | nil => exact .singleton _
  | cons q points => exact .cons_cons (fun hpair => hpair.1) h

theorem Apart.tail {p : CodePoint} {points : List CodePoint} (h : Apart (p :: points)) :
    Apart points := List.IsChain.of_cons h

theorem join_of_apart {p : CodePoint} {points : List CodePoint} (h : Apart (p :: points)) :
    join p points = p :: points := by
  cases points with
  | nil => cases p <;> rfl
  | cons q points =>
      have hpair : ¬ (p.IsHigh ∧ q.IsLow) := (List.isChain_cons_cons.mp h).1
      cases p with
      | char c => rfl
      | half n hn =>
          cases q with
          | char d => rfl
          | half m hm => exact if_neg hpair

theorem apart_join (p : CodePoint) {points : List CodePoint} (h : Apart points) :
    Apart (join p points) := by
  cases points with
  | nil => cases p <;> exact .singleton _
  | cons q points =>
      by_cases hpair : p.IsHigh ∧ q.IsLow
      · cases p with
        | char c => exact hpair.1.elim
        | half n hn =>
            cases q with
            | char d => exact hpair.2.elim
            | half m hm =>
                have hjoin : join (.half n hn) (.half m hm :: points)
                    = .char (pairChar n m) :: points := if_pos hpair
                rw [hjoin]
                exact apart_char _ h.tail
      · have happart : Apart (p :: q :: points) := .cons_cons hpair h
        rwa [join_of_apart happart]

namespace Str

def nil : Str := ⟨[], .nil⟩

def cons (p : CodePoint) (s : Str) : Str := ⟨join p s.points, apart_join p s.apart⟩

/-- A text is a string. -/
def ofText (t : Text) : Str where
  points := t.map .char
  apart := by
    induction t with
    | nil => exact .nil
    | cons c t ih => exact apart_char c ih

instance : Coe Text Str := ⟨ofText⟩

theorem ofText_injective : Function.Injective ofText := fun _ _ h =>
  List.map_injective_iff.mpr (fun _ _ hc => CodePoint.char.inj hc) (congrArg Str.points h)

theorem nodup_ofText {keys : List Text} (h : keys.Nodup) : (keys.map ofText).Nodup :=
  h.map ofText_injective

end Str

/-! ## Values -/

/-- What JSON has, over a type of floats and of strings: texts, where no type is named. -/
inductive Value (F : Type) (S : Type := Text) where
  | null
  | bool (b : Bool)
  | int (n : Int)
  | float (x : F)
  | str (s : S)
  | arr (items : List (Value F S))
  | obj (members : List (S × Value F S))

/-- What `json.loads` returns. -/
abbrev Loaded (F : Type) : Type := Value F Str

mutual

/-- A value of texts, among those that are loaded. -/
def Value.widen {F : Type} : Value F → Loaded F
  | .null => .null
  | .bool b => .bool b
  | .int n => .int n
  | .float x => .float x
  | .str t => .str t
  | .arr items => .arr (widenItems items)
  | .obj members => .obj (widenMembers members)

def widenItems {F : Type} : List (Value F) → List (Loaded F)
  | [] => []
  | v :: rest => v.widen :: widenItems rest

def widenMembers {F : Type} : List (Text × Value F) → List (Str × Loaded F)
  | [] => []
  | (key, v) :: rest => (↑key, v.widen) :: widenMembers rest

end

section Dictionaries

variable {κ α : Type} [DecidableEq κ]

/-- `dict[key] = value`: a key that is there keeps its place. -/
def insert (key : κ) (value : α) : List (κ × α) → List (κ × α)
  | [] => [(key, value)]
  | m :: members => if m.1 = key then (key, value) :: members else m :: insert key value members

/-- `dict(pairs)`. -/
def dict (pairs : List (κ × α)) : List (κ × α) :=
  pairs.foldl (fun members m => insert m.1 m.2 members) []

/-- `dict.get(key)`. -/
def get (key : κ) (members : List (κ × α)) : Option α :=
  (members.find? fun m => m.1 = key).map Prod.snd

theorem insert_of_notMem {key : κ} (value : α) {members : List (κ × α)}
    (h : key ∉ members.map Prod.fst) : insert key value members = members ++ [(key, value)] := by
  induction members with
  | nil => rfl
  | cons m members ih =>
      rw [List.map_cons, List.mem_cons, not_or] at h
      rw [insert, if_neg (Ne.symm h.1), ih h.2]
      rfl

theorem get_insert_self (key : κ) (value : α) (members : List (κ × α)) :
    get key (insert key value members) = some value := by
  induction members with
  | nil => simp [insert, get]
  | cons m members ih =>
      rw [insert]
      by_cases hm : m.1 = key
      · rw [if_pos hm]
        simp [get]
      · rw [if_neg hm]
        simpa [get, hm] using ih

theorem get_insert_of_ne {key key' : κ} (h : key' ≠ key) (value : α)
    (members : List (κ × α)) : get key (insert key' value members) = get key members := by
  induction members with
  | nil => simp [insert, get, h]
  | cons m members ih =>
      rw [insert]
      by_cases hm : m.1 = key'
      · rw [if_pos hm]
        simp [get, h, hm]
      · rw [if_neg hm]
        by_cases hkey : m.1 = key
        · simp [get, hkey]
        · simpa [get, hkey] using ih

/-- Pairs with different keys are a dictionary as they are. -/
theorem dict_of_nodup {pairs : List (κ × α)} (h : (pairs.map Prod.fst).Nodup) :
    dict pairs = pairs := by
  suffices hfold : ∀ (rest done : List (κ × α)), ((done ++ rest).map Prod.fst).Nodup →
      rest.foldl (fun members m => insert m.1 m.2 members) done = done ++ rest from
    hfold pairs [] h
  intro rest
  induction rest with
  | nil => intro done _; exact (List.append_nil done).symm
  | cons m rest ih =>
      intro done hnodup
      have hnew : m.1 ∉ done.map Prod.fst := by
        rw [List.map_append, List.nodup_append'] at hnodup
        exact fun hmem => hnodup.2.2 hmem (List.mem_cons_self ..)
      have hsplit : done ++ m :: rest = done ++ [m] ++ rest := by simp
      rw [List.foldl_cons, insert_of_notMem _ hnew, hsplit]
      exact ih (done ++ [m]) (hsplit ▸ hnodup)

end Dictionaries

/-- `dict.get(key)` of what was loaded. -/
def lookup {α : Type} (key : Text) (members : List (Str × α)) : Option α := get (key : Str) members

/-! ## Syntax -/

/-- White space between tokens. -/
def isJsonSpace (c : Char) : Bool := c = ' ' || c = '\t' || c = '\n' || c = '\r'

abbrev Ws : Type := { t : Text // ∀ c ∈ t, isJsonSpace c = true }

abbrev Digits : Type := { t : Text // t ≠ [] ∧ ∀ c ∈ t, c.isDigit = true }

structure Exponent where
  letter : { c : Char // c = 'e' ∨ c = 'E' }
  sign : { t : Text // t = [] ∨ t = ['+'] ∨ t = ['-'] }
  digits : Digits

structure Number where
  negative : Bool
  whole : Nat
  frac : Option Digits
  exp : Option Exponent

namespace Number

def sign (n : Number) : Text := if n.negative then ['-'] else []

def fracText (n : Number) : Text :=
  match n.frac with
  | none => []
  | some digits => '.' :: digits.1

def expText (n : Number) : Text :=
  match n.exp with
  | none => []
  | some e => e.letter.1 :: (e.sign.1 ++ e.digits.1)

def text (n : Number) : Text := n.sign ++ decimal n.whole ++ n.fracText ++ n.expText

/-- Written without a fraction and an exponent. -/
def IsInt (n : Number) : Prop := n.fracText = [] ∧ n.expText = []

instance (n : Number) : Decidable n.IsInt := inferInstanceAs (Decidable (_ ∧ _))

end Number

/-- The literals of floats that are no numbers, which `json` reads and writes too. -/
inductive Special where
  | nan
  | infinity
  | negInfinity

def Special.text : Special → Text
  | .nan => ['N', 'a', 'N']
  | .infinity => ['I', 'n', 'f', 'i', 'n', 'i', 't', 'y']
  | .negInfinity => ['-', 'I', 'n', 'f', 'i', 'n', 'i', 't', 'y']

/-- The other words. -/
def nullText : Text := ['n', 'u', 'l', 'l']

def boolText : Bool → Text
  | true => ['t', 'r', 'u', 'e']
  | false => ['f', 'a', 'l', 's', 'e']

/-- What `repr` makes of a float. -/
inductive FloatText where
  | number (n : Number) (h : ¬ n.IsInt)
  | special (s : Special)

def FloatText.text : FloatText → Text
  | .number n _ => n.text
  | .special s => s.text

/-- What the interpreter decides.  Its floats are `float(t)`, `repr(x)` and `x == n`; of these
    only one thing is assumed, that what `repr` writes is read back.  The limits are how many
    digits an integer may have, and how deep arrays and objects may be nested in what is read
    and in what is written; `none` is no limit.  Python sets none below 640 digits, and the
    client needs some levels itself. -/
structure Floats where
  Float : Type
  ofText : Text → Float
  repr : Float → FloatText
  eqInt : Float → Int → Bool
  ofText_repr : ∀ x, ofText (repr x).text = x
  maxDigits : Option Nat
  readDepth : Option Nat
  writeDepth : Option Nat
  le_maxDigits : ∀ n ∈ maxDigits, 640 ≤ n
  le_readDepth : ∀ n ∈ readDepth, 16 ≤ n
  le_writeDepth : ∀ n ∈ writeDepth, 16 ≤ n

/-- Floats of which there is only `NaN`, and no limits. -/
def nanFloats : Floats where
  Float := Unit
  ofText _ := ()
  repr _ := .special .nan
  eqInt _ _ := false
  ofText_repr _ := rfl
  maxDigits := none
  readDepth := none
  writeDepth := none
  le_maxDigits := by simp
  le_readDepth := by simp
  le_writeDepth := by simp

/-- The limits that Python starts with. -/
def limitedFloats : Floats :=
  { nanFloats with
    maxDigits := some 4300, readDepth := some 1000, writeDepth := some 1000
    le_maxDigits := by simp, le_readDepth := by simp, le_writeDepth := by simp }

/-- What the interpreter refuses: an integer of too many digits, arrays and objects nested too
    deep. -/
inductive Limit where
  | digits
  | depth
deriving DecidableEq

/-- It is more than the limit, if there is one. -/
def exceeds (limit : Option Nat) (n : Nat) : Bool := limit.any (· < n)

/-- The escapes of one letter. -/
inductive Short where
  | quote | backslash | slash | backspace | formFeed | newline | carriageReturn | tab

def Short.letter : Short → Char
  | .quote => '"'
  | .backslash => '\\'
  | .slash => '/'
  | .backspace => 'b'
  | .formFeed => 'f'
  | .newline => 'n'
  | .carriageReturn => 'r'
  | .tab => 't'

def Short.char : Short → Char
  | .quote => '"'
  | .backslash => '\\'
  | .slash => '/'
  | .backspace => '\x08'
  | .formFeed => '\x0c'
  | .newline => '\n'
  | .carriageReturn => '\r'
  | .tab => '\t'

/-- One way to write a code point of a string; a character beyond the basic plane takes two
    escapes. -/
inductive StrItem where
  | raw (c : Char) (h : 32 ≤ c.toNat ∧ c ≠ '"' ∧ c ≠ '\\')
  | short (e : Short)
  | unicode (n : Nat) (h : n < 0x10000) (upper : Nat → Bool)

/-- A hexadecimal digit in either case. -/
def hexDigitCase (upper : Bool) (n : Nat) : Char :=
  if upper then (hexDigit n).toUpper else hexDigit n

/-- Four hexadecimal digits. -/
def hex4 (upper : Nat → Bool) (n : Nat) : Text :=
  [hexDigitCase (upper 0) (n / 4096 % 16), hexDigitCase (upper 1) (n / 256 % 16),
    hexDigitCase (upper 2) (n / 16 % 16), hexDigitCase (upper 3) (n % 16)]

def StrItem.text : StrItem → Text
  | .raw c _ => [c]
  | .short e => ['\\', e.letter]
  | .unicode n _ upper => '\\' :: 'u' :: hex4 upper n

/-- What four hexadecimal digits stand for. -/
def codeUnit (n : Nat) : CodePoint :=
  if h : 0xd800 ≤ n ∧ n ≤ 0xdfff then .half n h else .char (Char.ofNat n)

def StrItem.point : StrItem → CodePoint
  | .raw c _ => .char c
  | .short e => .char e.char
  | .unicode n _ _ => codeUnit n

/-- The string that is written. -/
def strValue : List StrItem → Str
  | [] => .nil
  | i :: items => .cons i.point (strValue items)

/-- A string without its opening quote. -/
def strText (items : List StrItem) : Text := items.flatMap StrItem.text ++ ['"']

mutual

/-- A JSON text without the white space around it. -/
inductive Syntax where
  | null
  | bool (b : Bool)
  | number (n : Number)
  | special (s : Special)
  | str (items : List StrItem)
  | emptyArr (ws : Ws)
  | arr (elems : Elems)
  | emptyObj (ws : Ws)
  | obj (members : Members)

/-- The elements of an array. -/
inductive Elems where
  | last (before : Ws) (v : Syntax) (after : Ws)
  | cons (before : Ws) (v : Syntax) (after : Ws) (rest : Elems)

/-- The members of an object. -/
inductive Members where
  | last (before : Ws) (key : List StrItem) (colonBefore colonAfter : Ws) (v : Syntax)
      (after : Ws)
  | cons (before : Ws) (key : List StrItem) (colonBefore colonAfter : Ws) (v : Syntax)
      (after : Ws) (rest : Members)

end

mutual

def Syntax.text : Syntax → Text
  | .null => nullText
  | .bool b => boolText b
  | .number n => n.text
  | .special s => s.text
  | .str items => '"' :: strText items
  | .emptyArr ws => '[' :: (ws.1 ++ [']'])
  | .arr elems => '[' :: elems.text
  | .emptyObj ws => '{' :: (ws.1 ++ ['}'])
  | .obj members => '{' :: members.text

/-- With the closing bracket. -/
def Elems.text : Elems → Text
  | .last before v after => before.1 ++ (v.text ++ (after.1 ++ [']']))
  | .cons before v after rest => before.1 ++ (v.text ++ (after.1 ++ ',' :: rest.text))

/-- With the closing brace. -/
def Members.text : Members → Text
  | .last before key colonBefore colonAfter v after =>
      before.1 ++ '"' :: (strText key ++ (colonBefore.1 ++ ':' :: (colonAfter.1
        ++ (v.text ++ (after.1 ++ ['}'])))))
  | .cons before key colonBefore colonAfter v after rest =>
      before.1 ++ '"' :: (strText key ++ (colonBefore.1 ++ ':' :: (colonAfter.1
        ++ (v.text ++ (after.1 ++ ',' :: rest.text)))))

end

def Number.value (floats : Floats) (n : Number) : Loaded floats.Float :=
  if n.IsInt then .int (if n.negative then -(n.whole : Int) else n.whole)
  else .float (floats.ofText n.text)

mutual

def Syntax.value (floats : Floats) : Syntax → Loaded floats.Float
  | .null => .null
  | .bool b => .bool b
  | .number n => n.value floats
  | .special s => .float (floats.ofText s.text)
  | .str items => .str (strValue items)
  | .emptyArr _ => .arr []
  | .arr elems => .arr (elems.values floats)
  | .emptyObj _ => .obj []
  | .obj members => .obj (dict (members.pairs floats))

def Elems.values (floats : Floats) : Elems → List (Loaded floats.Float)
  | .last _ v _ => [v.value floats]
  | .cons _ v _ rest => v.value floats :: rest.values floats

def Members.pairs (floats : Floats) : Members → List (Str × Loaded floats.Float)
  | .last _ key _ _ v _ => [(strValue key, v.value floats)]
  | .cons _ key _ _ v _ rest => (strValue key, v.value floats) :: rest.pairs floats

end

/-- The limit that an integer of so many digits meets. -/
def digitLimit (floats : Floats) (digits : Nat) : Option Limit :=
  if exceeds floats.maxDigits digits then some .digits else none

/-- The limit that a bracket meets within `level` others. -/
def depthLimit (deepest : Option Nat) (level : Nat) : Option Limit :=
  if exceeds deepest (level + 1) then some .depth else none

theorem exceeds_eq_false {limit : Option Nat} {n : Nat} (h : ∀ m ∈ limit, n ≤ m) :
    exceeds limit n = false := by
  cases limit with
  | none => rfl
  | some m => exact decide_eq_false (Nat.not_lt.mpr (h m rfl))

/-- Short integers and shallow nesting meet no limit. -/
theorem digitLimit_eq_none (floats : Floats) {digits : Nat} (h : digits ≤ 640) :
    digitLimit floats digits = none := by
  rw [digitLimit, exceeds_eq_false fun n hn => h.trans (floats.le_maxDigits n hn)]
  rfl

theorem depthLimit_eq_none {deepest : Option Nat} (hdeepest : ∀ n ∈ deepest, 16 ≤ n) {level : Nat}
    (h : level < 16) : depthLimit deepest level = none := by
  rw [depthLimit, exceeds_eq_false fun n hn => (Nat.succ_le_of_lt h).trans (hdeepest n hn)]
  rfl

def Number.limit (floats : Floats) (n : Number) : Option Limit :=
  if n.IsInt then digitLimit floats (decimal n.whole).length else none

mutual

/-- The first limit that a text meets, within `level` brackets. -/
def Syntax.limit (floats : Floats) (level : Nat) : Syntax → Option Limit
  | .number n => n.limit floats
  | .emptyArr _ => depthLimit floats.readDepth level
  | .arr elems => (depthLimit floats.readDepth level).or (elems.limit floats (level + 1))
  | .emptyObj _ => depthLimit floats.readDepth level
  | .obj members => (depthLimit floats.readDepth level).or (members.limit floats (level + 1))
  | _ => none

def Elems.limit (floats : Floats) (level : Nat) : Elems → Option Limit
  | .last _ v _ => v.limit floats level
  | .cons _ v _ rest => (v.limit floats level).or (rest.limit floats level)

def Members.limit (floats : Floats) (level : Nat) : Members → Option Limit
  | .last _ _ _ _ v _ => v.limit floats level
  | .cons _ _ _ _ v _ rest => (v.limit floats level).or (rest.limit floats level)

end

/-- A JSON text: a value, with white space around it. -/
structure Document where
  before : Ws
  body : Syntax
  after : Ws

def Document.text (d : Document) : Text := d.before.1 ++ d.body.text ++ d.after.1

/-- What `json.loads` raises.  `valueError` is the `ValueError` of `int` alone, of which
    `JSONDecodeError` is another case. -/
inductive LoadError where
  | jsonDecodeError
  | valueError
  | recursionError
deriving DecidableEq

def Limit.error : Limit → LoadError
  | .digits => .valueError
  | .depth => .recursionError

/-- A value, unless a limit is met on the way to it. -/
def unlessLimit {α : Type} (limit : Option Limit) (a : α) : Except LoadError α :=
  match limit with
  | none => .ok a
  | some limit => .error limit.error

/-! ## Reading -/

def skipSpace (t : Text) : Text := t.dropWhile isJsonSpace

/-- The sign of a number, and what follows it. -/
def scanMinus : Text → Text × Text
  | [] => ([], [])
  | c :: t => if c = '-' then (['-'], t) else ([], c :: t)

/-- The whole part of a number: a zero, or digits that do not start with one. -/
def scanWhole : Text → Option (Text × Text)
  | [] => none
  | c :: t =>
      if c = '0' then some (['0'], t)
      else if c.isDigit then some (c :: t.takeWhile Char.isDigit, t.dropWhile Char.isDigit)
      else none

def scanFrac : Text → Text × Text
  | [] => ([], [])
  | c :: t =>
      if c = '.' ∧ t.takeWhile Char.isDigit ≠ [] then
        ('.' :: t.takeWhile Char.isDigit, t.dropWhile Char.isDigit)
      else ([], c :: t)

def scanSign : Text → Text × Text
  | [] => ([], [])
  | c :: t => if c = '+' ∨ c = '-' then ([c], t) else ([], c :: t)

def scanExp : Text → Text × Text
  | [] => ([], [])
  | c :: t =>
      let (sign, u) := scanSign t
      if (c = 'e' ∨ c = 'E') ∧ u.takeWhile Char.isDigit ≠ [] then
        (c :: (sign ++ u.takeWhile Char.isDigit), u.dropWhile Char.isDigit)
      else ([], c :: t)

/-- What does not match raises `JSONDecodeError`. -/
def orDecodeError {α : Type} : Option α → Except LoadError α
  | none => .error .jsonDecodeError
  | some a => .ok a

/-- `_match_number`: what is there of a fraction and an exponent is taken. -/
def scanNumber (floats : Floats) (t : Text) : Except LoadError (Loaded floats.Float × Text) :=
  let (minus, t) := scanMinus t
  match scanWhole t with
  | none => .error .jsonDecodeError
  | some (digits, t) =>
      let (frac, t) := scanFrac t
      let (exp, t) := scanExp t
      if frac = [] ∧ exp = [] then
        let n : Int := Nat.ofDigitChars 10 digits 0
        unlessLimit (digitLimit floats digits.length) (.int (if minus = [] then n else -n), t)
      else .ok (.float (floats.ofText (minus ++ digits ++ frac ++ exp)), t)

/-- The rest of a text after a prefix. -/
def dropPrefix : Text → Text → Option Text
  | [], t => some t
  | _ :: _, [] => none
  | c :: p, d :: t => if c = d then dropPrefix p t else none

/-- The words of the grammar. -/
def constants (floats : Floats) : List (Text × Loaded floats.Float) :=
  [(nullText, .null), (boolText true, .bool true), (boolText false, .bool false),
    (Special.nan.text, .float (floats.ofText Special.nan.text)),
    (Special.infinity.text, .float (floats.ofText Special.infinity.text)),
    (Special.negInfinity.text, .float (floats.ofText Special.negInfinity.text))]

/-- A word or a number. -/
def scanScalar (floats : Floats) (t : Text) : Except LoadError (Loaded floats.Float × Text) :=
  match (constants floats).findSome? fun m => (dropPrefix m.1 t).map fun rest => (m.2, rest) with
  | some r => .ok r
  | none => scanNumber floats t

/-- Four hexadecimal digits. -/
def scanHex4 : Text → Option (Nat × Text)
  | a :: b :: c :: d :: t => do
      let n₃ ← hexVal a
      let n₂ ← hexVal b
      let n₁ ← hexVal c
      let n₀ ← hexVal d
      return (4096 * n₃ + 256 * n₂ + 16 * n₁ + n₀, t)
  | _ => none

def shortChar (c : Char) : Option Char :=
  if c = '"' then some '"' else if c = '\\' then some '\\' else if c = '/' then some '/'
  else if c = 'b' then some '\x08' else if c = 'f' then some '\x0c'
  else if c = 'n' then some '\n' else if c = 'r' then some '\r'
  else if c = 't' then some '\t' else none

/-- After a backslash. -/
def scanEscape : Text → Option (CodePoint × Text)
  | [] => none
  | e :: t =>
      if e = 'u' then (scanHex4 t).map fun r => (codeUnit r.1, r.2)
      else (shortChar e).map fun c => (.char c, t)

/-- One code point of a string; raw control characters are refused. -/
def scanChar : Text → Option (CodePoint × Text)
  | [] => none
  | c :: t =>
      if c = '\\' then scanEscape t
      else if c.toNat < 32 then none
      else some (.char c, t)

/-- `scanstring`, after the opening quote.  An escape of a high half goes together with one of a
    low half that follows it. -/
def scanString : Nat → Text → Option (Str × Text)
  | 0, _ => none
  | _, [] => none
  | fuel + 1, c :: t =>
      if c = '"' then some (.nil, t)
      else do
        let (p, t) ← scanChar (c :: t)
        let (s, t) ← scanString fuel t
        return (.cons p s, t)

/-- What stands next, if it is this character. -/
def expect (c : Char) (t : Text) : Option Text := dropPrefix [c] t

mutual

/-- `scan_once`, within `level` brackets. -/
def parseValue (floats : Floats) (level : Nat) :
    Nat → Text → Except LoadError (Loaded floats.Float × Text)
  | 0, _ => .error .jsonDecodeError
  | fuel + 1, t =>
      match t with
      | [] => .error .jsonDecodeError
      | c :: u =>
          if c = '"' then (orDecodeError (scanString fuel u)).map fun r => (.str r.1, r.2)
          else if c = '{' then
            match depthLimit floats.readDepth level with
            | some limit => .error limit.error
            | none =>
                match expect '}' (skipSpace u) with
                | some rest => .ok (.obj [], rest)
                | none => (parseMembers floats (level + 1) fuel (skipSpace u)).map fun r =>
                    (.obj (dict r.1), r.2)
          else if c = '[' then
            match depthLimit floats.readDepth level with
            | some limit => .error limit.error
            | none =>
                match expect ']' (skipSpace u) with
                | some rest => .ok (.arr [], rest)
                | none => (parseElems floats (level + 1) fuel (skipSpace u)).map fun r =>
                    (.arr r.1, r.2)
          else scanScalar floats (c :: u)

/-- `JSONArray`, at an element. -/
def parseElems (floats : Floats) (level : Nat) :
    Nat → Text → Except LoadError (List (Loaded floats.Float) × Text)
  | 0, _ => .error .jsonDecodeError
  | fuel + 1, t =>
      match parseValue floats level fuel t with
      | .error e => .error e
      | .ok (v, t) =>
          match expect ',' (skipSpace t) with
          | some t => (parseElems floats level fuel (skipSpace t)).map fun r => (v :: r.1, r.2)
          | none => (orDecodeError (expect ']' (skipSpace t))).map fun t => ([v], t)

/-- `JSONObject`, at a key. -/
def parseMembers (floats : Floats) (level : Nat) :
    Nat → Text → Except LoadError (List (Str × Loaded floats.Float) × Text)
  | 0, _ => .error .jsonDecodeError
  | fuel + 1, t =>
      match (expect '"' t).bind (scanString fuel) with
      | none => .error .jsonDecodeError
      | some (key, t) =>
          match expect ':' (skipSpace t) with
          | none => .error .jsonDecodeError
          | some t =>
              match parseValue floats level fuel (skipSpace t) with
              | .error e => .error e
              | .ok (v, t) =>
                  match expect ',' (skipSpace t) with
                  | some t => (parseMembers floats level fuel (skipSpace t)).map fun r =>
                      ((key, v) :: r.1, r.2)
                  | none => (orDecodeError (expect '}' (skipSpace t))).map fun t => ([(key, v)], t)

end

/-- `json.loads(t)`.  A value takes no more steps than it has characters. -/
def loads (floats : Floats) (t : Text) : Except LoadError (Loaded floats.Float) :=
  match parseValue floats 0 (skipSpace t).length (skipSpace t) with
  | .error e => .error e
  | .ok (v, rest) => if skipSpace rest = [] then .ok v else .error .jsonDecodeError

/-! ## Numbers -/

/-- The next character satisfies `p`, if there is one. -/
def Next (p : Char → Prop) (t : Text) : Prop := ∀ c ∈ t.head?, p c

theorem next_cons {p : Char → Prop} {c : Char} {t : Text} (h : p c) : Next p (c :: t) := by
  intro d hd
  obtain rfl : c = d := by simpa using hd
  exact h

theorem next_nil {p : Char → Prop} : Next p [] := fun _ h => nomatch h

theorem Next.imp {p q : Char → Prop} {t : Text} (h : Next p t) (hpq : ∀ c, p c → q c) : Next q t :=
  fun c hc => hpq c (h c hc)

/-- Text before which a number ends. -/
abbrev Stops : Text → Prop :=
  Next fun c => c.isDigit = false ∧ c ≠ '.' ∧ c ≠ 'e' ∧ c ≠ 'E'

theorem takeWhile_digits {digits rest : Text} (h : ∀ c ∈ digits, c.isDigit = true)
    (hrest : Next (fun c => c.isDigit = false) rest) :
    (digits ++ rest).takeWhile Char.isDigit = digits
      ∧ (digits ++ rest).dropWhile Char.isDigit = rest := by
  have hstop : rest.takeWhile Char.isDigit = [] := by
    cases rest with
    | nil => rfl
    | cons c rest => rw [List.takeWhile_cons_of_neg (by simp [hrest c rfl])]
  constructor
  · rw [List.takeWhile_append_of_pos h, hstop, List.append_nil]
  · rw [List.dropWhile_append_of_pos h, dropWhile_of_head hrest]

theorem scanMinus_text (n : Number) {t : Text} (ht : Next (fun c => c ≠ '-') t) :
    scanMinus (n.sign ++ t) = (n.sign, t) := by
  rw [Number.sign]
  cases n.negative with
  | true => rfl
  | false =>
      cases t with
      | nil => rfl
      | cons c t => exact if_neg (ht c rfl)

theorem scanWhole_decimal (n : Nat) {t : Text} (ht : Next (fun c => c.isDigit = false) t) :
    scanWhole (decimal n ++ t) = some (decimal n, t) := by
  by_cases hn : n = 0
  · subst hn
    rfl
  · obtain ⟨c, digits, heq⟩ := List.exists_cons_of_ne_nil (decimal_ne_nil n)
    have hmem : ∀ d ∈ c :: digits, d.isDigit = true := fun d hd =>
      isDigit_of_mem_decimal (heq ▸ hd)
    have hzero : c ≠ '0' := decimal_head n hn c (by rw [heq]; rfl)
    obtain ⟨htake, hdrop⟩ := takeWhile_digits (fun d hd => hmem d (List.mem_cons_of_mem _ hd)) ht
    rw [heq, List.cons_append, scanWhole, if_neg hzero, if_pos (hmem c (List.mem_cons_self ..)),
      htake, hdrop]

theorem scanFrac_text (n : Number) {t : Text}
    (ht : Next (fun c => c.isDigit = false ∧ c ≠ '.') t) :
    scanFrac (n.fracText ++ t) = (n.fracText, t) := by
  rw [Number.fracText]
  cases n.frac with
  | none =>
      cases t with
      | nil => rfl
      | cons c t => exact if_neg fun hc => (ht c rfl).2 hc.1
  | some digits =>
      obtain ⟨htake, hdrop⟩ := takeWhile_digits digits.2.2 (ht.imp fun _ h => h.1)
      show scanFrac ('.' :: (digits.1 ++ t)) = _
      rw [scanFrac, htake, hdrop, if_pos ⟨rfl, digits.2.1⟩]

theorem scanSign_append (e : Exponent) (t : Text) :
    scanSign (e.sign.1 ++ (e.digits.1 ++ t)) = (e.sign.1, e.digits.1 ++ t) := by
  obtain ⟨c, digits, heq⟩ := List.exists_cons_of_ne_nil e.digits.2.1
  have hc : c.isDigit = true := e.digits.2.2 c (heq ▸ List.mem_cons_self ..)
  rcases e.sign.2 with h | h | h
  · rw [h, heq]
    refine if_neg fun hsign => ?_
    rcases hsign with hsign | hsign
    · exact ne_of_isDigit hc rfl hsign
    · exact ne_of_isDigit hc rfl hsign
  · rw [h]
    rfl
  · rw [h]
    rfl

theorem scanExp_text (n : Number) {t : Text} (ht : Stops t) :
    scanExp (n.expText ++ t) = (n.expText, t) := by
  rw [Number.expText]
  cases n.exp with
  | none =>
      cases t with
      | nil => rfl
      | cons c t =>
          obtain ⟨_, _, he, hE⟩ := ht c rfl
          exact if_neg fun hc => hc.1.elim he hE
  | some e =>
      obtain ⟨htake, hdrop⟩ := takeWhile_digits e.digits.2.2 (ht.imp fun _ h => h.1)
      show scanExp (e.letter.1 :: (e.sign.1 ++ e.digits.1 ++ t)) = _
      rw [List.append_assoc, scanExp, scanSign_append]
      simp only [htake, hdrop]
      rw [if_pos ⟨e.letter.2, e.digits.2.1⟩]

/-- The exponent, and what follows, is no digit and no point. -/
theorem next_expText (n : Number) {t : Text} (ht : Stops t) :
    Next (fun c => c.isDigit = false ∧ c ≠ '.') (n.expText ++ t) := by
  rw [Number.expText]
  cases n.exp with
  | none => exact ht.imp fun _ h => ⟨h.1, h.2.1⟩
  | some e =>
      refine next_cons ?_
      rcases e.letter.2 with h | h
      · rw [h]
        decide
      · rw [h]
        decide

theorem next_fracText (n : Number) {t : Text}
    (ht : Next (fun c => c.isDigit = false ∧ c ≠ '.') t) :
    Next (fun c => c.isDigit = false) (n.fracText ++ t) := by
  rw [Number.fracText]
  cases n.frac with
  | none => exact ht.imp fun _ h => h.1
  | some digits => exact next_cons (by decide)

theorem next_decimal (n : Nat) (t : Text) : Next (fun c => c.isDigit = true) (decimal n ++ t) := by
  intro c hc
  rw [List.head?_append_of_ne_nil _ (decimal_ne_nil n)] at hc
  exact isDigit_of_mem_decimal (List.mem_of_mem_head? hc)

/-- **Numbers** are read to their end. -/
theorem scanNumber_text (floats : Floats) (n : Number) {t : Text} (ht : Stops t) :
    scanNumber floats (n.text ++ t) = unlessLimit (n.limit floats) (n.value floats, t) := by
  have hexp := next_expText n ht
  have hfrac := next_fracText n hexp
  have hdigits : Next (fun c => c ≠ '-') (decimal n.whole ++ (n.fracText ++ (n.expText ++ t))) :=
    (next_decimal _ _).imp fun c hc hminus => absurd (hminus ▸ hc) (by decide)
  have hsplit : n.text ++ t
      = n.sign ++ (decimal n.whole ++ (n.fracText ++ (n.expText ++ t))) := by
    simp only [Number.text, List.append_assoc]
  rw [hsplit, scanNumber, scanMinus_text n hdigits]
  simp only [scanWhole_decimal n.whole hfrac, scanFrac_text n hexp, scanExp_text n ht]
  rw [Number.value, Number.limit, decimal, Nat.ofDigitChars_ten_toDigits, ← decimal]
  by_cases hint : n.fracText = [] ∧ n.expText = []
  · rw [if_pos hint, if_pos (show n.IsInt from hint), if_pos (show n.IsInt from hint), Number.sign]
    cases n.negative with
    | true => rfl
    | false => rfl
  · rw [if_neg hint, if_neg (show ¬ n.IsInt from hint), if_neg (show ¬ n.IsInt from hint)]
    rfl

/-! ## Words and strings -/

theorem dropPrefix_append (p t : Text) : dropPrefix p (p ++ t) = some t := by
  induction p with
  | nil => rfl
  | cons c p ih => rw [List.cons_append, dropPrefix, if_pos rfl, ih]

theorem dropPrefix_of_next {c : Char} {p t : Text} (h : Next (fun d => d ≠ c) t) :
    dropPrefix (c :: p) t = none := by
  cases t with
  | nil => rfl
  | cons d t => exact if_neg (Ne.symm (h d rfl))

/-- A number is none of the words. -/
theorem scanScalar_number (floats : Floats) (n : Number) {t : Text} (ht : Stops t) :
    scanScalar floats (n.text ++ t) = unlessLimit (n.limit floats) (n.value floats, t) := by
  have hdigits := next_decimal n.whole (n.fracText ++ (n.expText ++ t))
  have hsplit : n.text ++ t
      = n.sign ++ (decimal n.whole ++ (n.fracText ++ (n.expText ++ t))) := by
    simp only [Number.text, List.append_assoc]
  have hword : ∀ m ∈ constants floats, dropPrefix m.1 (n.text ++ t) = none := by
    intro m hm
    have hne : ∀ c : Char, c.isDigit = false → Next (fun d => d ≠ c)
        (decimal n.whole ++ (n.fracText ++ (n.expText ++ t))) := fun c hc =>
      hdigits.imp fun d hd heq => by rw [heq, hc] at hd; cases hd
    have hletter : ∀ (c : Char) (p : Text), c.isDigit = false → c ≠ '-' →
        dropPrefix (c :: p) (n.text ++ t) = none := by
      intro c p hc hminus
      refine dropPrefix_of_next ?_
      rw [hsplit, Number.sign]
      cases n.negative with
      | true => exact next_cons (Ne.symm hminus)
      | false => exact hne c hc
    simp only [constants, List.mem_cons, List.not_mem_nil, or_false] at hm
    rcases hm with rfl | rfl | rfl | rfl | rfl | rfl
    · exact hletter 'n' _ rfl (by decide)
    · exact hletter 't' _ rfl (by decide)
    · exact hletter 'f' _ rfl (by decide)
    · exact hletter 'N' _ rfl (by decide)
    · exact hletter 'I' _ rfl (by decide)
    · -- `-Infinity`: what follows the sign is a digit
      show dropPrefix ('-' :: Special.infinity.text) (n.text ++ t) = none
      rw [hsplit, Number.sign]
      cases n.negative with
      | true =>
          show (if '-' = '-' then dropPrefix Special.infinity.text _ else none) = none
          rw [if_pos rfl]
          exact dropPrefix_of_next (c := 'I') (hne 'I' rfl)
      | false => exact dropPrefix_of_next (hne '-' rfl)
  have hnone : ((constants floats).findSome? fun m =>
      (dropPrefix m.1 (n.text ++ t)).map fun rest => (m.2, rest)) = none := by
    refine List.findSome?_eq_none_iff.mpr fun m hm => ?_
    rw [hword m hm]
    rfl
  rw [scanScalar, hnone]
  exact scanNumber_text floats n ht

theorem hexVal_hexDigitCase : ∀ upper, ∀ n < 16, hexVal (hexDigitCase upper n) = some n := by
  decide

theorem scanHex4_hex4 (upper : Nat → Bool) {n : Nat} (hn : n < 0x10000) (t : Text) :
    scanHex4 (hex4 upper n ++ t) = some (n, t) := by
  have h₃ := hexVal_hexDigitCase (upper 0) (n / 4096 % 16) (by omega)
  have h₂ := hexVal_hexDigitCase (upper 1) (n / 256 % 16) (by omega)
  have h₁ := hexVal_hexDigitCase (upper 2) (n / 16 % 16) (by omega)
  have h₀ := hexVal_hexDigitCase (upper 3) (n % 16) (by omega)
  have hsum : 4096 * (n / 4096 % 16) + 256 * (n / 256 % 16) + 16 * (n / 16 % 16) + n % 16 = n := by
    omega
  simp only [hex4, List.cons_append, List.nil_append, scanHex4, h₃, h₂, h₁, h₀,
    Option.bind_eq_bind, Option.bind_some, Option.pure_def, hsum]

/-- One way to write a code point is read as that code point. -/
theorem scanChar_text (i : StrItem) (t : Text) : scanChar (i.text ++ t) = some (i.point, t) := by
  cases i with
  | raw c h =>
      show scanChar (c :: t) = _
      rw [scanChar, if_neg h.2.2, if_neg (by omega)]
      rfl
  | short e => cases e <;> rfl
  | unicode n h upper =>
      show scanChar ('\\' :: 'u' :: (hex4 upper n ++ t)) = _
      rw [scanChar, if_pos rfl, scanEscape, if_pos rfl, scanHex4_hex4 upper h]
      rfl

/-- It is not the quote. -/
theorem StrItem.text_eq_cons (i : StrItem) : ∃ c t, i.text = c :: t ∧ c ≠ '"' := by
  cases i with
  | raw c h => exact ⟨c, [], rfl, h.2.1⟩
  | short e => exact ⟨'\\', _, rfl, by decide⟩
  | unicode n h upper => exact ⟨'\\', _, rfl, by decide⟩

/-- **Strings** are read to their closing quote.  Induction on the characters. -/
theorem scanString_text (items : List StrItem) :
    ∀ (fuel : Nat) (t : Text), (strText items).length ≤ fuel →
      scanString fuel (strText items ++ t) = some (strValue items, t) := by
  induction items with
  | nil =>
      intro fuel t hfuel
      obtain ⟨fuel, rfl⟩ : ∃ n, fuel = n + 1 := ⟨fuel - 1, by simp [strText] at hfuel; omega⟩
      rfl
  | cons i items ih =>
      intro fuel t hfuel
      obtain ⟨c, u, hu, hc⟩ := i.text_eq_cons
      have hsplit : strText (i :: items) = i.text ++ strText items := by
        simp [strText, List.append_assoc]
      rw [hsplit, List.length_append, hu, List.length_cons] at hfuel
      obtain ⟨fuel, rfl⟩ : ∃ n, fuel = n + 1 := ⟨fuel - 1, by omega⟩
      have hchar := scanChar_text i (strText items ++ t)
      rw [hsplit, List.append_assoc]
      rw [hu] at hchar ⊢
      rw [List.cons_append] at hchar ⊢
      rw [scanString, if_neg hc, hchar]
      simp only [Option.bind_eq_bind, Option.bind_some, ih fuel t (by omega), Option.pure_def,
        strValue]

/-! ## Whole texts -/

theorem map_unlessLimit {α β : Type} (f : α → β) (limit : Option Limit) (a : α) :
    (unlessLimit limit a).map f = unlessLimit limit (f a) := by
  cases limit with
  | none => rfl
  | some limit => rfl

theorem skipSpace_append (ws : Ws) {t : Text} (ht : Next (fun c => isJsonSpace c = false) t) :
    skipSpace (ws.1 ++ t) = t := by
  rw [skipSpace, List.dropWhile_append_of_pos ws.2, dropWhile_of_head ht]

theorem skipSpace_token (ws : Ws) {c : Char} (hc : isJsonSpace c = false) (t : Text) :
    skipSpace (ws.1 ++ c :: t) = c :: t :=
  skipSpace_append ws (next_cons hc)

theorem expect_cons (c : Char) (t : Text) : expect c (c :: t) = some t := if_pos rfl

theorem expect_of_next {c : Char} {t : Text} (h : Next (fun d => d ≠ c) t) : expect c t = none :=
  dropPrefix_of_next h

theorem expect_of_ne {c d : Char} (h : d ≠ c) (t : Text) : expect c (d :: t) = none :=
  expect_of_next (next_cons h)

theorem stops_of_space {c : Char} (h : isJsonSpace c = true) (t : Text) : Stops (c :: t) := by
  simp only [isJsonSpace, Bool.or_eq_true, decide_eq_true_eq] at h
  refine next_cons ?_
  rcases h with ((rfl | rfl) | rfl) | rfl
  · decide
  · decide
  · decide
  · decide

/-- A number ends before white space and before what closes or goes on. -/
theorem stops_append (ws : Ws) {c : Char} (hc : c = ',' ∨ c = ']' ∨ c = '}') (t : Text) :
    Stops (ws.1 ++ c :: t) := by
  obtain ⟨ws, hws⟩ := ws
  cases ws with
  | nil =>
      refine next_cons ?_
      rcases hc with rfl | rfl | rfl
      · decide
      · decide
      · decide
  | cons d ws => exact stops_of_space (hws d (List.mem_cons_self ..)) _

/-- How a value starts: neither with white space nor with a closing bracket. -/
abbrev Starts (c : Char) : Prop := isJsonSpace c = false ∧ c ≠ ']'

/-- How a word or a number starts. -/
abbrev StartsScalar (c : Char) : Prop := Starts c ∧ c ≠ '"' ∧ c ≠ '{' ∧ c ≠ '['

theorem starts_number (n : Number) : ∃ c t, n.text = c :: t ∧ StartsScalar c := by
  cases hn : n.negative with
  | true =>
      refine ⟨'-', decimal n.whole ++ n.fracText ++ n.expText, ?_, by decide⟩
      rw [Number.text, Number.sign, hn]
      rfl
  | false =>
      obtain ⟨c, t, heq⟩ := List.exists_cons_of_ne_nil (decimal_ne_nil n.whole)
      have hc : c.isDigit = true := isDigit_of_mem_decimal (heq ▸ List.mem_cons_self ..)
      refine ⟨c, t ++ n.fracText ++ n.expText, ?_, ?_⟩
      · rw [Number.text, Number.sign, hn, heq]
        rfl
      · have hne : ∀ d : Char, d.isDigit = false → c ≠ d := fun d hd heq => by
          rw [heq, hd] at hc
          cases hc
        refine ⟨⟨?_, hne ']' rfl⟩, hne '"' rfl, hne '{' rfl, hne '[' rfl⟩
        simp [isJsonSpace, hne ' ' rfl, hne '\t' rfl, hne '\n' rfl, hne '\r' rfl]

theorem starts_special (s : Special) : ∃ c t, s.text = c :: t ∧ StartsScalar c := by
  cases s with
  | nan => exact ⟨'N', _, rfl, by decide⟩
  | infinity => exact ⟨'I', _, rfl, by decide⟩
  | negInfinity => exact ⟨'-', _, rfl, by decide⟩

theorem starts_null : ∃ c t, nullText = c :: t ∧ StartsScalar c := ⟨'n', _, rfl, by decide⟩

theorem starts_bool (b : Bool) : ∃ c t, boolText b = c :: t ∧ StartsScalar c := by
  cases b with
  | true => exact ⟨'t', _, rfl, by decide⟩
  | false => exact ⟨'f', _, rfl, by decide⟩

theorem Syntax.starts (s : Syntax) : ∃ c t, s.text = c :: t ∧ Starts c := by
  cases s with
  | null => exact ⟨'n', _, rfl, by decide⟩
  | bool b =>
      obtain ⟨c, t, heq, hc⟩ := starts_bool b
      exact ⟨c, t, heq, hc.1⟩
  | number n =>
      obtain ⟨c, t, heq, hc⟩ := starts_number n
      exact ⟨c, t, heq, hc.1⟩
  | special s =>
      obtain ⟨c, t, heq, hc⟩ := starts_special s
      exact ⟨c, t, heq, hc.1⟩
  | str items => exact ⟨'"', _, rfl, by decide⟩
  | emptyArr ws => exact ⟨'[', _, rfl, by decide⟩
  | arr elems => exact ⟨'[', _, rfl, by decide⟩
  | emptyObj ws => exact ⟨'{', _, rfl, by decide⟩
  | obj members => exact ⟨'{', _, rfl, by decide⟩

theorem Syntax.next (s : Syntax) (t : Text) : Next Starts (s.text ++ t) := by
  obtain ⟨c, u, heq, hc⟩ := s.starts
  rw [heq]
  exact next_cons hc

theorem skipSpace_value (ws : Ws) (v : Syntax) (t : Text) :
    skipSpace (ws.1 ++ (v.text ++ t)) = v.text ++ t :=
  skipSpace_append ws ((v.next t).imp fun _ h => h.1)

/-- A text that starts like a word or a number is read as one. -/
theorem parseValue_scalar (floats : Floats) {u : Text} (hu : ∃ c t, u = c :: t ∧ StartsScalar c)
    {fuel : Nat} (hfuel : u.length ≤ fuel) (level : Nat) (rest : Text) :
    parseValue floats level fuel (u ++ rest) = scanScalar floats (u ++ rest) := by
  obtain ⟨c, t, rfl, _, hquote, hbrace, hbracket⟩ := hu
  obtain ⟨fuel, rfl⟩ : ∃ n, fuel = n + 1 := ⟨fuel - 1, by rw [List.length_cons] at hfuel; omega⟩
  rw [List.cons_append, parseValue]
  simp only [if_neg hquote, if_neg hbrace, if_neg hbracket]

theorem Members.starts (m : Members) (rest : Text) :
    ∃ t, skipSpace (m.text ++ rest) = '"' :: t := by
  have hquote : ∀ (ws : Ws) (t : Text), skipSpace (ws.1 ++ '"' :: t) = '"' :: t := fun ws t =>
    skipSpace_token ws rfl _
  cases m with
  | last before key colonBefore colonAfter v after =>
      rw [Members.text, List.append_assoc]
      exact ⟨_, hquote before _⟩
  | cons before key colonBefore colonAfter v after more =>
      rw [Members.text, List.append_assoc]
      exact ⟨_, hquote before _⟩

theorem Elems.next (e : Elems) (rest : Text) : Next Starts (skipSpace (e.text ++ rest)) := by
  cases e with
  | last before v after =>
      rw [Elems.text, List.append_assoc, List.append_assoc, skipSpace_value]
      exact v.next _
  | cons before v after more =>
      rw [Elems.text, List.append_assoc, List.append_assoc, skipSpace_value]
      exact v.next _

/-- A member, up to what follows its value. -/
theorem parseMembers_member (floats : Floats) (level : Nat) (before colonBefore colonAfter : Ws)
    (key : List StrItem) (v : Syntax) {fuel : Nat} {tail : Text}
    (hkey : (strText key).length ≤ fuel)
    (hvalue : parseValue floats level fuel (v.text ++ tail)
      = unlessLimit (v.limit floats level) (v.value floats, tail)) :
    parseMembers floats level (fuel + 1) (skipSpace (before.1 ++ '"' :: (strText key
        ++ (colonBefore.1 ++ ':' :: (colonAfter.1 ++ (v.text ++ tail))))))
      = match v.limit floats level with
        | some limit => .error limit.error
        | none =>
            match expect ',' (skipSpace tail) with
            | some t => (parseMembers floats level fuel (skipSpace t)).map fun r =>
                ((strValue key, v.value floats) :: r.1, r.2)
            | none => (orDecodeError (expect '}' (skipSpace tail))).map fun t =>
                ([(strValue key, v.value floats)], t) := by
  have hread := scanString_text key fuel (colonBefore.1 ++ ':' :: (colonAfter.1
    ++ (v.text ++ tail))) hkey
  have hcolon : skipSpace (colonBefore.1 ++ ':' :: (colonAfter.1 ++ (v.text ++ tail)))
      = ':' :: (colonAfter.1 ++ (v.text ++ tail)) :=
    skipSpace_token colonBefore rfl _
  rw [skipSpace_token before rfl _, parseMembers]
  simp only [expect_cons, Option.bind_some, hread, hcolon, skipSpace_value, hvalue]
  cases v.limit floats level with
  | none => rfl
  | some limit => rfl

theorem parseValue_emptyObj (floats : Floats) (level : Nat) (ws : Ws) (fuel : Nat) (rest : Text) :
    parseValue floats level (fuel + 1) ((Syntax.emptyObj ws).text ++ rest)
      = unlessLimit ((Syntax.emptyObj ws).limit floats level)
        ((Syntax.emptyObj ws).value floats, rest) := by
  have hskip : skipSpace (ws.1 ++ (['}'] ++ rest)) = '}' :: rest :=
    skipSpace_token ws rfl _
  rw [Syntax.text, List.cons_append, List.append_assoc, parseValue]
  simp only [hskip, expect_cons, Syntax.limit]
  cases depthLimit floats.readDepth level with
  | none => rfl
  | some limit => rfl

/-- An object is read if its members are. -/
theorem parseValue_members (floats : Floats) (level : Nat) (members : Members) {fuel : Nat}
    {rest : Text}
    (h : parseMembers floats (level + 1) fuel (skipSpace (members.text ++ rest))
      = unlessLimit (members.limit floats (level + 1)) (members.pairs floats, rest)) :
    parseValue floats level (fuel + 1) ((Syntax.obj members).text ++ rest)
      = unlessLimit ((Syntax.obj members).limit floats level)
        ((Syntax.obj members).value floats, rest) := by
  -- no member starts with the closing brace
  obtain ⟨t, ht⟩ := members.starts rest
  have hopen : expect '}' (skipSpace (members.text ++ rest)) = none := by
    rw [ht]
    exact expect_of_ne (by decide) _
  rw [Syntax.text, List.cons_append, parseValue]
  simp only [hopen, h, Syntax.limit, map_unlessLimit]
  cases depthLimit floats.readDepth level with
  | none => rfl
  | some limit => rfl

mutual

/-- **Every text of a value is read to its end, as what it denotes**, or up to the first limit
    that it meets.  Induction on the syntax, with as many steps as characters. -/
theorem parseValue_text (floats : Floats) : ∀ (s : Syntax) (level fuel : Nat) (rest : Text),
    s.text.length ≤ fuel → Stops rest →
    parseValue floats level fuel (s.text ++ rest)
      = unlessLimit (s.limit floats level) (s.value floats, rest)
  | .null, level, fuel, rest, hfuel, _ => by
      rw [Syntax.text, parseValue_scalar floats starts_null hfuel]
      rfl
  | .bool b, level, fuel, rest, hfuel, _ => by
      rw [Syntax.text, parseValue_scalar floats (starts_bool b) hfuel]
      cases b <;> rfl
  | .number n, level, fuel, rest, hfuel, hrest => by
      rw [Syntax.text, Syntax.value, Syntax.limit,
        parseValue_scalar floats (starts_number n) hfuel]
      exact scanScalar_number floats n hrest
  | .special s, level, fuel, rest, hfuel, _ => by
      rw [Syntax.text, Syntax.value, parseValue_scalar floats (starts_special s) hfuel]
      cases s <;> rfl
  | .str items, level, 0, _, hfuel, _ => absurd hfuel (by simp [Syntax.text])
  | .str items, level, fuel + 1, rest, hfuel, _ => by
      have hlength : (strText items).length ≤ fuel := by
        rw [Syntax.text, List.length_cons] at hfuel
        omega
      rw [Syntax.text, List.cons_append, parseValue]
      simp only [if_true, scanString_text items fuel rest hlength]
      rfl
  | .emptyArr ws, level, 0, _, hfuel, _ => absurd hfuel (by simp [Syntax.text])
  | .emptyArr ws, level, fuel + 1, rest, _, _ => by
      have hskip : skipSpace (ws.1 ++ ([']'] ++ rest)) = ']' :: rest :=
        skipSpace_token ws rfl _
      rw [Syntax.text, List.cons_append, List.append_assoc, parseValue]
      simp only [hskip, expect_cons, Syntax.limit]
      cases depthLimit floats.readDepth level with
      | none => rfl
      | some limit => rfl
  | .arr elems, level, 0, _, hfuel, _ => absurd hfuel (by simp [Syntax.text])
  | .arr elems, level, fuel + 1, rest, hfuel, _ => by
      have hlength : elems.text.length ≤ fuel := by
        rw [Syntax.text, List.length_cons] at hfuel
        omega
      -- no element starts with the closing bracket, so the array is not taken for empty
      have hopen := expect_of_next ((elems.next rest).imp fun _ h => h.2)
      rw [Syntax.text, List.cons_append, parseValue]
      simp only [hopen, parseElems_text floats elems (level + 1) fuel rest hlength, Syntax.limit,
        map_unlessLimit]
      cases depthLimit floats.readDepth level with
      | none => rfl
      | some limit => rfl
  | .emptyObj ws, level, 0, _, hfuel, _ => absurd hfuel (by simp [Syntax.text])
  | .emptyObj ws, level, fuel + 1, rest, _, _ => parseValue_emptyObj floats level ws fuel rest
  | .obj members, level, 0, _, hfuel, _ => absurd hfuel (by simp [Syntax.text])
  | .obj members, level, fuel + 1, rest, hfuel, _ => by
      have hlength : members.text.length ≤ fuel := by
        rw [Syntax.text, List.length_cons] at hfuel
        omega
      exact parseValue_members floats level members
        (parseMembers_text floats members (level + 1) fuel rest hlength)

theorem parseElems_text (floats : Floats) : ∀ (e : Elems) (level fuel : Nat) (rest : Text),
    e.text.length ≤ fuel →
    parseElems floats level fuel (skipSpace (e.text ++ rest))
      = unlessLimit (e.limit floats level) (e.values floats, rest)
  | .last before v after, level, 0, _, hfuel => absurd hfuel (by simp [Elems.text])
  | .last before v after, level, fuel + 1, rest, hfuel => by
      have hlength : v.text.length ≤ fuel := by
        simp only [Elems.text, List.length_append, List.length_singleton] at hfuel
        omega
      have hvalue := parseValue_text floats v level fuel (after.1 ++ ']' :: rest) hlength
        (stops_append after (Or.inr (Or.inl rfl)) rest)
      have hskip : skipSpace (after.1 ++ ']' :: rest) = ']' :: rest :=
        skipSpace_token after rfl _
      have hcomma : expect ',' (']' :: rest) = none := expect_of_ne (by decide) _
      have hsplit : (Elems.last before v after).text ++ rest
          = before.1 ++ (v.text ++ (after.1 ++ ']' :: rest)) := by simp [Elems.text]
      rw [hsplit, skipSpace_value, parseElems, hvalue, Elems.limit]
      cases v.limit floats level with
      | none =>
          simp only [unlessLimit, hskip, hcomma, expect_cons]
          rfl
      | some limit => rfl
  | .cons before v after more, level, 0, _, hfuel => absurd hfuel (by simp [Elems.text])
  | .cons before v after more, level, fuel + 1, rest, hfuel => by
      have hlength : v.text.length ≤ fuel ∧ more.text.length ≤ fuel := by
        simp only [Elems.text, List.length_append, List.length_cons] at hfuel
        omega
      have hvalue := parseValue_text floats v level fuel (after.1 ++ ',' :: (more.text ++ rest))
        hlength.1 (stops_append after (Or.inl rfl) _)
      have hskip : skipSpace (after.1 ++ ',' :: (more.text ++ rest)) = ',' :: (more.text ++ rest) :=
        skipSpace_token after rfl _
      have hsplit : (Elems.cons before v after more).text ++ rest
          = before.1 ++ (v.text ++ (after.1 ++ ',' :: (more.text ++ rest))) := by simp [Elems.text]
      rw [hsplit, skipSpace_value, parseElems, hvalue, Elems.limit]
      cases v.limit floats level with
      | none =>
          simp only [unlessLimit, hskip, expect_cons,
            parseElems_text floats more level fuel rest hlength.2]
          exact map_unlessLimit _ _ _
      | some limit => rfl

theorem parseMembers_text (floats : Floats) : ∀ (m : Members) (level fuel : Nat) (rest : Text),
    m.text.length ≤ fuel →
    parseMembers floats level fuel (skipSpace (m.text ++ rest))
      = unlessLimit (m.limit floats level) (m.pairs floats, rest)
  | .last before key colonBefore colonAfter v after, level, 0, _, hfuel =>
      absurd hfuel (by simp [Members.text])
  | .last before key colonBefore colonAfter v after, level, fuel + 1, rest, hfuel => by
      have hlength : (strText key).length ≤ fuel ∧ v.text.length ≤ fuel := by
        simp only [Members.text, List.length_append, List.length_cons] at hfuel
        omega
      let tail := after.1 ++ '}' :: rest
      have hvalue := parseValue_text floats v level fuel tail hlength.2
        (stops_append after (Or.inr (Or.inr rfl)) rest)
      have hskip : skipSpace tail = '}' :: rest := skipSpace_token after rfl _
      have hcomma : expect ',' ('}' :: rest) = none := expect_of_ne (by decide) _
      have hsplit : (Members.last before key colonBefore colonAfter v after).text ++ rest
          = before.1 ++ '"' :: (strText key ++ (colonBefore.1 ++ ':' :: (colonAfter.1
            ++ (v.text ++ tail)))) := by simp [Members.text, tail]
      rw [hsplit, Members.limit,
        parseMembers_member floats level before colonBefore colonAfter key v hlength.1 hvalue]
      cases v.limit floats level with
      | none =>
          simp only [hskip, hcomma, expect_cons]
          rfl
      | some limit => rfl
  | .cons before key colonBefore colonAfter v after more, level, 0, _, hfuel =>
      absurd hfuel (by simp [Members.text])
  | .cons before key colonBefore colonAfter v after more, level, fuel + 1, rest, hfuel => by
      have hlength : (strText key).length ≤ fuel ∧ v.text.length ≤ fuel
          ∧ more.text.length ≤ fuel := by
        simp only [Members.text, List.length_append, List.length_cons] at hfuel
        omega
      let tail := after.1 ++ ',' :: (more.text ++ rest)
      have hvalue := parseValue_text floats v level fuel tail hlength.2.1
        (stops_append after (Or.inl rfl) _)
      have hskip : skipSpace tail = ',' :: (more.text ++ rest) :=
        skipSpace_token after rfl _
      have hsplit : (Members.cons before key colonBefore colonAfter v after more).text ++ rest
          = before.1 ++ '"' :: (strText key ++ (colonBefore.1 ++ ':' :: (colonAfter.1
            ++ (v.text ++ tail)))) := by simp [Members.text, tail]
      rw [hsplit, Members.limit,
        parseMembers_member floats level before colonBefore colonAfter key v hlength.1 hvalue]
      cases v.limit floats level with
      | none =>
          simp only [hskip, expect_cons, parseMembers_text floats more level fuel rest hlength.2.2]
          exact map_unlessLimit _ _ _
      | some limit => rfl

end

/-- **Every JSON text is read as what it denotes**, unless it meets a limit. -/
theorem loads_document (floats : Floats) (d : Document) :
    loads floats d.text = unlessLimit (d.body.limit floats 0) (d.body.value floats) := by
  have hrest : Stops d.after.1 := by
    obtain ⟨ws, hws⟩ := d.after
    cases ws with
    | nil => exact next_nil
    | cons c ws => exact stops_of_space (hws c (List.mem_cons_self ..)) ws
  have hskip : skipSpace d.text = d.body.text ++ d.after.1 := by
    rw [Document.text, List.append_assoc, skipSpace_value]
  have hend : skipSpace d.after.1 = [] := by
    have := skipSpace_append d.after (t := []) next_nil
    rwa [List.append_nil] at this
  have hread := parseValue_text floats d.body 0 (d.body.text ++ d.after.1).length d.after.1
    (by rw [List.length_append]; omega) hrest
  rw [loads, hskip, hread]
  cases d.body.limit floats 0 with
  | none => exact if_pos hend
  | some limit => rfl

end Json
