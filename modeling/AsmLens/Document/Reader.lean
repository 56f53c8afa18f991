import AsmLens.Document.Basic

/-!
# Reading documents

JSON text to documents. Beside the standard's values the reader takes `NaN`,
`Infinity` and `-Infinity`. A number without fraction and exponent is an integer of
any size up to `Text.maxDigits` digits. A repeated member keeps its first place and
its last value. An error tells what was expected and where.

A text here has no surrogates. A document with half of a surrogate pair in one of its
texts is refused for it, once it is known to be well-formed.

## How it works

The reader is one loop. It holds the containers that are still open, innermost
first, and a mode that says what may come next; each round takes at least one
character, which is why it ends.
-/

namespace AsmLens.Json

open AsmLens.Text

/-- What is wrong at a place of a text. -/
inductive Complaint
  | value
  | memberName
  | colon
  | comma
  | unterminated
  | control
  | escape
  | unitEscape
  | extra
  /-- A byte order mark in front of the text. -/
  | byteOrderMark
  /-- An integer with more digits than are read. -/
  | digits
  /-- Half of a surrogate pair. -/
  | surrogate
deriving DecidableEq, Repr

/-- The fault that a complaint is, unless it is one about what is written. -/
def Complaint.fault? : Complaint → Option Fault
  | digits => some .tooManyDigits
  | surrogate => some .tornText
  | _ => none

/-- The wording of a complaint. -/
def Complaint.message : Complaint → String
  | value => "Expecting value"
  | memberName => "Expecting property name enclosed in double quotes"
  | colon => "Expecting ':' delimiter"
  | comma => "Expecting ',' delimiter"
  | unterminated => "Unterminated string starting at"
  | control => "Invalid control character at"
  | escape => "Invalid \\escape"
  | unitEscape => "Invalid \\uXXXX escape"
  | extra => "Extra data"
  | byteOrderMark => "Unexpected UTF-8 BOM (decode using utf-8-sig)"
  | digits => "Exceeds the limit (4300 digits) for integer string conversion"
  | surrogate => "Unpaired surrogate"

/-- A complaint and how many characters the text still has at its place. -/
structure Refusal where
  complaint : Complaint
  left : Nat
deriving DecidableEq, Repr

/-! ## Lexical parts -/

/-- Whether a character may stand between tokens. -/
def isSpace (c : Char) : Bool := c = ' ' || c = '\t' || c = '\n' || c = '\r'

/-- The text from the next token on. -/
def skipSpaces (s : List Char) : List Char := s.dropWhile isSpace

theorem length_skipSpaces_le (s : List Char) : (skipSpaces s).length ≤ s.length :=
  (List.dropWhile_sublist _).length_le

/-- The value of a hexadecimal digit. -/
def hexValue? (c : Char) : Option Nat :=
  if '0' ≤ c && c ≤ '9' then some (c.toNat - 0x30)
  else if 'a' ≤ c && c ≤ 'f' then some (c.toNat - 0x57)
  else if 'A' ≤ c && c ≤ 'F' then some (c.toNat - 0x37)
  else none

/-- The sixteen-bit unit that four hexadecimal digits denote. -/
def unit? (a b c d : Char) : Option Nat := do
  return (((← hexValue? a) * 16 + (← hexValue? b)) * 16 + (← hexValue? c)) * 16 + (← hexValue? d)

/-- The character that a letter after a backslash stands for. -/
def shortEscape? (c : Char) : Option Char :=
  match c with
  | '"' => some '"'
  | '\\' => some '\\'
  | '/' => some '/'
  | 'b' => some (Char.ofNat 8)
  | 'f' => some (Char.ofNat 12)
  | 'n' => some '\n'
  | 'r' => some '\r'
  | 't' => some '\t'
  | _ => none

/-- Whether a unit is the first, or the second, of a surrogate pair. -/
def isHighSurrogate (u : Nat) : Bool := 0xd800 ≤ u && u ≤ 0xdbff
def isLowSurrogate (u : Nat) : Bool := 0xdc00 ≤ u && u ≤ 0xdfff

/-- The character of a surrogate pair. -/
def pairChar (high low : Nat) : Char :=
  Char.ofNat (0x10000 + (high - 0xd800) * 0x400 + (low - 0xdc00))

/--
The text after an opening quote: its characters, last first, and what follows the
closing quote. `start` is how many characters are left at the opening quote. Half of a
surrogate pair is some character, for `isTorn` tells of it.
-/
def readText (start : Nat) : List Char → List Char → Except Refusal (List Char × List Char)
  | _, [] => .error ⟨.unterminated, start⟩
  | acc, '"' :: rest => .ok (acc, rest)
  | _, ['\\'] => .error ⟨.unterminated, start⟩
  | acc, '\\' :: 'u' :: a :: b :: c :: d :: e :: rest =>
    match unit? a b c d with
    | none => .error ⟨.unitEscape, rest.length + 6⟩
    | some u =>
      if isHighSurrogate u then
        match e, rest with
        | '\\', 'u' :: a' :: b' :: c' :: d' :: f :: rest' =>
          match unit? a' b' c' d' with
          | none => .error ⟨.unitEscape, rest'.length + 6⟩
          | some v =>
            if isLowSurrogate v then readText start (pairChar u v :: acc) (f :: rest')
            else readText start (Char.ofNat u :: acc) ('\\' :: 'u' :: a' :: b' :: c' :: d' :: f :: rest')
        | e, rest => readText start (Char.ofNat u :: acc) (e :: rest)
      else readText start (Char.ofNat u :: acc) (e :: rest)
  | acc, '\\' :: c :: rest =>
    if c = 'u' then .error ⟨.unitEscape, rest.length + 1⟩
    else
      match shortEscape? c with
      | some x => readText start (x :: acc) rest
      | none => .error ⟨.escape, rest.length + 2⟩
  | acc, c :: rest =>
    if c.toNat < 0x20 then .error ⟨.control, rest.length + 1⟩
    else readText start (c :: acc) rest
termination_by _ s => s.length
decreasing_by all_goals simp only [List.length_cons]; omega

theorem length_of_readText {start : Nat} {acc s t rest : List Char}
    (h : readText start acc s = .ok (t, rest)) : rest.length < s.length := by
  fun_induction readText start acc s <;> simp_all <;> omega

/-- Whether an escape in a well-formed text is half of a surrogate pair; `high` holds behind the
first half of one. -/
def isTorn (high : Bool) : List Char → Bool
  | '\\' :: 'u' :: a :: b :: c :: d :: rest =>
    let u := (unit? a b c d).getD 0
    if isLowSurrogate u then !high || isTorn false rest
    else high || isTorn (isHighSurrogate u) rest
  | '\\' :: _ :: rest => high || isTorn false rest
  | _ :: rest => high || isTorn false rest
  | [] => high

/-- Whether a character is a decimal digit of a JSON number. -/
def isDigit (c : Char) : Bool := '0' ≤ c && c ≤ '9'

/-- The leading digits of a text, and what follows them. -/
def spanDigits (s : List Char) : List Char × List Char := (s.takeWhile isDigit, s.dropWhile isDigit)

/-- The parts of a number. -/
structure Numeral where
  negative : Bool
  whole : List Char
  fraction : List Char
  /-- The sign and digits after an exponent mark. -/
  exponent : Option (Bool × List Char)

/-- The value of a run of digits. -/
def digitRun (ds : List Char) : Nat := ds.foldl (fun n c => 10 * n + (c.toNat - 0x30)) 0

/-- The number that a numeral denotes. -/
def Numeral.value? (n : Numeral) : Option Number :=
  if n.fraction.isEmpty && n.exponent.isNone then
    if n.whole.length ≤ maxDigits then
      let v : Int := digitRun n.whole
      some (.int (if n.negative then -v else v))
    else none
  else
    let e : Int := match n.exponent with
      | some (neg, ds) => if neg then -(digitRun ds : Int) else digitRun ds
      | none => 0
    some (.float (Binary64.ofDecimal n.negative (digitRun (n.whole ++ n.fraction))
      (e - n.fraction.length)))

/-- The exponent at the head of a text, if there is one. -/
def readExponent (s : List Char) : Option (Bool × List Char) × List Char :=
  match s with
  | m :: rest =>
    if m = 'e' || m = 'E' then
      let (neg, body) := splitSign rest
      match spanDigits body with
      | ([], _) => (none, s)
      | (ds, rest') => (some (neg, ds), rest')
    else (none, s)
  | [] => (none, s)

/-- The fraction at the head of a text, if there is one. -/
def readFraction (s : List Char) : List Char × List Char :=
  match s with
  | '.' :: rest =>
    match spanDigits rest with
    | ([], _) => ([], s)
    | (ds, rest') => (ds, rest')
  | _ => ([], s)

/-- The whole part at the head of a text: a zero, or digits that start with none. -/
def readWhole (s : List Char) : Option (List Char × List Char) :=
  match s with
  | '0' :: rest => some (['0'], rest)
  | c :: rest => if isDigit c then some (c :: rest.takeWhile isDigit, rest.dropWhile isDigit) else none
  | [] => none

/-- The numeral at the head of a text, without its sign. -/
def readUnsigned (negative : Bool) (s : List Char) : Option (Numeral × List Char) :=
  match readWhole s with
  | none => none
  | some (whole, s₁) =>
    let (fraction, s₂) := readFraction s₁
    let (exponent, s₃) := readExponent s₂
    some (⟨negative, whole, fraction, exponent⟩, s₃)

/-- The numeral at the head of a text. -/
def readNumeral : List Char → Option (Numeral × List Char)
  | '-' :: rest => readUnsigned true rest
  | s => readUnsigned false s

theorem length_of_readWhole {s w rest : List Char} (h : readWhole s = some (w, rest)) :
    rest.length < s.length := by
  unfold readWhole at h
  split at h
  · grind
  · rename_i c tail _
    split at h
    · have := (List.dropWhile_sublist isDigit (l := tail)).length_le
      grind
    · simp at h
  · simp at h

theorem length_readFraction_le (s : List Char) : (readFraction s).2.length ≤ s.length := by
  unfold readFraction spanDigits
  split
  · rename_i rest
    have := (List.dropWhile_sublist isDigit (l := rest)).length_le
    grind
  · simp

theorem length_readExponent_le (s : List Char) : (readExponent s).2.length ≤ s.length := by
  unfold readExponent spanDigits
  split
  · rename_i m rest
    split
    · have h := (List.dropWhile_sublist isDigit (l := (splitSign rest).2)).length_le
      have k : (splitSign rest).2.length ≤ rest.length := by
        unfold splitSign; split <;> simp
      grind
    · simp
  · simp

theorem length_of_readUnsigned {b : Bool} {s rest : List Char} {n : Numeral}
    (h : readUnsigned b s = some (n, rest)) : rest.length < s.length := by
  unfold readUnsigned at h
  split at h
  · simp at h
  · rename_i w s₁ hw
    have h₁ := length_of_readWhole hw
    have h₂ := length_readFraction_le s₁
    have h₃ := length_readExponent_le (readFraction s₁).2
    simp only [Option.some.injEq, Prod.mk.injEq] at h
    grind

theorem length_of_readNumeral {s rest : List Char} {n : Numeral}
    (h : readNumeral s = some (n, rest)) : rest.length < s.length := by
  unfold readNumeral at h
  split at h
  · have := length_of_readUnsigned h
    simp; omega
  · exact length_of_readUnsigned h

/-! ## Values -/

/-- The words that stand for a value. -/
def words : List (String × Doc) :=
  [("null", .null), ("true", .bool true), ("false", .bool false), ("NaN", .float .nan),
   ("Infinity", .float (.infinity false)), ("-Infinity", .float (.infinity true))]

/-- The word at the head of a text, as its value and the text after it. -/
def readWord : List (String × Doc) → List Char → Option (Doc × List Char)
  | [], _ => none
  | (w, v) :: ws, s =>
    if w.toList.isPrefixOf s && !w.isEmpty then some (v, s.drop w.length) else readWord ws s

theorem length_of_readWord {ws : List (String × Doc)} {s rest : List Char} {v : Doc}
    (h : readWord ws s = some (v, rest)) : rest.length < s.length := by
  induction ws with
  | nil => simp [readWord] at h
  | cons w ws ih =>
    unfold readWord at h
    split at h
    · rename_i hw
      simp only [Bool.and_eq_true, List.isPrefixOf_iff_prefix, Bool.not_eq_true'] at hw
      obtain ⟨hp, he⟩ := hw
      have hlen := hp.length_le
      have hpos : 0 < w.1.length := by
        rcases Nat.eq_zero_or_pos w.1.length with h0 | h0
        · simp only [String.length_eq_zero_iff] at h0
          simp [h0] at he
        · exact h0
      simp only [Option.some.injEq, Prod.mk.injEq] at h
      have : w.1.toList.length = w.1.length := String.length_toList
      rw [← h.2]
      simp
      omega
    · exact ih h

/-- A container that is still open. -/
inductive Frame
  /-- A list and its items so far, last first. -/
  | list (items : List Doc)
  /-- An object, its members so far, last first, and the name of the member being read. -/
  | object (members : List (String × Doc)) (name : String)

/-- What may come next. -/
inductive Mode
  | value
  /-- After an opening bracket: an item or the end. -/
  | firstItem
  /-- After an opening brace: a name or the end. -/
  | firstName
  /-- After a comma in an object. -/
  | name (members : List (String × Doc))
  | colon (members : List (String × Doc)) (name : String)
  /-- After a complete value. -/
  | after (v : Doc)

/-- The object of members that were gathered last first. -/
def closeObject (members : List (String × Doc)) : Doc := .object (Doc.collect members.reverse)

/-- What may come next, the containers open then, and the text left. -/
abbrev State := Mode × List Frame × List Char

/-- The next value: a complete one, or a container that opens. -/
def stepValue (stack : List Frame) (s : List Char) : Except Refusal State :=
  match s with
  | '"' :: rest =>
    match readText s.length [] rest with
    | .ok (t, rest') => .ok (.after (.text (String.ofList t.reverse)), stack, rest')
    | .error e => .error e
  | '[' :: rest => .ok (.firstItem, stack, rest)
  | '{' :: rest => .ok (.firstName, stack, rest)
  | s =>
    match readWord words s with
    | some (v, rest) => .ok (.after v, stack, rest)
    | none =>
      match readNumeral s with
      | some (n, rest) =>
        match n.value? with
        | some v => .ok (.after (.number v), stack, rest)
        | none => .error ⟨.digits, s.length⟩
      | none => .error ⟨.value, s.length⟩

/-- The next member name. -/
def stepName (members : List (String × Doc)) (stack : List Frame) (s : List Char) :
    Except Refusal State :=
  match s with
  | '"' :: rest =>
    match readText s.length [] rest with
    | .ok (t, rest') => .ok (.colon members (String.ofList t.reverse), stack, rest')
    | .error e => .error e
  | s => .error ⟨.memberName, s.length⟩

/-- What follows a complete value: a comma, or the end of the innermost container. -/
def stepAfter (v : Doc) (stack : List Frame) (s : List Char) : Except Refusal State :=
  match stack, s with
  | .list items :: stack, ',' :: rest => .ok (.value, .list (v :: items) :: stack, rest)
  | .list items :: stack, ']' :: rest => .ok (.after (.list (v :: items).reverse), stack, rest)
  | .object members key :: stack, ',' :: rest => .ok (.name ((key, v) :: members), stack, rest)
  | .object members key :: stack, '}' :: rest =>
    .ok (.after (closeObject ((key, v) :: members)), stack, rest)
  | [], s => .error ⟨.extra, s.length⟩
  | _ :: _, s => .error ⟨.comma, s.length⟩

/-- One round: the next token in a mode, with the containers that are open after it. -/
def step (mode : Mode) (stack : List Frame) (s : List Char) : Except Refusal State :=
  match mode with
  | .value => stepValue stack s
  | .firstItem =>
    match s with
    | ']' :: rest => .ok (.after (.list []), stack, rest)
    | s => stepValue (.list [] :: stack) s
  | .firstName =>
    match s with
    | '}' :: rest => .ok (.after (.object []), stack, rest)
    | s => stepName [] stack s
  | .name members => stepName members stack s
  | .colon members key =>
    match s with
    | ':' :: rest => .ok (.value, .object members key :: stack, rest)
    | s => .error ⟨.colon, s.length⟩
  | .after v => stepAfter v stack s

theorem length_of_stepValue {st : List Frame} {s : List Char} {r : State}
    (h : stepValue st s = .ok r) : r.2.2.length < s.length := by
  unfold stepValue at h
  split at h
  · split at h
    · rename_i t rest' ht
      have := length_of_readText ht
      simp only [Except.ok.injEq] at h
      subst h
      simp; omega
    · simp at h
  · simp only [Except.ok.injEq] at h; subst h; simp
  · simp only [Except.ok.injEq] at h; subst h; simp
  · split at h
    · rename_i hw
      have := length_of_readWord hw
      simp only [Except.ok.injEq] at h; subst h; exact this
    · split at h
      · rename_i hn
        have := length_of_readNumeral hn
        split at h
        · simp only [Except.ok.injEq] at h; subst h; exact this
        · simp at h
      · simp at h

theorem length_of_stepName {ms : List (String × Doc)} {st : List Frame} {s : List Char} {r : State}
    (h : stepName ms st s = .ok r) : r.2.2.length < s.length := by
  unfold stepName at h
  split at h
  · split at h
    · rename_i t rest' ht
      have := length_of_readText ht
      simp only [Except.ok.injEq] at h
      subst h
      simp; omega
    · simp at h
  · simp at h

theorem length_of_stepAfter {v : Doc} {st : List Frame} {s : List Char} {r : State}
    (h : stepAfter v st s = .ok r) : r.2.2.length < s.length := by
  unfold stepAfter at h
  split at h <;> simp only [Except.ok.injEq, reduceCtorEq] at h <;> subst h <;> simp

/-- Each round takes at least one character. -/
theorem length_of_step {m : Mode} {st : List Frame} {s : List Char} {r : State}
    (h : step m st s = .ok r) : r.2.2.length < s.length := by
  unfold step at h
  split at h
  · exact length_of_stepValue h
  · split at h
    · simp only [Except.ok.injEq] at h; subst h; simp
    · exact length_of_stepValue h
  · split at h
    · simp only [Except.ok.injEq] at h; subst h; simp
    · exact length_of_stepName h
  · exact length_of_stepName h
  · split at h
    · simp only [Except.ok.injEq] at h; subst h; simp
    · simp at h
  · exact length_of_stepAfter h

/-- The rounds from a state on. -/
def run (mode : Mode) (stack : List Frame) (s : List Char) : Except Refusal Doc :=
  let t := skipSpaces s
  match mode, stack, t with
  | .after v, [], [] => .ok v
  | _, _, _ =>
    match _h : step mode stack t with
    | .ok (mode', stack', rest) => run mode' stack' rest
    | .error e => .error e
termination_by s.length
decreasing_by
  have h₁ := length_of_step _h
  have h₂ : t.length ≤ s.length := length_skipSpaces_le s
  simp only at h₁
  omega

/-! ## Places -/

/-- A complaint and its place in the text, lines and columns counted from one. -/
structure Error where
  complaint : Complaint
  line : Nat
  column : Nat
  index : Nat
deriving DecidableEq, Repr

/-- The wording of an error. -/
def Error.message (e : Error) : String :=
  e.complaint.message ++ ": line " ++ toString e.line ++ " column " ++ toString e.column ++
    " (char " ++ toString e.index ++ ")"

/-- A refusal with its place in the text. -/
def Refusal.locate (text : List Char) (r : Refusal) : Error :=
  let before := text.take (text.length - r.left)
  let line := before.count '\n'
  { complaint := r.complaint
    line := line + 1
    column := (before.reverse.takeWhile (· ≠ '\n')).length + 1
    index := before.length }

/-- The document that a text denotes. -/
def read (text : List Char) : Except Error Doc :=
  if text.head? = some '\ufeff' then .error ((Refusal.mk .byteOrderMark text.length).locate text)
  else
    match run .value [] text with
    | .ok d =>
      if isTorn false text then .error ((Refusal.mk .surrogate 0).locate text) else .ok d
    | .error r => .error (r.locate text)

/-- The document that a string denotes. -/
def parse (s : String) : Except Error Doc := read s.toList

example : (parse "[\"\\ud83d\\ude00\"]").isOk = true ∧ (parse "[\"\\ude00\"]").isOk = false := by
  decide +kernel

end AsmLens.Json
