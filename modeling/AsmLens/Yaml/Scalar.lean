import AsmLens.Yaml.Value

/-!
# Plain scalars

A scalar that is written without quotes may denote something else than its text: null,
a truth value, an integer in one of five notations, a floating-point number, a date, a
moment.
`Meaning.ofPlain` decides it; a text whose meaning is another one has to be quoted
where it is written.

Integers may be binary, octal, decimal, hexadecimal, or a run of base-60 places as in
`12:30`. A floating-point number needs a point, and an exponent needs a sign.
-/

namespace AsmLens.Yaml

open AsmLens.Text (splitSign digitsValue maxDigits)

/-! ## Classes of characters -/

/-- Whether a character is a digit of the base-ten notation. -/
def isDigit (c : Char) : Bool := '0' ≤ c && c ≤ '9'

/-- The value of a digit in bases up to sixteen. -/
def digitOf (c : Char) : Nat :=
  if isDigit c then c.toNat - 0x30 else if 'a' ≤ c then c.toNat - 0x57 else c.toNat - 0x37

/-- Whether a character is a digit below a base. -/
def isDigitIn (base : Nat) (c : Char) : Bool :=
  (isDigit c || 'a' ≤ c && c ≤ 'f' || 'A' ≤ c && c ≤ 'F') && digitOf c < base

/-- Whether a text has only digits below a base and underscores. -/
def isRun (base : Nat) (s : List Char) : Bool := s.all fun c => c = '_' || isDigitIn base c

/-- The number that digits in a base denote; underscores do not count. -/
def runValue (base : Nat) (s : List Char) : Nat :=
  (s.filter (· ≠ '_')).foldl (fun n c => n * base + digitOf c) 0

/-- The parts of a text between the occurrences of a character. -/
def partsAt (sep : Char) : List Char → List (List Char)
  | [] => [[]]
  | c :: cs =>
    match partsAt sep cs with
    | [] => [[c]]
    | p :: ps => if c = sep then [] :: p :: ps else (c :: p) :: ps

/-- Whether a text is a base-60 place after the first: one digit, or two below 60. -/
def isPlace : List Char → Bool
  | [a] => isDigit a
  | [a, b] => '0' ≤ a && a ≤ '5' && isDigit b
  | _ => false

/-! ## Integers -/

/-- An integer without its sign. -/
inductive IntForm
  | run (base : Nat) (digits : List Char)
  | places (parts : List (List Char))

/-- The integer form of a text without a sign. -/
def IntForm.read? : List Char → Option IntForm
  | '0' :: 'b' :: r => if !r.isEmpty && isRun 2 r then some (.run 2 r) else none
  | '0' :: 'x' :: r => if !r.isEmpty && isRun 16 r then some (.run 16 r) else none
  | '0' :: r => if isRun 8 r then some (.run 8 ('0' :: r)) else none
  | s@(c :: _) =>
    if !isDigit c then none
    else if isRun 10 s then some (.run 10 s)
    else
      match partsAt ':' s with
      | first :: rest =>
        if isRun 10 first && !rest.isEmpty && rest.all isPlace then some (.places (first :: rest))
        else none
      | [] => none
  | [] => none

/-- The number that an integer form denotes; digits that are only underscores denote none. -/
def IntForm.value? : IntForm → Option Nat
  | run base ds =>
    let ds := ds.filter (· ≠ '_')
    if ds.isEmpty || base = 10 && maxDigits < ds.length then none else some (runValue base ds)
  | places parts => some (parts.foldl (fun n p => n * 60 + runValue 10 p) 0)

/-! ## Floating-point numbers -/

/-- A floating-point number without its sign. -/
inductive FloatForm
  | decimal (whole fraction : List Char) (exponent : Int)
  | places (parts : List (List Char)) (fraction : List Char)
  | infinity
  | nan

/-- The exponent at the end of a number: nothing, or a mark, a sign and digits. -/
def exponent? : List Char → Option Int
  | [] => some 0
  | m :: s :: ds =>
    if (m = 'e' || m = 'E') && (s = '-' || s = '+') && !ds.isEmpty && ds.all isDigit then
      let n : Int := runValue 10 ds
      some (if s = '-' then -n else n)
    else none
  | _ => none

/-- Whether a character may stand in a run of digits. -/
def inRun (c : Char) : Bool := c = '_' || isDigit c

/-- The floating-point form of a text without a sign; `unsigned` says that there was none. -/
def FloatForm.read? (unsigned : Bool) : List Char → Option FloatForm
  | '.' :: r =>
    if ["inf", "Inf", "INF"].contains (String.ofList r) then some .infinity
    else if !unsigned then none
    else if ["nan", "NaN", "NAN"].contains (String.ofList r) then some .nan
    else
      let fraction := r.takeWhile inRun
      if fraction.headD '_' = '_' then none
      else (exponent? (r.dropWhile inRun)).map fun e => .decimal [] fraction e
  | s@(c :: _) =>
    if !isDigit c then none
    else
      let whole := s.takeWhile inRun
      match s.dropWhile inRun with
      | '.' :: r => (exponent? (r.dropWhile inRun)).map fun e => .decimal whole (r.takeWhile inRun) e
      | _ =>
        match partsAt '.' s with
        | [front, fraction] =>
          match partsAt ':' front with
          | first :: rest =>
            if first.all inRun && !rest.isEmpty && rest.all isPlace && fraction.all inRun then
              some (.places (first :: rest) fraction)
            else none
          | [] => none
        | _ => none
  | [] => none

/-- Digits with a fraction and an exponent as a floating-point number. -/
def decimalValue (negative : Bool) (whole fraction : List Char) (exponent : Int) : Binary64 :=
  let fraction := fraction.filter (· ≠ '_')
  Binary64.ofDecimal negative (runValue 10 (whole ++ fraction)) (exponent - fraction.length)

/-- The sum of base-60 places, the last first. -/
def placesValue : (base : Nat) → List Binary64 → Binary64 → Binary64
  | _, [], sum => sum
  | base, p :: ps, sum => placesValue (base * 60) ps (sum.add (p.mul (.ofInt base)))

/-- The number that a floating-point form denotes. -/
def FloatForm.value (negative : Bool) : FloatForm → Binary64
  | decimal whole fraction e => decimalValue negative whole fraction e
  | infinity => .infinity negative
  | nan => .nan
  | places parts fraction =>
    let last := decimalValue false (parts.getLastD []) fraction 0
    let front := parts.dropLast.map fun p => decimalValue false p [] 0
    let sum := placesValue 1 (last :: front.reverse) (.zero false)
    if negative then sum.neg else sum

/-! ## Dates -/

/-- The value of `low` to `high` digits at the head of a text, and what follows them. -/
def headDigits (low high : Nat) (s : List Char) : Option (Nat × List Char) :=
  let n := ((s.take high).takeWhile isDigit).length
  if low ≤ n then some (runValue 10 (s.take n), s.drop n) else none

/-- What follows a character at the head of a text. -/
def afterChar (p : Char → Bool) : List Char → Option (List Char)
  | c :: cs => if p c then some cs else none
  | [] => none

/-- Whether a character parts words on a line. -/
def isGap (c : Char) : Bool := c = ' ' || c = '\t'

/-- The minutes that the offset of a time zone denotes. -/
def offset? (s : List Char) : Option Int := do
  let (hours, s) ← headDigits 1 2 s
  match s with
  | [] => return hours * 60
  | ':' :: s =>
    match ← headDigits 2 2 s with
    | (minutes, []) => return hours * 60 + minutes
    | _ => none
  | _ => none

/-- The offset of a time zone behind a time of day, if there is one. -/
def zone? (s : List Char) : Option (Option Int) :=
  match s.dropWhile isGap with
  | [] => if s.isEmpty then some none else none
  | ['Z'] => some (some 0)
  | '+' :: r => (offset? r).map some
  | '-' :: r => (offset? r).map fun z => some (-z)
  | _ => none

/-- What follows the mark between a date and a time of day: a letter, or blanks. -/
def afterDate : List Char → Option (List Char)
  | c :: cs =>
    if c = 'T' || c = 't' then some cs else if isGap c then some (cs.dropWhile isGap) else none
  | [] => none

/-- The millionths that the digits of a fraction denote, as far as they go. -/
def microseconds (ds : List Char) : Nat := runValue 10 ((ds ++ List.replicate 6 '0').take 6)

/-- A date, or a moment, as it is written; there may be no such day. -/
inductive Stamp
  | date (year month day : Nat)
  | moment (m : Moment)

/-- The date or moment that a text spells. -/
def Stamp.read? (s : List Char) : Option Stamp := do
  let (year, s) ← headDigits 4 4 s
  let s ← afterChar (· = '-') s
  let (month, s) ← headDigits 1 2 s
  let s ← afterChar (· = '-') s
  let (day, s) ← headDigits 1 2 s
  if s.isEmpty then return .date year month day
  let s ← afterDate s
  let (hour, s) ← headDigits 1 2 s
  let s ← afterChar (· = ':') s
  let (minute, s) ← headDigits 2 2 s
  let s ← afterChar (· = ':') s
  let (second, s) ← headDigits 2 2 s
  let (fraction, s) := match s with
    | '.' :: r => (r.takeWhile isDigit, r.dropWhile isDigit)
    | s => ([], s)
  return .moment ⟨year, month, day, hour, minute, second, microseconds fraction, ← zone? s⟩

/-- A date or moment, if there is such a day and time of day. -/
def Stamp.value : Stamp → Except Fault Value
  | date y m d => do
    checkDay y m d
    return .date y m d
  | moment m => do
    m.check
    return .moment m

/-- The date or moment that a text means without a tag: a date has to be in full digits. -/
def Stamp.ofPlain? (s : List Char) : Option Stamp :=
  match read? s with
  | some (.date y m d) => if s.length = 10 then some (.date y m d) else none
  | other => other

/-! ## Meaning -/

/-- What a plain scalar means. -/
inductive Meaning
  | null
  | bool (b : Bool)
  | int (negative : Bool) (form : IntForm)
  | float (negative : Bool) (form : FloatForm)
  | stamp (s : Stamp)
  /-- The key under which other mappings are merged. -/
  | merge
  /-- The key of a default value, which no value has. -/
  | default
  | text

def nullWords : List String := ["~", "null", "Null", "NULL", ""]
def trueWords : List String := ["yes", "Yes", "YES", "true", "True", "TRUE", "on", "On", "ON"]
def falseWords : List String := ["no", "No", "NO", "false", "False", "FALSE", "off", "Off", "OFF"]

/-- The meaning of a plain scalar. -/
def Meaning.ofPlain (s : String) : Meaning :=
  if nullWords.contains s then .null
  else if trueWords.contains s then .bool true
  else if falseWords.contains s then .bool false
  else if s = "<<" then .merge
  else if s = "=" then .default
  else
    let cs := s.toList
    let (negative, body) := splitSign cs
    match FloatForm.read? (body.length = cs.length) body with
    | some f => .float negative f
    | none =>
      match IntForm.read? body with
      | some n => .int negative n
      | none =>
        match Stamp.ofPlain? cs with
        | some d => .stamp d
        | none => .text

/-- Whether a plain scalar denotes its own text. -/
def isPlainText (s : String) : Bool :=
  match Meaning.ofPlain s with
  | .text => true
  | _ => false

example : isPlainText "1e3" = true ∧ isPlainText "012" = false ∧ isPlainText "08" = true ∧
    isPlainText "12:30" = false ∧ isPlainText "2024-01-02x" = true := by decide +kernel

end AsmLens.Yaml
