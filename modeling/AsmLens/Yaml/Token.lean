import AsmLens.Yaml.Scalar

/-!
# Tokens of settings files

A settings file as a list of tokens. Blocks are opened and closed by indentation:
`Scan` keeps the columns of the open blocks, and a token left of the innermost one
closes it.

That a scalar is a key is known only when its colon comes. Until then the scanner
remembers where the scalar began (`Candidate`); a candidate has to lie on one line
and within 1024 characters, and where a block entry begins there must be a key.

## Termination

Each token takes at least one character, so as many rounds as there are characters
are enough.
-/

namespace AsmLens.Yaml

/-- A token of a settings file. -/
inductive Token
  | directive
  | documentStart
  | documentEnd
  | sequenceStart
  | mappingStart
  | blockEnd
  | listOpen
  | listClose
  | mappingOpen
  | mappingClose
  | comma
  | entry
  | key
  | value
  | alias (name : String)
  | anchor (name : String)
  | tag (name : String)
  | scalar (text : String) (plain : Bool)
deriving DecidableEq, Repr

/-- What is wrong with a settings file. -/
inductive Complaint
  | unprintable
  | noToken
  | expectedColon
  | entryNotAllowed
  | keyNotAllowed
  | valueNotAllowed
  | badName
  | badEscape
  | unclosedQuote
  | badBlockScalar
  | unexpectedToken
  | severalDocuments
  | unknownAlias
  | repeatedAnchor
  | notAKey
  | unknownTag
  | notMergeable
  | notAPair
  | notBase64
  /-- Half of a surrogate pair. -/
  | surrogate
  /-- The number of no character. -/
  | noCharacter
deriving DecidableEq, Repr

/-- The fault that a complaint is, unless it is one about what is written. -/
def Complaint.fault? : Complaint → Option Fault
  | surrogate => some .tornText
  | noCharacter => some (.other .value "chr() arg not in range(0x110000)")
  | _ => none

/-- The wording of a complaint. -/
def Complaint.message : Complaint → String
  | unprintable => "special characters are not allowed"
  | noToken => "found a character that cannot start any token"
  | expectedColon => "could not find expected ':'"
  | entryNotAllowed => "sequence entries are not allowed here"
  | keyNotAllowed => "mapping keys are not allowed here"
  | valueNotAllowed => "mapping values are not allowed here"
  | badName => "expected a name of letters, digits, '-' and '_'"
  | badEscape => "found unknown escape character"
  | unclosedQuote => "found unexpected end of a quoted scalar"
  | badBlockScalar => "expected indentation or chomping indicators"
  | unexpectedToken => "found a token where it is not expected"
  | severalDocuments => "expected a single document"
  | unknownAlias => "found undefined alias"
  | repeatedAnchor => "found duplicate anchor"
  | notAKey => "found unhashable key"
  | unknownTag => "could not determine a constructor for the tag"
  | notMergeable => "expected a mapping or list of mappings for merging"
  | notAPair => "expected a mapping of length 1"
  | notBase64 => "failed to decode base64 data"
  | surrogate => "unpaired surrogate"
  | noCharacter => "no such character"

/-! ## Characters -/

/-- Whether a character may stand in a settings file. -/
def isAllowed (c : Char) : Bool :=
  let n := c.toNat
  n = 0x09 || n = 0x0a || n = 0x0d || 0x20 ≤ n && n ≤ 0x7e || n = 0x85 || 0xa0 ≤ n && n ≤ 0xd7ff ||
    0xe000 ≤ n && n ≤ 0xfffd || 0x10000 ≤ n

/-- Whether a character ends a line. -/
def isBreak (c : Char) : Bool :=
  c = '\n' || c = '\r' || c.toNat = 0x85 || c.toNat = 0x2028 || c.toNat = 0x2029

/-- Whether the text ends here or a line does. -/
def atBreak : List Char → Bool
  | [] => true
  | c :: _ => isBreak c

/-- Whether the text ends here or a blank or the end of a line follows. -/
def atGap : List Char → Bool
  | [] => true
  | c :: _ => isGap c || isBreak c

/-- Whether a text starts with three of a character and then ends or has a gap. -/
def isMark (c : Char) : List Char → Bool
  | a :: b :: d :: rest => a = c && b = c && d = c && atGap rest
  | _ => false

/-- The line breaks of a text, as they count in a scalar: only rare ones stay what they are. -/
def normalBreak (c : Char) : Char :=
  if c.toNat = 0x2028 || c.toNat = 0x2029 then c else '\n'

/-! ## The scanner -/

/-- A place in the text. -/
structure Place where
  index : Nat
  line : Nat
  column : Nat
deriving DecidableEq, Repr

/-- The place after a character; `next` is what follows it. -/
def Place.after (p : Place) (c : Char) (next : List Char) : Place :=
  if isBreak c && !(c = '\r' && next.headD ' ' = '\n') then ⟨p.index + 1, p.line + 1, 0⟩
  else ⟨p.index + 1, p.line, if c.toNat = 0xfeff then p.column else p.column + 1⟩

/-- A scalar or collection that will be a key if a colon follows. -/
structure Candidate where
  place : Place
  /-- The number of tokens before it. -/
  tokens : Nat
  /-- Whether there has to be a key here. -/
  required : Bool
deriving DecidableEq, Repr

/-- A scanner between two tokens. -/
structure Scan where
  rest : List Char
  place : Place
  tokens : Array Token
  /-- The column of the innermost block, -1 outside of all. -/
  indent : Int
  /-- The columns of the blocks around it, innermost first. -/
  outer : List Int
  /-- How many flow collections are open. -/
  depth : Nat
  /-- Whether a key may start here. -/
  keyAllowed : Bool
  /-- Candidates for keys, by the depth at which they stand. -/
  candidates : List (Nat × Candidate)

namespace Scan

/-- The scanner before a text. -/
def start (text : List Char) : Scan := ⟨text, ⟨0, 0, 0⟩, #[], -1, [], 0, true, []⟩

/-- The scanner some characters later. -/
def skip (s : Scan) : Nat → Scan
  | 0 => s
  | n + 1 =>
    match s.rest with
    | [] => s
    | c :: cs => skip { s with rest := cs, place := s.place.after c cs } n

/-- The scanner with one more token. -/
def push (s : Scan) (t : Token) : Scan := { s with tokens := s.tokens.push t }

/-- The column as it is compared with the columns of blocks. -/
def column (s : Scan) : Int := s.place.column

/-- Whether no flow collection is open. -/
def inBlock (s : Scan) : Bool := s.depth = 0

/-! ## Keys -/

/-- The scanner without the candidate of its depth, which must not be required. -/
def dropCandidate (s : Scan) : Except Complaint Scan :=
  match s.candidates.lookup s.depth with
  | some k =>
    if k.required then .error .expectedColon
    else .ok { s with candidates := s.candidates.filter fun p => p.1 ≠ s.depth }
  | none => .ok s

/-- The scanner with what comes next as a candidate, where a key may start. -/
def noteCandidate (s : Scan) : Except Complaint Scan := do
  if !s.keyAllowed then return s
  let required := s.inBlock && s.indent = s.column
  let s ← s.dropCandidate
  return { s with candidates := (s.depth, ⟨s.place, s.tokens.size, required⟩) :: s.candidates }

/-- Whether a candidate can no longer be a key. -/
def isStale (s : Scan) (k : Candidate) : Bool :=
  k.place.line ≠ s.place.line || 1024 < s.place.index - k.place.index

/-- The scanner without candidates that can no longer be keys. -/
def dropStale (s : Scan) : Except Complaint Scan :=
  if s.candidates.any fun p => s.isStale p.2 && p.2.required then .error .expectedColon
  else .ok { s with candidates := s.candidates.filter fun p => !s.isStale p.2 }

/-! ## Blocks -/

/-- The scanner after the blocks right of a column were closed. -/
def unwindFrom (column indent : Int) : List Int → Scan → Scan
  | [], s =>
    if column < indent then { s.push .blockEnd with indent := -1, outer := [] }
    else { s with indent := indent, outer := [] }
  | i :: outer, s =>
    if column < indent then unwindFrom column i outer (s.push .blockEnd)
    else { s with indent := indent, outer := i :: outer }

/-- The scanner after the blocks right of a column were closed, outside of flow collections. -/
def unwind (s : Scan) (column : Int) : Scan :=
  if s.inBlock then unwindFrom column s.indent s.outer s else s

/-- The scanner with a block opened at a column by a token that goes before others. -/
def openBlock (s : Scan) (column : Int) (t : Token) (before : Nat) : Scan :=
  if s.indent < column then
    { s with indent := column, outer := s.indent :: s.outer
             tokens := s.tokens.toList.insertIdx before t |>.toArray }
  else s

/-! ## Gaps -/

/-- The length of the blanks, comments and line ends at the head of a text; whether a line ends. -/
def gap (comment : Bool) : List Char → Nat × Bool
  | [] => (0, false)
  | c :: cs =>
    if isBreak c then ((gap false cs).1 + 1, true)
    else if comment || c = ' ' then
      let (n, ended) := gap comment cs
      (n + 1, ended)
    else if c = '#' then
      let (n, ended) := gap true cs
      (n + 1, ended)
    else (0, false)

/-- The scanner at the next token. -/
def skipGap (s : Scan) : Scan :=
  let s := if s.place.index = 0 && (s.rest.headD ' ').toNat = 0xfeff then s.skip 1 else s
  let (n, ended) := gap false s.rest
  let s := s.skip n
  if ended && s.inBlock then { s with keyAllowed := true } else s

/-! ## Scalars -/

/-- Breaks folded: one becomes a blank, of several the first is dropped. -/
def folded : List Char → List Char
  | [] => []
  | [b] => if b = '\n' then [' '] else [b]
  | b :: bs => if b = '\n' then bs else b :: bs

/-- The length of the blanks and line ends at the head of a text, and the line ends. -/
def breaks (marks : Bool) : List Char → Nat × List Char
  | [] => (0, [])
  | c :: cs =>
    if isBreak c then
      if c = '\r' && cs.headD ' ' = '\n' then
        let (n, bs) := breaks marks cs
        (n + 1, bs)
      else if marks && (isMark '-' cs || isMark '.' cs) then (1, [normalBreak c])
      else
        let (n, bs) := breaks marks cs
        (n + 1, normalBreak c :: bs)
    else if isGap c && (c = ' ' || !marks) then
      let (n, bs) := breaks marks cs
      (n + 1, bs)
    else (0, [])

/-- The characters of a plain scalar at the head of a text, up to a blank or an indicator. -/
def plainRun (inFlow : Bool) : List Char → List Char
  | [] => []
  | c :: cs =>
    if isGap c || isBreak c then []
    else if c = ':' && (atGap cs || inFlow && ",[]\x7b\x7d".toList.contains (cs.headD ' ')) then []
    else if inFlow && ",?[]\x7b\x7d".toList.contains c then []
    else c :: plainRun inFlow cs

/-- The scanner after a plain scalar and the scalar; `gathered` and `blanks` are what came before. -/
def plainFrom (indent : Int) (rounds : Nat) (s : Scan) (gathered blanks : List Char) :
    Scan × List Char :=
  match rounds with
  | 0 => (s, gathered)
  | rounds + 1 =>
    if s.rest.headD ' ' = '#' then (s, gathered)
    else
      let run := plainRun (!s.inBlock) s.rest
      if run.isEmpty then (s, gathered)
      else
        let s := { s.skip run.length with keyAllowed := false }
        let gathered := gathered ++ blanks ++ run
        let spaces := s.rest.takeWhile (· = ' ')
        let s := s.skip spaces.length
        if atBreak s.rest && !s.rest.isEmpty then
          let marked := match s.rest with
            | c :: cs => isBreak c && (isMark '-' cs || isMark '.' cs)
            | [] => false
          let (n, bs) := breaks true s.rest
          let s := { s.skip n with keyAllowed := true }
          if marked || isMark '-' s.rest && s.place.column = 0 || isMark '.' s.rest && s.place.column = 0
          then (s, gathered)
          else if s.rest.headD ' ' = '#' || s.inBlock && s.column < indent then (s, gathered)
          else plainFrom indent rounds s gathered (folded bs)
        else if spaces.isEmpty || s.rest.headD ' ' = '#' || s.inBlock && s.column < indent then
          (s, gathered)
        else plainFrom indent rounds s gathered spaces

/-- The scanner after a plain scalar. -/
def plain (s : Scan) : Scan :=
  let (s, text) := plainFrom (s.indent + 1) s.rest.length s [] []
  s.push (.scalar (String.ofList text) true)

/-- The character that a letter after a backslash stands for. -/
def escaped? (c : Char) : Option Char :=
  [('0', 0x00), ('a', 0x07), ('b', 0x08), ('t', 0x09), ('\t', 0x09), ('n', 0x0a), ('v', 0x0b),
    ('f', 0x0c), ('r', 0x0d), ('e', 0x1b), (' ', 0x20), ('"', 0x22), ('\\', 0x5c), ('/', 0x2f),
    ('N', 0x85), ('_', 0xa0), ('L', 0x2028), ('P', 0x2029)].lookup c |>.map Char.ofNat

/-- How many hexadecimal digits follow a letter after a backslash. -/
def escapeWidth? (c : Char) : Option Nat := [('x', 2), ('u', 4), ('U', 8)].lookup c

/-- The scanner after a quoted scalar and the scalar; `s` is behind the opening quote. -/
def quotedFrom (double : Bool) (rounds : Nat) (s : Scan) (gathered : List Char) :
    Except Complaint (Scan × List Char) :=
  match rounds with
  | 0 => .error .unclosedQuote
  | rounds + 1 =>
    match s.rest with
    | [] => .error .unclosedQuote
    | c :: cs =>
      if !double && c = '\'' then
        if cs.headD ' ' = '\'' then quotedFrom double rounds (s.skip 2) (gathered ++ ['\''])
        else .ok (s.skip 1, gathered)
      else if double && c = '"' then .ok (s.skip 1, gathered)
      else if double && c = '\\' then
        match cs with
        | [] => .error .badEscape
        | e :: es =>
          match escaped? e, escapeWidth? e with
          | some x, _ => quotedFrom double rounds (s.skip 2) (gathered ++ [x])
          | none, some w =>
            let ds := es.take w
            let n := runValue 16 ds
            if ds.length ≠ w || !ds.all (isDigitIn 16) then .error .badEscape
            else if 0x110000 ≤ n then .error .noCharacter
            else if 0xd800 ≤ n && n ≤ 0xdfff then .error .surrogate
            else quotedFrom double rounds (s.skip (w + 2)) (gathered ++ [Char.ofNat n])
          | none, none =>
            if isBreak e then
              let (n, bs) := breaks false cs
              if isMark '-' (cs.drop n) && (s.skip (n + 1)).place.column = 0 then .error .unclosedQuote
              else quotedFrom double rounds (s.skip (n + 1)) (gathered ++ bs.drop 1)
            else .error .badEscape
      else if isGap c || isBreak c then
        let spaces := s.rest.takeWhile isGap
        let after := s.rest.dropWhile isGap
        if after.isEmpty then .error .unclosedQuote
        else if atBreak after then
          let (n, bs) := breaks false after
          let next := s.skip (spaces.length + n)
          if next.place.column = 0 && (isMark '-' next.rest || isMark '.' next.rest) then
            .error .unclosedQuote
          else quotedFrom double rounds next (gathered ++ folded bs)
        else quotedFrom double rounds (s.skip spaces.length) (gathered ++ spaces)
      else quotedFrom double rounds (s.skip 1) (gathered ++ [c])

/-- The scanner after a quoted scalar. -/
def quoted (s : Scan) (double : Bool) : Except Complaint Scan := do
  let (s, text) ← quotedFrom double s.rest.length (s.skip 1) []
  return s.push (.scalar (String.ofList text) false)

/-! ## Block scalars -/

/-- What follows the mark of a block scalar: how line ends at its end count, and its indentation. -/
def blockHeader (s : Scan) : Except Complaint (Option Bool × Option Nat × Scan) := do
  let chomp (c : Char) : Option Bool := if c = '+' then some true else if c = '-' then some false else none
  let size (c : Char) : Option Nat := if '1' ≤ c && c ≤ '9' then some (digitOf c) else none
  let (keep, width, n) := match s.rest with
    | a :: b :: _ =>
      match chomp a, size a with
      | some k, _ => (some k, size b, if (size b).isSome then 2 else 1)
      | none, some w => (chomp b, some w, if (chomp b).isSome then 2 else 1)
      | none, none => (none, none, 0)
    | [a] => (chomp a, size a, if (chomp a).isSome || (size a).isSome then 1 else 0)
    | [] => (none, none, 0)
  let s := s.skip n
  let s := s.skip (s.rest.takeWhile (· = ' ')).length
  let s := if s.rest.headD ' ' = '#' then s.skip (s.rest.takeWhile (fun c => !isBreak c)).length else s
  if atBreak s.rest then return (keep, width, s.skip (if s.rest.isEmpty then 0 else 1))
  else throw .badBlockScalar

/-- The scanner before the first line that is not empty, the line ends on the way, the widest blanks. -/
def emptyLines (limit : Option Nat) (rounds : Nat) (s : Scan) (found : List Char) (widest : Nat) :
    Scan × List Char × Nat :=
  match rounds with
  | 0 => (s, found, widest)
  | rounds + 1 =>
    let blanks := (s.rest.takeWhile (· = ' ')).length
    let blanks := match limit with
      | some w => min blanks (w - s.place.column)
      | none => blanks
    let s := s.skip blanks
    let widest := max widest s.place.column
    match s.rest with
    | c :: _ =>
      if isBreak c then emptyLines limit rounds (s.skip 1) (found ++ [normalBreak c]) widest
      else (s, found, widest)
    | [] => (s, found, widest)

/-- The lines of a block scalar from one that is not empty on. -/
def blockLines (fold : Bool) (indent : Nat) (rounds : Nat) (s : Scan) (gathered : List Char) :
    Scan × List Char × List Char × List Char :=
  match rounds with
  | 0 => (s, gathered, [], [])
  | rounds + 1 =>
    let indented := isGap (s.rest.headD 'x')
    let line := s.rest.takeWhile fun c => !isBreak c
    let s := s.skip line.length
    let gathered := gathered ++ line
    let ending := (s.rest.take 1).map normalBreak
    let s := s.skip 1
    let (s, empty, _) := emptyLines (some indent) s.rest.length s [] 0
    if s.place.column = indent && !s.rest.isEmpty then
      let next := s.rest.headD 'x'
      let gap :=
        if fold && ending = ['\n'] && !indented && !isGap next then
          if empty.isEmpty then [' '] else []
        else ending
      blockLines fold indent rounds s (gathered ++ gap ++ empty)
    else (s, gathered, ending, empty)

/-- The scanner after a block scalar. -/
def block (s : Scan) (fold : Bool) : Except Complaint Scan := do
  let least := (s.indent + 1).toNat.max 1
  let (keep, width, s) ← (s.skip 1).blockHeader
  let (s, empty, indent) := match width with
    | some w =>
      let (s, empty, _) := emptyLines (some (least + w - 1)) s.rest.length s [] 0
      (s, empty, least + w - 1)
    | none =>
      let (s, empty, widest) := emptyLines none s.rest.length s [] 0
      (s, empty, max least widest)
  let (s, text, ending, tail) :=
    if s.place.column = indent && !s.rest.isEmpty then blockLines fold indent s.rest.length s empty
    else (s, [], [], empty)
  let text := match keep with
    | some false => text
    | none => text ++ ending
    | some true => text ++ ending ++ tail
  return s.push (.scalar (String.ofList text) false)

/-! ## Names and tags -/

/-- Whether a character may stand in the name of an anchor. -/
def isNameChar (c : Char) : Bool := c.isAlphanum || c = '-' || c = '_'

/-- The name after an indicator, and the scanner after it. -/
def name (s : Scan) : Except Complaint (String × Scan) :=
  let ds := (s.rest.drop 1).takeWhile isNameChar
  let s := s.skip (ds.length + 1)
  if ds.isEmpty || !(atGap s.rest || "?:,]\x7d%@".toList.contains (s.rest.headD ' ')) then .error .badName
  else .ok (String.ofList ds, s)

/-- The tag at the head of the text, and the scanner after it. -/
def tagName (s : Scan) : String × Scan :=
  let ds := s.rest.takeWhile fun c =>
    !(isGap c || isBreak c || !s.inBlock && ",[]\x7b\x7d".toList.contains c)
  (String.ofList ds, s.skip ds.length)

/-! ## One token -/

/-- The scanner after a mark that starts or ends a document. -/
def documentMark (s : Scan) (t : Token) : Except Complaint Scan := do
  let s ← (s.unwind (-1)).dropCandidate
  return { (s.skip 3).push t with keyAllowed := false }

/-- The scanner after the opening of a flow collection. -/
def openFlow (s : Scan) (t : Token) : Except Complaint Scan := do
  let s ← s.noteCandidate
  return { (s.skip 1).push t with depth := s.depth + 1, keyAllowed := true }

/-- The scanner after the closing of a flow collection. -/
def closeFlow (s : Scan) (t : Token) : Except Complaint Scan := do
  let s ← s.dropCandidate
  return { (s.skip 1).push t with depth := s.depth - 1, keyAllowed := false }

/-- The scanner after the mark of a list entry. -/
def blockEntry (s : Scan) : Except Complaint Scan := do
  if s.inBlock && !s.keyAllowed then throw .entryNotAllowed
  let s := if s.inBlock then s.openBlock s.column .sequenceStart s.tokens.size else s
  let s ← { s with keyAllowed := true }.dropCandidate
  return (s.skip 1).push .entry

/-- The scanner after the mark of a key. -/
def explicitKey (s : Scan) : Except Complaint Scan := do
  if s.inBlock && !s.keyAllowed then throw .keyNotAllowed
  let s := if s.inBlock then s.openBlock s.column .mappingStart s.tokens.size else s
  let s ← { s with keyAllowed := s.inBlock }.dropCandidate
  return (s.skip 1).push .key

/-- The scanner after the colon of a key. -/
def colon (s : Scan) : Except Complaint Scan := do
  match s.candidates.lookup s.depth with
  | some k =>
    let s := { s with
      candidates := s.candidates.filter fun p => p.1 ≠ s.depth
      tokens := (s.tokens.toList.insertIdx k.tokens .key).toArray
      keyAllowed := false }
    let s := if s.inBlock then s.openBlock k.place.column .mappingStart k.tokens else s
    return (s.skip 1).push .value
  | none =>
    if s.inBlock && !s.keyAllowed then throw .valueNotAllowed
    let s := if s.inBlock then s.openBlock s.column .mappingStart s.tokens.size else s
    let s ← { s with keyAllowed := s.inBlock }.dropCandidate
    return (s.skip 1).push .value

/-- The scanner with a candidate after which no key may start. -/
def beginScalar (s : Scan) : Except Complaint Scan := do
  return { (← s.noteCandidate) with keyAllowed := false }

/-- Whether a plain scalar starts here. -/
def startsPlain (s : Scan) (c : Char) (next : List Char) : Bool :=
  !(isGap c || isBreak c || "-?:,[]\x7b\x7d#&*!|>'\"%@`".toList.contains c) ||
    !atGap next && (c = '-' || s.inBlock && (c = '?' || c = ':'))

/-- The scanner after one more token, at the head of a text that is not empty. -/
def fetch (s : Scan) (c : Char) (next : List Char) : Except Complaint Scan := do
  let first := s.place.column = 0
  if c = '%' && first then
    let s ← (s.unwind (-1)).dropCandidate
    let s := s.skip (s.rest.takeWhile fun c => !isBreak c).length
    return { s.push .directive with keyAllowed := false }
  else if first && isMark '-' s.rest then s.documentMark .documentStart
  else if first && isMark '.' s.rest then s.documentMark .documentEnd
  else if c = '[' then s.openFlow .listOpen
  else if c = '\x7b' then s.openFlow .mappingOpen
  else if c = ']' then s.closeFlow .listClose
  else if c = '\x7d' then s.closeFlow .mappingClose
  else if c = ',' then
    let s ← { s with keyAllowed := true }.dropCandidate
    return (s.skip 1).push .comma
  else if c = '-' && atGap next then s.blockEntry
  else if c = '?' && (!s.inBlock || atGap next) then s.explicitKey
  else if c = ':' && (!s.inBlock || atGap next) then s.colon
  else if c = '*' then
    let (n, s) ← (← s.beginScalar).name
    return s.push (.alias n)
  else if c = '&' then
    let (n, s) ← (← s.beginScalar).name
    return s.push (.anchor n)
  else if c = '!' then
    let (n, s) := (← s.beginScalar).tagName
    return s.push (.tag n)
  else if (c = '|' || c = '>') && s.inBlock then
    let s ← { s with keyAllowed := true }.dropCandidate
    s.block (c = '>')
  else if c = '\'' || c = '"' then (← s.beginScalar).quoted (c = '"')
  else if s.startsPlain c next then return (← s.beginScalar).plain
  else throw .noToken

/-- The tokens of what is left, in as many rounds at most. -/
def run (s : Scan) : (rounds : Nat) → Except (Complaint × Place) (Array Token)
  | 0 => .error (.noToken, s.place)
  | rounds + 1 =>
    let s := s.skipGap
    match s.dropStale with
    | .error e => .error (e, s.place)
    | .ok s =>
      let s := s.unwind s.column
      match s.rest with
      | [] =>
        let s := s.unwind (-1)
        match s.dropCandidate with
        | .error e => .error (e, s.place)
        | .ok s => .ok s.tokens
      | c :: next =>
        match s.fetch c next with
        | .error e => .error (e, s.place)
        | .ok s => run s rounds

end Scan

/-- The place of the first character that may not stand in a settings file. -/
def firstUnprintable (place : Place) : List Char → Option Place
  | [] => none
  | c :: cs => if isAllowed c then firstUnprintable (place.after c cs) cs else some place

/-- The tokens of a text. -/
def tokens (text : List Char) : Except (Complaint × Place) (List Token) :=
  match firstUnprintable ⟨0, 0, 0⟩ text with
  | some p => .error (.unprintable, p)
  | none => ((Scan.start text).run (text.length + 1)).map Array.toList

end AsmLens.Yaml
