import AsmLens.Text.DecimalDigit
import AsmLens.Text.Quoted

/-!
# Command-line arguments

A command line consists of operands, which stand for themselves, and of options, which
start with a dash. A grammar says which of both there are; reading a command line gives
the values of options and operands, or the first complaint.

* A long option may be shortened as long as it is the only one that starts that way.
* The value of an option follows it, is attached with an equals sign, or is attached to
  a short name as it is. Short options without values may be written as one; what does not
  continue such a row belongs to nothing.
* Operands are taken in groups: as many as possible, up to the next option. An operand
  that may be left out is taken or left out with the group it could stand in.
* After two dashes alone, everything is an operand.

Reading ends since every step takes at least one argument.
-/

namespace AsmLens.Arguments

/-- What an option does. A value may have something wrong with it. -/
inductive Effect
  | flag
  | value (complaint : String → Option String)
  /-- Reading ends; something is shown instead. -/
  | notice

/-- An option. -/
structure OptionRule where
  names : List String
  effect : Effect

/-- The option in complaints. -/
def OptionRule.label (r : OptionRule) : String := "/".intercalate r.names

/-- The name under which an option is read back. -/
def OptionRule.key (r : OptionRule) : String := r.names.headD ""

/-- How many arguments an operand takes: one, one or none, or all that are left. -/
inductive Arity
  | one | optional | remainder
deriving DecidableEq, Repr

/-- An operand. Its first argument may have something wrong with it. -/
structure OperandRule where
  name : String
  arity : Arity := .one
  complaint : String → Option String := fun _ => none

/-- The options and operands of a command. -/
structure Grammar where
  program : String
  options : List OptionRule
  operands : List OperandRule

/-- Why reading ended without a result. -/
inductive Stop
  | complaint (text : String)
  /-- An option asked for a notice. -/
  | notice (option : String)
deriving DecidableEq, Repr

/-- A complaint about an option or an operand. -/
def about (label text : String) : Stop := .complaint ("argument " ++ label ++ ": " ++ text)

/-! ## Single arguments -/

/-- What is attached to the name of an option, with an equals sign or as it is. -/
structure Attached where
  equals : Bool
  text : List Char

/-- What an argument is. -/
inductive Reading
  | operand
  | option (rule : OptionRule) (name : String) (attached : Option Attached)
  | unknownOption
  | separator

/-- Whether an argument is an operand or the separator. -/
def Reading.isOption : Reading → Bool
  | .option _ _ _ | .unknownOption => true
  | .operand | .separator => false

/-- A text split at its first equals sign. -/
def splitEquals : List Char → Option (List Char × List Char)
  | [] => none
  | '=' :: rest => some ([], rest)
  | c :: rest => (splitEquals rest).map fun p => (c :: p.1, p.2)

/-- Whether a text is one or more digits. -/
def isDigits (s : List Char) : Bool := !s.isEmpty && s.all fun c => (Text.digitValue? c).isSome

/-- Whether an argument is a negative number: those are operands. -/
def isNegative (s : List Char) : Bool :=
  let s := if s.getLast? = some '\n' then s.dropLast else s
  match s with
  | '-' :: rest =>
    isDigits rest ||
      match rest.span (· ≠ '.') with
      | (whole, _ :: fraction) => (whole.isEmpty || isDigits whole) && isDigits fraction
      | _ => false
  | _ => false

namespace Grammar

/-- All names of options. -/
def allNames (g : Grammar) : List (String × OptionRule) :=
  g.options.flatMap fun r => r.names.map fun n => (n, r)

/-- The option with a name. -/
def named? (g : Grammar) (name : String) : Option OptionRule := g.allNames.lookup name

/-- The options that an argument could be short for, with what is attached to it. -/
def candidates (g : Grammar) (arg : List Char) :
    List (OptionRule × String × Option Attached) :=
  match arg with
  | '-' :: '-' :: _ =>
    let (start, attached) : List Char × Option Attached := match splitEquals arg with
      | some (start, value) => (start, some ⟨true, value⟩)
      | none => (arg, none)
    (g.allNames.filter fun n => start.isPrefixOf n.1.toList).map fun n => (n.2, n.1, attached)
  | _ =>
    g.allNames.filterMap fun n =>
      if n.1.toList = arg.take 2 then some (n.2, n.1, some ⟨false, arg.drop 2⟩)
      else if arg.isPrefixOf n.1.toList then some (n.2, n.1, none)
      else none

/-- The option that an argument with an attached value names in full. -/
def attached? (g : Grammar) (arg : List Char) : Option Reading := do
  let (name, value) ← splitEquals arg
  let rule ← g.named? (String.ofList name)
  return .option rule (String.ofList name) (some ⟨true, value⟩)

/-- What an argument is that starts with a dash and is no full name of an option. -/
def readDashed (g : Grammar) (arg : List Char) : Except Stop Reading :=
  match g.attached? arg with
  | some reading => .ok reading
  | none =>
    match g.candidates arg with
    | [(rule, name, value)] => .ok (.option rule name value)
    | [] => .ok (if isNegative arg || arg.contains ' ' then .operand else .unknownOption)
    | several =>
      .error (.complaint ("ambiguous option: " ++ String.ofList arg ++ " could match " ++
        ", ".intercalate (several.map fun c => c.2.1)))

/-- What an argument is. -/
def readArgument (g : Grammar) (arg : String) : Except Stop Reading :=
  match arg.toList with
  | '-' :: rest =>
    match g.named? arg with
    | some rule => .ok (.option rule arg none)
    | none => if rest.isEmpty then .ok .operand else g.readDashed arg.toList
  | _ => .ok .operand

/-- All arguments with what they are. -/
def readAll (g : Grammar) : List String → Except Stop (List (String × Reading))
  | [] => .ok []
  | "--" :: args => .ok (("--", .separator) :: args.map fun a => (a, .operand))
  | arg :: args => do return (arg, ← g.readArgument arg) :: (← g.readAll args)

end Grammar

/-! ## Operands -/

/-- How many arguments an operand takes from the head of a list; none if it cannot stand there. -/
def Arity.takes? (a : Arity) (rs : List Reading) : Option Nat :=
  let isSeparator : Reading → Bool
    | .separator => true
    | _ => false
  let before := (rs.takeWhile isSeparator).length
  let after (n : Nat) : Nat := before + n + ((rs.drop (before + n)).takeWhile isSeparator).length
  match a, rs.drop before with
  | .one, .operand :: _ => some (after 1)
  | .optional, .operand :: _ => some (after 1)
  | .optional, _ => some before
  | .remainder, .operand :: _ => some rs.length
  | _, _ => none

/-- How many arguments each of some operands takes; none if they cannot all stand there. -/
def takesAll? : List OperandRule → List Reading → Option (List Nat)
  | [], _ => some []
  | o :: os, rs => do
    let n ← o.arity.takes? rs
    return n :: (← takesAll? os (rs.drop n))

/-- How many arguments the operands take that can stand at the head of a list. -/
def takesMost (os : List OperandRule) (rs : List Reading) : (count : Nat) → List Nat
  | 0 => []
  | count + 1 => (takesAll? (os.take (count + 1)) rs).getD (takesMost os rs count)

/-! ## Reading -/

/-- What was read so far. -/
structure Parsed where
  /-- The values of options and operands by name, oldest first. -/
  values : List (String × String) := []
  /-- The arguments that the last operand took if it takes all that are left. -/
  remainder : List String := []
  /-- Arguments that belong to nothing. -/
  extras : List String := []
  /-- The operands still to come. -/
  pending : List OperandRule

namespace Parsed

/-- What was read, with one more value. -/
def assign (p : Parsed) (name value : String) : Parsed := { p with values := p.values ++ [(name, value)] }

/-- The last value of an option or operand. -/
def value? (p : Parsed) (name : String) : Option String := p.values.reverse.lookup name

/-- Whether an option was given. -/
def has (p : Parsed) (name : String) : Bool := (p.value? name).isSome

/-- What was read after an operand took its arguments. -/
def takeOperand (p : Parsed) (o : OperandRule) (args : List String) : Except Stop Parsed :=
  let check (args : List String) (next : Parsed) : Except Stop Parsed :=
    match args.head?.bind o.complaint with
    | some text => .error (about o.name text)
    | none => .ok next
  match o.arity with
  | .remainder => check args { p with remainder := args }
  | _ =>
    match args.erase "--" with
    | [] => .ok p
    | arg :: _ => check [arg] (p.assign o.name arg)

/-- What was read after operands took their arguments. -/
def takeOperands (p : Parsed) : List (OperandRule × Nat) → List String → Except Stop Parsed
  | [], _ => .ok p
  | (o, n) :: os, args => do (← p.takeOperand o (args.take n)).takeOperands os (args.drop n)

/-- What was read after the operands that can stand at the head took theirs, and how many. -/
def takeGroup (p : Parsed) (args : List (String × Reading)) : Except Stop (Parsed × Nat) := do
  let counts := takesMost p.pending (args.map Prod.snd) p.pending.length
  let p' ← p.takeOperands (p.pending.zip counts) (args.map Prod.fst)
  return ({ p' with pending := p.pending.drop counts.length }, counts.foldl (· + ·) 0)

/-- What was read after an option with its value. -/
def takeOption (p : Parsed) (r : OptionRule) (value : String) : Except Stop Parsed :=
  match r.effect with
  | .flag => .ok (p.assign r.key "")
  | .notice => .error (.notice r.key)
  | .value complaint =>
    match complaint value with
    | some text => .error (about r.label text)
    | none => .ok (p.assign r.key value)

/-- What was read after some options with their values. -/
def takeOptions (p : Parsed) : List (OptionRule × String) → Except Stop Parsed
  | [] => .ok p
  | (r, v) :: os => do (← p.takeOption r v).takeOptions os

end Parsed

namespace Grammar

/-- The complaint on a value for an option that takes none. -/
def ignored (r : OptionRule) (value : List Char) : Stop :=
  about r.label ("ignored explicit argument " ++ Text.quoted (String.ofList value))

/-- What an argument stands for that starts with the name of an option. -/
structure Row where
  /-- Options with their values. -/
  options : List (OptionRule × String) := []
  /-- The option after those, if its value is the next argument. -/
  open? : Option OptionRule := none
  /-- What is left of the argument and belongs to nothing. -/
  extra : Option String := none

/-- A row with one more option, without a value, in front. -/
def Row.push (row : Row) (r : OptionRule) : Row := { row with options := (r, "") :: row.options }

/-- The row of an option that nothing is attached to. -/
def Row.single (r : OptionRule) : Row :=
  match r.effect with
  | .value _ => { open? := some r }
  | _ => { options := [(r, "")] }

/-- The row that an option starts which a text is attached to. -/
def unfold (g : Grammar) (r : OptionRule) (name : String) (equals : Bool) (text : List Char) :
    Except Stop Row :=
  match r.effect with
  | .value _ => .ok { options := [(r, String.ofList text)] }
  | _ =>
    match text with
    | [] => .error (ignored r [])
    | c :: cs =>
      if name.startsWith "--" || equals || c = '-' then .error (ignored r (c :: cs))
      else
        let next := String.ofList ['-', c]
        match g.named? next, cs with
        | none, cs => .ok { options := [(r, "")], extra := some (String.ofList ('-' :: c :: cs)) }
        | some s, [] => .ok ((Row.single s).push r)
        | some s, d :: ds =>
          if d = '=' then (g.unfold s next true ds).map (·.push r)
          else (g.unfold s next false (d :: ds)).map (·.push r)
termination_by text.length

/-- The row that an argument stands for. -/
def rowOf (g : Grammar) (r : OptionRule) (name : String) : Option Attached → Except Stop Row
  | none => .ok (.single r)
  | some a => g.unfold r name a.equals a.text

/-- What was read after an option at the head of a list; the arguments after it, and whether the
next one was taken as its value. -/
def takeFirst (g : Grammar) (p : Parsed) (arg : String) (reading : Reading)
    (rest : List (String × Reading)) : Except Stop (Parsed × Bool) :=
  match reading with
  | .option r name attached => do
    let row ← g.rowOf r name attached
    let p := { p with extras := p.extras ++ row.extra.toList }
    match row.open?, rest with
    | none, _ => return (← p.takeOptions row.options, false)
    | some s, (value, .operand) :: _ => return (← p.takeOptions (row.options ++ [(s, value)]), true)
    | some s, _ => throw (about s.label "expected one argument")
  | _ => .ok ({ p with extras := p.extras ++ [arg] }, false)

/-- What was read at the end: the last operands, and what belongs to nothing. -/
def finish (p : Parsed) (args : List (String × Reading)) : Except Stop Parsed := do
  let (p, n) ← p.takeGroup args
  let missing := p.pending.filter fun o => o.arity ≠ .optional
  if !missing.isEmpty then
    throw (.complaint ("the following arguments are required: " ++
      ", ".intercalate (missing.map OperandRule.name)))
  return { p with extras := p.extras ++ (args.drop n).map Prod.fst }

/-- What is read from arguments, after what was read before them. -/
def run (g : Grammar) (p : Parsed) (args : List (String × Reading)) : Except Stop Parsed :=
  match args with
  | [] => finish p []
  | (arg, reading) :: rest =>
    if reading.isOption then
      match g.takeFirst p arg reading rest with
      | .error e => .error e
      | .ok (p, took) => g.run p (if took then rest.tail else rest)
    else if !(rest.any fun a => a.2.isOption) then finish p ((arg, reading) :: rest)
    else
      match p.takeGroup ((arg, reading) :: rest) with
      | .error e => .error e
      | .ok (p, n + 1) => g.run p (rest.drop n)
      | .ok (p, 0) =>
        g.run { p with extras := p.extras ++ [arg] ++ (rest.takeWhile fun a => !a.2.isOption).map Prod.fst }
          (rest.dropWhile fun a => !a.2.isOption)
termination_by args.length
decreasing_by
  · split
    · exact Nat.lt_succ_of_le (List.tail_suffix _).length_le
    · exact Nat.lt_succ_self _
  · exact Nat.lt_succ_of_le (List.drop_suffix _ _).length_le
  · exact Nat.lt_succ_of_le (List.dropWhile_suffix _).length_le

/-- The values of a command line. -/
def parse (g : Grammar) (args : List String) : Except Stop Parsed := do
  g.run { pending := g.operands } (← g.readAll args)

end Grammar

end AsmLens.Arguments
