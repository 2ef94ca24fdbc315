import WireModel.Command.Flag

/-!
# Command lines

A command line is a list of words. The first word that is neither a flag nor the value of one names
the command; the others are read as flags and operands in any order. After two dashes alone
everything is an operand.

While the command is looked for, a flag that is not a known switch takes the next word as its value.
-/

namespace WireModel

/-- What a command line asks for. -/
inductive Command where
  /-- Nothing in particular. -/
  | root
  | generate
  | validate
  | explain
  | help
  | completion
  deriving DecidableEq, Inhabited

/-- The name of the program. -/
def programName : Text := "specgen"

namespace Command

/-- The commands that have a name, in the order in which they are suggested. -/
def named : List Command := [.generate, .validate, .explain, .help, .completion]

/-- The name of a command; the program itself is named as such. -/
def name : Command → Text
  | root => programName
  | generate => "generate"
  | validate => "validate"
  | explain => "explain"
  | help => "help"
  | completion => "completion"

/-- The flags every command has. -/
def sharedFlags : List Flag := [.config, .verbose]

/-- The flags a command has besides the shared ones, in the order of their names. -/
def ownFlags : Command → List Flag
  | generate => [.backend, .header, .help, .out, .package, .watch, .workers]
  | explain => [.help, .module]
  | _ => [.help]

/-- All flags of a command. -/
def flags (c : Command) : List Flag := c.ownFlags ++ sharedFlags

/-- The command with a name. -/
def ofName? (word : Text) : Option Command := named.find? (·.name == word)

/-! ## Suggestions -/

/-- The next row of the table of edit distances: `above` is the last row, whose first entry was
`corner`, and `left` is the entry before the next one. -/
def editRow (b : UInt8) : (corner left : Nat) → Text → List Nat → List Nat
  | corner, left, c :: cs, up :: above =>
    let here := if b == c then corner else min (min up left) corner + 1
    here :: editRow b up here cs above
  | _, _, _, _ => []

/-- The rows of the table of edit distances, down to the last entry of the last one. -/
def editRows (target : Text) : Text → (depth : Nat) → List Nat → Nat
  | [], depth, row => row.getLastD depth
  | b :: bs, depth, row => editRows target bs (depth + 1) (editRow b depth (depth + 1) target row)

/-- The least number of bytes to insert, remove or replace to come from one text to the other. -/
def editDistance (s t : Text) : Nat :=
  editRows t s 0 ((List.range t.length).map (· + 1))

/-- Whether a name is close to a word: it starts with the word, or two edits are enough. Case does
not matter. -/
def isCloseTo (word name : Text) : Bool :=
  decide (editDistance word.toLower name.toLower ≤ 2) || word.toLower.isPrefixOf name.toLower

/-- The names a word may have been meant for. -/
def suggestions (word : Text) : List Text :=
  ((named.filter (· != .help)).map name).filter (isCloseTo word)

end Command

/-! ## Faults -/

/-- Why a command line cannot be read. -/
inductive LineFault where
  | unknownCommand (word : Text)
  /-- No name follows the dashes. -/
  | noFlagName (word : Text)
  | unknownFlag (name : Text)
  /-- A letter stands for no flag; `group` is what was left of its word. -/
  | unknownLetter (letter : UInt8) (group : Text)
  | noValue (word : Text)
  | noLetterValue (letter : UInt8) (group : Text)
  | badValue (flag : Flag) (value reason : Text)
  deriving DecidableEq, Inhabited

namespace LineFault

/-- A letter between single quotes. -/
def quoteLetter (b : UInt8) : Text :=
  if b == '\x27'.toUInt8 then "'\\''"
  else if b == '\x22'.toUInt8 then "'\"'"
  else "'" ++ Text.quoteRune (.code b.toNat) ++ "'"

/-- The wording of a fault. -/
def message : LineFault → Text
  | unknownCommand word =>
    "unknown command " ++ word.quote ++ " for " ++ programName.quote ++
      match Command.suggestions word with
      | [] => ([] : Text)
      | names =>
        let lines : Text := names.flatMap fun n => ("\t" : Text) ++ n ++ ("\n" : Text)
        "\n\nDid you mean this?\n" ++ lines
  | noFlagName word => "bad flag syntax: " ++ word
  | unknownFlag name => "unknown flag: --" ++ name
  | unknownLetter letter group =>
    "unknown shorthand flag: " ++ quoteLetter letter ++ " in -" ++ group
  | noValue word => "flag needs an argument: " ++ word
  | noLetterValue letter group =>
    "flag needs an argument: " ++ quoteLetter letter ++ " in -" ++ group
  | badValue flag value reason =>
    "invalid argument " ++ value.quote ++ " for " ++ flag.title.quote ++ " flag: " ++ reason

end LineFault

/-! ## The command -/

/-- A dash. -/
def dash : UInt8 := '-'.toUInt8

namespace Command

/-- Whether a word takes the next one as its value while the command is looked for. -/
def takesNext (word : Text) : Bool :=
  let switches := sharedFlags.filter (·.isSwitch)
  if word.contains '='.toUInt8 then false
  else
    match word with
    | a :: b :: rest =>
      if a != dash then false
      else if b == dash then !switches.any (·.name == rest)
      else rest.isEmpty && !switches.any (·.letter? == some b)
    | _ => false

/-- The first word that is no flag and no value of one, and the words without it. -/
def firstWord? : List Text → Option (Text × List Text)
  | [] => none
  | word :: rest =>
    if word == "--" then none
    else if takesNext word then
      match rest with
      | value :: next :: more =>
        (firstWord? (next :: more)).map fun (w, others) => (w, word :: value :: others)
      | _ => none
    else if word != [] && word.head? != some dash then some (word, rest)
    else (firstWord? rest).map fun (w, others) => (w, word :: others)

/-- The command of a line, and the line without its name. -/
def ofLine (args : List Text) : Except LineFault (Command × List Text) :=
  match firstWord? args with
  | none => .ok (.root, args)
  | some (word, others) =>
    match ofName? word with
    | some c => .ok (c, others)
    | none => .error (.unknownCommand word)

end Command

/-! ## Flags and operands -/

namespace Options

/-- A flag whose value is the next word, and the fault if there is none. -/
abbrev Pending := Option (Flag × LineFault)

/-- The options after a flag was given with a value. -/
def give (o : Options) (f : Flag) (value : Text) : Except LineFault Options :=
  match o.set f value with
  | .ok o => .ok o
  | .error reason => .error (.badValue f value reason)

/-- The options after a word of two dashes and more. -/
def readName (flags : List Flag) (o : Options) (word body : Text) :
    Except LineFault (Options × Pending) :=
  if body.head? == some dash || body.head? == some '='.toUInt8 then .error (.noFlagName word)
  else
    let (name, value) := match body.cut? '='.toUInt8 with
      | some (name, value) => (name, some value)
      | none => (body, none)
    match flags.find? (·.name == name), value with
    | none, _ => .error (.unknownFlag name)
    | some f, some value => (fun o => (o, none)) <$> o.give f value
    | some f, none =>
      if f.isSwitch then (fun o => (o, none)) <$> o.give f "true"
      else .ok (o, some (f, .noValue word))

/-- The options after a group of letters. A value may follow its letter directly or after an equals
sign, and switches may stand together. A group that starts with the mark of test runs is passed
over. -/
def readLetters (flags : List Flag) (o : Options) : Text → Except LineFault (Options × Pending)
  | [] => .ok (o, none)
  | c :: cs =>
    if ("test." : Text).isPrefixOf (c :: cs) then .ok (o, none)
    else
      match flags.find? (·.letter? == some c) with
      | none => .error (.unknownLetter c (c :: cs))
      | some f =>
        if cs.head? == some '='.toUInt8 && 1 < cs.length then
          (fun o => (o, none)) <$> o.give f (cs.drop 1)
        else if f.isSwitch then do
          let o ← o.give f "true"
          readLetters flags o cs
        else if cs.isEmpty then .ok (o, some (f, .noLetterValue c (c :: cs)))
        else (fun o => (o, none)) <$> o.give f cs

/-- The options and operands of some words. -/
def read (flags : List Flag) (o : Options) : List Text → Except LineFault (Options × List Text)
  | [] => .ok (o, [])
  | word :: rest =>
    let step : Option (Except LineFault (Options × Pending)) :=
      match word with
      | a :: b :: more =>
        if a != dash then none
        else if b == dash then some (o.readName flags word more)
        else some (o.readLetters flags (b :: more))
      | _ => none
    if word == "--" then .ok (o, rest)
    else
      match step with
      | none => (fun (o, words) => (o, word :: words)) <$> o.read flags rest
      | some (.error e) => .error e
      | some (.ok (o, none)) => o.read flags rest
      | some (.ok (o, some (f, missing))) =>
        match rest with
        | [] => .error missing
        | value :: more => do
          let o ← o.give f value
          o.read flags more

end Options

/-- A command line that was read. -/
structure Invocation where
  command : Command
  options : Options
  operands : List Text
  deriving DecidableEq, Inhabited

/-- Reads a command line. -/
def Invocation.ofLine (args : List Text) : Except LineFault Invocation := do
  let (command, rest) ← Command.ofLine args
  let (options, operands) ← Options.read command.flags {} rest
  .ok { command, options, operands }

end WireModel
