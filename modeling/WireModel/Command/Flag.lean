import WireModel.Emit.Config
import WireModel.Number.Based
import WireModel.Text.Csv

/-!
# Flags

The flags of the command line, what each takes, and the options they set. A flag that is given
twice sets its option twice, so the last value counts; the names of backends are added up.
-/

namespace WireModel

/-- What a flag takes. -/
inductive FlagKind where
  /-- Nothing, or a truth value after an equals sign. -/
  | switch
  | text
  /-- A whole number in any of the usual bases. -/
  | number
  /-- Comma separated names. -/
  | names
  deriving DecidableEq, Inhabited

/-- A flag of the command line. -/
inductive Flag where
  | backend
  | config
  | header
  | help
  | module
  | out
  | package
  | verbose
  | watch
  | workers
  deriving DecidableEq, Inhabited

namespace Flag

/-- The name of a flag, which follows two dashes. -/
def name : Flag → Text
  | backend => "backend"
  | config => "config"
  | header => "header"
  | help => "help"
  | module => "module"
  | out => "out"
  | package => "package"
  | verbose => "verbose"
  | watch => "watch"
  | workers => "workers"

/-- The letter of a flag, which follows one dash. -/
def letter? : Flag → Option UInt8
  | backend => some 'b'.toUInt8
  | config => some 'c'.toUInt8
  | header => none
  | help => some 'h'.toUInt8
  | module => some 'm'.toUInt8
  | out => some 'o'.toUInt8
  | package => some 'p'.toUInt8
  | verbose => some 'v'.toUInt8
  | watch => none
  | workers => some 'w'.toUInt8

/-- What a flag takes. -/
def kind : Flag → FlagKind
  | help | verbose | watch => .switch
  | config | header | module | out | package => .text
  | workers => .number
  | backend => .names

/-- Whether a flag stands for itself. -/
def isSwitch (f : Flag) : Bool := f.kind == .switch

/-- How a flag is shown. -/
def title (f : Flag) : Text :=
  (match f.letter? with
    | some c => "-" ++ ([c] ++ (", " : Text))
    | none => ([] : Text)) ++ "--" ++ f.name

end Flag

/-- What the flags of a command line ask for. -/
structure Options where
  verbose : Bool := false
  help : Bool := false
  watch : Bool := false
  /-- The path of the configuration file; empty to look for one. -/
  config : Text := []
  /-- The module to explain; empty for all. -/
  module : Text := []
  header : Option Text := none
  package : Option Text := none
  out : Option Text := none
  workers : Option Int := none
  backends : Option (List Text) := none
  deriving DecidableEq, Inhabited

namespace Options

/-- The truth value a text writes. -/
def truth? (t : Text) : Option Bool :=
  if (List.map Text.ofString ["1", "t", "T", "TRUE", "true", "True"]).contains t then some true
  else if (List.map Text.ofString ["0", "f", "F", "FALSE", "false", "False"]).contains t then
    some false
  else none

/-- The words for a value that cannot be read. -/
def unreadable (reader value reason : Text) : Text :=
  "strconv." ++ reader ++ ": parsing " ++ value.quote ++ ": " ++ reason

/-- The truth value of a switch. -/
def readTruth (value : Text) : Except Text Bool :=
  match truth? value with
  | some b => .ok b
  | none => .error (unreadable "ParseBool" value IntFault.badForm.reason)

/-- The names in a value. -/
def readNames (value : Text) : Except Text (List Text) :=
  if value == [] then .ok []
  else
    match Csv.firstRecord value with
    | .ok names => .ok names
    | .error e => .error e.message

/-- The number in a value. -/
def readNumber (value : Text) : Except Text Int :=
  match value.toBased with
  | .ok n => .ok n
  | .error e => .error (unreadable "ParseInt" value e.reason)

/-- The options after a flag was given with a value, or why the value cannot be used. -/
def set (o : Options) (f : Flag) (value : Text) : Except Text Options :=
  match f with
  | .verbose => (fun b => { o with verbose := b }) <$> readTruth value
  | .help => (fun b => { o with help := b }) <$> readTruth value
  | .watch => (fun b => { o with watch := b }) <$> readTruth value
  | .config => .ok { o with config := value }
  | .module => .ok { o with module := value }
  | .header => .ok { o with header := some value }
  | .package => .ok { o with package := some value }
  | .out => .ok { o with out := some value }
  | .workers => (fun n => { o with workers := some n }) <$> readNumber value
  | .backend =>
    (fun names => { o with backends := some (o.backends.getD [] ++ names) }) <$> readNames value

/-- The changes of the settings that were asked for. -/
def changes (o : Options) : List Config.Change :=
  o.out.toList.map .target ++ o.package.toList.map .package ++ o.backends.toList.map .backends ++
    o.workers.toList.map .workers ++ o.header.toList.map .header

end Options

end WireModel
