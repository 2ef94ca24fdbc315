import WireModel.Command.Line
import WireModel.Emit.ConfigFile

/-!
# Help pages

What is printed about a command: what it is for, how it is called, the commands below it and its
flags. Names stand in a column of their own, flags in the order of their names.
-/

namespace WireModel

/-! ## Flags -/

namespace FlagKind

/-- The word for the value of a flag. -/
def valueWord : FlagKind → Text
  | switch => ""
  | text => " string"
  | number => " int"
  | names => " strings"

end FlagKind

namespace Flag

/-- What a flag of a command is for. -/
def purpose (command : Text) : Flag → Text
  | backend => "backends to run [go jsonschema] (default [go])"
  | config => "configuration file (default ./" ++ Config.fileName ++ ")"
  | header => "header comment of generated files"
  | help => "help for " ++ command
  | module => "only explain this module"
  | out => "output directory"
  | package => "import path of the output directory"
  | verbose => "verbose output"
  | watch => "regenerate when spec files change"
  | workers => "modules rendered in parallel (default GOMAXPROCS)"

/-- A flag with the word for its value, where names stand below each other. -/
def entry (f : Flag) : Text :=
  (if f.letter?.isSome then ("  " : Text) else "      ") ++ f.title ++ f.kind.valueWord

end Flag

/-- Two columns of lines, with a gap after the widest entry of the first one. -/
def columns (width gap : Nat) (rows : List (Text × Text)) : List Text :=
  let width := rows.foldl (fun w r => max w r.1.length) width
  rows.map fun (a, b) => a ++ Text.repeated (width - a.length + gap) " " ++ b

/-! ## Commands -/

namespace Command

/-- What a command does, in a few words. -/
def synopsis : Command → Text
  | root => "specgen - schema compiler"
  | generate => "Generate code from spec files"
  | validate => "Check spec files without generating code"
  | explain => "Print the wire contract of every declaration"
  | help => "Help about any command"
  | completion => "Generate the autocompletion script for the specified shell"

/-- What a command does. -/
def about : Command → List Text
  | root => List.map Text.ofString [
      "Compile data model specs into serialization code.",
      "",
      "Spec files declare structs, tagged unions, newtypes and constants once.",
      "specgen resolves them across modules and generates matching serializers",
      "and deserializers for every target backend."]
  | generate => List.map Text.ofString [
      "Generate serialization code for the given spec files and every file",
      "they include. Without arguments, the specs listed in the configuration",
      "file are used. Flags override configuration file values."]
  | validate => List.map Text.ofString [
      "Load, validate and link the given spec files and every file they",
      "include. All compile errors are reported; nothing is written."]
  | explain => List.map Text.ofString [
      "Print how values of every declaration are encoded, and the decode",
      "failures each one may produce."]
  | help => List.map Text.ofString [
      "Help provides help for any command in the application.",
      "Simply type specgen help [path to command] for full details."]
  | completion => List.map Text.ofString [
      "Generate the autocompletion script for specgen for the specified shell.",
      "See each sub-command's help for details on how to use the generated script."]

/-- The words that lead to a command. -/
def path (c : Command) : Text := if c == .root then c.name else programName ++ " " ++ c.name

/-- The commands below a command, with what they do. -/
def children : Command → List (Text × Text)
  | root =>
    [completion, explain, generate, help, validate].map fun c => (c.name, c.synopsis)
  | completion =>
    (List.map Text.ofString ["bash", "fish", "powershell", "zsh"]).map fun shell =>
      (shell, "Generate the autocompletion script for " ++ shell)
  | _ => []

/-- What a command is called with. -/
def operandWords : Command → Text
  | help => "[command]"
  | _ => "[spec-file...]"

/-- Some calls of a command. -/
def examples : Command → List Text
  | generate => List.map Text.ofString [
      "  specgen generate --out ./model --package example.com/app/model spec/example.yaml",
      "  specgen generate --backend go,jsonschema --watch"]
  | _ => []

/-- A part of a page: its title and its lines. A part without lines is left out. -/
def pagePart (title : Text) (lines : List Text) : List Text :=
  if lines.isEmpty then [] else [Text.join "\n" ((title ++ ":") :: lines)]

/-- The lines for some flags of a command. -/
def flagLines (c : Command) (fs : List Flag) : List Text :=
  columns 0 3 (fs.map fun f => (f.entry, f.purpose c.name))

/-- The lines for the commands below a command. -/
def childLines (c : Command) : List Text := (columns 11 1 c.children).map fun t => "  " ++ t

/-- The flags of a command and those it shares, as they are shown. The program itself shares
none. -/
def shownFlags : Command → List Flag × List Flag
  | root => ([.config, .help, .verbose], [])
  | c => (c.ownFlags, sharedFlags)

/-- How a command with the given flags is used. -/
def usage (c : Command) (own shared : List Flag) : Text :=
  let isGroup := !c.children.isEmpty
  let call : Text :=
    if isGroup then "  " ++ c.path ++ " [command]"
    else "  " ++ c.path ++ " " ++ c.operandWords ++ " [flags]"
  let hint : List Text :=
    if isGroup then
      ["Use \"" ++ c.path ++ " [command] --help\" for more information about a command."]
    else []
  Text.join "\n\n"
    (pagePart "Usage" [call] ++ pagePart "Examples" c.examples ++
      pagePart "Available Commands" c.childLines ++ pagePart "Flags" (c.flagLines own) ++
      pagePart "Global Flags" (c.flagLines shared) ++ hint) ++ "\n"

/-- The page about a command. -/
def page (c : Command) : Text :=
  Text.join "\n" c.about ++ "\n\n" ++ c.usage c.shownFlags.1 c.shownFlags.2

/-- Whether a text can stand between back quotes. -/
def isQuotableRaw (t : Text) : Bool :=
  t.runes.all fun
    | .stray _ => false
    | .code c => c == 0x09 || (0x20 ≤ c && c != 0x60 && c != 0x7F && c != 0xFEFF)

/-- The page about the command some words lead to. Without one, it is how the program is used. -/
def topicPage (words : List Text) : Text :=
  match ofLine words with
  | .ok (c, _) => c.page
  | .error _ =>
    let shown := words.map fun t =>
      if isQuotableRaw t then ("\x60" : Text) ++ t ++ "\x60" else t.quote
    "Unknown help topic [" ++ Text.join " " shown ++ "]\n" ++
      root.usage sharedFlags []

end Command

end WireModel
