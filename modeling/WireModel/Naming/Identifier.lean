import WireModel.Naming.Title
import WireModel.Naming.Plural

/-!
# Identifiers for generated code

Names of a spec become identifiers of the generated package. Spec names may come in any of the
usual styles, so they are cut into words at underscores, dashes, dots, slashes and blanks, and put
together again. Well known abbreviations are written in capitals throughout.
-/

namespace WireModel.Naming

/-- The words of the target language that are no identifiers. -/
def keywords : List Text :=
  ["break", "case", "chan", "const", "continue", "default", "defer", "else", "fallthrough", "for",
    "func", "go", "goto", "if", "import", "interface", "map", "package", "range", "return",
    "select", "struct", "switch", "type", "var"]

/-- The abbreviations known from the start. -/
def commonAcronyms : List Text :=
  List.map Text.ofString ["ACL", "API", "ASCII", "AWS", "CPU", "CSS", "DNS", "EOF", "GB", "GUID", "HCL",
    "HTML", "HTTP", "HTTPS", "ID", "IP", "JSON", "KB", "LHS", "MAC", "MB", "QPS", "RAM", "RHS", "RPC", "SLA",
    "SMTP", "SQL", "SSH", "SSO", "TCP", "TLS", "TTL", "UDP", "UI", "UID", "URI", "URL", "UTF8",
    "UUID", "VM", "XML", "XMPP", "XSRF", "XSS"]

/-- The abbreviations with one more, in any case. -/
def addAcronym (acronyms : List Text) (word : Text) : List Text := word.toUpper :: acronyms

/-! ## Words -/

/-- Whether a rune stands between words. -/
def isSeparator : Rune → Bool
  | .code c =>
    c == '_'.toNat || c == '-'.toNat || c == '.'.toNat || c == '/'.toNat || Rune.isBlankCode c
  | .stray _ => false

/-- The words of a name. -/
def words (name : Text) : List Text := name.fieldsBy isSeparator

variable (acronyms : List Text)

/-- Whether a word is an abbreviation, in any case. -/
def isAcronym (word : Text) : Bool := acronyms.contains word.toUpper

/-- A word inside an exported identifier. -/
def pascalWord (word : Text) : Text :=
  if isAcronym acronyms word then word.toUpper else word.toTitle

/-- The exported identifier of a name. -/
def pascal (name : Text) : Text := (words name).flatMap (pascalWord acronyms)

/-- The first word of an unexported identifier: only its first byte changes, unless it is an
abbreviation. -/
def camelHead (word : Text) : Text :=
  if isAcronym acronyms word then word.toLower
  else Text.toLower (word.take 1) ++ word.drop 1

/-- The unexported identifier of a name. -/
def camel (name : Text) : Text :=
  match words name with
  | [] => []
  | first :: rest => camelHead acronyms first ++ pascal acronyms (Text.join "_" rest)

/-! ## Words of an identifier

An identifier is cut byte by byte; a byte past ASCII counts as the letter with that code. -/

/-- An upper case letter among the first 256. -/
def isUpperByte (b : UInt8) : Bool :=
  Text.isUpper b || (0xC0 ≤ b && b ≤ 0xDE && b != 0xD7)

/-- A lower case letter among the first 256. -/
def isLowerByte (b : UInt8) : Bool := Text.isLower b || b == 0xB5 || (0xDF ≤ b && b != 0xF7)

/-- A letter among the first 256. -/
def isLetterByte (b : UInt8) : Bool := isUpperByte b || isLowerByte b || b == 0xAA || b == 0xBA

/-- The lower case letter of a byte, as text. -/
def lowerLetter (b : UInt8) : Text := Text.ofRune (Text.lowerRune b.toNat)

/-- The bytes after the first, in lower case, with an underscore in front of every word but the
first: a capital opens a word after a small letter, or when a small letter follows and the word
before has at least two letters. `single` says that the word before has one byte so far. -/
def snakeRest : (prev : UInt8) → (single : Bool) → Text → Text
  | _, _, [] => []
  | _, _, [b] => lowerLetter b
  | prev, single, b :: next :: rest =>
    if isUpperByte b &&
        (isLowerByte prev || (!single && isLowerByte next && isLetterByte prev)) then
      "_" ++ lowerLetter b ++ snakeRest b true (next :: rest)
    else lowerLetter b ++ snakeRest b false (next :: rest)

/-- The words of an identifier in lower case, joined by underscores. -/
def snake : Text → Text
  | [] => []
  | b :: bs => lowerLetter b ++ snakeRest b true bs

/-- What is cut off both ends of a type before its receiver is named. -/
def isTypeMark (b : UInt8) : Bool :=
  Text.isDigit b || b == '['.toUInt8 || b == ']'.toUInt8 || b == '*'.toUInt8 || b == '&'.toUInt8

/-- The receiver of the methods of a type: the initials of its words. -/
def receiver (type : Text) : Text :=
  let t := type.trimBytes isTypeMark
  if t == [] then "v"
  else
    let initials : Text := ((snake t).splitOn '_'.toUInt8).flatMap (·.take 1)
    let name := initials.toLower
    if keywords.contains name then "_" ++ name else name

/-! ## Other names -/

/-- The start of `name` as long as `lower` and `plural` agree, followed by the rest of `plural`. -/
def keepCase : (name lower plural : Text) → Text
  | n :: ns, l :: ls, p :: ps => if l == p then n :: keepCase ns ls ps else p :: ps
  | _, _, ps => ps

/-- The plural of an identifier, in its case. An identifier that is its own plural is marked. -/
def plural (name : Text) : Text :=
  let lower := name.toLower
  let p := pluralize lower
  if p == lower then name ++ "Values" else keepCase name lower p

/-- The package of a module, from the last segment of its name. -/
def packageName (module : Text) : Text :=
  let last : Text := match module.cutLast? '/'.toUInt8 with
    | some (_, l) => l
    | none => module
  let pkg : Text := last.toLower.filter fun b => Text.isLetter b || Text.isDigit b
  match pkg with
  | [] => "model"
  | b :: _ => if Text.isDigit b || keywords.contains pkg then "pkg" ++ pkg else pkg

end WireModel.Naming
