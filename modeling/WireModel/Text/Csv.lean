import WireModel.Text.Rune

/-!
# Comma separated values

The first record of a text: fields that commas separate, up to the end of the line. A field that
starts with a double quote goes to the next double quote that stands alone, and two of them in a
row stand for one; such a field may hold commas and line ends. No other field holds a double quote.

Empty lines before the record are passed over, and a carriage return at the end of a line is no
part of it.
-/

namespace WireModel

/-- Why a text has no first record. Lines and columns count from one, columns in bytes; `first` is
the line the record starts on. -/
inductive CsvFault where
  /-- There is nothing but empty lines. -/
  | missing
  /-- A double quote stands inside a field that does not start with one. -/
  | bareQuote (first line column : Nat)
  /-- A quoted field does not end, or something stands between its end and the next comma. -/
  | openQuote (first line column : Nat)
  deriving DecidableEq, Inhabited

namespace CsvFault

/-- The place of a fault in words. -/
def place (first line column : Nat) : Text :=
  (if first == line then ([] : Text) else "record on line " ++ Text.ofNat first ++ "; ") ++
    "parse error on line " ++ Text.ofNat line ++ ", column " ++ Text.ofNat column ++ ": "

/-- The wording of a fault. -/
def message : CsvFault → Text
  | missing => "EOF"
  | bareQuote first line column => place first line column ++ "bare \" in non-quoted field"
  | openQuote first line column =>
    place first line column ++ "extraneous or missing \" in quoted-field"

end CsvFault

namespace Csv

/-- The separator of fields. -/
def comma : UInt8 := ','.toUInt8

/-- The quote around a field. -/
def mark : UInt8 := '\x22'.toUInt8

/-- The end of a line. -/
def newline : UInt8 := '\n'.toUInt8

/-- The text without the carriage returns at the ends of its lines. -/
def dropReturns : Text → Text
  | [] => []
  | [b] => if b == '\r'.toUInt8 then [] else [b]
  | b :: c :: bs =>
    if b == '\r'.toUInt8 && c == newline then dropReturns (c :: bs) else b :: dropReturns (c :: bs)

/-- Where a reader stands in a field. -/
inductive Spot where
  | start
  | bare
  | quoted
  /-- After a double quote in a quoted field. -/
  | closing
  deriving DecidableEq, Inhabited

/-- The fields from the current one on; `field` is what was read of it. -/
def fieldsFrom (first : Nat) :
    Spot → (field : Text) → (line column : Nat) → Text → Except CsvFault (List Text)
  | .quoted, _, line, column, [] => .error (.openQuote first line column)
  | _, field, _, _, [] => .ok [field]
  | .quoted, field, line, column, b :: bs =>
    if b == mark then fieldsFrom first .closing field line (column + 1) bs
    else if b == newline && !bs.isEmpty then
      fieldsFrom first .quoted (field ++ [b]) (line + 1) 1 bs
    else fieldsFrom first .quoted (field ++ [b]) line (column + 1) bs
  | .closing, field, line, column, b :: bs =>
    if b == mark then fieldsFrom first .quoted (field ++ [b]) line (column + 1) bs
    else if b == comma then do
      let rest ← fieldsFrom first .start [] line (column + 1) bs
      .ok (field :: rest)
    else if b == newline then .ok [field]
    else .error (.openQuote first line (column - 1))
  | spot, field, line, column, b :: bs =>
    if b == mark then
      if spot == .start then fieldsFrom first .quoted [] line (column + 1) bs
      else .error (.bareQuote first line column)
    else if b == comma then do
      let rest ← fieldsFrom first .start [] line (column + 1) bs
      .ok (field :: rest)
    else if b == newline then .ok [field]
    else fieldsFrom first .bare (field ++ [b]) line (column + 1) bs

/-- The first record of a text. -/
def firstRecord (t : Text) : Except CsvFault (List Text) :=
  let text := dropReturns t
  let record : Text := text.dropWhile (· == newline)
  let first := text.length - record.length + 1
  if record.isEmpty then .error .missing else fieldsFrom first .start [] first 1 record

end Csv

end WireModel
