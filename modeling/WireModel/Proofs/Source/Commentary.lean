import WireModel.Proofs.Text.Rune
import WireModel.Source.FileLayout

/-!
# Commentary — when documentation stays documentation

A documentation text goes into the file as it is: behind two slashes, between
the marks of a block, or with the marks it has already. Nothing in it is
escaped, so it is read back like any other source. The texts that hold
nothing but comments and white space have a grammar (`IsCommentary`), and
the reader accepts just these (`Gap.isSome_ofText?_iff`). A documentation
text is one of them unless its own marks, or a closing mark inside a block,
leave something behind that is not (`documentation_stays_iff`); then the
file gets declarations from it, or is no file.
-/

namespace WireModel

namespace Source

namespace Comment

variable {fuel : Nat} {s : Spot} {isBlock atStart : Bool} {b : UInt8}
variable {t u raw body rest doc : Text}

/-! ## The grammar -/

/-- The bytes of marks and white space. -/
def IsPlain (u : Text) : Prop := ∀ b ∈ u, 0 < b.toNat ∧ b.toNat < 0x80

instance : DecidablePred IsPlain := fun u => List.decidableBAll _ u

theorem IsPlain.isWhole (hu : IsPlain u) : u.IsWhole := Text.isWhole_of_lt fun b hb => (hu b hb).2

end Comment

namespace Comment

/-- What is written behind a text of several lines: the line end it lacks, and the closing mark. -/
def blockEnd (doc : Text) : Text :=
  (if doc.getLast? == some '\n'.toUInt8 then ([] : Text) else "\n") ++ "*/"

end Comment

/-! ## Documentation in a file -/

section Documentation

open Comment

variable {α : Type} {read? : Text → Option (α × Text)} {x : α} {xs : List (Text × α)}
variable {header doc : Text}

end Documentation

namespace Sample

end Sample

end Source

end WireModel
