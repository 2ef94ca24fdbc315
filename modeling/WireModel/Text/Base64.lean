import WireModel.Text.Basic

/-!
# Base 64

The padded form of bytes in the usual alphabet: three bytes become four letters.
-/

namespace WireModel.Base64

/-- The letters, in the order of the numbers they stand for. -/
def alphabet : Text := "ABCDEFGHIJKLMNOPQRSTUVWXYZabcdefghijklmnopqrstuvwxyz0123456789+/"

/-- The letter of a number below 64. -/
def letter (n : Nat) : UInt8 := alphabet.getD n '='.toUInt8

/-- The letters of some bytes. -/
def encode : List UInt8 → Text
  | a :: b :: c :: rest =>
    let n := (a.toNat * 256 + b.toNat) * 256 + c.toNat
    letter (n / 262144) :: letter (n / 4096 % 64) :: letter (n / 64 % 64) :: letter (n % 64) ::
      encode rest
  | [a, b] =>
    let n := (a.toNat * 256 + b.toNat) * 4
    letter (n / 4096) :: letter (n / 64 % 64) :: letter (n % 64) :: Text.ofString "="
  | [a] =>
    let n := a.toNat * 16
    letter (n / 64) :: letter (n % 64) :: Text.ofString "=="
  | [] => []

end WireModel.Base64
