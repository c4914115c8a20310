/-!
# Base64

Three bytes are written as four characters of the standard alphabet; a last
group of one or two bytes is filled up with `=`.
-/

namespace ItemTable.Text

/-- The character of a six-bit group. -/
def base64Char (group : Nat) : Char :=
  if group < 26 then Char.ofNat ('A'.toNat + group)
  else if group < 52 then Char.ofNat ('a'.toNat + (group - 26))
  else if group < 62 then Char.ofNat ('0'.toNat + (group - 52))
  else if group == 62 then '+'
  else '/'

/-- The padded base64 text of a byte sequence. -/
def base64 : List UInt8 → List Char
  | [] => []
  | [a] =>
      let bits := a.toNat * 16
      [base64Char (bits / 64), base64Char (bits % 64), '=', '=']
  | [a, b] =>
      let bits := (a.toNat * 256 + b.toNat) * 4
      [base64Char (bits / 4096), base64Char (bits / 64 % 64), base64Char (bits % 64), '=']
  | a :: b :: c :: rest =>
      let bits := (a.toNat * 256 + b.toNat) * 256 + c.toNat
      base64Char (bits / 262144) :: base64Char (bits / 4096 % 64) ::
        base64Char (bits / 64 % 64) :: base64Char (bits % 64) :: base64 rest

end ItemTable.Text
