/-
Texts in units of two or four bytes.

The bytes of a unit come greatest first or least first.  A unit of four bytes is a character; one
of two bytes is a character or half of one, and two halves must stand together.
-/

namespace PhpMigration.Text.Wide

/-- The number that some bytes are, the greatest first. -/
def number (bytes : List UInt8) : Nat := bytes.foldl (fun n b => 256 * n + b.toNat) 0

/-- The units of some bytes; nothing if bytes are left over. -/
def units? (width : Nat) (greatestFirst : Bool) (bytes : List UInt8) : Option (List Nat) :=
  if _h : width = 0 then none
  else match bytes with
    | [] => some []
    | b :: rest =>
      if (b :: rest).length < width then none
      else
        let unit := (b :: rest).take width
        (units? width greatestFirst ((b :: rest).drop width)).map
          (number (if greatestFirst then unit else unit.reverse) :: ·)
  termination_by bytes.length
  decreasing_by
    simp only [List.length_drop, List.length_cons]
    omega

/-- The character of a number. -/
def char? (n : Nat) : Option Char := if n.isValidChar then some (Char.ofNat n) else none

/-- The characters of units of two bytes. -/
def joinHalves : List Nat → Option (List Char)
  | [] => some []
  | [unit] => (char? unit).map ([·])
  | high :: low :: rest => do
    if 0xD800 ≤ high ∧ high < 0xDC00 ∧ 0xDC00 ≤ low ∧ low < 0xE000 then
      let c ← char? (0x10000 + (high - 0xD800) * 0x400 + (low - 0xDC00))
      return c :: (← joinHalves rest)
    else return (← char? high) :: (← joinHalves (low :: rest))

/-- The text in units of two bytes. -/
def decode16? (greatestFirst : Bool) (bytes : List UInt8) : Option String := do
  return String.ofList (← joinHalves (← units? 2 greatestFirst bytes))

/-- The text in units of four bytes. -/
def decode32? (greatestFirst : Bool) (bytes : List UInt8) : Option String := do
  return String.ofList (← (← units? 4 greatestFirst bytes).mapM char?)

end PhpMigration.Text.Wide
