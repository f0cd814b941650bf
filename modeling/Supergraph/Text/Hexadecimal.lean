namespace Supergraph.Text.Hexadecimal

def upperDigit (d : Nat) : Char := if d < 10 then Char.ofNat (48 + d) else Char.ofNat (55 + d)

def lowerDigit (d : Nat) : Char := if d < 10 then Char.ofNat (48 + d) else Char.ofNat (87 + d)

def byte (digit : Nat → Char) (n : Nat) : List Char := [digit (n / 16), digit (n % 16)]

def digit? (c : Char) : Option Nat :=
  if '0' ≤ c ∧ c ≤ '9' then some (c.toNat - 48)
  else if 'a' ≤ c ∧ c ≤ 'f' then some (c.toNat - 87)
  else if 'A' ≤ c ∧ c ≤ 'F' then some (c.toNat - 55)
  else none

def number? (digits : List Char) : Option Nat :=
  digits.foldlM (fun n c => (digit? c).map (16 * n + ·)) 0

def character? (n : Nat) : Option Char :=
  if n.isValidChar then some (Char.ofNat n) else none

theorem character?_toNat (c : Char) : character? c.toNat = some c := by
  have h : c.toNat.isValidChar := c.valid
  rw [character?, if_pos h, Char.ofNat_toNat]

end Supergraph.Text.Hexadecimal
