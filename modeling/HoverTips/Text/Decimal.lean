/-!
# Decimal text

A number with a fixed count of decimal places is its exact binary value rounded to the nearest
multiple of the last place; a tie goes to the even neighbour. Columns of a table are padded with
spaces.
-/

namespace HoverTips.Text

/-- The whole number nearest to a quotient; a tie goes to the even one. -/
def roundDiv (num den : Nat) : Nat :=
  let quotient := num / den
  let remainder := num % den
  if 2 * remainder < den then quotient
  else if den < 2 * remainder then quotient + 1
  else quotient + quotient % 2

/-- A rounded quotient is at most half a unit off. -/
theorem roundDiv_near (num den : Nat) (h : 0 < den) :
    2 * (roundDiv num den * den) ≤ 2 * num + den ∧
      2 * num ≤ 2 * (roundDiv num den * den) + den := by
  have hdiv := Nat.div_add_mod num den
  have hlt := Nat.mod_lt num h
  have hmul : den * (num / den) = num / den * den := Nat.mul_comm _ _
  simp only [roundDiv]
  split
  · omega
  · split
    · rw [Nat.add_mul]; omega
    · rcases Nat.mod_two_eq_zero_or_one (num / den) with hz | hz <;> rw [hz, Nat.add_mul] <;> omega

/-- The value of a finite number that is not negative, as a quotient of whole numbers. -/
def exactQuotient (x : Float) : Nat × Nat :=
  let bits := x.toBits.toNat
  let hidden := Nat.pow 2 52
  let exponent := bits / hidden % Nat.pow 2 11
  let fraction := bits % hidden
  if exponent = 0 then (fraction, Nat.pow 2 1074)
  else if 1075 ≤ exponent then ((fraction + hidden) * Nat.pow 2 (exponent - 1075), 1)
  else (fraction + hidden, Nat.pow 2 (1075 - exponent))

def padLeft (width : Nat) (s : String) : String :=
  String.ofList (List.replicate (width - s.length) ' ') ++ s

def padRight (width : Nat) (s : String) : String :=
  s ++ String.ofList (List.replicate (width - s.length) ' ')

/-- The digits of a number, with zeros in front up to a width. -/
def digits (width n : Nat) : String :=
  let text := toString n
  String.ofList (List.replicate (width - text.length) '0') ++ text

/-- A finite number that is not negative, with at least one decimal place. -/
def fixedPlaces (places : Nat) (x : Float) : String :=
  let (num, den) := exactQuotient x
  let scale := Nat.pow 10 places
  let scaled := roundDiv (num * scale) den
  toString (scaled / scale) ++ "." ++ digits places (scaled % scale)

end HoverTips.Text
