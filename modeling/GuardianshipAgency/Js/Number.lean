import Mathlib

/-!
# Numbers and their texts

Finite numbers are exact rationals, and `none` is `NaN`.
-/

namespace Js

/-! ## `parseInt` -/

def isSpace (c : Char) : Bool := c == ' ' || c == '\t' || c == '\n' || c == '\r' || c == '\u000b' || c == '\u000c'

def digits (cs : List Char) : Option ℚ :=
  match cs.takeWhile Char.isDigit with
  | [] => none
  | ds => some ((ds.foldl (fun n d => n * 10 + (d.toNat - '0'.toNat)) 0 : Nat) : ℚ)

/-- `parseInt(text, 10)`: what follows the digits is ignored. -/
def parseInt (text : String) : Option ℚ :=
  match text.toList.dropWhile isSpace with
  | '-' :: cs => (digits cs).map fun q => -q
  | '+' :: cs => digits cs
  | cs => digits cs

/-! ## `${n}` -/

/-- The number of decimals of `q`, tried up to `fuel`. -/
def decimals : Nat → ℚ → Nat
  | 0, _ => 0
  | fuel + 1, q => if q.den == 1 then 0 else decimals fuel (q * 10) + 1

/-- The digits of a positive number without zeros at the end, and the place of the point after the first digit
counted from the left. A decimal fraction with denominator `d` has at most `log2 d` decimals. -/
def significant (q : ℚ) : List Char × Int :=
  let k := decimals (Nat.log2 q.den + 1) q
  let ds := Nat.toDigits 10 (q * 10 ^ k).num.natAbs
  ((ds.reverse.dropWhile (· == '0')).reverse, (ds.length : Int) - k)

/-- The text of a positive number: plain from `1e-6` to `1e21`, with an exponent elsewhere. -/
def positiveText (q : ℚ) : String :=
  let (ds, n) := significant q
  if ds.length ≤ n ∧ n ≤ 21 then String.ofList (ds ++ List.replicate (n.toNat - ds.length) '0')
  else if 0 < n ∧ n ≤ 21 then String.ofList (ds.take n.toNat ++ ['.'] ++ ds.drop n.toNat)
  else if -6 < n ∧ n ≤ 0 then String.ofList ("0.".toList ++ List.replicate n.natAbs '0' ++ ds)
  else
    let mantissa := match ds with
      | d :: rest@(_ :: _) => d :: '.' :: rest
      | ds => ds
    let sign := if 0 < n then "+" else "-"
    String.ofList mantissa ++ "e" ++ sign ++ toString (n - 1).natAbs

def numberText : Option ℚ → String
  | none => "NaN"
  | some q => if q == 0 then "0" else if q < 0 then "-" ++ positiveText (-q) else positiveText q

example : (parseInt " 5001px", numberText (some 5001), numberText (some (-1 / 8)), numberText (some (10 ^ 21))) =
    (some 5001, "5001", "-0.125", "1e+21") := by decide +kernel

end Js
