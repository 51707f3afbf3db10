import Mathlib.Algebra.Order.Ring.Int
import Mathlib.Data.List.Basic
import Mathlib.Tactic.Basic

/-!
# Strings of C

A string is the list of its bytes before the terminating zero.  `strcasecmp`
compares in the POSIX locale; `atoi` is `(int) strtol(s, NULL, 10)` with a
64-bit `long`.

Main result: `strcasecmp_eq_zero_iff`: two strings compare equal if and only if
they are equal up to ASCII case.
-/

namespace CStrings

/-- A byte inside a string. -/
abbrev CChar := {b : UInt8 // b ≠ 0}

abbrev CString := List CChar

/-- The bytes of a literal. -/
def ofLiteral (s : String) : CString :=
  s.toList.filterMap fun c =>
    if h : UInt8.ofNat c.toNat ≠ 0 then some ⟨UInt8.ofNat c.toNat, h⟩ else none

/-- `tolower` in the POSIX locale. -/
def toLower (b : UInt8) : UInt8 :=
  if 65 ≤ b ∧ b ≤ 90 then b + 32 else b

/-- `strcasecmp`. -/
def strcasecmp : CString → CString → Int
  | [], [] => 0
  | [], b :: _ => - ((toLower b.1).toNat : Int)
  | a :: _, [] => (toLower a.1).toNat
  | a :: as, b :: bs =>
      if toLower a.1 = toLower b.1 then strcasecmp as bs
      else ((toLower a.1).toNat : Int) - (toLower b.1).toNat

/-- The string up to ASCII case. -/
def caseFold (s : CString) : List UInt8 :=
  s.map fun b => toLower b.1

theorem toLower_ne_zero
    (b : CChar) :
    (toLower b.1).toNat ≠ 0 := by
  obtain ⟨b, hb⟩ := b
  have hne : b.toNat ≠ 0 := fun h => hb (UInt8.toNat_inj.mp h)
  simp only [toLower]
  split
  · rename_i hrange
    have hle : b.toNat ≤ 90 := hrange.2
    rw [UInt8.toNat_add]
    show (b.toNat + 32) % 256 ≠ 0
    omega
  · exact hne

theorem strcasecmp_eq_zero_iff
    {a b : CString} :
    strcasecmp a b = 0 ↔ caseFold a = caseFold b := by
  induction a generalizing b with
  | nil =>
      cases b with
      | nil =>
          simp [strcasecmp, caseFold]
      | cons y b =>
          have hy := toLower_ne_zero y
          simp only [strcasecmp, caseFold, List.map_nil, List.map_cons, reduceCtorEq,
            iff_false]
          omega
  | cons x a ih =>
      cases b with
      | nil =>
          have hx := toLower_ne_zero x
          simp only [strcasecmp, caseFold, List.map_nil, List.map_cons, reduceCtorEq,
            iff_false]
          omega
      | cons y b =>
          simp only [strcasecmp, caseFold, List.map_cons, List.cons.injEq]
          split
          · rename_i heq
            simpa [caseFold, heq] using ih (b := b)
          · rename_i hne
            have hnat : (toLower x.1).toNat ≠ (toLower y.1).toNat :=
              fun h => hne (UInt8.toNat_inj.mp h)
            simp only [hne, false_and, iff_false]
            omega

/-- `isspace` in the POSIX locale. -/
def isSpace (b : UInt8) : Bool :=
  b = 32 ∨ (9 ≤ b ∧ b ≤ 13)

def isDigit (b : UInt8) : Bool :=
  48 ≤ b ∧ b ≤ 57

/-- The decimal number at the begin of the string, 0 if there is none. -/
def leadingNumber (s : CString) : ℕ :=
  (s.takeWhile fun b => isDigit b.1).foldl (fun n b => 10 * n + (b.1.toNat - 48)) 0

/-- An optional sign, and the number after it. -/
def signedNumber : CString → Int
  | [] => 0
  | b :: s =>
      if b.1 = 45 then - (leadingNumber s : Int)
      else if b.1 = 43 then leadingNumber s
      else leadingNumber (b :: s)

/-- `strtol(s, NULL, 10)`: out of range it gives the nearest `long`. -/
def strtol (s : CString) : Int :=
  max (-2 ^ 63) (min (2 ^ 63 - 1) (signedNumber (s.dropWhile fun b => isSpace b.1)))

/-- `atoi`: the `long` converted to `int`. -/
def atoi (s : CString) : Int :=
  (strtol s).bmod (2 ^ 32)

example : (["2500", " -17x", "", "+4294967297"].map fun s => atoi (ofLiteral s)) =
    [2500, -17, 0, 1] := by
  decide +kernel

end CStrings
