import ReqlDriver.Number.Width

/-!
Binary floating point numbers of 64 bits, with exact arithmetic underneath.

Every finite number is a whole count of units of `2 ^ -1074`, so a value is a sign and a natural
number that has at most 53 significant bits. An operation computes its result exactly, as a
ratio of counts, and rounds once: to the nearest number, a tie going to the even neighbour.
-/

namespace ReqlDriver

def overflow : Nat := twoTo 2098

/-- A count of units of `2 ^ -1074` that a finite number can hold: below the overflow, and with
nothing but zeros after its first 53 bits. -/
def Fits (units : Nat) : Prop :=
  units < overflow ∧ twoTo (units.log2 - 52) ∣ units

instance (units : Nat) : Decidable (Fits units) :=
  inferInstanceAs (Decidable (_ ∧ _))

theorem fits_zero : Fits 0 := ⟨twoTo_pos 2098, Nat.dvd_zero _⟩

inductive Binary64
  | nan
  | infinite (negative : Bool)
  | finite (negative : Bool) (units : Nat) (fits : Fits units)
deriving DecidableEq

namespace Binary64

def one : Nat := twoTo 1074

def zero (negative : Bool) : Binary64 := .finite negative 0 fits_zero

instance : Inhabited Binary64 := ⟨zero false⟩

def nearest (num den : Nat) : Nat :=
  let rest := num % den
  if 2 * rest < den ∨ (2 * rest = den ∧ num / den % 2 = 0) then num / den else num / den + 1

/-- How fine a format is: its significant bits, the binary logarithm of its least step and the one
of its overflow, both in units. -/
structure Precision where
  bits : Nat
  leastStep : Nat
  limit : Nat

def double : Precision := ⟨53, 0, 2098⟩

def single : Precision := ⟨24, 925, 1202⟩

def Precision.snap (p : Precision) (num den : Nat) : Nat :=
  let step := twoTo (max p.leastStep ((num / den).log2 + 1 - p.bits))
  nearest num (den * step) * step

def ofUnits (p : Precision) (negative : Bool) (num den : Nat) : Binary64 :=
  let units := p.snap num den
  if h : units < twoTo p.limit ∧ Fits units then .finite negative units h.2 else .infinite negative

def ofNat (n : Nat) : Binary64 := ofUnits double false (n * one) 1

def ofInt (n : Int) : Binary64 := ofUnits double (decide (n < 0)) (n.natAbs * one) 1

def neg : Binary64 → Binary64
  | nan => nan
  | infinite s => infinite !s
  | finite s u h => finite (!s) u h

def isFinite : Binary64 → Bool
  | finite .. => true
  | _ => false

def signed (negative : Bool) (units : Nat) : Int :=
  if negative then -(units : Int) else units

def eq : Binary64 → Binary64 → Bool
  | infinite s, infinite t => s == t
  | finite s u _, finite t v _ => signed s u == signed t v
  | _, _ => false

def add : Binary64 → Binary64 → Binary64
  | nan, _ => nan
  | _, nan => nan
  | infinite s, infinite t => if s = t then infinite s else nan
  | infinite s, _ => infinite s
  | _, infinite t => infinite t
  | finite s u _, finite t v _ =>
    let sum := signed s u + signed t v
    if sum = 0 then zero (s && t) else ofUnits double (decide (sum < 0)) sum.natAbs 1

def mul : Binary64 → Binary64 → Binary64
  | nan, _ => nan
  | _, nan => nan
  | infinite s, infinite t => infinite (s != t)
  | infinite s, finite t v _ => if v = 0 then nan else infinite (s != t)
  | finite s u _, infinite t => if u = 0 then nan else infinite (s != t)
  | finite s u _, finite t v _ => ofUnits double (s != t) (u * v) one

def div : Binary64 → Binary64 → Binary64
  | nan, _ => nan
  | _, nan => nan
  | infinite _, infinite _ => nan
  | infinite s, finite t _ _ => infinite (s != t)
  | finite s _ _, infinite t => zero (s != t)
  | finite s u _, finite t v _ =>
    if v ≠ 0 then ofUnits double (s != t) (u * one) v
    else if u = 0 then nan
    else infinite (s != t)

def toInt? : Binary64 → Option Int
  | finite s u _ => if u % one = 0 then some (signed s (u / one)) else none
  | _ => none

def round : Binary64 → Option Int
  | finite s u _ => some (signed s ((2 * u + one) / (2 * one)))
  | _ => none

def truncate : Binary64 → Option Int
  | finite s u _ => some (signed s (u / one))
  | _ => none

def saturate (whole : Binary64 → Option Int) (w : Width) (x : Binary64) : Int :=
  match x with
  | nan => 0
  | infinite s => if s then w.least else w.greatest
  | finite .. => w.clamp ((whole x).getD 0)

end Binary64

end ReqlDriver
