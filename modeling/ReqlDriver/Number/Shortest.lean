import ReqlDriver.Number.Binary64

/-!
The shortest decimal that reads back as a given number.

A count of units stands for every real that rounds to it. Among the decimals in that interval the
shortest is chosen, and among those of equal length the nearest; the layouts that write numbers
differ in which way an exact tie goes.
-/

namespace ReqlDriver.Shortest

inductive Tie
  | toEven
  | up
deriving DecidableEq

/-- Digits `coefficient` with the point `exponent` places to the right of the last. -/
structure Digits where
  coefficient : Nat
  exponent : Int
deriving DecidableEq, Repr

def gapAbove (units : Nat) : Nat := twoTo (units.log2 - 52)

def gapBelow (units : Nat) : Nat :=
  if 52 < units.log2 ∧ units = twoTo units.log2 then gapAbove units / 2 else gapAbove units

structure Grid where
  place : Int

namespace Grid

def up (g : Grid) : Nat := tenTo g.place.toNat

def down (g : Grid) : Nat := tenTo (-g.place).toNat

def reads (g : Grid) (units c : Nat) : Bool :=
  let point := c * g.up * Binary64.one * 4
  let low := (4 * units - 2 * gapBelow units) * g.down
  let high := (4 * units + 2 * gapAbove units) * g.down
  if units / gapAbove units % 2 = 0 then low ≤ point && point ≤ high
  else low < point && point < high

def ratio (g : Grid) (units : Nat) : Nat × Nat :=
  (units * g.down, Binary64.one * g.up)

def choose? (g : Grid) (tie : Tie) (units : Nat) : Option Nat :=
  let (num, den) := g.ratio units
  let below := num / den
  let twice := 2 * (num % den)
  match g.reads units below, g.reads units (below + 1) with
  | true, true =>
    if twice < den then some below
    else if den < twice then some (below + 1)
    else match tie with
      | .up => some (below + 1)
      | .toEven => some (if below % 2 = 0 then below else below + 1)
  | true, false => some below
  | false, true => some (below + 1)
  | false, false => none

end Grid

def digitCount (n : Nat) : Nat := (Nat.toDigits 10 n).length

def magnitude (units : Nat) : Int :=
  (digitCount (units * tenTo 400 / Binary64.one) : Int) - 400

def search (tie : Tie) (units : Nat) (top : Int) : Nat → Nat → Digits
  | 0, n => ⟨units, n⟩
  | fuel + 1, n =>
    let g : Grid := ⟨top - n⟩
    match g.choose? tie units with
    | some c => ⟨c, g.place⟩
    | none => search tie units top fuel (n + 1)

def trim (d : Digits) : Nat → Digits
  | 0 => d
  | fuel + 1 =>
    if d.coefficient % 10 = 0 then trim ⟨d.coefficient / 10, d.exponent + 1⟩ fuel else d

def digits (tie : Tie) (units : Nat) : Digits :=
  trim (search tie units (magnitude units) 17 1) 18

end ReqlDriver.Shortest
