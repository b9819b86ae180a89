namespace ReqlDriver

def twoTo (n : Nat) : Nat := Nat.pow 2 n

def tenTo (n : Nat) : Nat := Nat.pow 10 n

theorem twoTo_pos (n : Nat) : 0 < twoTo n := Nat.pow_pos (by decide)

theorem twoTo_add (m n : Nat) : twoTo (m + n) = twoTo m * twoTo n := Nat.pow_add 2 m n

structure Width where
  least : Int
  greatest : Int

namespace Width

def int32 : Width := ⟨-2147483648, 2147483647⟩

def int64 : Width := ⟨-9223372036854775808, 9223372036854775807⟩

def uint8 : Width := ⟨0, 255⟩

def uint16 : Width := ⟨0, 65535⟩

def uint64 : Width := ⟨0, 18446744073709551615⟩

def keep? (w : Width) (n : Int) : Option Int :=
  if w.least ≤ n ∧ n ≤ w.greatest then some n else none

def clamp (w : Width) (n : Int) : Int := max w.least (min w.greatest n)

def wrap (w : Width) (n : Int) : Int := w.least + (n - w.least) % (w.greatest - w.least + 1)

theorem keep?_eq_some_iff {w : Width} {n m : Int} :
    w.keep? n = some m ↔ (w.least ≤ n ∧ n ≤ w.greatest) ∧ n = m := by
  simp [keep?]

theorem wrap_eq_self {w : Width} {n : Int} (hl : w.least ≤ n) (hg : n ≤ w.greatest) :
    w.wrap n = n := by
  rw [wrap, Int.emod_eq_of_lt (by omega) (by omega)]
  omega

end Width

namespace LittleEndian

def toBytes : Nat → Nat → List UInt8
  | 0, _ => []
  | width + 1, n => UInt8.ofNat (n % 256) :: toBytes width (n / 256)

def ofBytes : List UInt8 → Nat
  | [] => 0
  | b :: r => b.toNat + 256 * ofBytes r

theorem length_toBytes (width n : Nat) : (toBytes width n).length = width := by
  induction width generalizing n with
  | zero => rfl
  | succ width ih => simp [toBytes, ih]

theorem ofBytes_toBytes (width n : Nat) :
    ofBytes (toBytes width n) = n % twoTo (8 * width) := by
  induction width generalizing n with
  | zero => exact (Nat.mod_one n).symm
  | succ width ih =>
    have byte : (UInt8.ofNat (n % 256)).toNat = n % 256 :=
      UInt8.toNat_ofNat_of_lt (Nat.mod_lt n (by decide))
    have power : twoTo (8 * (width + 1)) = 256 * twoTo (8 * width) := by
      rw [Nat.mul_succ, Nat.add_comm, twoTo_add]
      rfl
    rw [toBytes, ofBytes, ih, byte, power, Nat.mod_mul]

def word? : List UInt8 → Option (Nat × List UInt8)
  | a :: b :: c :: d :: r => some (ofBytes [a, b, c, d], r)
  | _ => none

end LittleEndian

end ReqlDriver
