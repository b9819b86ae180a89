import ReqlDriver.Text.Base64

namespace ReqlDriver.Base64

theorem toNat_lt_of_value? {c : Char} {n : Nat} (h : value? c = some n) : c.toNat < 128 := by
  have hb : c.isUpper ∨ c.isLower ∨ c.isDigit ∨ c = '+' ∨ c = '/' := by
    unfold value? at h
    grind
  rcases hb with hb | hb | hb | rfl | rfl
  · have hu : decide (c.val ≥ 'A'.val ∧ c.val ≤ 'Z'.val) = true := hb
    simp only [decide_eq_true_eq, UInt32.le_iff_toNat_le] at hu
    exact Nat.lt_of_le_of_lt hu.2 (by decide)
  · have hl : (decide (c.val ≥ 'a'.val) && decide (c.val ≤ 'z'.val)) = true := hb
    simp only [Bool.and_eq_true, decide_eq_true_eq, UInt32.le_iff_toNat_le] at hl
    exact Nat.lt_of_le_of_lt hl.2 (by decide)
  · simp only [Char.isDigit, Bool.and_eq_true, decide_eq_true_eq, UInt32.le_iff_toNat_le] at hb
    exact Nat.lt_of_le_of_lt hb.2 (by decide)
  · decide
  · decide

set_option maxRecDepth 4000 in
theorem value?_letter {n : Nat} (h : n < 64) : value? (letter n) = some n := by
  revert n
  decide

set_option maxRecDepth 4000 in
theorem letter_of_value?_ofNat {m : Nat} (h : m < 128) :
    ∀ n ∈ value? (Char.ofNat m), n < 64 ∧ letter n = Char.ofNat m := by
  revert m
  decide

theorem value?_eq_some_iff {c : Char} {n : Nat} : value? c = some n ↔ n < 64 ∧ c = letter n := by
  constructor
  · intro h
    have hc : Char.ofNat c.toNat = c := Char.ofNat_toNat c
    have hl := letter_of_value?_ofNat (toNat_lt_of_value? h) n (by rw [hc]; exact h)
    exact ⟨hl.1, by rw [hl.2, hc]⟩
  · rintro ⟨hn, rfl⟩
    exact value?_letter hn

theorem letter_ne_padding {n : Nat} (h : n < 64) : letter n ≠ '=' := by
  intro he
  have := value?_letter h
  rw [he] at this
  cases this

theorem toNat_ofNat {n : Nat} (h : n < 256) : (UInt8.ofNat n).toNat = n :=
  UInt8.toNat_ofNat_of_lt h

theorem ofNat_eq {n : Nat} {a : UInt8} (h : n = a.toNat) : UInt8.ofNat n = a := by
  rw [h, UInt8.ofNat_toNat]

theorem lastByte?_eq_some_iff {a b : Char} {bytes : List UInt8} :
    lastByte? a b = some bytes ↔
      ∃ x : UInt8, bytes = [x] ∧ a = letter (x.toNat / 4) ∧ b = letter (x.toNat % 4 * 16) := by
  constructor
  · intro h
    simp only [lastByte?, Option.bind_eq_bind, Option.bind_eq_some_iff] at h
    obtain ⟨x, hx, y, hy, h⟩ := h
    obtain ⟨hxl, rfl⟩ := value?_eq_some_iff.mp hx
    obtain ⟨hyl, rfl⟩ := value?_eq_some_iff.mp hy
    split at h
    · rename_i hm
      refine ⟨_, (Option.some.inj h).symm, ?_⟩
      rw [toNat_ofNat (by omega)]
      exact ⟨congrArg letter (by omega), congrArg letter (by omega)⟩
    · cases h
  · rintro ⟨x, rfl, rfl, rfl⟩
    have hx := x.toNat_lt
    have hm : x.toNat % 4 * 16 % 16 = 0 := by omega
    simp only [lastByte?, value?_letter (show x.toNat / 4 < 64 by omega),
      value?_letter (show x.toNat % 4 * 16 < 64 by omega), Option.bind_eq_bind, Option.bind_some,
      hm, if_true, Option.some.injEq, List.cons.injEq, and_true]
    exact ofNat_eq (by omega)

theorem lastTwo?_eq_some_iff {a b c : Char} {bytes : List UInt8} :
    lastTwo? a b c = some bytes ↔
      ∃ x y : UInt8, bytes = [x, y] ∧ a = letter (x.toNat / 4) ∧
        b = letter (x.toNat % 4 * 16 + y.toNat / 16) ∧ c = letter (y.toNat % 16 * 4) := by
  constructor
  · intro h
    simp only [lastTwo?, Option.bind_eq_bind, Option.bind_eq_some_iff] at h
    obtain ⟨x, hx, y, hy, z, hz, h⟩ := h
    obtain ⟨hxl, rfl⟩ := value?_eq_some_iff.mp hx
    obtain ⟨hyl, rfl⟩ := value?_eq_some_iff.mp hy
    obtain ⟨hzl, rfl⟩ := value?_eq_some_iff.mp hz
    split at h
    · rename_i hm
      refine ⟨_, _, (Option.some.inj h).symm, ?_⟩
      rw [toNat_ofNat (by omega), toNat_ofNat (by omega)]
      exact ⟨congrArg letter (by omega), congrArg letter (by omega), congrArg letter (by omega)⟩
    · cases h
  · rintro ⟨x, y, rfl, rfl, rfl, rfl⟩
    have hx := x.toNat_lt
    have hy := y.toNat_lt
    have hm : y.toNat % 16 * 4 % 4 = 0 := by omega
    simp only [lastTwo?, value?_letter (show x.toNat / 4 < 64 by omega),
      value?_letter (show x.toNat % 4 * 16 + y.toNat / 16 < 64 by omega),
      value?_letter (show y.toNat % 16 * 4 < 64 by omega), Option.bind_eq_bind, Option.bind_some,
      hm, if_true, Option.some.injEq, List.cons.injEq, and_true]
    exact ⟨ofNat_eq (by omega), ofNat_eq (by omega)⟩

theorem group?_eq_some_iff {a b c d : Char} {bytes : List UInt8} :
    group? a b c d = some bytes ↔
      ∃ x y z : UInt8, bytes = [x, y, z] ∧ a = letter (x.toNat / 4) ∧
        b = letter (x.toNat % 4 * 16 + y.toNat / 16) ∧
        c = letter (y.toNat % 16 * 4 + z.toNat / 64) ∧ d = letter (z.toNat % 64) := by
  constructor
  · intro h
    simp only [group?, Option.bind_eq_bind, Option.bind_eq_some_iff] at h
    obtain ⟨x, hx, y, hy, z, hz, w, hw, h⟩ := h
    obtain ⟨hxl, rfl⟩ := value?_eq_some_iff.mp hx
    obtain ⟨hyl, rfl⟩ := value?_eq_some_iff.mp hy
    obtain ⟨hzl, rfl⟩ := value?_eq_some_iff.mp hz
    obtain ⟨hwl, rfl⟩ := value?_eq_some_iff.mp hw
    refine ⟨_, _, _, (Option.some.inj h).symm, ?_⟩
    rw [toNat_ofNat (by omega), toNat_ofNat (by omega), toNat_ofNat (by omega)]
    exact ⟨congrArg letter (by omega), congrArg letter (by omega), congrArg letter (by omega),
      congrArg letter (by omega)⟩
  · rintro ⟨x, y, z, rfl, rfl, rfl, rfl, rfl⟩
    have hx := x.toNat_lt
    have hy := y.toNat_lt
    have hz := z.toNat_lt
    simp only [group?, value?_letter (show x.toNat / 4 < 64 by omega),
      value?_letter (show x.toNat % 4 * 16 + y.toNat / 16 < 64 by omega),
      value?_letter (show y.toNat % 16 * 4 + z.toNat / 64 < 64 by omega),
      value?_letter (show z.toNat % 64 < 64 by omega), Option.bind_eq_bind, Option.bind_some,
      Option.some.injEq, List.cons.injEq, and_true]
    exact ⟨ofNat_eq (by omega), ofNat_eq (by omega), ofNat_eq (by omega)⟩

theorem decodeChars_group {a b c d : Char} {r : List Char} (hd : d ≠ '=') :
    decodeChars (a :: b :: c :: d :: r) =
      (group? a b c d).bind fun bytes => (decodeChars r).map (bytes ++ ·) := by
  rw [decodeChars]
  · simp only [Option.map_eq_bind]
    rfl
  · simp [hd]
  · simp [hd]

theorem decodeChars_encodeBytes (bytes : List UInt8) :
    decodeChars (encodeBytes bytes) = some bytes := by
  induction bytes using encodeBytes.induct with
  | case1 => rfl
  | case2 a => exact lastByte?_eq_some_iff.mpr ⟨a, rfl, rfl, rfl⟩
  | case3 a b =>
    have hb := b.toNat_lt
    have hp : letter (b.toNat % 16 * 4) ≠ '=' := letter_ne_padding (by omega)
    rw [encodeBytes, decodeChars]
    · exact lastTwo?_eq_some_iff.mpr ⟨a, b, rfl, rfl, rfl, rfl⟩
    · exact fun h => hp h
  | case4 a b c r ih =>
    have hc := c.toNat_lt
    rw [encodeBytes, decodeChars_group (letter_ne_padding (by omega)), ih,
      group?_eq_some_iff.mpr ⟨a, b, c, rfl, rfl, rfl, rfl, rfl⟩]
    rfl

theorem encodeBytes_of_decodeChars {chars : List Char} {bytes : List UInt8}
    (h : decodeChars chars = some bytes) : encodeBytes bytes = chars := by
  induction chars using decodeChars.induct generalizing bytes with
  | case1 => cases h; rfl
  | case2 a b =>
    obtain ⟨x, rfl, rfl, rfl⟩ := lastByte?_eq_some_iff.mp h
    rfl
  | case3 a b c hc =>
    rw [decodeChars] at h
    · obtain ⟨x, y, rfl, rfl, rfl, rfl⟩ := lastTwo?_eq_some_iff.mp h
      rfl
    · exact hc
  | case4 a b c d r h1 h2 ih =>
    rw [decodeChars.eq_4 _ _ _ _ _ h1 h2] at h
    simp only [Option.bind_eq_bind, Option.bind_eq_some_iff] at h
    obtain ⟨here, hg, more, hr, h⟩ := h
    obtain ⟨x, y, z, rfl, rfl, rfl, rfl, rfl⟩ := group?_eq_some_iff.mp hg
    cases h
    rw [List.cons_append, List.cons_append, List.cons_append, List.nil_append, encodeBytes, ih hr]
  | case5 chars h0 h1 h2 h3 =>
    rw [decodeChars.eq_5 _ h0 h1 h2 h3] at h
    cases h

theorem decode_eq_some_iff {text : String} {bytes : List UInt8} :
    decode text = some bytes ↔ text = encode bytes := by
  constructor
  · intro h
    rw [encode, encodeBytes_of_decodeChars h, String.ofList_toList]
  · rintro rfl
    rw [decode, encode, String.toList_ofList, decodeChars_encodeBytes]

end ReqlDriver.Base64
