import Mathlib

namespace Chahua.Api

/-- The 64 bits of a double, as a `DataView` reads and writes them. -/
structure Double where
  bits : Nat
  deriving DecidableEq, Repr

namespace Double

def exponent (d : Double) : Nat := d.bits / 2 ^ 52 % 2 ^ 11

def magnitude (d : Double) : Nat := d.bits % 2 ^ 63

/-- The sign bit is set. -/
def negative (d : Double) : Bool := decide (2 ^ 63 ≤ d.bits)

/-- Neither zero nor subnormal, and neither infinite nor NaN. -/
def Normal (d : Double) : Prop := d.bits < 2 ^ 64 ∧ 0 < d.exponent ∧ d.exponent < 2 ^ 11 - 1

/-- The order of doubles that are numbers: by sign, then by magnitude. Both zeros are equal. -/
def Lt (a b : Double) : Prop :=
  if a.negative then
    if b.negative then b.magnitude < a.magnitude else 0 < a.magnitude ∨ 0 < b.magnitude
  else if b.negative then False
  else a.magnitude < b.magnitude

def isNaN (d : Double) : Bool := decide (2047 * 2 ^ 52 < d.magnitude)

/-- `id < 0`. -/
def belowZero (d : Double) : Bool := d.negative && d.magnitude != 0 && !d.isNaN

end Double

def HALF : Nat := 2 ^ 62

def BASE : Nat := 2 ^ 52

def NEGATIVE_END : Nat := 2 ^ 63 + BASE + HALF - 1

def POSITIVE_OFFSET : Nat := HALF - BASE

/-- `setBigUint64` keeps the value modulo `2 ^ 64`. -/
def setBigUint64 (value : Int) : Double := ⟨(value % 2 ^ 64).toNat⟩

/-- `BigInt` of a decimal literal; no other literal is a canonical decimal. -/
def bigInt (id : String) : Option Int :=
  if id.toList.all Char.isDigit then some (Nat.ofDigitChars 10 id.toList 0) else none

def encodeId (id : String) : Option Double :=
  (bigInt id).map fun value : Int =>
    setBigUint64 (if value < HALF then NEGATIVE_END - value else value - POSITIVE_OFFSET)

def decodeId (id : Double) : String :=
  toString (if id.belowZero then (NEGATIVE_END : Int) - id.bits else id.bits + POSITIVE_OFFSET)

theorem bigInt_toString (n : Nat) : bigInt (toString n) = some (n : Int) := by
  have hdigits : (toString n).toList = Nat.toDigits 10 n := Nat.toList_repr
  have hall : (Nat.toDigits 10 n).all Char.isDigit = true := by
    rw [List.all_eq_true]
    intro c hc
    exact Nat.isDigit_of_mem_toDigits (by decide) (by decide) hc
  rw [bigInt, hdigits, if_pos hall, Nat.ofDigitChars_ten_toDigits]

/-- The bits of the double an id is mapped to. -/
def idBits (n : Nat) : Nat := if n < HALF then NEGATIVE_END - n else n - POSITIVE_OFFSET

/-- The lower half of the ids goes down from the most negative pattern, the upper half up from
the smallest normal one. -/
theorem idBits_cases {n : Nat} (h : n < 2 ^ 63) :
    (n < 2 ^ 62 ∧ idBits n = 2 ^ 63 + (2 ^ 62 + 2 ^ 52 - 1 - n)) ∨
      (2 ^ 62 ≤ n ∧ idBits n = n - 2 ^ 62 + 2 ^ 52) := by
  unfold idBits
  by_cases hn : n < HALF
  · rw [if_pos hn]
    simp only [NEGATIVE_END, HALF, BASE] at hn ⊢
    omega
  · rw [if_neg hn]
    simp only [POSITIVE_OFFSET, HALF, BASE] at hn ⊢
    omega

theorem setBigUint64_natCast {n : Nat} (h : n < 2 ^ 64) : setBigUint64 (n : Int) = ⟨n⟩ := by
  have hmod : ((n : Int) % 2 ^ 64).toNat = n := by omega
  rw [setBigUint64, hmod]

theorem encodeId_toString {n : Nat} (h : n < 2 ^ 63) : encodeId (toString n) = some ⟨idBits n⟩ := by
  have hbits : (if (n : Int) < HALF then (NEGATIVE_END : Int) - n else n - POSITIVE_OFFSET) =
      (idBits n : Int) := by
    unfold idBits
    by_cases hn : n < HALF
    · rw [if_pos (Int.ofNat_lt.mpr hn), if_pos hn]
      simp only [NEGATIVE_END, HALF, BASE] at hn ⊢
      omega
    · rw [if_neg (mt Int.ofNat_lt.mp hn), if_neg hn]
      simp only [POSITIVE_OFFSET, HALF, BASE] at hn ⊢
      omega
  have hlt : idBits n < 2 ^ 64 := by
    obtain ⟨-, hcases⟩ | ⟨-, hcases⟩ := idBits_cases h
    · omega
    · omega
  rw [encodeId, bigInt_toString, Option.map_some, hbits, setBigUint64_natCast hlt]

theorem normal_idBits {n : Nat} (h : n < 2 ^ 63) : (Double.mk (idBits n)).Normal := by
  unfold Double.Normal Double.exponent
  obtain ⟨hlow, hbits⟩ | ⟨hhigh, hbits⟩ := idBits_cases h
  · simp only [hbits]
    omega
  · simp only [hbits]
    omega

theorem idBits_lt {n m : Nat} (h : n < m) (hm : m < 2 ^ 63) :
    (Double.mk (idBits n)).Lt ⟨idBits m⟩ := by
  have hn : n < 2 ^ 63 := Nat.lt_trans h hm
  obtain ⟨hlow, hbits⟩ | ⟨hhigh, hbits⟩ := idBits_cases hn
  · obtain ⟨hlow', hbits'⟩ | ⟨hhigh', hbits'⟩ := idBits_cases hm
    · simp only [Double.Lt, Double.negative, Double.magnitude, hbits, hbits', decide_eq_true_eq]
      rw [if_pos (by omega), if_pos (by omega)]
      omega
    · simp only [Double.Lt, Double.negative, Double.magnitude, hbits, hbits', decide_eq_true_eq]
      rw [if_pos (by omega), if_neg (by omega)]
      omega
  · obtain ⟨hlow', -⟩ | ⟨-, hbits'⟩ := idBits_cases hm
    · omega
    · simp only [Double.Lt, Double.negative, Double.magnitude, hbits, hbits', decide_eq_true_eq]
      rw [if_neg (by omega), if_neg (by omega)]
      omega

theorem belowZero_idBits {n : Nat} (h : n < 2 ^ 63) :
    (Double.mk (idBits n)).belowZero = decide (n < HALF) := by
  have hbits := idBits_cases h
  rw [Bool.eq_iff_iff]
  simp only [Double.belowZero, Double.negative, Double.isNaN, Bool.and_eq_true, bne_iff_ne,
    decide_eq_true_eq, Bool.not_eq_true', decide_eq_false_iff_not]
  simp only [Double.magnitude, HALF]
  omega

theorem decodeId_idBits {n : Nat} (h : n < 2 ^ 63) : decodeId ⟨idBits n⟩ = toString n := by
  have hvalue : (if (Double.mk (idBits n)).belowZero then (NEGATIVE_END : Int) - idBits n
      else idBits n + POSITIVE_OFFSET) = (n : Int) := by
    rw [belowZero_idBits h]
    have hbits := idBits_cases h
    by_cases hn : n < HALF
    · rw [if_pos (by simpa using hn)]
      simp only [NEGATIVE_END, HALF, BASE] at hn ⊢
      omega
    · rw [if_neg (by simpa using hn)]
      simp only [POSITIVE_OFFSET, HALF, BASE] at hn ⊢
      omega
  rw [decodeId, hvalue]
  rfl

end Chahua.Api
