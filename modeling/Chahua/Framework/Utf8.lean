import Mathlib.Data.List.Basic
import Mathlib.Tactic.Common

namespace Framework

/-- The bytes of a character. -/
def charBytes (c : Char) : List Nat := (String.utf8EncodeChar c).map UInt8.toNat

def strBytes (text : List Char) : List Nat := text.flatMap charBytes

def byteLen : List Char → Nat
  | [] => 0
  | c :: text => c.utf8Size + byteLen text

/-- The text from a byte on, if a character starts there or the text ends. -/
def sliceFrom : List Char → Nat → Option (List Char)
  | text, 0 => some text
  | [], _ + 1 => none
  | c :: text, n + 1 =>
      if c.utf8Size ≤ n + 1 then sliceFrom text (n + 1 - c.utf8Size) else none

/-- The text up to a byte, if a character ends there. -/
def sliceTo : List Char → Nat → Option (List Char)
  | _, 0 => some []
  | [], _ + 1 => none
  | c :: text, n + 1 =>
      if c.utf8Size ≤ n + 1 then (sliceTo text (n + 1 - c.utf8Size)).map (c :: ·) else none

/-- The text between two bytes. -/
def slice (text : List Char) (first last : Nat) : Option (List Char) :=
  if first ≤ last then (sliceFrom text first).bind (sliceTo · (last - first)) else none

/-- The byte at which a character is found first. -/
def findChar (ch : Char) : List Char → Option Nat
  | [] => none
  | c :: text => if c = ch then some 0 else (findChar ch text).map (c.utf8Size + ·)

@[simp] theorem byteLen_append (a b : List Char) : byteLen (a ++ b) = byteLen a + byteLen b := by
  induction a with
  | nil => simp [byteLen]
  | cons c a ih => simp [byteLen, ih, Nat.add_assoc]

@[simp] theorem length_charBytes (c : Char) : (charBytes c).length = c.utf8Size := by
  unfold charBytes
  rw [List.length_map, String.length_utf8EncodeChar]

theorem length_strBytes (text : List Char) : (strBytes text).length = byteLen text := by
  induction text with
  | nil => rfl
  | cons c text ih =>
    unfold strBytes at ih ⊢
    rw [List.flatMap_cons, List.length_append, ih, length_charBytes]
    rfl

theorem strBytes_append (a b : List Char) : strBytes (a ++ b) = strBytes a ++ strBytes b :=
  List.flatMap_append

/-- The bytes of a character within a text. -/
theorem strBytes_getElem? (before : List Char) (c : Char) (after : List Char) {k : Nat}
    (hk : k < c.utf8Size) :
    (strBytes (before ++ c :: after))[byteLen before + k]? = (charBytes c)[k]? := by
  have hcons : strBytes (c :: after) = charBytes c ++ strBytes after := List.flatMap_cons
  rw [strBytes_append, hcons, ← length_strBytes,
    List.getElem?_append_right (Nat.le_add_right _ _), Nat.add_sub_cancel_left,
    List.getElem?_append_left (by rwa [length_charBytes])]

theorem sliceFrom_append (before after : List Char) :
    sliceFrom (before ++ after) (byteLen before) = some after := by
  induction before with
  | nil => cases after <;> rfl
  | cons c before ih =>
    have hpos := c.utf8Size_pos
    obtain ⟨n, hn⟩ : ∃ n, c.utf8Size + byteLen before = n + 1 :=
      ⟨c.utf8Size + byteLen before - 1, by omega⟩
    have hrest : n + 1 - c.utf8Size = byteLen before := by omega
    rw [List.cons_append, byteLen, hn, sliceFrom, if_pos (by omega), hrest, ih]

theorem sliceTo_append (before after : List Char) :
    sliceTo (before ++ after) (byteLen before) = some before := by
  induction before with
  | nil => cases after <;> rfl
  | cons c before ih =>
    have hpos := c.utf8Size_pos
    obtain ⟨n, hn⟩ : ∃ n, c.utf8Size + byteLen before = n + 1 :=
      ⟨c.utf8Size + byteLen before - 1, by omega⟩
    have hrest : n + 1 - c.utf8Size = byteLen before := by omega
    rw [List.cons_append, byteLen, hn, sliceTo, if_pos (by omega), hrest, ih]
    rfl

theorem slice_append (before middle after : List Char) :
    slice (before ++ (middle ++ after)) (byteLen before) (byteLen (before ++ middle)) =
      some middle := by
  unfold slice
  rw [byteLen_append, if_pos (Nat.le_add_right _ _), sliceFrom_append, Option.bind_some,
    Nat.add_sub_cancel_left, sliceTo_append]

theorem findChar_eq (ch : Char) (text : List Char) :
    findChar ch text =
      if ch ∈ text then some (byteLen (text.takeWhile (· ≠ ch))) else none := by
  induction text with
  | nil => rfl
  | cons c text ih =>
    unfold findChar
    by_cases heq : c = ch
    · subst heq
      simp [byteLen]
    · have hne : ¬ch = c := fun h => heq h.symm
      rw [if_neg heq, ih]
      by_cases hmem : ch ∈ text
      · simp [hmem, heq, byteLen]
      · simp [hmem, hne]

/-- A character of one byte is that byte; the bytes of any other one are above ASCII, and the first
one tells their number. -/
theorem charBytes_cases (c : Char) :
    c.utf8Size = 1 ∧ charBytes c = [c.toNat] ∧ c.toNat < 0x80 ∨
      1 < c.utf8Size ∧ (∀ b ∈ charBytes c, 0x80 ≤ b) ∧ ∃ b rest, charBytes c = b :: rest ∧
        (c.utf8Size = 2 ∧ b < 0xE0 ∨ c.utf8Size = 3 ∧ 0xE0 ≤ b ∧ b < 0xF0 ∨
          c.utf8Size = 4 ∧ 0xF0 ≤ b) := by
  have hlen := length_charBytes c
  have hval : c.val.toNat = c.toNat := rfl
  unfold charBytes String.utf8EncodeChar at hlen ⊢
  simp only [hval] at hlen ⊢
  split at hlen
  · next h =>
    rw [if_pos h]
    refine .inl ⟨hlen.symm, ?_, by omega⟩
    simp only [List.map_cons, List.map_nil, UInt8.toNat_ofNat']
    rw [Nat.mod_eq_of_lt (by omega)]
  · next h =>
    rw [if_neg h]
    split at hlen
    · next h' =>
      rw [if_pos h']
      simp only [List.map_cons, List.map_nil, UInt8.toNat_ofNat', List.length_cons,
        List.length_nil] at hlen ⊢
      refine .inr ⟨by omega, ?_, _, _, rfl, .inl ⟨hlen.symm, by omega⟩⟩
      simp only [List.mem_cons, List.not_mem_nil, or_false, forall_eq_or_imp, forall_eq]
      omega
    · next h' =>
      rw [if_neg h']
      split at hlen
      · next h'' =>
        rw [if_pos h'']
        simp only [List.map_cons, List.map_nil, UInt8.toNat_ofNat', List.length_cons,
          List.length_nil] at hlen ⊢
        refine .inr ⟨by omega, ?_, _, _, rfl, .inr (.inl ⟨hlen.symm, by omega⟩)⟩
        simp only [List.mem_cons, List.not_mem_nil, or_false, forall_eq_or_imp, forall_eq]
        omega
      · next h'' =>
        rw [if_neg h'']
        simp only [List.map_cons, List.map_nil, UInt8.toNat_ofNat', List.length_cons,
          List.length_nil] at hlen ⊢
        refine .inr ⟨by omega, ?_, _, _, rfl, .inr (.inr ⟨hlen.symm, by omega⟩)⟩
        simp only [List.mem_cons, List.not_mem_nil, or_false, forall_eq_or_imp, forall_eq]
        omega

/-- An ASCII character is known by the first byte. -/
theorem charBytes_head_eq_some {c a : Char} (ha : a.toNat < 0x80) :
    (charBytes c)[0]? = some a.toNat ↔ c = a := by
  constructor
  · intro h
    obtain ⟨-, hbytes, -⟩ | ⟨-, habove, -⟩ := charBytes_cases c
    · rw [hbytes] at h
      exact Char.toNat_inj.mp (Option.some.inj h)
    · have hle := habove _ (List.mem_of_getElem? h)
      omega
  · rintro rfl
    obtain ⟨-, hbytes, -⟩ | ⟨-, habove, b, rest, hbytes, -⟩ := charBytes_cases c
    · rw [hbytes]
      rfl
    · have hval : c.val.toNat = c.toNat := rfl
      unfold charBytes String.utf8EncodeChar at hbytes ⊢
      simp only [hval] at hbytes ⊢
      rw [if_pos (by omega)]
      simp only [List.map_cons, List.map_nil, UInt8.toNat_ofNat', List.getElem?_cons_zero]
      rw [Nat.mod_eq_of_lt (by omega)]

end Framework
