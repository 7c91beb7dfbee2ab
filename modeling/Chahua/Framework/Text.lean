import Mathlib.Data.List.Basic

namespace Framework

/-- `char::is_whitespace`: the Unicode property `White_Space`. -/
def isWhitespace (c : Char) : Bool :=
  let n := c.toNat
  decide (9 ≤ n ∧ n ≤ 13) || decide (8192 ≤ n ∧ n ≤ 8202) ||
    decide (n ∈ [32, 133, 160, 5760, 8232, 8233, 8239, 8287, 12288])

/-- `split_once`. -/
def splitOnce (sep : Char) (value : String) : Option (String × String) :=
  match value.toList.dropWhile (· ≠ sep) with
  | [] => none
  | _ :: rest => some (String.ofList (value.toList.takeWhile (· ≠ sep)), String.ofList rest)

theorem splitOnce_append {sep : Char} {a b : String} (h : sep ∉ a.toList) :
    splitOnce sep (a ++ String.ofList [sep] ++ b) = some (a, b) := by
  have hall : ∀ c ∈ a.toList, decide (c ≠ sep) = true := by
    intro c hc
    exact decide_eq_true fun heq => h (heq ▸ hc)
  have hlist : (a ++ String.ofList [sep] ++ b).toList = a.toList ++ sep :: b.toList := by simp
  have hdrop : (a.toList ++ sep :: b.toList).dropWhile (· ≠ sep) = sep :: b.toList := by
    rw [List.dropWhile_append_of_pos hall, List.dropWhile_cons_of_neg (by simp)]
  have htake : (a.toList ++ sep :: b.toList).takeWhile (· ≠ sep) = a.toList := by
    rw [List.takeWhile_append_of_pos hall, List.takeWhile_cons_of_neg (by simp), List.append_nil]
  simp only [splitOnce, hlist, hdrop, htake, String.ofList_toList]

theorem not_mem_toString {c : Char} (hc : c.isDigit = false) (hminus : c ≠ '-') (t : Int) :
    c ∉ (toString t).toList := by
  have hdigits : ∀ n : Nat, c ∉ (toString n).toList := by
    intro n hn
    have hlist : (toString n).toList = Nat.toDigits 10 n := Nat.toList_repr
    rw [hlist] at hn
    have hdigit := Nat.isDigit_of_mem_toDigits (by decide) (by decide) hn
    rw [hc] at hdigit
    cases hdigit
  cases t with
  | ofNat n => exact hdigits n
  | negSucc n =>
    have htext : (toString (Int.negSucc n)).toList = '-' :: (toString (n + 1)).toList := by
      show ("-" ++ Nat.repr (n + 1)).toList = _
      rw [String.toList_append]
      rfl
    rw [htext, List.mem_cons]
    intro hmem
    obtain hmem | hmem := hmem
    · exact hminus hmem
    · exact hdigits _ hmem

end Framework
