import Mathlib.Data.Finset.Basic

namespace Chahua.Messages

/-- `str::parse::<i32>`: an optional sign, at least one digit, a value in range. -/
def parseI32 (text : List Char) : Option Int :=
  let (negative, digits) := match text with
    | '-' :: rest => (true, rest)
    | '+' :: rest => (false, rest)
    | rest => (false, rest)
  if digits = [] ∨ digits.any (fun c => !c.isDigit) then none
  else
    let magnitude : Int := digits.foldl (fun n c => n * 10 + (c.toNat - '0'.toNat : Nat)) 0
    let value := if negative then -magnitude else magnitude
    if -2147483648 ≤ value ∧ value ≤ 2147483647 then some value else none

/-- The uid of a token at the start of the text, and what follows the token. -/
def parseMentionToken : List Char → Option (Int × List Char)
  | '@' :: '[' :: rest =>
      if ']' ∈ rest then
        match rest.takeWhile (· ≠ ']') with
        | 'u' :: 'i' :: 'd' :: ':' :: uid =>
            (parseI32 uid).map fun uid => (uid, (rest.dropWhile (· ≠ ']')).drop 1)
        | _ => none
      else none
  | _ => none

/-- The scan; every step of it consumes at least one character. -/
def scanMentionUids : Nat → List Char → List Int → List Int
  | 0, _, uids => uids
  | _ + 1, [], uids => uids
  | fuel + 1, c :: text, uids =>
      match parseMentionToken (c :: text) with
      | some (uid, next) =>
          scanMentionUids fuel next (if uid ∈ uids then uids else uids ++ [uid])
      | none => scanMentionUids fuel text uids

def extractMentionUids (text : String) : List Int :=
  scanMentionUids text.length text.toList []

theorem parseMentionToken_length {text next : List Char} {uid : Int}
    (h : parseMentionToken text = some (uid, next)) : next.length < text.length := by
  unfold parseMentionToken at h
  split at h
  · next rest =>
    split at h
    · split at h
      · obtain ⟨n, -, hn⟩ := Option.map_eq_some_iff.mp h
        obtain ⟨-, rfl⟩ := Prod.mk.inj hn
        have hdrop := (List.dropWhile_suffix (fun c => decide (c ≠ ']')) (l := rest)).length_le
        simp only [List.length_drop, List.length_cons]
        omega
      · cases h
    · cases h
  · cases h

example : extractMentionUids "@[uid:7] 你好 @[uid:8] @[user:7] @[uid:7]" = [7, 8] := by decide

end Chahua.Messages
