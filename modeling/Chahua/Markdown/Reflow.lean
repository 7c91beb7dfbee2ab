import Chahua.Markdown.Pairs
import Mathlib

namespace Chahua.Markdown

def HasSpace (s : List Char) (k : Nat) : Prop := ∃ c, s[k]? = some c ∧ isSpace c = true

def HasMarker (s : List Char) (k : Nat) : Prop := ∃ c, s[k]? = some c ∧ isMarker c = true

def HasSolid (s : List Char) (k : Nat) : Prop := ∃ c, s[k]? = some c ∧ isSpace c = false

theorem isSpace_of_isMarker {c : Char} (h : isMarker c = true) : isSpace c = false := by
  simp only [isMarker, Bool.or_eq_true, beq_iff_eq, or_assoc] at h
  obtain rfl | rfl | rfl := h <;> rfl

theorem HasMarker.not_space {s : List Char} {k : Nat} (h : HasMarker s k) : ¬HasSpace s k := by
  intro hspace
  obtain ⟨c, hc, hmarker⟩ := h
  obtain ⟨d, hd, hspace⟩ := hspace
  rw [hc] at hd
  rw [← Option.some.inj hd, isSpace_of_isMarker hmarker] at hspace
  cases hspace

theorem HasSolid.not_space {s : List Char} {k : Nat} (h : HasSolid s k) : ¬HasSpace s k := by
  intro hspace
  obtain ⟨c, hc, hsolid⟩ := h
  obtain ⟨d, hd, hspace⟩ := hspace
  rw [hc] at hd
  rw [← Option.some.inj hd, hsolid] at hspace
  cases hspace

theorem HasMarker.solid {s : List Char} {k : Nat} (h : HasMarker s k) : HasSolid s k := by
  obtain ⟨c, hc, hmarker⟩ := h
  exact ⟨c, hc, isSpace_of_isMarker hmarker⟩

theorem HasSpace.congr {s t : List Char} {k : Nat} (h : HasSpace s k) (heq : t[k]? = s[k]?) :
    HasSpace t k := by
  obtain ⟨c, hc, hspace⟩ := h
  exact ⟨c, heq.trans hc, hspace⟩

theorem HasSolid.congr {s t : List Char} {k : Nat} (h : HasSolid s k) (heq : t[k]? = s[k]?) :
    HasSolid t k := by
  obtain ⟨c, hc, hsolid⟩ := h
  exact ⟨c, heq.trans hc, hsolid⟩

theorem HasMarker.congr {s t : List Char} {k : Nat} (h : HasMarker s k) (heq : t[k]? = s[k]?) :
    HasMarker t k := by
  obtain ⟨c, hc, hmarker⟩ := h
  exact ⟨c, heq.trans hc, hmarker⟩

/-- The text between two markers: the spaces in front, the rest, and the spaces behind. -/
theorem middle_split (mid : List Char) : ∃ L I T, mid = L ++ I ++ T ∧ L.length = leadOf mid ∧
    T.length = trailOf mid ∧ (∀ c ∈ L, isSpace c = true) ∧ (∀ c ∈ T, isSpace c = true) ∧
    ∀ c, I.getLast? = some c → isSpace c = false := by
  have hdrop : mid.drop (leadOf mid) = mid.dropWhile isSpace := by
    calc mid.drop (leadOf mid)
        = (mid.takeWhile isSpace ++ mid.dropWhile isSpace).drop (leadOf mid) := by
          rw [List.takeWhile_append_dropWhile]
      _ = mid.dropWhile isSpace := List.drop_left' rfl
  refine ⟨mid.takeWhile isSpace, ((mid.drop (leadOf mid)).reverse.dropWhile isSpace).reverse,
    ((mid.drop (leadOf mid)).reverse.takeWhile isSpace).reverse, ?_, rfl, ?_, ?_, ?_, ?_⟩
  · rw [List.append_assoc, ← List.reverse_append, List.takeWhile_append_dropWhile,
      List.reverse_reverse, hdrop, List.takeWhile_append_dropWhile]
  · rw [List.length_reverse]
    rfl
  · exact fun c hc => List.mem_takeWhile_imp hc
  · exact fun c hc => List.mem_takeWhile_imp (List.mem_reverse.mp hc)
  · intro c hc
    rw [List.getLast?_reverse] at hc
    have hnot := List.head?_dropWhile_not isSpace (mid.drop (leadOf mid)).reverse
    rw [hc] at hnot
    exact hnot

/-- A text around the markers of a pair. -/
theorem split_at_pair {out : List Char} {o c : Nat} {ch : Char} (hoc : o + 2 ≤ c)
    (h1 : out[o]? = some ch) (h2 : out[o + 1]? = some ch) (h3 : out[c]? = some ch)
    (h4 : out[c + 1]? = some ch) :
    out = out.take o ++ ([ch, ch] ++ middle out o c ++ [ch, ch]) ++ out.drop (c + 2) ∧
      (middle out o c).length + o + 2 = c := by
  obtain ⟨hlt, h4⟩ := List.getElem?_eq_some_iff.mp h4
  obtain ⟨_, h1⟩ := List.getElem?_eq_some_iff.mp h1
  obtain ⟨_, h2⟩ := List.getElem?_eq_some_iff.mp h2
  obtain ⟨_, h3⟩ := List.getElem?_eq_some_iff.mp h3
  have hmid : middle out o c = (out.drop (o + 2)).take (c - (o + 2)) := by
    unfold middle
    rw [List.drop_take]
  have hopen : out.drop o = ch :: ch :: out.drop (o + 2) := by
    rw [List.drop_eq_getElem_cons (by omega), h1, List.drop_eq_getElem_cons (by omega), h2]
  have hclose : out.drop c = ch :: ch :: out.drop (c + 2) := by
    rw [List.drop_eq_getElem_cons (by omega), h3, List.drop_eq_getElem_cons (by omega), h4]
  have hrest : out.drop (o + 2) = middle out o c ++ out.drop c := by
    rw [hmid]
    have hdrop : out.drop c = (out.drop (o + 2)).drop (c - (o + 2)) := by
      rw [List.drop_drop]
      congr 1
      omega
    rw [hdrop, List.take_append_drop]
  refine ⟨?_, ?_⟩
  · calc out = out.take o ++ out.drop o := (List.take_append_drop o out).symm
      _ = out.take o ++ ([ch, ch] ++ middle out o c ++ [ch, ch]) ++ out.drop (c + 2) := by
          rw [hopen, hrest, hclose]
          simp
  · rw [hmid, List.length_take, List.length_drop]
    omega

/-- What a reflow that moves something does to the text. -/
structure Moves (out next : List Char) (o c lead trail : Nat) : Prop where
  room : o + 2 + lead + trail < c
  length : next.length = out.length
  solid : next.filter (fun x => !isSpace x) = out.filter fun x => !isSpace x
  kept : ∀ k, ¬(0 < lead ∧ o ≤ k ∧ k < o + 2 + lead) →
    ¬(0 < trail ∧ c - trail ≤ k ∧ k < c + 2) → next[k]? = out[k]?
  moved : ∀ k, (o ≤ k ∧ k < o + 2 + lead) ∨ (c - trail ≤ k ∧ k < c + 2) →
    HasMarker next k ∨ HasSpace next k
  front : ∀ k, o + 2 ≤ k → k < o + 2 + lead → HasSpace out k
  behind : ∀ k, c - trail ≤ k → k < c → HasSpace out k
  marker : HasMarker next (o + lead)
  closing : HasMarker next (c - trail)
  stops : HasSolid out (c - trail - 1)

theorem getElem?_replace {A P P' R : List Char} {k : Nat} (hlen : P.length = P'.length)
    (hk : k < A.length ∨ A.length + P.length ≤ k) : (A ++ (P' ++ R))[k]? = (A ++ (P ++ R))[k]? := by
  obtain hk | hk := hk
  · rw [List.getElem?_append_left hk, List.getElem?_append_left hk]
  · rw [List.getElem?_append_right (by omega), List.getElem?_append_right (by omega),
      List.getElem?_append_right (by omega), List.getElem?_append_right (by omega), hlen]

theorem getElem?_part {A P R : List Char} {k : Nat} (hle : A.length ≤ k)
    (hlt : k < A.length + P.length) : ∃ c ∈ P, (A ++ (P ++ R))[k]? = some c := by
  rw [List.getElem?_append_right hle, List.getElem?_append_left (by omega)]
  have hk : k - A.length < P.length := by omega
  exact ⟨P[k - A.length], List.getElem_mem hk, List.getElem?_eq_getElem hk⟩

theorem moves_of_parts {A L I T B : List Char} {ch : Char} (hch : isMarker ch = true)
    (hL : ∀ c ∈ L, isSpace c = true) (hT : ∀ c ∈ T, isSpace c = true) (hI : I ≠ [])
    (hlast : ∀ c, I.getLast? = some c → isSpace c = false) :
    Moves (A ++ (([ch, ch] ++ L) ++ (I ++ ((T ++ [ch, ch]) ++ B))))
      (A ++ ((L ++ [ch, ch]) ++ (I ++ (([ch, ch] ++ T) ++ B)))) A.length
      (A.length + 2 + L.length + I.length + T.length) L.length T.length := by
  have hIlen := List.length_pos_of_ne_nil hI
  have hpart : ∀ S : List Char, (∀ c ∈ S, isSpace c = true) → ∀ c, c ∈ [ch, ch] ∨ c ∈ S →
      isMarker c = true ∨ isSpace c = true := by
    intro S hS c hc
    obtain hc | hc := hc
    · have : c = ch := by simpa using hc
      exact .inl (this ▸ hch)
    · exact .inr (hS c hc)
  have hassoc : ∀ X Y : List Char, A ++ (X ++ (I ++ (Y ++ B))) = (A ++ X ++ I) ++ (Y ++ B) := by
    intro X Y
    simp
  refine ⟨by omega, by simp only [List.length_append]; omega, ?_, ?_, ?_, ?_, ?_, ?_, ?_, ?_⟩
  · have hsp : ∀ S : List Char, (∀ c ∈ S, isSpace c = true) →
        S.filter (fun x => !isSpace x) = [] := by
      intro S hS
      rw [List.filter_eq_nil_iff]
      intro c hc
      simp [hS c hc]
    simp only [List.filter_append, hsp L hL, hsp T hT, List.append_nil, List.nil_append]
  · intro k h1 h2
    have hfront : (A ++ ((L ++ [ch, ch]) ++ (I ++ (([ch, ch] ++ T) ++ B))))[k]? =
        (A ++ (([ch, ch] ++ L) ++ (I ++ (([ch, ch] ++ T) ++ B))))[k]? := by
      by_cases hzero : L = []
      · rw [hzero]
        simp
      · have hpos := List.length_pos_of_ne_nil hzero
        refine getElem?_replace (by simp only [List.length_append]; omega) ?_
        rw [List.length_append]
        simp only [List.length_cons, List.length_nil]
        omega
    have hback : (A ++ (([ch, ch] ++ L) ++ (I ++ (([ch, ch] ++ T) ++ B))))[k]? =
        (A ++ (([ch, ch] ++ L) ++ (I ++ ((T ++ [ch, ch]) ++ B))))[k]? := by
      by_cases hzero : T = []
      · rw [hzero]
        simp
      · have hpos := List.length_pos_of_ne_nil hzero
        rw [hassoc, hassoc]
        refine getElem?_replace (by simp only [List.length_append]; omega) ?_
        simp only [List.length_append, List.length_cons, List.length_nil]
        omega
    exact hfront.trans hback
  · intro k hk
    obtain ⟨hle, hlt⟩ | ⟨hle, hlt⟩ := hk
    · obtain ⟨c, hc, hget⟩ := @getElem?_part A (L ++ [ch, ch]) (I ++ (([ch, ch] ++ T) ++ B)) k hle
        (by simp only [List.length_append, List.length_cons, List.length_nil]; omega)
      obtain h | h := hpart L hL c (by simpa [or_comm] using hc)
      · exact .inl ⟨c, hget, h⟩
      · exact .inr ⟨c, hget, h⟩
    · have hlen : (A ++ (L ++ [ch, ch]) ++ I).length = A.length + 2 + L.length + I.length := by
        simp only [List.length_append, List.length_cons, List.length_nil]
        omega
      obtain ⟨c, hc, hget⟩ := @getElem?_part (A ++ (L ++ [ch, ch]) ++ I) ([ch, ch] ++ T) B k
        (by omega)
        (by simp only [hlen, List.length_append, List.length_cons, List.length_nil]; omega)
      rw [← hassoc] at hget
      obtain h | h := hpart T hT c (by simpa using hc)
      · exact .inl ⟨c, hget, h⟩
      · exact .inr ⟨c, hget, h⟩
  · intro k hle hlt
    have hassoc' : A ++ (([ch, ch] ++ L) ++ (I ++ ((T ++ [ch, ch]) ++ B))) =
        (A ++ [ch, ch]) ++ (L ++ (I ++ ((T ++ [ch, ch]) ++ B))) := by simp
    have hlen : (A ++ [ch, ch]).length = A.length + 2 := by simp
    obtain ⟨c, hc, hget⟩ := @getElem?_part (A ++ [ch, ch]) L (I ++ ((T ++ [ch, ch]) ++ B)) k
      (by omega) (by omega)
    rw [← hassoc'] at hget
    exact ⟨c, hget, hL c hc⟩
  · intro k hle hlt
    have hassoc' : A ++ (([ch, ch] ++ L) ++ (I ++ ((T ++ [ch, ch]) ++ B))) =
        (A ++ ([ch, ch] ++ L) ++ I) ++ (T ++ ([ch, ch] ++ B)) := by simp
    have hlen : (A ++ ([ch, ch] ++ L) ++ I).length = A.length + 2 + L.length + I.length := by
      simp only [List.length_append, List.length_cons, List.length_nil]
      omega
    obtain ⟨c, hc, hget⟩ := @getElem?_part (A ++ ([ch, ch] ++ L) ++ I) T ([ch, ch] ++ B) k
      (by omega) (by omega)
    rw [← hassoc'] at hget
    exact ⟨c, hget, hT c hc⟩
  · refine ⟨ch, ?_, hch⟩
    have hassoc' : A ++ ((L ++ [ch, ch]) ++ (I ++ (([ch, ch] ++ T) ++ B))) =
        (A ++ L) ++ ([ch, ch] ++ (I ++ (([ch, ch] ++ T) ++ B))) := by simp
    obtain ⟨c, hc, hget⟩ := @getElem?_part (A ++ L) [ch, ch] (I ++ (([ch, ch] ++ T) ++ B))
      (A.length + L.length) (by simp) (by simp)
    rw [hassoc', hget]
    have : c = ch := by simpa using hc
    rw [this]
  · refine ⟨ch, ?_, hch⟩
    have hlen : (A ++ (L ++ [ch, ch]) ++ I).length = A.length + 2 + L.length + I.length := by
      simp only [List.length_append, List.length_cons, List.length_nil]
      omega
    obtain ⟨c, hc, hget⟩ := @getElem?_part (A ++ (L ++ [ch, ch]) ++ I) [ch, ch] (T ++ B)
      (A.length + 2 + L.length + I.length) (by omega) (by rw [hlen]; simp)
    have hassoc' : A ++ ((L ++ [ch, ch]) ++ (I ++ (([ch, ch] ++ T) ++ B))) =
        (A ++ (L ++ [ch, ch]) ++ I) ++ ([ch, ch] ++ (T ++ B)) := by simp
    rw [hassoc', Nat.add_sub_cancel, hget]
    have : c = ch := by simpa using hc
    rw [this]
  · refine ⟨I.getLast hI, ?_, hlast _ (List.getLast?_eq_some_getLast hI)⟩
    have hassoc' : A ++ (([ch, ch] ++ L) ++ (I ++ ((T ++ [ch, ch]) ++ B))) =
        (A ++ ([ch, ch] ++ L)) ++ (I ++ ((T ++ [ch, ch]) ++ B)) := by simp
    have hlen : (A ++ ([ch, ch] ++ L)).length = A.length + 2 + L.length := by
      simp only [List.length_append, List.length_cons, List.length_nil]
      omega
    rw [hassoc', Nat.add_sub_cancel, List.getElem?_append_right (by omega),
      List.getElem?_append_left (by omega), List.getLast_eq_getElem]
    have hindex : A.length + 2 + L.length + I.length - 1 - (A ++ ([ch, ch] ++ L)).length =
        I.length - 1 := by omega
    rw [hindex]
    exact List.getElem?_eq_getElem (by omega)

/-- A reflow changes nothing, or moves the loose spaces of its pair. -/
theorem reflowPair_moves {out : List Char} {p : Nat × Nat} {ch : Char} {lead trail : Nat}
    (hp : p.1 + 2 ≤ p.2) (hch : isMarker ch = true) (h1 : out[p.1]? = some ch)
    (h2 : out[p.1 + 1]? = some ch) (h3 : out[p.2]? = some ch) (h4 : out[p.2 + 1]? = some ch)
    (hloose : looseSpaces out p = some (lead, trail)) :
    Moves out (reflowPair out p) p.1 p.2 lead trail := by
  obtain ⟨hsplit, hlen⟩ := split_at_pair hp h1 h2 h3 h4
  obtain ⟨L, I, T, hmid, hL, hT, hLs, hTs, hlast⟩ := middle_split (middle out p.1 p.2)
  have hlengths : (middle out p.1 p.2).length = L.length + I.length + T.length := by
    conv_lhs => rw [hmid]
    simp only [List.length_append]
  have hvalues : leadOf (middle out p.1 p.2) = lead ∧ trailOf (middle out p.1 p.2) = trail ∧
      (middle out p.1 p.2).length - leadOf (middle out p.1 p.2) -
        trailOf (middle out p.1 p.2) ≠ 0 := by
    unfold looseSpaces at hloose
    dsimp only at hloose
    split at hloose
    · cases hloose
    · split at hloose
      · cases hloose
      · split at hloose
        · cases hloose
        · next hinner =>
          split at hloose
          · cases hloose
          · split at hloose
            · cases hloose
            · simp only [Option.some.injEq, Prod.mk.injEq] at hloose
              exact ⟨hloose.1, hloose.2, hinner⟩
  obtain ⟨hlead, htrail, hinner⟩ := hvalues
  have hLlen : L.length = lead := hL.trans hlead
  have hTlen : T.length = trail := hT.trans htrail
  have hIlen : I ≠ [] := by
    intro hnil
    rw [hnil] at hlengths
    simp only [List.length_nil] at hlengths
    omega
  have hAlen : (out.take p.1).length = p.1 := by
    obtain ⟨hlt, -⟩ := List.getElem?_eq_some_iff.mp h1
    rw [List.length_take]
    omega
  have hnext : reflowPair out p = out.take p.1 ++ ((L ++ [ch, ch]) ++
      (I ++ (([ch, ch] ++ T) ++ out.drop (p.2 + 2)))) := by
    unfold reflowPair
    rw [hloose]
    dsimp only
    have htakeL : (middle out p.1 p.2).take lead = L := by
      rw [hmid, List.append_assoc, ← hLlen, List.take_left]
    have hdropL : ((middle out p.1 p.2).drop lead).take
        ((middle out p.1 p.2).length - lead - trail) = I := by
      rw [hlengths]
      conv_lhs => rw [hmid]
      rw [List.append_assoc, ← hLlen, List.drop_left, List.take_append_of_le_length (by omega)]
      exact List.take_of_length_le (by omega)
    have hdropT : (middle out p.1 p.2).drop ((middle out p.1 p.2).length - trail) = T := by
      rw [hlengths]
      conv_lhs => rw [hmid]
      have hn : L.length + I.length + T.length - trail = (L ++ I).length := by
        rw [List.length_append]
        omega
      rw [hn, List.drop_left]
    rw [htakeL, hdropL, hdropT, h1]
    simp
  have hout : out = out.take p.1 ++ (([ch, ch] ++ L) ++
      (I ++ ((T ++ [ch, ch]) ++ out.drop (p.2 + 2)))) := by
    conv_lhs => rw [hsplit, hmid]
    simp
  have hclose : p.1 + 2 + L.length + I.length + T.length = p.2 := by omega
  have hmoves := @moves_of_parts (out.take p.1) L I T (out.drop (p.2 + 2)) ch hch hLs hTs hIlen hlast
  rw [← hout, ← hnext, hAlen, hclose, hLlen, hTlen] at hmoves
  exact hmoves

end Chahua.Markdown
