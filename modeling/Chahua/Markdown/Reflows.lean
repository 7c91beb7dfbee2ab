import Chahua.Markdown.Reflow
import Mathlib

namespace Chahua.Markdown

variable {src out next : List Char} {pairs : List (Nat × Nat)} {p : Nat × Nat} {k : Nat}

/-- A space directly inside a pair: only spaces stand between it and one of the markers. -/
def Inside (src : List Char) (p : Nat × Nat) (k : Nat) : Prop :=
  p.1 + 2 ≤ k ∧ k < p.2 ∧
    ((∀ j, p.1 + 2 ≤ j → j ≤ k → HasSpace src j) ∨ ∀ j, k ≤ j → j < p.2 → HasSpace src j)

/-- What may move: the markers of a pair and the spaces directly inside. -/
def Loose (src : List Char) (pairs : List (Nat × Nat)) (k : Nat) : Prop :=
  ∃ p ∈ pairs, (k = p.1 ∨ k = p.1 + 1 ∨ k = p.2 ∨ k = p.2 + 1) ∨ Inside src p k

/-- What the reflows of some pairs keep. -/
structure Reflowed (src : List Char) (pairs : List (Nat × Nat)) (out : List Char) : Prop where
  length : out.length = src.length
  solid : out.filter (fun x => !isSpace x) = src.filter fun x => !isSpace x
  kept : ∀ k, out[k]? = src[k]? ∨ Loose src pairs k ∧ (HasMarker out k ∨ HasSpace out k)
  filled : ∀ p ∈ pairs, ∃ x, p.1 ≤ x ∧ x < p.2 + 2 ∧ HasSolid out x

theorem PairOk.markers (h : PairOk src p) : HasMarker src p.1 ∧ HasMarker src (p.1 + 1) ∧
    HasMarker src p.2 ∧ HasMarker src (p.2 + 1) := by
  obtain ⟨-, ch, ⟨h1, h2, hch⟩, h3, h4, -⟩ := h
  exact ⟨⟨ch, h1, hch⟩, ⟨ch, h2, hch⟩, ⟨ch, h3, hch⟩, ⟨ch, h4, hch⟩⟩

theorem Loose.cons (h : Loose src pairs k) : Loose src (p :: pairs) k := by
  obtain ⟨q, hq, h⟩ := h
  exact ⟨q, List.mem_cons_of_mem _ hq, h⟩

/-- What is loose is a marker or a space. -/
theorem Loose.kind (h : Loose src pairs k) (hok : ∀ q ∈ pairs, PairOk src q) :
    HasMarker src k ∨ HasSpace src k := by
  obtain ⟨q, hq, h | ⟨hle, hlt, h⟩⟩ := h
  · obtain ⟨h1, h2, h3, h4⟩ := (hok q hq).markers
    obtain rfl | rfl | rfl | rfl := h
    · exact .inl h1
    · exact .inl h2
    · exact .inl h3
    · exact .inl h4
  · obtain h | h := h
    · exact .inr (h k hle le_rfl)
    · exact .inr (h k le_rfl hlt)

/-- Reflows of the pairs behind or inside leave the markers of a pair alone. -/
theorem Reflowed.marker_kept (h : Reflowed src pairs out)
    (hfollows : ∀ q ∈ pairs, Follows p q) (hok : ∀ q ∈ pairs, PairOk src q)
    (hk : k = p.1 ∨ k = p.1 + 1 ∨ k = p.2 ∨ k = p.2 + 1) : out[k]? = src[k]? := by
  obtain h | ⟨⟨q, hq, hloose⟩, -⟩ := h.kept k
  · exact h
  · exfalso
    have hf := hfollows q hq
    have hqok := (hok q hq).1
    unfold Follows at hf
    obtain hloose | ⟨hle, hlt, -⟩ := hloose <;> omega

section step

variable {lead trail : Nat}

/-- A position of a processed pair that has become a space lies in front of its content or
behind. -/
theorem closing_not_space (h : Reflowed src pairs out) {q : Nat × Nat} (hq : q ∈ pairs)
    (hspaces : ∀ j, q.1 ≤ j → j < q.2 + 2 → HasSpace out j) : False := by
  obtain ⟨x, hle, hlt, hsolid⟩ := h.filled q hq
  exact hsolid.not_space (hspaces x hle hlt)

theorem loose_front (h : Reflowed src pairs out) (hok : ∀ q ∈ p :: pairs, PairOk src q)
    (hfollows : ∀ q ∈ pairs, Follows p q) (hlead : p.1 + 2 + lead ≤ p.2)
    (hspaces : ∀ j, p.1 + 2 ≤ j → j < p.1 + 2 + lead → HasSpace out j) (n : Nat) (hn : n < lead) :
    Loose src (p :: pairs) (p.1 + 2 + n) := by
  induction n with
  | zero =>
    obtain heq | ⟨hloose, -⟩ := h.kept (p.1 + 2)
    · have hsp := (hspaces (p.1 + 2) le_rfl (by omega)).congr heq.symm
      refine ⟨p, List.mem_cons_self, .inr ⟨le_rfl, by omega, .inl ?_⟩⟩
      intro j hj hjk
      obtain rfl : j = p.1 + 2 := by omega
      exact hsp
    · exact hloose.cons
  | succ n ih =>
    have ih := ih (by omega)
    obtain heq | ⟨hloose, -⟩ := h.kept (p.1 + 2 + (n + 1))
    · have hsp : HasSpace src (p.1 + 2 + n + 1) :=
        (hspaces (p.1 + 2 + (n + 1)) (by omega) (by omega)).congr heq.symm
      have hprev := hspaces (p.1 + 2 + n) (by omega) (by omega)
      generalize hk : p.1 + 2 + n = k at *
      have hgoal : p.1 + 2 + (n + 1) = k + 1 := by omega
      rw [hgoal]
      -- The loose character in front of the space says which pair the space is in.
      have hcase : (∃ q ∈ p :: pairs, k = q.1 + 1) ∨
          ∃ q ∈ p :: pairs, Inside src q k := by
        obtain ⟨q, hq, hm | hin⟩ := ih
        · obtain ⟨hm1, hm2, hm3, hm4⟩ := (hok q hq).markers
          obtain rfl | rfl | rfl | rfl := hm
          · exact absurd hsp hm2.not_space
          · exact .inl ⟨q, hq, rfl⟩
          · exact absurd hsp hm4.not_space
          · exfalso
            obtain rfl | hq' := List.mem_cons.mp hq
            · omega
            · have hf := hfollows q hq'
              have hqok := (hok q hq).1
              unfold Follows at hf
              refine closing_not_space h hq' fun j hj hjlt => hspaces j ?_ ?_ <;> omega
        · exact .inr ⟨q, hq, hin⟩
      obtain ⟨q, hq, rfl⟩ | ⟨q, hq, hle, hlt, hin⟩ := hcase
      · have hqok := (hok q hq).1
        have hne : q.1 + 1 + 1 ≠ q.2 := by
          intro heq
          rw [heq] at hsp
          exact (hok q hq).markers.2.2.1.not_space hsp
        refine ⟨q, hq, .inr ⟨by omega, by omega, .inl ?_⟩⟩
        intro j hj hjk
        obtain rfl : j = q.1 + 1 + 1 := by omega
        exact hsp
      · have hne : k + 1 ≠ q.2 := by
          intro heq
          rw [heq] at hsp
          exact (hok q hq).markers.2.2.1.not_space hsp
        refine ⟨q, hq, .inr ⟨by omega, by omega, ?_⟩⟩
        obtain hin | hin := hin
        · refine .inl fun j hj hjk => ?_
          by_cases hjk' : j = k + 1
          · rw [hjk']
            exact hsp
          · exact hin j hj (by omega)
        · exact .inr fun j hj hjlt => hin j (by omega) hjlt
    · exact hloose.cons

theorem loose_behind (h : Reflowed src pairs out) (hok : ∀ q ∈ p :: pairs, PairOk src q)
    (hfollows : ∀ q ∈ pairs, Follows p q) (htrail : p.1 + 2 + trail ≤ p.2)
    (hspaces : ∀ j, p.2 - trail ≤ j → j < p.2 → HasSpace out j) (n : Nat) (hn : n < trail) :
    Loose src (p :: pairs) (p.2 - 1 - n) := by
  induction n with
  | zero =>
    obtain heq | ⟨hloose, -⟩ := h.kept (p.2 - 1 - 0)
    · have hsp := (hspaces (p.2 - 1 - 0) (by omega) (by omega)).congr heq.symm
      refine ⟨p, List.mem_cons_self, .inr ⟨by omega, by omega, .inr ?_⟩⟩
      intro j hj hjk
      obtain rfl : j = p.2 - 1 - 0 := by omega
      exact hsp
    · exact hloose.cons
  | succ n ih =>
    have ih := ih (by omega)
    obtain heq | ⟨hloose, -⟩ := h.kept (p.2 - 1 - (n + 1))
    · have hsp := (hspaces (p.2 - 1 - (n + 1)) (by omega) (by omega)).congr heq.symm
      have hlow : p.2 - trail ≤ p.2 - 1 - (n + 1) := by omega
      have hhigh : p.2 - 1 - n < p.2 := by omega
      have hgoal : p.2 - 1 - n = p.2 - 1 - (n + 1) + 1 := by omega
      rw [hgoal] at ih hhigh
      generalize p.2 - 1 - (n + 1) = k at *
      -- The loose character behind the space says which pair the space is in.
      have hcase : (∃ q ∈ p :: pairs, k + 1 = q.2) ∨
          ∃ q ∈ p :: pairs, Inside src q (k + 1) := by
        obtain ⟨q, hq, hm | hin⟩ := ih
        · obtain ⟨hm1, hm2, hm3, hm4⟩ := (hok q hq).markers
          obtain hm | hm | hm | hm := hm
          · exfalso
            obtain rfl | hq' := List.mem_cons.mp hq
            · omega
            · have hf := hfollows q hq'
              have hqok := (hok q hq).1
              unfold Follows at hf
              refine closing_not_space h hq' fun j hj hjlt => hspaces j ?_ ?_ <;> omega
          · obtain rfl : k = q.1 := by omega
            exact absurd hsp hm1.not_space
          · exact .inl ⟨q, hq, hm⟩
          · obtain rfl : k = q.2 := by omega
            exact absurd hsp hm3.not_space
        · exact .inr ⟨q, hq, hin⟩
      obtain ⟨q, hq, hm⟩ | ⟨q, hq, hle, hlt, hin⟩ := hcase
      · have hqok := (hok q hq).1
        have hne : k ≠ q.1 + 1 := by
          intro heq
          rw [heq] at hsp
          exact (hok q hq).markers.2.1.not_space hsp
        refine ⟨q, hq, .inr ⟨by omega, by omega, .inr ?_⟩⟩
        intro j hj hjk
        obtain rfl : j = k := by omega
        exact hsp
      · have hne : k ≠ q.1 + 1 := by
          intro heq
          rw [heq] at hsp
          exact (hok q hq).markers.2.1.not_space hsp
        refine ⟨q, hq, .inr ⟨by omega, by omega, ?_⟩⟩
        obtain hin | hin := hin
        · exact .inl fun j hj hjk => hin j hj (by omega)
        · refine .inr fun j hj hjlt => ?_
          by_cases hjk' : j = k
          · rw [hjk']
            exact hsp
          · exact hin j (by omega) hjlt
    · exact hloose.cons

theorem Reflowed.moves (h : Reflowed src pairs out) (hok : ∀ q ∈ p :: pairs, PairOk src q)
    (hfollows : ∀ q ∈ pairs, Follows p q) (hloose : looseSpaces out p = some (lead, trail)) :
    Moves out (reflowPair out p) p.1 p.2 lead trail := by
  obtain ⟨hp, ch, ⟨h1, h2, hch⟩, h3, h4, -⟩ := hok p List.mem_cons_self
  have hkept : ∀ k, k = p.1 ∨ k = p.1 + 1 ∨ k = p.2 ∨ k = p.2 + 1 → out[k]? = src[k]? :=
    fun k hk => h.marker_kept hfollows (fun q hq => hok q (List.mem_cons_of_mem _ hq)) hk
  exact reflowPair_moves hp hch ((hkept _ (.inl rfl)).trans h1)
    ((hkept _ (.inr (.inl rfl))).trans h2) ((hkept _ (.inr (.inr (.inl rfl)))).trans h3)
    ((hkept _ (.inr (.inr (.inr rfl)))).trans h4) hloose

theorem Reflowed.step (h : Reflowed src pairs out) (hok : ∀ q ∈ p :: pairs, PairOk src q)
    (hfollows : ∀ q ∈ pairs, Follows p q) : Reflowed src (p :: pairs) (reflowPair out p) := by
  have hp := (hok p List.mem_cons_self).1
  cases hloose : looseSpaces out p with
  | none =>
    have hsame : reflowPair out p = out := by
      unfold reflowPair
      rw [hloose]
    rw [hsame]
    refine ⟨h.length, h.solid, fun k => (h.kept k).imp_right fun hk => ⟨hk.1.cons, hk.2⟩, ?_⟩
    intro q hq
    obtain rfl | hq := List.mem_cons.mp hq
    · have hmarker := (hok q List.mem_cons_self).markers.1
      exact ⟨q.1, le_rfl, by omega, (hmarker.congr (h.marker_kept hfollows
        (fun r hr => hok r (List.mem_cons_of_mem _ hr)) (.inl rfl))).solid⟩
    · exact h.filled q hq
  | some spaces =>
    obtain ⟨lead, trail⟩ := spaces
    have hm := h.moves hok hfollows hloose
    have hroom := hm.room
    refine ⟨hm.length.trans h.length, hm.solid.trans h.solid, ?_, ?_⟩
    · intro k
      by_cases hfront : 0 < lead ∧ p.1 ≤ k ∧ k < p.1 + 2 + lead
      · refine .inr ⟨?_, hm.moved k (.inl hfront.2)⟩
        by_cases hk : k < p.1 + 2
        · exact ⟨p, List.mem_cons_self, .inl (by omega)⟩
        · have hl := loose_front h hok hfollows (by omega) hm.front (k - (p.1 + 2)) (by omega)
          rwa [show p.1 + 2 + (k - (p.1 + 2)) = k by omega] at hl
      · by_cases hback : 0 < trail ∧ p.2 - trail ≤ k ∧ k < p.2 + 2
        · refine .inr ⟨?_, hm.moved k (.inr hback.2)⟩
          by_cases hk : p.2 ≤ k
          · exact ⟨p, List.mem_cons_self, .inl (by omega)⟩
          · have hl := loose_behind h hok hfollows (by omega) hm.behind (p.2 - 1 - k) (by omega)
            rwa [show p.2 - 1 - (p.2 - 1 - k) = k by omega] at hl
        · have hsame := hm.kept k hfront hback
          obtain heq | ⟨hl, hkind⟩ := h.kept k
          · exact .inl (hsame.trans heq)
          · exact .inr ⟨hl.cons, hkind.imp (fun h => h.congr hsame) fun h => h.congr hsame⟩
    · intro q hq
      obtain rfl | hq := List.mem_cons.mp hq
      · exact ⟨q.1 + lead, by omega, by omega, hm.marker.solid⟩
      · obtain ⟨x, hle, hlt, hsolid⟩ := h.filled q hq
        have hf := hfollows q hq
        unfold Follows at hf
        refine ⟨x, hle, hlt, hsolid.congr (hm.kept x ?_ ?_)⟩
        · intro hfront
          exact hsolid.not_space (hm.front x (by omega) hfront.2.2)
        · intro hback
          exact hsolid.not_space (hm.behind x hback.2.1 (by omega))

end step

theorem not_break_of_kind {s : List Char} {k : Nat} {c : Char} (h : HasMarker s k ∨ HasSpace s k)
    (hc : isBreak c = true) : s[k]? ≠ some c := by
  intro hget
  simp only [isBreak, Bool.or_eq_true, beq_iff_eq] at hc
  obtain ⟨d, hd, hkind⟩ | ⟨d, hd, hkind⟩ := h
  · obtain rfl := Option.some.inj (hget.symm.trans hd)
    obtain rfl | rfl := hc <;> cases hkind
  · obtain rfl := Option.some.inj (hget.symm.trans hd)
    obtain rfl | rfl := hc <;> cases hkind

end Chahua.Markdown
