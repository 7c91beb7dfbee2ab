import Chahua.Markdown.Reflows
import Mathlib

namespace Chahua.Markdown

variable {src out next : List Char} {pairs : List (Nat × Nat)} {p : Nat × Nat} {k : Nat}
  {masked : List Bool} {lead trail : Nat}

/-- Nothing on the text itself keeps the pair as it is: its content is on one line and not only
spaces, and no digit or letter next to it forbids the change. -/
def Movable (src : List Char) (p : Nat × Nat) : Prop :=
  '\n' ∉ middle src p.1 p.2 ∧ (∃ j, p.1 + 2 ≤ j ∧ j < p.2 ∧ HasSolid src j) ∧
    bounded src p.1 p.2 = false

/-- No pair that may be moved has a masked character among its markers or the spaces directly
inside. -/
def Spared (masked : List Bool) (src : List Char) (pairs : List (Nat × Nat)) : Prop :=
  ∀ p ∈ pairs, Movable src p → ∀ k, masked.getD k false = true →
    ¬((k = p.1 ∨ k = p.1 + 1 ∨ k = p.2 ∨ k = p.2 + 1) ∨ Inside src p k)

theorem mem_middle {s : List Char} {a b : Nat} {c : Char} :
    c ∈ middle s a b ↔ ∃ j, a + 2 ≤ j ∧ j < b ∧ s[j]? = some c := by
  unfold middle
  rw [List.mem_iff_getElem?]
  simp only [List.getElem?_drop, List.getElem?_take]
  constructor
  · intro h
    obtain ⟨i, h⟩ := h
    split at h
    · next hlt => exact ⟨a + 2 + i, by omega, hlt, h⟩
    · cases h
  · intro h
    obtain ⟨j, hle, hlt, h⟩ := h
    refine ⟨j - (a + 2), ?_⟩
    rw [show a + 2 + (j - (a + 2)) = j by omega, if_pos hlt]
    exact h

theorem not_digit_of_kind {s : List Char} (h : HasMarker s k ∨ HasSpace s k) :
    s[k]?.any isDigit = false ∧ s[k]?.any isAlphanumeric = false := by
  obtain ⟨c, hc, hkind⟩ | ⟨c, hc, hkind⟩ := h
  · rw [hc]
    simp only [isMarker, Bool.or_eq_true, beq_iff_eq, or_assoc] at hkind
    obtain rfl | rfl | rfl := hkind <;> exact ⟨rfl, rfl⟩
  · rw [hc]
    simp only [isSpace, Bool.or_eq_true, beq_iff_eq] at hkind
    obtain rfl | rfl := hkind <;> exact ⟨rfl, rfl⟩

section pair

variable (h : Reflowed src pairs out) (hok : ∀ q ∈ p :: pairs, PairOk src q)
  (hfollows : ∀ q ∈ pairs, Follows p q)

include h hok

theorem Reflowed.break_iff {c : Char} (hc : isBreak c = true) :
    out[k]? = some c ↔ src[k]? = some c := by
  obtain heq | ⟨hloose, hkind⟩ := h.kept k
  · rw [heq]
  · have hsrc := hloose.kind fun q hq => hok q (List.mem_cons_of_mem _ hq)
    exact iff_of_false (not_break_of_kind hkind hc) (not_break_of_kind hsrc hc)

include hfollows

/-- The reflows of the pairs that follow leave alone what is in front of the content of a pair. -/
theorem Reflowed.before (hk : k < p.1 + 2) : out[k]? = src[k]? := by
  obtain heq | ⟨⟨q, hq, hloose⟩, -⟩ := h.kept k
  · exact heq
  · have hf := hfollows q hq
    have hqok := (hok q (List.mem_cons_of_mem _ hq)).1
    unfold Follows at hf
    unfold Inside at hloose
    omega

theorem Reflowed.bounded_eq : bounded out p.1 p.2 = bounded src p.1 p.2 := by
  have hopen := h.before hok hfollows (k := p.1) (by omega)
  have hprev := h.before hok hfollows (k := p.1 - 1) (by omega)
  have hnext : out[p.2 + 2]?.any isDigit = src[p.2 + 2]?.any isDigit ∧
      out[p.2 + 2]?.any isAlphanumeric = src[p.2 + 2]?.any isAlphanumeric := by
    obtain heq | ⟨hloose, hkind⟩ := h.kept (p.2 + 2)
    · rw [heq]
      exact ⟨rfl, rfl⟩
    · have hsrc := hloose.kind fun q hq => hok q (List.mem_cons_of_mem _ hq)
      obtain ⟨hdigit, hletter⟩ := not_digit_of_kind hkind
      obtain ⟨hdigit', hletter'⟩ := not_digit_of_kind hsrc
      exact ⟨hdigit.trans hdigit'.symm, hletter.trans hletter'.symm⟩
  unfold bounded
  dsimp only
  rw [hopen, hprev, hnext.1, hnext.2]

/-- A pair is moved only where the text allows it. -/
theorem Reflowed.movable (hloose : looseSpaces out p = some (lead, trail)) : Movable src p := by
  have hm := h.moves hok hfollows hloose
  unfold looseSpaces at hloose
  dsimp only at hloose
  split at hloose
  · cases hloose
  · split at hloose
    · cases hloose
    · next hbreak =>
      split at hloose
      · cases hloose
      · split at hloose
        · cases hloose
        · split at hloose
          · cases hloose
          · next hbounded =>
            refine ⟨fun hmem => hbreak ?_, ?_, ?_⟩
            · obtain ⟨j, hle, hlt, hj⟩ := mem_middle.mp hmem
              rw [List.contains_iff_mem]
              exact mem_middle.mpr ⟨j, hle, hlt, (h.break_iff hok rfl).mpr hj⟩
            · have hroom := hm.room
              obtain heq | ⟨⟨q, hq, hin⟩, -⟩ := h.kept (p.2 - trail - 1)
              · exact ⟨p.2 - trail - 1, by omega, by omega, hm.stops.congr heq.symm⟩
              · have hf := hfollows q hq
                have hqok := (hok q (List.mem_cons_of_mem _ hq)).1
                have hmarker := (hok q (List.mem_cons_of_mem _ hq)).markers.1
                unfold Follows at hf
                unfold Inside at hin
                exact ⟨q.1, by omega, by omega, hmarker.solid⟩
            · rw [← h.bounded_eq hok hfollows]
              exact Bool.not_eq_true _ ▸ hbounded

end pair

/-- What the reflows of spared pairs do to masked characters: they keep them, and they leave
something in front of and behind each that lies directly inside of a pair. -/
structure Spares (masked : List Bool) (src : List Char) (pairs : List (Nat × Nat))
    (out : List Char) : Prop where
  kept : ∀ k, masked.getD k false = true → out[k]? = src[k]?
  fenced : ∀ q ∈ pairs, ∀ k, masked.getD k false = true → Inside src q k →
    (∃ x, q.1 ≤ x ∧ x < k ∧ HasSolid out x) ∧ ∃ x, k < x ∧ x < q.2 + 2 ∧ HasSolid out x

theorem Spares.step (hs : Spares masked src pairs out) (h : Reflowed src pairs out)
    (hok : ∀ q ∈ p :: pairs, PairOk src q) (hfollows : ∀ q ∈ pairs, Follows p q)
    (hspared : Spared masked src (p :: pairs)) :
    Spares masked src (p :: pairs) (reflowPair out p) := by
  have hmarker : ∀ k, k = p.1 ∨ k = p.1 + 1 ∨ k = p.2 ∨ k = p.2 + 1 → out[k]? = src[k]? :=
    fun k hk => h.marker_kept hfollows (fun q hq => hok q (List.mem_cons_of_mem _ hq)) hk
  cases hloose : looseSpaces out p with
  | none =>
    have hsame : reflowPair out p = out := by
      unfold reflowPair
      rw [hloose]
    rw [hsame]
    refine ⟨hs.kept, fun q hq k hk hin => ?_⟩
    obtain rfl | hq := List.mem_cons.mp hq
    · obtain ⟨hopen, -, hclose, -⟩ := (hok q List.mem_cons_self).markers
      obtain ⟨hle, hlt, -⟩ := hin
      exact ⟨⟨q.1, le_rfl, by omega, (hopen.congr (hmarker _ (.inl rfl))).solid⟩,
        q.2, hlt, by omega, (hclose.congr (hmarker _ (.inr (.inr (.inl rfl))))).solid⟩
    · exact hs.fenced q hq k hk hin
  | some spaces =>
    obtain ⟨lead, trail⟩ := spaces
    have hm := h.moves hok hfollows hloose
    have hroom := hm.room
    have hfree := hspared p List.mem_cons_self (h.movable hok hfollows hloose)
    -- What is solid between the markers of a following pair is not among the spaces that move.
    have hsolid : ∀ q ∈ pairs, ∀ x, q.1 ≤ x → x < q.2 + 2 → HasSolid out x →
        HasSolid (reflowPair out p) x := by
      intro q hq x hle hlt hx
      have hf := hfollows q hq
      unfold Follows at hf
      refine hx.congr (hm.kept x ?_ ?_)
      · intro hfront
        exact hx.not_space (hm.front x (by omega) hfront.2.2)
      · intro hback
        exact hx.not_space (hm.behind x hback.2.1 (by omega))
    -- A masked space that would move lies directly inside of a following pair, which fences it.
    have hstays : ∀ k, masked.getD k false = true → HasSpace out k → Loose src (p :: pairs) k →
        ∃ q ∈ pairs, Inside src q k := by
      intro k hk hspace hl
      have hsrc := hspace.congr (hs.kept k hk).symm
      obtain ⟨q, hq, hl⟩ := hl
      obtain rfl | hq' := List.mem_cons.mp hq
      · exact absurd hl (hfree k hk)
      · obtain hl | hin := hl
        · obtain ⟨h1, h2, h3, h4⟩ := (hok q hq).markers
          obtain rfl | rfl | rfl | rfl := hl
          · exact absurd hsrc h1.not_space
          · exact absurd hsrc h2.not_space
          · exact absurd hsrc h3.not_space
          · exact absurd hsrc h4.not_space
        · exact ⟨q, hq', hin⟩
    refine ⟨fun k hk => ?_, fun q hq k hk hin => ?_⟩
    · refine (hm.kept k ?_ ?_).trans (hs.kept k hk)
      · intro hfront
        by_cases hopen : k < p.1 + 2
        · exact hfree k hk (.inl (by omega))
        · have hspace := hm.front k (by omega) hfront.2.2
          have hl := loose_front h hok hfollows (by omega) hm.front (k - (p.1 + 2)) (by omega)
          rw [show p.1 + 2 + (k - (p.1 + 2)) = k by omega] at hl
          obtain ⟨q, hq, hin⟩ := hstays k hk hspace hl
          obtain ⟨⟨x, hle, hlt, hx⟩, -⟩ := hs.fenced q hq k hk hin
          have hf := (hfollows q hq).1
          exact hx.not_space (hm.front x (by omega) (by omega))
      · intro hback
        by_cases hclose : p.2 ≤ k
        · exact hfree k hk (.inl (by omega))
        · have hspace := hm.behind k hback.2.1 (by omega)
          have hl := loose_behind h hok hfollows (by omega) hm.behind (p.2 - 1 - k) (by omega)
          rw [show p.2 - 1 - (p.2 - 1 - k) = k by omega] at hl
          obtain ⟨q, hq, hin⟩ := hstays k hk hspace hl
          obtain ⟨-, x, hlt, hx2, hx⟩ := hs.fenced q hq k hk hin
          have hf := hfollows q hq
          unfold Follows at hf
          unfold Inside at hin
          exact hx.not_space (hm.behind x (by omega) (by omega))
    · obtain rfl | hq' := List.mem_cons.mp hq
      · exact absurd (.inr hin) (hfree k hk)
      · obtain ⟨⟨x, hx1, hx2, hx⟩, y, hy1, hy2, hy⟩ := hs.fenced q hq' k hk hin
        obtain ⟨hle, hlt, -⟩ := hin
        exact ⟨⟨x, hx1, hx2, hsolid q hq' x hx1 (by omega) hx⟩,
          y, hy1, hy2, hsolid q hq' y (by omega) hy2 hy⟩

section edged

variable {regions : List TextRegion}

end edged

end Chahua.Markdown
