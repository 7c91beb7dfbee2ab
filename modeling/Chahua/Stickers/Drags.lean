import Chahua.Stickers.Sorting
import Mathlib

namespace Chahua.Stickers

open Framework

/-- Two neighbours leave room: the pack in front has a time, at least 2 above the one behind or
1 above zero where that has none. -/
def Room (prev next : Option (Option Int)) : Prop :=
  match prev, next with
  | none, _ => True
  | some none, _ => False
  | some (some _), none => True
  | some (some p), some none => 1 ≤ p
  | some (some p), some (some n) => n + 2 ≤ p

/-- A time the page computes with exactly. -/
def Small (time : Int) : Prop := -(2 ^ 53) < time ∧ time < 2 ^ 53

/-- A sum is off by one at most, and exact where it is small or even. -/
theorem addTimes_near (a b : Int) : a + b - 1 ≤ addTimes a b ∧ addTimes a b ≤ a + b + 1 ∧
    ((-(2 ^ 53) ≤ a + b ∧ a + b ≤ 2 ^ 53) ∨ (a + b) % 2 = 0 → addTimes a b = a + b) := by
  unfold addTimes
  split
  · omega
  · split <;> omega

/-- Between two times the new one is the half of their sum. -/
theorem newTime_between (now : Int) {p : Int} {n : Option Int} (h : some p ≠ n) :
    newTime now (some (some p)) (some n) = addTimes p (n.getD 0) / 2 := by
  simp only [newTime, if_neg h, Option.getD_some]

theorem newTime_lt {now p : Int} {next : Option (Option Int)} (hroom : Room (some (some p)) next) :
    newTime now (some (some p)) next < p := by
  match next with
  | none =>
    have hnear := addTimes_near p (-10000)
    show addTimes p (-10000) < p
    omega
  | some none =>
    have hroom : 1 ≤ p := hroom
    have hnear := addTimes_near p 0
    rw [newTime_between now (Option.some_ne_none p), Option.getD_none]
    omega
  | some (some n) =>
    have hroom : n + 2 ≤ p := hroom
    have hnear := addTimes_near p n
    have hne : some p ≠ some n := by
      rw [ne_eq, Option.some.injEq]
      omega
    rw [newTime_between now hne, Option.getD_some]
    omega

theorem lt_newTime {now n : Int} {prev : Option (Option Int)} (hroom : Room prev (some (some n))) :
    n < newTime now prev (some (some n)) := by
  match prev with
  | none =>
    have hnear := addTimes_near n 10000
    show n < addTimes n 10000
    omega
  | some none => exact hroom.elim
  | some (some p) =>
    have hroom : n + 2 ≤ p := hroom
    have hnear := addTimes_near p n
    have hne : some p ≠ some n := by
      rw [ne_eq, Option.some.injEq]
      omega
    rw [newTime_between now hne, Option.getD_some]
    omega

section moving

variable {packs front back : List StickerPackSummary} {pack : StickerPackSummary}
  {t : String → Option Int} {i j : Nat}

theorem neighbours_eq (front : List StickerPackSummary) (pack : StickerPackSummary)
    (back : List StickerPackSummary) :
    neighbours (front ++ pack :: back) front.length = (front.getLast?, back.head?) := by
  unfold neighbours
  refine Prod.ext ?_ ?_
  · obtain rfl | ⟨init, last, rfl⟩ := List.eq_nil_or_concat front
    · rfl
    · simp
  · cases back with
    | nil => simp
    | cons next back =>
      have hlt : front.length < (front ++ pack :: next :: back).length - 1 := by
        simp only [List.length_append, List.length_cons]
        omega
      dsimp only
      rw [if_pos hlt, List.getElem?_append_right (by omega)]
      simp

/-- A moved pack stands between the two parts of the others. -/
theorem move_eq (hi : packs[i]? = some pack) (hj : j < packs.length) :
    ∃ front back, move packs i j = front ++ pack :: back ∧ front.length = j ∧
      (front ++ back).Sublist packs ∧ (front ++ pack :: back).Perm packs := by
  obtain ⟨hlt, hget⟩ := List.getElem?_eq_some_iff.mp hi
  have hsplit : (packs.eraseIdx i).take j ++ (packs.eraseIdx i).drop j = packs.eraseIdx i :=
    List.take_append_drop _ _
  refine ⟨(packs.eraseIdx i).take j, (packs.eraseIdx i).drop j, ?_, ?_, ?_, ?_⟩
  · simp [move, hi]
  · rw [List.length_take, List.length_eraseIdx_of_lt hlt]
    omega
  · rw [hsplit]
    exact List.eraseIdx_sublist _ _
  · refine List.perm_middle.trans ?_
    rw [hsplit, ← hget]
    exact List.getElem_cons_eraseIdx_perm hlt

/-- A pack with a time between those of its neighbours is in order. -/
theorem above_insert {k : Int} (hpair : (front ++ back).Pairwise (Above t))
    (hids : ((front ++ pack :: back).map (·.id)).Nodup)
    (hprev : ∀ last, front.getLast? = some last → ∃ p, t last.id = some p ∧ k < p)
    (hnext : ∀ next, back.head? = some next → ∀ n, t next.id = some n → n < k) :
    (front ++ pack :: back).Pairwise
      (Above fun id => if id = pack.id then some k else t id) := by
  have hfresh : ∀ a, a ∈ front ∨ a ∈ back → a.id ≠ pack.id := by
    intro a ha heq
    rw [List.map_append, List.map_cons] at hids
    have hnot := (List.nodup_cons.mp (List.perm_middle.nodup_iff.mp hids)).1
    refine hnot ?_
    rw [← heq, ← List.map_append]
    exact List.mem_map_of_mem (List.mem_append.mpr ha)
  have htime : ∀ a, a ∈ front ∨ a ∈ back →
      (if a.id = pack.id then some k else t a.id) = t a.id :=
    fun a ha => if_neg (hfresh a ha)
  obtain ⟨hfront, hback, hcross⟩ := List.pairwise_append.mp hpair
  refine List.pairwise_append.mpr ⟨?_, List.pairwise_cons.mpr ⟨?_, ?_⟩, ?_⟩
  · exact hfront.imp_of_mem fun ha hb h => h.congr (htime _ (.inl ha)) (htime _ (.inl hb))
  · intro b hb
    unfold Above
    dsimp only
    rw [if_pos rfl, htime b (.inr hb)]
    cases hbt : t b.id with
    | none => trivial
    | some m =>
      obtain ⟨next, rest, rfl⟩ := List.exists_cons_of_ne_nil (List.ne_nil_of_mem hb)
      have hlt := hnext next rfl
      obtain rfl | hb := List.mem_cons.mp hb
      · exact hlt m hbt
      · have habove := (List.pairwise_cons.mp hback).1 b hb
        unfold Above at habove
        rw [hbt] at habove
        cases hnt : t next.id with
        | none =>
          rw [hnt] at habove
          exact habove.elim
        | some n =>
          rw [hnt] at habove
          have habove : m < n := habove
          have := hlt n hnt
          show m < k
          omega
  · exact hback.imp_of_mem fun ha hb h => h.congr (htime _ (.inr ha)) (htime _ (.inr hb))
  · intro a ha b hb
    obtain rfl | hb := List.mem_cons.mp hb
    · obtain ⟨init, last, rfl⟩ :=
        (List.eq_nil_or_concat front).resolve_left (List.ne_nil_of_mem ha)
      obtain ⟨p, hp, hlt⟩ := hprev last (by simp)
      unfold Above
      dsimp only
      rw [if_pos rfl, htime a (.inl ha)]
      rw [List.concat_eq_append] at ha hfront
      obtain ha | ha := List.mem_append.mp ha
      · have habove := (List.pairwise_append.mp hfront).2.2 a ha last List.mem_cons_self
        unfold Above at habove
        rw [hp] at habove
        cases hat : t a.id with
        | none =>
          rw [hat] at habove
          exact habove.elim
        | some q =>
          rw [hat] at habove
          have habove : p < q := habove
          show k < q
          omega
      · rw [List.mem_singleton.mp ha, hp]
        exact hlt
    · exact (hcross a ha b hb).congr (htime a (.inl ha)) (htime b (.inr hb))

end moving

namespace StickerSettings

variable {sort : EngineSort} {accessible : Finset Int} {s s' : StickerSettings}

/-- The neighbours of the place leave room. -/
def Fits (sort : EngineSort) (s : StickerSettings) : SettingsEvent → Prop
  | .reorder i j _ =>
      Room ((neighbours (move (s.orderedPacks sort) i j) j).1.map s.timeOf)
        ((neighbours (move (s.orderedPacks sort) i j) j).2.map s.timeOf)
  | _ => True

/-- What the server has, with the item on its way, is what the session has. -/
def Agrees (s : StickerSettings) : Prop :=
  match s.saving with
  | .idle => ∀ pack ∈ s.packs, lastUsed s.storedOrder pack.id = s.timeOf pack
  | .sent item => item.stickerPackId ∈ s.packs.map (·.id) ∧
      ∀ pack ∈ s.packs, s.timeOf pack =
        if pack.id = item.stickerPackId then some item.lastUsedOn
        else lastUsed s.storedOrder pack.id
  | .stored item => lastUsed s.storedOrder item.stickerPackId = some item.lastUsedOn ∧
      ∀ pack ∈ s.packs, lastUsed s.storedOrder pack.id = s.timeOf pack

structure Inv (sort : EngineSort) (accessible : Finset Int) (s : StickerSettings) : Prop where
  ids : (s.packs.map (·.id)).Nodup
  order : (s.packOrder.map (·.stickerPackId)).Nodup
  accessible : ∀ pack ∈ s.packs, Accessible accessible pack.id
  perm : (s.orderedPacks sort).Perm s.packs
  ranks : (s.orderedPacks sort).Pairwise (Ranks (lastUsed s.packOrder) s.packs)
  agrees : Agrees s

/-- Unless an item is on its way, the server has the times of the session. -/
theorem Inv.stored (h : Inv sort accessible s) (hsent : ∀ item, s.saving ≠ .sent item) :
    ∀ pack ∈ s.packs, lastUsed s.storedOrder pack.id = s.timeOf pack := by
  have hagrees := h.agrees
  unfold Agrees at hagrees
  cases hsaving : s.saving with
  | idle =>
    rw [hsaving] at hagrees
    exact hagrees
  | sent item => exact absurd hsaving (hsent item)
  | stored item =>
    rw [hsaving] at hagrees
    exact hagrees.2

/-- Another order with the same times shows the same list. -/
theorem orderedPacks_congr (hsort : CorrectSort sort) (h : Inv sort accessible s)
    {order : List StickerPackOrderItem} (horder : (order.map (·.stickerPackId)).Nodup)
    (htimes : ∀ pack ∈ s.packs, lastUsed order pack.id = s.timeOf pack) :
    (s.orderedPacks sort).Pairwise (Ranks (lastUsed order) s.packs) ∧
      sortStickerPacksByPreference sort s.packs order = s.orderedPacks sort := by
  have hranks : (s.orderedPacks sort).Pairwise (Ranks (lastUsed order) s.packs) := by
    refine h.ranks.imp_of_mem ?_
    intro a b ha hb hab
    exact hab.congr (htimes a (h.perm.mem_iff.mp ha)) (htimes b (h.perm.mem_iff.mp hb))
  exact ⟨hranks, sorted_eq hsort h.ids horder h.perm hranks⟩

theorem inv_order (hsort : CorrectSort sort) (h : Inv sort accessible s)
    (hpacks : s'.packs = s.packs) (horder : (s'.packOrder.map (·.stickerPackId)).Nodup)
    (htimes : ∀ pack ∈ s.packs, lastUsed s'.packOrder pack.id = s.timeOf pack)
    (hagrees : Agrees s') :
    Inv sort accessible s' ∧ s'.orderedPacks sort = s.orderedPacks sort := by
  obtain ⟨hranks, hshown⟩ := orderedPacks_congr hsort h horder htimes
  have hshown' : s'.orderedPacks sort = s.orderedPacks sort := by
    unfold orderedPacks at hshown ⊢
    rw [hpacks]
    exact hshown
  refine ⟨⟨?_, horder, ?_, ?_, ?_, hagrees⟩, hshown'⟩
  · rw [hpacks]
    exact h.ids
  · rw [hpacks]
    exact h.accessible
  · rw [hshown', hpacks]
    exact h.perm
  · rw [hshown', hpacks]
    exact hranks

theorem inv_reorder (hsort : CorrectSort sort) (h : Inv sort accessible s) {i j : Nat} {now : Int}
    {pack : StickerPackSummary} (hidle : s.saving = .idle)
    (hi : (s.orderedPacks sort)[i]? = some pack) (hj : j < (s.orderedPacks sort).length)
    (hfits : Fits sort s (.reorder i j now)) :
    let item := s.droppedItem (move (s.orderedPacks sort) i j) j now pack
    let s' : StickerSettings := ⟨move (s.orderedPacks sort) i j,
      upsertStickerPackOrderItem s.packOrder item, s.storedOrder, .sent item⟩
    Inv sort accessible s' ∧ s'.orderedPacks sort = move (s.orderedPacks sort) i j := by
  intro item s'
  have hroom : Room ((neighbours (move (s.orderedPacks sort) i j) j).1.map s.timeOf)
      ((neighbours (move (s.orderedPacks sort) i j) j).2.map s.timeOf) := hfits
  obtain ⟨front, back, hmove, hlen, hsub, hperm⟩ := move_eq hi hj
  have hneighbours : neighbours (move (s.orderedPacks sort) i j) j =
      (front.getLast?, back.head?) := by
    rw [hmove, ← hlen]
    exact neighbours_eq front pack back
  rw [hneighbours] at hroom
  have hitem : item = ⟨pack.id, newTime now (front.getLast?.map s.timeOf)
      (back.head?.map s.timeOf)⟩ := by
    simp only [item, droppedItem, hneighbours]
  have hperm' : (move (s.orderedPacks sort) i j).Perm s.packs := by
    rw [hmove]
    exact hperm.trans h.perm
  have hids : ((move (s.orderedPacks sort) i j).map (·.id)).Nodup :=
    (hperm'.map _).nodup_iff.mpr h.ids
  have habove : (move (s.orderedPacks sort) i j).Pairwise
      (Above fun id => if id = pack.id then some item.lastUsedOn else lastUsed s.packOrder id) := by
    rw [hmove] at hids ⊢
    refine above_insert ((h.ranks.imp And.left).sublist hsub) hids ?_ ?_
    · intro last hl
      rw [hl, Option.map_some] at hroom
      rw [hitem, hl]
      cases htime : s.timeOf last with
      | none =>
        rw [htime] at hroom
        exact hroom.elim
      | some p =>
        rw [htime] at hroom
        refine ⟨p, htime, ?_⟩
        rw [Option.map_some, htime]
        exact newTime_lt hroom
    · intro next hn n htime
      have htime : s.timeOf next = some n := htime
      rw [hn, Option.map_some, htime] at hroom
      rw [hitem, hn, Option.map_some, htime]
      exact lt_newTime hroom
  have horder := upsert_nodup item h.order
  have htimes : ∀ id, lastUsed (upsertStickerPackOrderItem s.packOrder item) id =
      if id = pack.id then some item.lastUsedOn else lastUsed s.packOrder id := by
    intro id
    rw [lastUsed_upsert, hitem]
  have habove' : (move (s.orderedPacks sort) i j).Pairwise
      (Above (lastUsed (upsertStickerPackOrderItem s.packOrder item))) :=
    habove.imp fun hab => hab.congr (htimes _) (htimes _)
  have hranks := ranks_self (nodup_of_ids hids) habove'
  have hshown : s'.orderedPacks sort = move (s.orderedPacks sort) i j :=
    sorted_eq hsort hids horder (.refl _) hranks
  refine ⟨⟨hids, horder, fun p hp => h.accessible p (hperm'.mem_iff.mp hp), ?_, ?_, ?_⟩, hshown⟩
  · rw [hshown]
  · rw [hshown]
    exact hranks
  · have hagrees := h.stored (by simp [hidle])
    have hid : item.stickerPackId = pack.id := rfl
    have hpack : pack ∈ move (s.orderedPacks sort) i j := by
      rw [hmove]
      simp
    refine ⟨List.mem_map_of_mem hpack, fun p hp => ?_⟩
    rw [hid, hagrees p (hperm'.mem_iff.mp hp)]
    exact htimes p.id

theorem inv_start (hsort : CorrectSort sort) {packs : List StickerPackSummary}
    {storedOrder : List StickerPackOrderItem} (hids : (packs.map (·.id)).Nodup)
    (haccessible : ∀ pack ∈ packs, Accessible accessible pack.id)
    (hties : NoTies (lastUsed storedOrder) packs) :
    Inv sort accessible (start packs storedOrder) := by
  have hties' : NoTies (lastUsed (replaceStickerPackOrder storedOrder)) packs := by
    rw [funext (lastUsed_replace storedOrder)]
    exact hties
  refine ⟨hids, replace_nodup storedOrder, haccessible, hsort.perm _ _, ?_, ?_⟩
  · exact ranks_sorted hsort hids (replace_nodup storedOrder) hties'
  · intro pack _
    exact (lastUsed_replace storedOrder pack.id).symm

/-- The server takes the item over, and nothing changes on the page. -/
theorem inv_store (hsort : CorrectSort sort) (h : Inv sort accessible s)
    {item : StickerPackOrderItem} (hsent : s.saving = .sent item) :
    let s' : StickerSettings := { s with
      storedOrder := updateOrder s.storedOrder [⟨item.stickerPackId, item.lastUsedOn, none⟩]
        accessible
      saving := .stored item }
    Inv sort accessible s' ∧ s'.orderedPacks sort = s.orderedPacks sort := by
  intro s'
  have hagrees := h.agrees
  unfold Agrees at hagrees
  rw [hsent] at hagrees
  obtain ⟨hin, htimes⟩ := hagrees
  obtain ⟨pack, hpack, hid⟩ := List.mem_map.mp hin
  have haccessible : Accessible accessible item.stickerPackId := hid ▸ h.accessible pack hpack
  refine inv_order hsort h rfl h.order (fun _ _ => rfl) ⟨?_, ?_⟩
  · rw [lastUsed_updateOrder haccessible haccessible, if_pos rfl]
  · intro other hother
    rw [lastUsed_updateOrder haccessible (h.accessible other hother)]
    exact (htimes other hother).symm

theorem inv_saved (hsort : CorrectSort sort) (h : Inv sort accessible s)
    {item : StickerPackOrderItem} (hstored : s.saving = .stored item) :
    let s' : StickerSettings := { s with
      packOrder := upsertStickerPackOrderItem s.packOrder item
      saving := .idle }
    Inv sort accessible s' ∧ s'.orderedPacks sort = s.orderedPacks sort := by
  intro s'
  have hagrees := h.agrees
  unfold Agrees at hagrees
  rw [hstored] at hagrees
  obtain ⟨hitem, hagrees⟩ := hagrees
  have htimes : ∀ pack ∈ s.packs,
      lastUsed (upsertStickerPackOrderItem s.packOrder item) pack.id = s.timeOf pack := by
    intro pack hpack
    rw [lastUsed_upsert]
    split
    · next hid => rw [← hagrees pack hpack, hid, hitem]
    · rfl
  refine inv_order hsort h rfl (upsert_nodup item h.order) htimes ?_
  intro pack hpack
  exact (hagrees pack hpack).trans (htimes pack hpack).symm

theorem inv_reread (hsort : CorrectSort sort) (h : Inv sort accessible s)
    (hsent : ∀ item, s.saving ≠ .sent item) :
    let s' : StickerSettings := { s with packOrder := replaceStickerPackOrder s.storedOrder }
    Inv sort accessible s' ∧ s'.orderedPacks sort = s.orderedPacks sort := by
  intro s'
  have hread := lastUsed_replace s.storedOrder
  have hstored := h.stored hsent
  refine inv_order hsort h rfl (replace_nodup _)
    (fun pack hpack => (hread pack.id).trans (hstored pack hpack)) ?_
  have hagrees := h.agrees
  unfold Agrees at hagrees ⊢
  cases hsaving : s.saving with
  | idle =>
    simp only [s', hsaving]
    exact fun pack _ => (hread pack.id).symm
  | sent item => exact absurd hsaving (hsent item)
  | stored item =>
    rw [hsaving] at hagrees
    simp only [s', hsaving]
    exact ⟨hagrees.1, fun pack _ => (hread pack.id).symm⟩

theorem inv_step (hsort : CorrectSort sort) (h : Inv sort accessible s) {e : SettingsEvent}
    (hfits : Fits sort s e) (he : step sort accessible s e = some s') :
    Inv sort accessible s' ∧ s'.orderedPacks sort = dragged (s.orderedPacks sort) e := by
  cases e with
  | reorder i j now =>
    simp only [step] at he
    split at he
    · next pack hidle hi =>
      split at he
      · cases he
      · next hj =>
        obtain rfl := Option.some.inj he
        exact inv_reorder hsort h hidle hi (not_le.mp hj) hfits
    · cases he
  | store =>
    simp only [step] at he
    split at he
    · next item hsent =>
      obtain rfl := Option.some.inj he
      exact inv_store hsort h hsent
    · cases he
  | saved =>
    simp only [step] at he
    split at he
    · next item hstored =>
      obtain rfl := Option.some.inj he
      exact inv_saved hsort h hstored
    · cases he
  | reread =>
    simp only [step] at he
    split at he
    · cases he
    · next hsent =>
      obtain rfl := Option.some.inj he
      exact inv_reread hsort h hsent

theorem orderedPacks_run (hsort : CorrectSort sort) {es : List SettingsEvent}
    (h : Inv sort accessible s) (hfits : Along (step sort accessible) (Fits sort) s es)
    (hrun : run (step sort accessible) s es = some s') :
    s'.orderedPacks sort = es.foldl dragged (s.orderedPacks sort) := by
  induction es generalizing s with
  | nil =>
    obtain rfl := Option.some.inj hrun
    rfl
  | cons e es ih =>
    obtain ⟨t, ht, hrest⟩ := run_cons_eq_some.mp hrun
    obtain ⟨hinv, hshown⟩ := inv_step hsort h hfits.1 ht
    rw [List.foldl_cons, ← hshown]
    exact ih hinv (hfits.2 t ht) hrest

end StickerSettings

/-- The order of the preferences: packs with a time before those without, the latest first, and
the others as they were. -/
structure Preferred (order : List StickerPackOrderItem) (packs out : List StickerPackSummary) :
    Prop where
  perm : out.Perm packs
  sorted : out.Pairwise fun a b =>
    match lastUsed order a.id, lastUsed order b.id with
    | some x, some y => y < x ∨ x = y ∧ packs.idxOf a < packs.idxOf b
    | some _, none => True
    | none, some _ => False
    | none, none => packs.idxOf a < packs.idxOf b

/-- Where no two packs have the same time, the packs are sorted by preference, and every pack
dropped where its neighbours leave room stays there: now, when it is stored and when the order is
read again. -/
theorem dragged_packs_stay {sort : EngineSort} (hsort : CorrectSort sort)
    {packs : List StickerPackSummary} (hids : (packs.map (·.id)).Nodup) :
    (∀ order : List StickerPackOrderItem, (order.map (·.stickerPackId)).Nodup →
      (Consistent (comparePacks order packs) packs ↔ NoTies (lastUsed order) packs) ∧
      (NoTies (lastUsed order) packs →
        Preferred order packs (sortStickerPacksByPreference sort packs order) ∧
        sortStickerPacksByPreference sort (sortStickerPacksByPreference sort packs order) order =
          sortStickerPacksByPreference sort packs order)) ∧
    ∀ (accessible : Finset Int) (storedOrder : List StickerPackOrderItem)
      (es : List SettingsEvent) (s : StickerSettings),
      (∀ pack ∈ packs, Accessible accessible pack.id) →
      NoTies (lastUsed storedOrder) packs →
      run (StickerSettings.step sort accessible) (.start packs storedOrder) es = some s →
      Along (StickerSettings.step sort accessible) (StickerSettings.Fits sort)
        (.start packs storedOrder) es →
      s.orderedPacks sort =
        es.foldl dragged ((StickerSettings.start packs storedOrder).orderedPacks sort) := by
  refine ⟨fun order horder => ⟨consistent_iff hids horder, fun hties => ⟨⟨?_, ?_⟩, ?_⟩⟩, ?_⟩
  · exact hsort.perm _ _
  · refine (ranks_sorted hsort hids horder hties).imp ?_
    intro a b h
    unfold Ranks Above at h
    cases hx : lastUsed order a.id <;> cases hy : lastUsed order b.id <;> rw [hx, hy] at h
    · exact h.2 rfl rfl
    · exact h.1
    · trivial
    · exact .inl h.1
  · have hperm := hsort.perm (comparePacks order packs) packs
    have hids' : ((sortStickerPacksByPreference sort packs order).map (·.id)).Nodup :=
      (hperm.map _).nodup_iff.mpr hids
    exact sorted_eq hsort hids' horder (.refl _)
      (ranks_self (nodup_of_ids hids') ((ranks_sorted hsort hids horder hties).imp And.left))
  · intro accessible storedOrder es s haccessible hties hrun hfits
    exact StickerSettings.orderedPacks_run hsort
      (StickerSettings.inv_start hsort hids haccessible hties) hfits hrun

def threePacks : List StickerPackSummary := [⟨"1", "a"⟩, ⟨"2", "b"⟩, ⟨"3", "c"⟩]

theorem accessible_threePacks : ∀ pack ∈ threePacks, Accessible {1, 2, 3} pack.id := by
  intro pack hpack
  simp only [threePacks, List.mem_cons, List.not_mem_nil, or_false] at hpack
  obtain rfl | rfl | rfl := hpack
  · exact ⟨1, by simp, by decide, rfl⟩
  · exact ⟨2, by simp, by decide, rfl⟩
  · exact ⟨3, by simp, by decide, rfl⟩

def threeTimes : List StickerPackOrderItem := [⟨"1", 30⟩, ⟨"2", 20⟩, ⟨"3", 10⟩]

/-- The first of three packs is dragged between the others. -/
theorem dragged_packs_stay_second :
    ∃ s, run (StickerSettings.step insertionSortBy {1, 2, 3}) (.start threePacks threeTimes)
        [.reorder 0 1 0, .store, .saved, .reread] = some s ∧
      s.orderedPacks insertionSortBy = [⟨"2", "b"⟩, ⟨"1", "a"⟩, ⟨"3", "c"⟩] := by
  obtain ⟨s, hs⟩ := Option.isSome_iff_exists.mp (by decide +kernel :
    (run (StickerSettings.step insertionSortBy {1, 2, 3}) (.start threePacks threeTimes)
      [.reorder 0 1 0, .store, .saved, .reread]).isSome = true)
  refine ⟨s, hs, ?_⟩
  have hties : NoTies (lastUsed threeTimes) threePacks := by
    intro a ha b hb hne x hx hy
    simp only [threePacks, List.mem_cons, List.not_mem_nil, or_false] at ha hb
    obtain rfl | rfl | rfl := ha <;> obtain rfl | rfl | rfl := hb <;>
      simp [lastUsed, threeTimes] at hx hy hne <;> omega
  have hshown : (StickerSettings.start threePacks threeTimes).orderedPacks insertionSortBy =
      threePacks := by decide +kernel
  have hfits : StickerSettings.Fits insertionSortBy (.start threePacks threeTimes)
      (.reorder 0 1 0) := by
    unfold StickerSettings.Fits
    rw [hshown]
    show (10 : Int) + 2 ≤ 20
    decide
  have hstay := (dragged_packs_stay correctSort_insertionSortBy
    (by decide : (threePacks.map (·.id)).Nodup)).2 {1, 2, 3} threeTimes _ s
      accessible_threePacks hties hs
      ⟨hfits, fun _ _ => ⟨trivial, fun _ _ => ⟨trivial, fun _ _ => ⟨trivial, fun _ _ => trivial⟩⟩⟩⟩
  rw [hstay, hshown]
  rfl

/-- The first of three packs without times is dragged to the end and jumps back to the front. -/
theorem first_pack_jumps_back : ¬ ∀ (sort : EngineSort), CorrectSort sort →
    ∀ packs : List StickerPackSummary, (packs.map (·.id)).Nodup →
    ∀ (accessible : Finset Int) (storedOrder : List StickerPackOrderItem)
      (es : List SettingsEvent) (s : StickerSettings),
      (∀ pack ∈ packs, Accessible accessible pack.id) →
      (storedOrder.map (·.stickerPackId)).Nodup →
      (∀ item ∈ storedOrder, Small item.lastUsedOn) →
      run (StickerSettings.step sort accessible) (.start packs storedOrder) es = some s →
      s.orderedPacks sort =
        es.foldl dragged ((StickerSettings.start packs storedOrder).orderedPacks sort) := by
  intro h
  obtain ⟨s, hs⟩ := Option.isSome_iff_exists.mp (by decide +kernel :
    (run (StickerSettings.step insertionSortBy {1, 2, 3}) (.start threePacks [])
      [.reorder 0 2 0]).isSome = true)
  have hstay := h insertionSortBy correctSort_insertionSortBy threePacks (by decide) {1, 2, 3} []
    _ s accessible_threePacks .nil (by simp) hs
  obtain rfl := Option.some.inj hs
  revert hstay
  decide +kernel

end Chahua.Stickers
