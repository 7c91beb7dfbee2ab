import Chahua.Rpc.Bookkeeping

namespace Chahua.Rpc

open Framework

def RpcItem.callId (item : RpcItem) : Option RpcId := item.call?.bind RpcCall.id

theorem RpcItem.owed_of_callId {item : RpcItem} {id : RpcId} (h : item.callId = some id) :
    item.owed = some id := by
  cases item <;> simp_all [callId, call?, owed]

theorem getElem?_snoc {α : Type*} (l : List α) (a : α) (k : Nat) :
    (l ++ [a])[k]? = if k = l.length then some a else l[k]? := by
  by_cases hk : k = l.length
  · simp [hk]
  · rw [if_neg hk]
    by_cases hlt : k < l.length
    · exact List.getElem?_append_left hlt
    · rw [List.getElem?_eq_none (by simp; omega), List.getElem?_eq_none (by omega)]

namespace Session

/-- The batch of frame `n` after the items `done`: `outstanding₀` and `works₀` were the ids
and workers before it, `outstanding` and `works` are those now. -/
structure Assembling (accepting : Bool) (outstanding₀ outstanding : Finset RpcId)
    (works₀ works : Table Origin Work) (b n : Nat) (done : List RpcItem)
    (batch : BatchAssembly) : Prop where
  frame : batch.frame = n
  inert : batch.activateAfterSuccess = false ∧ batch.succeeded = false
  requestIds : batch.requestIds = done.filterMap RpcItem.callId
  nodup : accepting = true → batch.requestIds.Nodup
  fresh : ∀ id ∈ batch.requestIds, id ∉ outstanding₀
  kept : outstanding₀ ⊆ outstanding
  entered : ∀ id ∈ outstanding, id ∈ outstanding₀ ∨ id ∈ batch.requestIds
  held : accepting = true → ∀ id ∈ batch.requestIds, id ∈ outstanding
  other : ∀ o, o.frame ≠ n → works.row o = works₀.row o
  own : ∀ k w, works.row ⟨n, k⟩ = some w →
    accepting = true ∧ done[k]? = some (.call w.call) ∧ w = ⟨w.call, .batch b, false, none⟩
  pending : batch.pending =
    (works.select fun o w => decide (o.frame = n) && w.countsTowardBatch).card
  distinct : (batch.responses.map fun p => p.origin.item).Nodup
  sound : ∀ p ∈ batch.responses, p.origin.frame = n ∧
    (done[p.origin.item]?).bind RpcItem.owed = some p.response.id ∧
    works.row ⟨n, p.origin.item⟩ = none
  complete : ∀ k item id, done[k]? = some item → item.owed = some id →
    (accepting = true ∨ item.call? = none) → works.row ⟨n, k⟩ = none →
    ∃ p ∈ batch.responses, p.origin.item = k

variable {accepting : Bool} {outstanding₀ outstanding outstanding' : Finset RpcId}
  {works₀ works works' : Table Origin Work} {b n : Nat} {done : List RpcItem}
  {batch : BatchAssembly}

theorem Assembling.start (h : ∀ o w, works₀.row o = some w → o.frame ≠ n) :
    Assembling accepting outstanding₀ outstanding₀ works₀ works₀ b n [] (.new n) where
  frame := rfl
  inert := ⟨rfl, rfl⟩
  requestIds := rfl
  nodup := fun _ => List.nodup_nil
  fresh := by simp [BatchAssembly.new]
  kept := Finset.Subset.refl _
  entered := fun id hid => Or.inl hid
  held := by simp [BatchAssembly.new]
  other := fun _ _ => rfl
  own := fun k w hw => absurd rfl (h _ w hw)
  pending := by
    change 0 = _
    symm
    rw [Finset.card_eq_zero, ← Finset.not_nonempty_iff_eq_empty]
    rintro ⟨o, ho⟩
    obtain ⟨w, hw, hp⟩ := Table.mem_select.mp ho
    simp only [Bool.and_eq_true, decide_eq_true_eq] at hp
    exact h o w hw hp.1
  distinct := List.nodup_nil
  sound := by simp [BatchAssembly.new]
  complete := by simp

theorem Assembling.free
    (h : Assembling accepting outstanding₀ outstanding works₀ works b n done batch) :
    works.row ⟨n, done.length⟩ = none := by
  by_contra hno
  obtain ⟨w, hw⟩ := Option.ne_none_iff_exists'.mp hno
  have hget := (h.own _ w hw).2.1
  rw [List.getElem?_eq_none (le_refl _)] at hget
  cases hget

theorem Assembling.bound
    (h : Assembling accepting outstanding₀ outstanding works₀ works b n done batch) {p : PreparedResponse}
    (hp : p ∈ batch.responses) : p.origin.item ≠ done.length := by
  intro he
  have hget := (h.sound p hp).2.1
  rw [he, List.getElem?_eq_none (le_refl _)] at hget
  cases hget

/-- An item that dispatches nothing: it is answered at once, or owed no answer. -/
theorem Assembling.refuse
    (h : Assembling accepting outstanding₀ outstanding works₀ works b n done batch) {item : RpcItem}
    (p : Option PreparedResponse) (batch' : BatchAssembly) 
    (hworks : works' = works) (hfresh : ∀ id ∈ item.callId, id ∉ outstanding)
    (hout : (outstanding' = outstanding ∧ (item.callId = none ∨ accepting = false)) ∨
      outstanding' = outstanding ∪ item.callId.toFinset)
    (hp : ∀ x ∈ p, x.origin = ⟨n, done.length⟩ ∧ item.owed = some x.response.id)
    (hnone : p = none → ∀ id, item.owed = some id →
      ¬(accepting = true ∨ item.call? = none))
    (hframe : batch'.frame = batch.frame)
    (hinert : batch'.activateAfterSuccess = false ∧ batch'.succeeded = false)
    (hids : batch'.requestIds = batch.requestIds ++ item.callId.toList)
    (hpend : batch'.pending = batch.pending)
    (hresp : batch'.responses = batch.responses ++ p.toList) :
    Assembling accepting outstanding₀ outstanding' works₀ works' b n (done ++ [item])
      batch' where
  frame := hframe.trans h.frame
  inert := hinert
  requestIds := by
    rw [hids, h.requestIds, List.filterMap_append]
    cases hid : item.callId <;> simp [hid]
  nodup := by
    intro hacc
    rw [hids, List.nodup_append]
    refine ⟨h.nodup hacc, by cases item.callId <;> simp, ?_⟩
    rintro x hx y hy rfl
    exact hfresh x (Option.mem_toList.mp hy) (h.held hacc x hx)
  fresh := by
    intro id hid hin
    rw [hids, List.mem_append] at hid
    rcases hid with hid | hid
    · exact h.fresh id hid hin
    · exact hfresh id (Option.mem_toList.mp hid) (h.kept hin)
  kept := by
    rcases hout with ⟨ho, -⟩ | ho
    · rw [ho]
      exact h.kept
    · rw [ho]
      exact h.kept.trans Finset.subset_union_left
  entered := by
    intro id hid
    rw [hids, List.mem_append]
    rcases hout with ⟨ho, -⟩ | ho
    · rw [ho] at hid
      rcases h.entered id hid with h1 | h1
      · exact Or.inl h1
      · exact Or.inr (Or.inl h1)
    · rw [ho, Finset.mem_union] at hid
      rcases hid with hid | hid
      · rcases h.entered id hid with h1 | h1
        · exact Or.inl h1
        · exact Or.inr (Or.inl h1)
      · exact Or.inr (Or.inr (Option.mem_toList.mpr (Option.mem_toFinset.mp hid)))
  held := by
    intro hacc id hid
    rw [hids, List.mem_append] at hid
    rcases hout with ⟨ho, hno | hno⟩ | ho
    · rw [ho]
      rcases hid with hid | hid
      · exact h.held hacc id hid
      · simp [hno] at hid
    · rw [hacc] at hno
      cases hno
    · rw [ho, Finset.mem_union]
      rcases hid with hid | hid
      · exact Or.inl (h.held hacc id hid)
      · exact Or.inr (Option.mem_toFinset.mpr (Option.mem_toList.mp hid))
  other := fun o ho => by rw [hworks, h.other o ho]
  own := by
    intro k w hw
    rw [hworks] at hw
    obtain ⟨hacc, hget, hval⟩ := h.own k w hw
    refine ⟨hacc, ?_, hval⟩
    rw [getElem?_snoc, if_neg, hget]
    rintro rfl
    rw [h.free] at hw
    cases hw
  pending := by rw [hpend, hworks, h.pending]
  distinct := by
    rw [hresp, List.map_append, List.nodup_append]
    refine ⟨h.distinct, by cases p <;> simp, ?_⟩
    rintro k hk j hj rfl
    obtain ⟨x, hx, rfl⟩ := List.mem_map.mp hk
    obtain ⟨y, hy, hxy⟩ := List.mem_map.mp hj
    rw [(hp y (Option.mem_toList.mp hy)).1] at hxy
    exact h.bound hx hxy.symm
  sound := by
    intro x hx
    rw [hresp, List.mem_append] at hx
    rw [hworks]
    rcases hx with hx | hx
    · obtain ⟨hf, hget, hw⟩ := h.sound x hx
      refine ⟨hf, ?_, hw⟩
      rw [getElem?_snoc, if_neg (h.bound hx), hget]
    · obtain ⟨ho, hown⟩ := hp x (Option.mem_toList.mp hx)
      rw [ho]
      refine ⟨rfl, ?_, h.free⟩
      rw [getElem?_snoc, if_pos rfl]
      exact hown
  complete := by
    intro k it id hget hown hcov hw
    rw [hworks] at hw
    rw [getElem?_snoc] at hget
    rw [hresp]
    split at hget
    · next hk =>
      cases hget
      cases hpo : p with
      | none => exact absurd hcov (hnone hpo id hown)
      | some x =>
        refine ⟨x, by simp, ?_⟩
        rw [(hp x hpo).1, hk]
    · obtain ⟨x, hx, hxk⟩ := h.complete k it id hget hown hcov hw
      exact ⟨x, List.mem_append_left _ hx, hxk⟩

/-- A call that gets a worker. -/
theorem Assembling.accept
    (h : Assembling accepting outstanding₀ outstanding works₀ works b n done batch) {call : RpcCall}
    (batch' : BatchAssembly)  (hacc : accepting = true)
    (hworks : works' = works.upsert ⟨n, done.length⟩ ⟨call, .batch b, false, none⟩)
    (hfresh : ∀ id ∈ call.id, id ∉ outstanding)
    (hout : outstanding' = outstanding ∪ call.id.toFinset)
    (hframe : batch'.frame = batch.frame)
    (hinert : batch'.activateAfterSuccess = false ∧ batch'.succeeded = false)
    (hids : batch'.requestIds = batch.requestIds ++ call.id.toList)
    (hpend : batch'.pending = batch.pending +
      if call.id.isSome || isHandshake call.method then 1 else 0)
    (hresp : batch'.responses = batch.responses) :
    Assembling accepting outstanding₀ outstanding' works₀ works' b n (done ++ [.call call])
      batch' where
  frame := hframe.trans h.frame
  inert := hinert
  requestIds := by
    rw [hids, h.requestIds, List.filterMap_append]
    cases hid : call.id <;> simp [hid, RpcItem.callId, RpcItem.call?]
  nodup := by
    intro _
    rw [hids, List.nodup_append]
    refine ⟨h.nodup hacc, by cases call.id <;> simp, ?_⟩
    rintro x hx y hy rfl
    exact hfresh x (Option.mem_toList.mp hy) (h.held hacc x hx)
  fresh := by
    intro id hid hin
    rw [hids, List.mem_append] at hid
    rcases hid with hid | hid
    · exact h.fresh id hid hin
    · exact hfresh id (Option.mem_toList.mp hid) (h.kept hin)
  kept := by
    rw [hout]
    exact h.kept.trans Finset.subset_union_left
  entered := by
    intro id hid
    rw [hids, List.mem_append]
    rw [hout, Finset.mem_union] at hid
    rcases hid with hid | hid
    · rcases h.entered id hid with h1 | h1
      · exact Or.inl h1
      · exact Or.inr (Or.inl h1)
    · exact Or.inr (Or.inr (Option.mem_toList.mpr (Option.mem_toFinset.mp hid)))
  held := by
    intro _ id hid
    rw [hids, List.mem_append] at hid
    rw [hout, Finset.mem_union]
    rcases hid with hid | hid
    · exact Or.inl (h.held hacc id hid)
    · exact Or.inr (Option.mem_toFinset.mpr (Option.mem_toList.mp hid))
  other := by
    intro o ho
    rw [hworks, Table.upsert_row_ne, h.other o ho]
    rintro rfl
    exact ho rfl
  own := by
    intro k w hw
    rw [hworks, Table.upsert_row] at hw
    rw [getElem?_snoc]
    split at hw
    · next hk =>
      cases hw
      simp only [Origin.mk.injEq, true_and] at hk
      exact ⟨hacc, by simp [hk], rfl⟩
    · next hk =>
      obtain ⟨-, hget, hval⟩ := h.own k w hw
      refine ⟨hacc, ?_, hval⟩
      rw [if_neg, hget]
      rintro rfl
      exact hk rfl
  pending := by
    rw [hworks, Table.card_select_upsert h.free, hpend, h.pending]
    simp [Work.countsTowardBatch, Work.activateAfterSuccess]
  distinct := by rw [hresp]; exact h.distinct
  sound := by
    intro x hx
    rw [hresp] at hx
    obtain ⟨hf, hget, hw⟩ := h.sound x hx
    refine ⟨hf, ?_, ?_⟩
    · rw [getElem?_snoc, if_neg (h.bound hx), hget]
    · rw [hworks, Table.upsert_row_ne, hw]
      intro hk
      exact h.bound hx (Origin.mk.inj hk).2
  complete := by
    intro k it id hget hown hcov hw
    rw [hworks, Table.upsert_row] at hw
    rw [getElem?_snoc] at hget
    rw [hresp]
    split at hw
    · cases hw
    · next hk =>
      rw [if_neg (by rintro rfl; exact hk rfl)] at hget
      exact h.complete k it id hget hown hcov hw

theorem settle_fields (batch : BatchAssembly) (call : RpcCall) {p : Option PreparedResponse}
    (hp : call.id = none → p = none) :
    let batch' := (batch.expect call).settle call p
    batch'.frame = batch.frame ∧
      batch'.activateAfterSuccess = batch.activateAfterSuccess ∧
      batch'.succeeded = batch.succeeded ∧
      batch'.requestIds = batch.requestIds ++ call.id.toList ∧
      batch'.pending = batch.pending ∧
      batch'.responses = batch.responses ++ p.toList := by
  by_cases hc : (call.id.isSome || isHandshake call.method) = true
  · cases p <;> simp [BatchAssembly.settle, BatchAssembly.expect, BatchAssembly.push, hc]
  · have hid : call.id = none := by
      simp only [Bool.or_eq_true, not_or, Option.not_isSome_iff_eq_none] at hc
      exact hc.1
    simp [BatchAssembly.settle, BatchAssembly.expect, hc, hp hid]

variable {s t : Session}

theorem scheduleItems_schedules {choice : Nat → Choice} (items : List RpcItem) {k : Nat}
    {r : Option PreparedResponse ⊕ BatchAssembly}
    (h : scheduleItems b n choice s k batch items = (t, r)) :
    s.Schedules t ∧ (t.closed = false → s.closed = false) := by
  induction items generalizing s k batch with
  | nil =>
    cases h
    exact ⟨Schedules.refl _, id⟩
  | cons item items ih =>
    cases item with
    | response => exact ih h
    | invalid response =>
      rw [scheduleItems] at h
      split at h
      · exact ih h
      · cases h
        exact ⟨Schedules.refl _, id⟩
    | call call =>
      rcases hcall : s.scheduleCall call ⟨n, k⟩ (.batch b) false (choice k) with ⟨u, q⟩
      obtain ⟨hs, hc, -⟩ := scheduleCall_cases hcall
      simp only [scheduleItems, hcall] at h
      cases q with
      | pending => exact ⟨hs.trans (ih h).1, fun hop => hc ((ih h).2 hop)⟩
      | immediate p => exact ⟨hs.trans (ih h).1, fun hop => hc ((ih h).2 hop)⟩
      | duplicate p =>
        cases h
        exact ⟨hs, hc⟩

/-- A whole batch, scheduled item by item while the transport stays open. -/
theorem scheduleItems_assembling {choice : Nat → Choice} (items : List RpcItem)
    {batch' : BatchAssembly} (hacc : s.accepting = accepting)
    (ha : Assembling accepting outstanding₀ s.outstanding works₀ s.works b n done batch)
    (h : scheduleItems b n choice s done.length batch items = (t, .inr batch'))
    (hop : t.closed = false) :
    Assembling accepting outstanding₀ t.outstanding works₀ t.works b n (done ++ items)
      batch' := by
  induction items generalizing s done batch with
  | nil =>
    cases h
    rwa [List.append_nil]
  | cons item items ih =>
    have hnext : ∀ {u batch''}, s.Schedules u →
        Assembling accepting outstanding₀ u.outstanding works₀ u.works b n (done ++ [item])
          batch'' →
        scheduleItems b n choice u (done.length + 1) batch'' items = (t, .inr batch') →
        Assembling accepting outstanding₀ t.outstanding works₀ t.works b n
          (done ++ item :: items) batch' := by
      intro u batch'' hsu hu hrest
      have hlen : done.length + 1 = (done ++ [item]).length := by simp
      have haccu : u.accepting = accepting := by rw [hsu]; exact hacc
      rw [hlen] at hrest
      simpa using ih haccu hu hrest
    cases item with
    | response =>
      refine hnext (Schedules.refl s) (ha.refuse none batch rfl ?_ (Or.inl ⟨rfl, Or.inl rfl⟩)
        ?_ ?_ rfl ha.inert ?_ rfl ?_) h
      all_goals simp [RpcItem.callId, RpcItem.call?, RpcItem.owed]
    | invalid response =>
      rw [scheduleItems] at h
      split at h
      · refine hnext (Schedules.refl s) ?_ h
        refine ha.refuse (some _) _ rfl ?_ (Or.inl ⟨rfl, Or.inl rfl⟩)
          ?_ ?_ rfl ha.inert ?_ rfl rfl
        · simp [RpcItem.callId, RpcItem.call?]
        · rintro x ⟨⟩
          simp [RpcItem.owed]
        · simp
        · simp [RpcItem.callId, RpcItem.call?, BatchAssembly.push]
      · cases h
    | call call =>
      rcases hcall : s.scheduleCall call ⟨n, done.length⟩ (.batch b) false
        (choice done.length) with ⟨u, q⟩
      obtain ⟨hs, -, hcases⟩ := scheduleCall_cases hcall
      simp only [scheduleItems, hcall] at h
      rcases hcases with ⟨p, rfl, -⟩ | ⟨hid, ⟨rfl, hac, hw, ho⟩ | ⟨p, rfl, href⟩⟩
      · cases h
      · refine hnext hs ?_ h
        refine ha.accept _ (hacc ▸ hac) hw hid ho rfl ha.inert rfl ?_ rfl
        simp only [BatchAssembly.expect]
        split <;> rfl
      · have hopu := (scheduleItems_schedules items h).2 hop
        have hsilent : call.id = none → p = none := by
          intro hnone
          cases p with
          | none => rfl
          | some x =>
            have hx := (href.response x rfl).2
            rw [hnone] at hx
            cases hx
        obtain ⟨hf, hact, hsuc, hids, hpend, hresp⟩ := settle_fields batch call hsilent
        refine hnext hs ?_ h
        refine ha.refuse p _ href.works hid ?_ href.response ?_ hf ?_ hids hpend hresp
        · rcases href.outstanding hopu with ⟨ho, hd | hd⟩ | ⟨ho, -⟩
          · cases hd
          · exact Or.inl ⟨ho, Or.inr (hacc ▸ hd)⟩
          · exact Or.inr ho
        · intro hp id hown
          rcases href.silent hopu hp with hno | hno
          · rw [RpcItem.owed, hno] at hown
            cases hown
          · rw [← hacc, hno]
            simp [RpcItem.call?]
        · exact ⟨hact.trans ha.inert.1, hsuc.trans ha.inert.2⟩

end Session

end Chahua.Rpc
