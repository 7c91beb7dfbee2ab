import Chahua.Rpc.Aggregates

namespace Chahua.Rpc

open Framework

namespace Book

variable {c d : Book}

/-- The id of the call at a place of the input. -/
def idAt (c : Book) (o : Origin) : Option RpcId :=
  ((c.received[o.frame]?).bind fun r => r.items[o.item]?).bind RpcItem.callId

/-- A call with this id is being worked on or sits in a batch that is not queued yet. -/
def Owner (c : Book) (o : Origin) (id : RpcId) : Prop :=
  c.idAt o = some id ∧
    ((∃ w, c.works.row o = some w ∧ w.destination = .single) ∨
      ∃ b batch, c.batches.row b = some batch ∧ batch.frame = o.frame)

structure Ids (c : Book) : Prop where
  held : ∀ o id, c.Owner o id → id ∈ c.outstanding
  unique : ∀ o o' id, c.Owner o id → c.Owner o' id → o = o'

theorem idAt_log {r : Received} (hd : d.received = c.received ++ [r]) {o : Origin}
    (ho : o.frame ≠ c.received.length) : d.idAt o = c.idAt o := by
  simp only [idAt, hd, getElem?_snoc, if_neg ho]

theorem Base.idAt_works (h : c.Base) {o : Origin} {w : Work} (hw : c.works.row o = some w) :
    c.idAt o = w.call.id := by
  obtain ⟨r, hr, -, hitem, -⟩ := h.works o w hw
  simp [idAt, hr, hitem, RpcItem.callId, RpcItem.call?]

/-- Fewer owners and no owner's id given back: the ids stay sound. -/
theorem Ids.mono (h : c.Ids) (ho : ∀ o id, d.Owner o id → c.Owner o id)
    (hd : ∀ o id, d.Owner o id → id ∈ c.outstanding → id ∈ d.outstanding) : d.Ids where
  held := fun o id hown => hd o id hown (h.held o id (ho o id hown))
  unique := fun o o' id h₁ h₂ => h.unique o o' id (ho o id h₁) (ho o' id h₂)

theorem nodup_filterMap_index {items : List RpcItem}
    (h : (items.filterMap RpcItem.callId).Nodup) {j k : Nat} {id : RpcId}
    (hj : (items[j]?).bind RpcItem.callId = some id)
    (hk : (items[k]?).bind RpcItem.callId = some id) : j = k := by
  induction items generalizing j k with
  | nil => simp at hj
  | cons item items ih =>
    have hmem : ∀ {m : Nat}, (items[m]?).bind RpcItem.callId = some id →
        id ∈ items.filterMap RpcItem.callId := by
      intro m hm
      obtain ⟨x, hx, hid⟩ := Option.bind_eq_some_iff.mp hm
      exact List.mem_filterMap.mpr ⟨x, List.mem_of_getElem? hx, hid⟩
    have htail : (items.filterMap RpcItem.callId).Nodup :=
      h.sublist ((List.sublist_cons_self item items).filterMap _)
    have hhead : item.callId = some id → id ∉ items.filterMap RpcItem.callId := by
      intro hid
      rw [List.filterMap_cons_some hid] at h
      exact (List.nodup_cons.mp h).1
    cases j with
    | zero => cases k with
      | zero => rfl
      | succ k =>
        simp only [List.getElem?_cons_zero, Option.bind_some] at hj
        simp only [List.getElem?_cons_succ] at hk
        exact absurd (hmem hk) (hhead hj)
    | succ j => cases k with
      | zero =>
        simp only [List.getElem?_cons_zero, Option.bind_some] at hk
        simp only [List.getElem?_cons_succ] at hj
        exact absurd (hmem hj) (hhead hk)
      | succ k =>
        simp only [List.getElem?_cons_succ] at hj hk
        rw [ih htail hj hk]

/-- The ids a waiting batch keeps are those of its owners. -/
theorem Batches.owner_of_request (h : c.Batches) {b : Nat} {batch : BatchAssembly}
    (hb : c.batches.row b = some batch) {id : RpcId} (hid : id ∈ batch.requestIds) :
    ∃ k, c.Owner ⟨batch.frame, k⟩ id := by
  obtain ⟨-, items, hwait⟩ := h.waiting b batch hb
  rw [hwait.requestIds] at hid
  obtain ⟨item, hitem, hcall⟩ := List.mem_filterMap.mp hid
  obtain ⟨k, hk⟩ := List.getElem?_of_mem hitem
  refine ⟨k, ?_, Or.inr ⟨b, batch, hb, rfl⟩⟩
  simp [idAt, hwait.received, Received.items, hk, hcall]

theorem Ids.step (h : c.Ids) (hbat : c.Batches) (hbase : c.Base) (hs : c.Step d) : d.Ids := by
  cases hs with
  | stay => exact h
  | note r ps hb ho hsp =>
    have hown : ∀ o id, ({ c with
        received := c.received ++ [r]
        sent := c.sent ++ ps.map Frame.response } : Book).Owner o id → c.Owner o id := by
      intro o id hown
      have hlt : o.frame ≠ c.received.length := by
        rcases hown.2 with ⟨w, hw, -⟩ | ⟨b, batch, hb, hf⟩
        · exact Nat.ne_of_lt (hbase.frame_lt hw)
        · exact Nat.ne_of_lt (hf ▸ hbase.batch_lt hb)
      exact ⟨(idAt_log rfl hlt).symm.trans hown.1, hown.2⟩
    exact h.mono hown fun _ _ _ hin => hin
  | accept call close hid =>
    have hcases : ∀ o id, ({ c with
        received := c.received ++ [⟨.message (.single (.call call)), true⟩]
        outstanding := c.outstanding ∪ call.id.toFinset
        works := c.works.upsert ⟨c.received.length, 0⟩ ⟨call, .single, close, none⟩ } :
          Book).Owner o id →
        c.Owner o id ∨ (o = ⟨c.received.length, 0⟩ ∧ call.id = some id) := by
      rintro o id ⟨hat, hown⟩
      by_cases ho : o = ⟨c.received.length, 0⟩
      · subst ho
        refine Or.inr ⟨rfl, ?_⟩
        simpa [idAt, Received.items, RpcItem.callId, RpcItem.call?] using hat
      · left
        have hold : (∃ w, c.works.row o = some w ∧ w.destination = .single) ∨
            ∃ b batch, c.batches.row b = some batch ∧ batch.frame = o.frame := by
          rcases hown with ⟨w, hw, hd⟩ | hb
          · rw [Table.upsert_row_ne _ _ ho] at hw
            exact Or.inl ⟨w, hw, hd⟩
          · exact Or.inr hb
        have hlt : o.frame ≠ c.received.length := by
          rcases hold with ⟨w, hw, -⟩ | ⟨b, batch, hb, hf⟩
          · exact Nat.ne_of_lt (hbase.frame_lt hw)
          · exact Nat.ne_of_lt (hf ▸ hbase.batch_lt hb)
        exact ⟨(idAt_log rfl hlt).symm.trans hat, hold⟩
    constructor
    · intro o id hown
      rw [Finset.mem_union, Option.mem_toFinset]
      rcases hcases o id hown with hold | ⟨-, hnew⟩
      · exact Or.inl (h.held o id hold)
      · exact Or.inr hnew
    · intro o o' id h₁ h₂
      rcases hcases o id h₁ with hold₁ | ⟨rfl, hnew₁⟩ <;>
        rcases hcases o' id h₂ with hold₂ | ⟨rfl, hnew₂⟩
      · exact h.unique o o' id hold₁ hold₂
      · exact absurd (h.held o id hold₁) (hid id hnew₂)
      · exact absurd (h.held o' id hold₂) (hid id hnew₁)
      · rfl
  | dispatch o w result hw ha =>
    refine h.mono ?_ fun _ _ _ hin => hin
    rintro o' id ⟨hat, ⟨w', hw', hd'⟩ | hb⟩
    · refine ⟨hat, Or.inl ?_⟩
      rw [Table.upsert_row] at hw'
      split at hw'
      · next he =>
        cases hw'
        exact ⟨w, by rw [he, hw], hd'⟩
      · exact ⟨w', hw', hd'⟩
    · exact ⟨hat, Or.inr hb⟩
  | answer o w result hw hr hd =>
    have hback : ∀ o' id, ({ c with
        works := c.works.erase o
        outstanding := c.outstanding \ w.call.id.toFinset
        sent := c.sent ++ (result.response.map Frame.response).toList } : Book).Owner o' id →
        c.Owner o' id ∧ o' ≠ o := by
      rintro o' id ⟨hat, ⟨w', hw', hd'⟩ | ⟨b, batch, hb, hf⟩⟩
      · obtain ⟨hne, hw'⟩ := erase_back hw'
        exact ⟨⟨hat, Or.inl ⟨w', hw', hd'⟩⟩, hne⟩
      · refine ⟨⟨hat, Or.inr ⟨b, batch, hb, hf⟩⟩, ?_⟩
        rintro rfl
        obtain ⟨x, hx, -, -, hdest, -⟩ := hbase.works o' w hw
        obtain ⟨items, accepting, hx'⟩ := hbase.batches b batch hb
        rw [hf, hx] at hx'
        cases hx'
        have := hdest.mpr hd
        cases this
    refine h.mono (fun o' id hown => (hback o' id hown).1) ?_
    intro o' id hown hin
    obtain ⟨hold, hne⟩ := hback o' id hown
    rw [Finset.mem_sdiff, Option.mem_toFinset]
    refine ⟨hin, fun hid => hne ?_⟩
    exact h.unique o' o id hold ⟨(hbase.idAt_works hw).trans hid, Or.inl ⟨w, hw, hd⟩⟩
  | drop o w b hw hd hb =>
    refine h.mono ?_ fun _ _ _ hin => hin
    rintro o' id ⟨hat, ⟨w', hw', hd'⟩ | hbb⟩
    · exact ⟨hat, Or.inl ⟨w', (erase_back hw').2, hd'⟩⟩
    · exact ⟨hat, Or.inr hbb⟩
  | absorb o w result b batch hw hr hd hb hp =>
    refine h.mono ?_ fun _ _ _ hin => hin
    rintro o' id ⟨hat, ⟨w', hw', hd'⟩ | ⟨b', batch', hb', hf⟩⟩
    · exact ⟨hat, Or.inl ⟨w', (erase_back hw').2, hd'⟩⟩
    · refine ⟨hat, Or.inr ?_⟩
      rw [Table.upsert_row] at hb'
      split at hb'
      · cases hb'
        rw [absorb_frame] at hf
        exact ⟨b, batch, hb, hf⟩
      · exact ⟨b', batch', hb', hf⟩
  | complete o w result b batch hw hr hd hb hp =>
    have hback : ∀ o' id, ({ c with
        works := c.works.erase o
        batches := c.batches.erase b
        outstanding := c.outstanding \ (Session.absorb batch w result).requestIds.toFinset
        sent := c.sent ++ (Session.absorb batch w result).frames } : Book).Owner o' id →
        c.Owner o' id ∧ o'.frame ≠ batch.frame := by
      rintro o' id ⟨hat, ⟨w', hw', hd'⟩ | ⟨b', batch', hb', hf⟩⟩
      · obtain ⟨-, hw'⟩ := erase_back hw'
        refine ⟨⟨hat, Or.inl ⟨w', hw', hd'⟩⟩, fun hf => ?_⟩
        obtain ⟨x, hx, -, -, hdest, -⟩ := hbase.works o' w' hw'
        obtain ⟨items, accepting, hx'⟩ := hbase.batches b batch hb
        rw [← hf, hx] at hx'
        cases hx'
        have := hdest.mpr hd'
        cases this
      · rw [Table.erase_row] at hb'
        split at hb'
        · cases hb'
        · next he =>
          refine ⟨⟨hat, Or.inr ⟨b', batch', hb', hf⟩⟩, fun hfr => ?_⟩
          exact he (hbat.apart b' batch' b batch hb' hb (hf.trans hfr))
    refine h.mono (fun o' id hown => (hback o' id hown).1) ?_
    intro o' id hown hin
    obtain ⟨hold, hne⟩ := hback o' id hown
    rw [Finset.mem_sdiff, absorb_requestIds, List.mem_toFinset]
    refine ⟨hin, fun hid => hne ?_⟩
    obtain ⟨k, hk⟩ := hbat.owner_of_request hb hid
    rw [h.unique o' _ id hold hk]
  | store accepting outstanding works items batch ha hp =>
    have hacc : accepting = true := by
      obtain ⟨⟨f, k⟩, ho⟩ := Finset.card_pos.mp (Nat.pos_of_ne_zero (ha.pending ▸ hp))
      obtain ⟨w, hw, hf, -⟩ := mem_waitingFor.mp ho
      obtain rfl : f = c.received.length := hf
      exact (ha.own k w hw).1
    have hcases : ∀ o id, ({ c with
        received := c.received ++ [⟨.message (.batch items), accepting⟩]
        nextBatch := (c.nextBatch + 1) % 2 ^ 64
        outstanding := outstanding
        works := works
        batches := c.batches.upsert c.nextBatch batch } : Book).Owner o id →
        c.Owner o id ∨
          (o.frame = c.received.length ∧ (items[o.item]?).bind RpcItem.callId = some id) := by
      rintro o id ⟨hat, hown⟩
      by_cases ho : o.frame = c.received.length
      · refine Or.inr ⟨ho, ?_⟩
        simpa [idAt, ho, Received.items] using hat
      · left
        refine ⟨(idAt_log rfl ho).symm.trans hat, ?_⟩
        rcases hown with ⟨w, hw, hd⟩ | ⟨b, batch', hb, hf⟩
        · exact Or.inl ⟨w, (ha.other o ho).symm.trans hw, hd⟩
        · right
          rw [Table.upsert_row] at hb
          split at hb
          · cases hb
            exact absurd (hf.symm.trans ha.frame) ho
          · exact ⟨b, batch', hb, hf⟩
    have hreq : ∀ {k : Nat} {id}, (items[k]?).bind RpcItem.callId = some id → id ∈ batch.requestIds := by
      intro k id hk
      obtain ⟨item, hitem, hid⟩ := Option.bind_eq_some_iff.mp hk
      rw [ha.requestIds]
      exact List.mem_filterMap.mpr ⟨item, List.mem_of_getElem? hitem, hid⟩
    constructor
    · intro o id hown
      rcases hcases o id hown with hold | ⟨-, hnew⟩
      · exact ha.kept (h.held o id hold)
      · exact ha.held hacc id (hreq hnew)
    · intro o o' id h₁ h₂
      rcases hcases o id h₁ with hold₁ | ⟨hf₁, hnew₁⟩ <;>
        rcases hcases o' id h₂ with hold₂ | ⟨hf₂, hnew₂⟩
      · exact h.unique o o' id hold₁ hold₂
      · exact absurd (h.held o id hold₁) (ha.fresh id (hreq hnew₂))
      · exact absurd (h.held o' id hold₂) (ha.fresh id (hreq hnew₁))
      · have hnd := ha.nodup hacc
        rw [ha.requestIds] at hnd
        have hk := nodup_filterMap_index hnd hnew₁ hnew₂
        obtain ⟨f, k⟩ := o
        obtain ⟨f', k'⟩ := o'
        simp only at hf₁ hf₂ hk
        rw [hf₁, hf₂, hk]
  | flush accepting outstanding works items batch ha hp =>
    have hback : ∀ o id, ({ c with
        received := c.received ++ [⟨.message (.batch items), accepting⟩]
        nextBatch := (c.nextBatch + 1) % 2 ^ 64
        outstanding := outstanding \ batch.requestIds.toFinset
        works := works
        sent := c.sent ++ batch.frames } : Book).Owner o id → c.Owner o id := by
      rintro o id ⟨hat, hown⟩
      by_cases ho : o.frame = c.received.length
      · exfalso
        rcases hown with ⟨w, hw, hd⟩ | ⟨b, batch', hb, hf⟩
        · obtain ⟨f, k⟩ := o
          obtain rfl : f = c.received.length := ho
          rw [(ha.own k w hw).2.2] at hd
          cases hd
        · exact absurd (hf.trans ho) (Nat.ne_of_lt (hbase.batch_lt hb))
      · refine ⟨(idAt_log rfl ho).symm.trans hat, ?_⟩
        rcases hown with ⟨w, hw, hd⟩ | hb
        · exact Or.inl ⟨w, (ha.other o ho).symm.trans hw, hd⟩
        · exact Or.inr hb
    refine h.mono hback ?_
    intro o id hown hin
    rw [Finset.mem_sdiff, List.mem_toFinset]
    exact ⟨ha.kept hin, fun hid => ha.fresh id hid hin⟩

/-- Everything that holds of the book of a session whose transport is open. -/
structure Sound (c : Book) : Prop where
  base : c.Base
  singles : c.Singles
  batches : c.batchCount < 2 ^ 64 → c.Batches
  ids : c.batchCount < 2 ^ 64 → c.Ids

theorem Step.batchCount_le (hs : c.Step d) : c.batchCount ≤ d.batchCount := by
  cases hs with
  | stay => exact le_refl _
  | note r ps hb ho hsp => exact Book.batchCount_le rfl
  | accept call close hid => exact Book.batchCount_le rfl
  | dispatch o w result hw ha => exact le_of_eq (batchCount_same rfl).symm
  | answer o w result hw hr hd => exact le_of_eq (batchCount_same rfl).symm
  | drop o w b hw hd hb => exact le_of_eq (batchCount_same rfl).symm
  | absorb o w result b batch hw hr hd hb hp => exact le_of_eq (batchCount_same rfl).symm
  | complete o w result b batch hw hr hd hb hp => exact le_of_eq (batchCount_same rfl).symm
  | store accepting outstanding works items batch ha hp => exact Book.batchCount_le rfl
  | flush accepting outstanding works items batch ha hp => exact Book.batchCount_le rfl

theorem Sound.step (h : c.Sound) (hs : c.Step d) : d.Sound where
  base := h.base.step hs
  singles := h.singles.step h.base hs
  batches := fun hd =>
    (h.batches (hs.batchCount_le.trans_lt hd)).step h.base hs (hs.batchCount_le.trans_lt hd)
  ids := fun hd =>
    (h.ids (hs.batchCount_le.trans_lt hd)).step (h.batches (hs.batchCount_le.trans_lt hd)) h.base hs

theorem init_sound : Session.init.book.Sound where
  base := ⟨by simp [Session.init], by simp [Session.init], fun _ _ => rfl, rfl⟩
  singles := by
    intro n r call hr
    simp [Session.init] at hr
  batches := fun _ => ⟨by simp [Session.init], by simp [Session.init], by simp [Session.init],
    by simp [Session.init]⟩
  ids := fun _ => ⟨by simp [Owner, Session.init], by simp [Owner, Session.init]⟩

end Book

namespace Session

variable {s t : Session}

theorem run_sound {es : List SessionEvent} (h : run step init es = some s) :
    s.closed = false → s.book.Sound := by
  refine run_invariant (I := fun s => s.closed = false → s.book.Sound) ?_
    (fun _ => Book.init_sound) h
  intro s e t hi hstep hop
  have hfree : s.closed = false → ∀ o w, s.works.row o = some w → o.frame ≠ s.received.length :=
    fun hc o w hw => Nat.ne_of_lt ((hi hc).base.frame_lt hw)
  obtain ⟨hc, hbook⟩ := step_book hfree hstep hop
  exact (hi hc).step hbook

/-- The call with this id arrived while the session accepted work, and neither its single
response nor the array of its batch has been queued. -/
def Outstanding (s : Session) (o : Origin) (id : RpcId) : Prop :=
  ∃ r, s.received[o.frame]? = some r ∧ r.accepting = true ∧
    (r.items[o.item]?).bind RpcItem.callId = some id ∧ s.answers o.frame = []

/-- Single calls: nothing while a worker has them or without an id; else one response with
their id. A call that came after a lifecycle failure may go unanswered. -/
def SinglesAnswered (s : Session) : Prop :=
  ∀ n call accepting, s.received[n]? = some ⟨.message (.single (.call call)), accepting⟩ →
    (call.id = none → s.answers n = []) ∧
    ∀ id, call.id = some id →
      (s.works.row ⟨n, 0⟩ ≠ none → s.answers n = []) ∧
      (s.works.row ⟨n, 0⟩ = none →
        (∃ p, s.answers n = [.response p] ∧ p.response.id = id) ∨
          (accepting = false ∧ s.answers n = []))

/-- Batches: nothing while a member with an id has a worker; then one array, unless it would
be empty, with one element for each invalid item and each call with an id. A call that came
after a lifecycle failure may lack its element. -/
def BatchesAnswered (s : Session) : Prop :=
  ∀ n items accepting, s.received[n]? = some ⟨.message (.batch items), accepting⟩ →
    (s.answers n = [] ∧ ∃ k w, s.works.row ⟨n, k⟩ = some w ∧ w.countsTowardBatch = true) ∨
    ((∀ k w, s.works.row ⟨n, k⟩ = some w → w.call.id = none) ∧
      ∃ ps : List PreparedResponse, s.answers n = (if ps.isEmpty then [] else [.batch n ps]) ∧
        (ps.map fun p => p.origin.item).Nodup ∧
        (∀ p ∈ ps, (items[p.origin.item]?).bind RpcItem.owed = some p.response.id) ∧
        ∀ k item id, items[k]? = some item → item.owed = some id →
          (accepting = true ∨ item.call? = none) → ∃ p ∈ ps, p.origin.item = k)

/-- No two outstanding calls share an id, and only outstanding calls have a worker. -/
def IdsUnique (s : Session) : Prop :=
  (∀ o o' id, s.Outstanding o id → s.Outstanding o' id → o = o') ∧
    ∀ o w id, s.works.row o = some w → w.call.id = some id → s.Outstanding o id

theorem singlesAnswered (h : s.book.Sound) : s.SinglesAnswered := by
  intro n call accepting hn
  have hcase := h.singles n _ call hn rfl rfl
  refine ⟨fun hid => ?_, fun id hid => ⟨fun hw => ?_, fun hw => ?_⟩⟩
  · rcases hcase with ⟨-, hans⟩ | ⟨-, ⟨hans, -⟩ | ⟨p, -, hp⟩⟩
    · exact hans
    · exact hans
    · rw [hid] at hp
      cases hp
  · rcases hcase with ⟨-, hans⟩ | ⟨hno, -⟩
    · exact hans
    · exact absurd hno hw
  · rcases hcase with ⟨hno, -⟩ | ⟨-, ⟨hans, hid' | hacc⟩ | ⟨p, hans, hp⟩⟩
    · exact absurd hw hno
    · rw [hid] at hid'
      cases hid'
    · exact Or.inr ⟨hacc, hans⟩
    · rw [hid] at hp
      exact Or.inl ⟨p, hans, (Option.some.inj hp).symm⟩

theorem batchesAnswered (hbase : s.book.Base) (h : s.book.Batches) : s.BatchesAnswered := by
  intro n items accepting hn
  by_cases hwait : ∃ b batch, s.book.batches.row b = some batch ∧ batch.frame = n
  · obtain ⟨b, batch, hb, rfl⟩ := hwait
    obtain ⟨-, items', hw⟩ := h.waiting b batch hb
    left
    refine ⟨hw.unanswered, ?_⟩
    have hpos := Nat.pos_of_ne_zero hw.some_pending
    rw [hw.pending] at hpos
    obtain ⟨⟨f, k⟩, ho⟩ := Finset.card_pos.mp hpos
    obtain ⟨w, hrow, hf, hcnt⟩ := Book.mem_waitingFor.mp ho
    obtain rfl : f = batch.frame := hf
    exact ⟨k, w, hrow, hcnt⟩
  · push Not at hwait
    obtain ⟨hidle, ps, hps, hans⟩ := h.settled n items accepting hn hwait
    have hnone : ∀ k w, s.works.row ⟨n, k⟩ = some w → w.call.id = none := by
      intro k w hw
      by_contra hid
      have hmem : (⟨n, k⟩ : Origin) ∈ Book.waitingFor s.book.works n := by
        refine Book.mem_waitingFor.mpr ⟨w, hw, rfl, ?_⟩
        simp [Work.countsTowardBatch, Option.isSome_iff_ne_none.mpr hid]
      rw [hidle] at hmem
      simp at hmem
    refine Or.inr ⟨hnone, ps, hans, hps.distinct, fun p hp => (hps.sound p hp).2.1, ?_⟩
    intro k item id hitem hown hcov
    refine hps.complete k item id hitem hown hcov ?_
    by_contra hno
    obtain ⟨w, hw⟩ := Option.ne_none_iff_exists'.mp hno
    exact hbase.owed_ne hw hn (hnone k w hw) hitem hown rfl

/-- A frame that is no batch has one item at most. -/
theorem items_of_not_batch {r : Received} (hb : r.isBatch = false) {k : Nat} {item : RpcItem}
    (hi : r.items[k]? = some item) : k = 0 ∧ r.items = [item] := by
  obtain ⟨input, accepting⟩ := r
  cases input with
  | malformed => simp [Received.items] at hi
  | message m => cases m with
    | batch items => cases hb
    | single it => cases k with
      | zero => simpa [Received.items] using hi
      | succ k => simp [Received.items] at hi

theorem callId_eq_some {item : RpcItem} {id : RpcId} (h : item.callId = some id) :
    ∃ call, item = .call call ∧ call.id = some id := by
  cases item with
  | call call => exact ⟨call, rfl, by simpa [RpcItem.callId, RpcItem.call?] using h⟩
  | invalid response => simp [RpcItem.callId, RpcItem.call?] at h
  | response => simp [RpcItem.callId, RpcItem.call?] at h

/-- An outstanding call owns its id. -/
theorem owner_of_outstanding (h : s.book.Sound) (hb : s.book.Batches) {o : Origin} {id : RpcId}
    (ho : s.Outstanding o id) : s.book.Owner o id := by
  obtain ⟨r, hr, hacc, hid, hans⟩ := ho
  have hat : s.book.idAt o = some id := by
    simp only [Book.idAt, book_received, hr, Option.bind_some]
    exact hid
  have hans' : s.book.answers o.frame = [] := hans
  obtain ⟨item, hitem, hcall⟩ := Option.bind_eq_some_iff.mp hid
  obtain ⟨call, rfl, hcid⟩ := callId_eq_some hcall
  refine ⟨hat, ?_⟩
  cases hbatch : r.isBatch with
  | false =>
    left
    obtain ⟨f, k⟩ := o
    obtain ⟨hk, hitems⟩ := items_of_not_batch hbatch hitem
    obtain rfl : k = 0 := hk
    rcases h.singles f r call hr hbatch hitems with ⟨hw, -⟩ | ⟨-, ⟨-, hno | hno⟩ | ⟨p, hp, -⟩⟩
    · obtain ⟨w, hw⟩ := Option.ne_none_iff_exists'.mp hw
      obtain ⟨x, hx, -, -, hdest, -⟩ := h.base.works _ w hw
      rw [show s.book.received[f]? = some r from hr] at hx
      cases hx
      exact ⟨w, hw, hdest.mp hbatch⟩
    · rw [hcid] at hno
      cases hno
    · rw [hacc] at hno
      cases hno
    · rw [show s.book.answers f = [] from hans] at hp
      cases hp
  | true =>
    right
    obtain ⟨items, rfl⟩ : ∃ items, r = ⟨.message (.batch items), true⟩ := by
      obtain ⟨input, accepting⟩ := r
      obtain rfl : accepting = true := hacc
      cases input with
      | malformed => cases hbatch
      | message m => cases m with
        | single it => cases hbatch
        | batch items => exact ⟨items, rfl⟩
    by_contra hno
    push Not at hno
    have hset := hb.settled o.frame items true hr hno
    obtain ⟨ps, hps, hpans⟩ := hset.answered
    rw [hans'] at hpans
    have hempty : ps = [] := by
      cases ps with
      | nil => rfl
      | cons p ps => simp at hpans
    have hrow : s.book.works.row ⟨o.frame, o.item⟩ = none := by
      by_contra hsome
      obtain ⟨w, hw⟩ := Option.ne_none_iff_exists'.mp hsome
      have hmem : (⟨o.frame, o.item⟩ : Origin) ∈ Book.waitingFor s.book.works o.frame := by
        refine Book.mem_waitingFor.mpr ⟨w, hw, rfl, ?_⟩
        have := h.base.idAt_works hw
        rw [show s.book.idAt ⟨o.frame, o.item⟩ = some id from hat] at this
        simp [Work.countsTowardBatch, ← this]
      rw [hset.idle] at hmem
      simp at hmem
    obtain ⟨p, hp, -⟩ := hps.complete o.item _ id hitem (RpcItem.owed_of_callId hcall)
      (Or.inl rfl) hrow
    rw [hempty] at hp
    simp at hp

theorem outstanding_of_worker (h : s.book.Sound) (hb : s.book.Batches) {o : Origin} {w : Work}
    {id : RpcId} (hw : s.works.row o = some w) (hid : w.call.id = some id) :
    s.Outstanding o id := by
  obtain ⟨r, hr, hacc, hitem, hdest, -⟩ := h.base.works o w hw
  refine ⟨r, hr, hacc, ?_, ?_⟩
  · simp [hitem, RpcItem.callId, RpcItem.call?, hid]
  · cases hd : w.destination with
    | single =>
      obtain ⟨f, k⟩ := o
      obtain ⟨hk, hitems⟩ := items_of_not_batch (hdest.mpr hd) hitem
      obtain rfl : k = 0 := hk
      rcases h.singles f r w.call hr (hdest.mpr hd) hitems with ⟨-, hans⟩ | ⟨hno, -⟩
      · exact hans
      · rw [show s.book.works.row ⟨f, 0⟩ = some w from hw] at hno
        cases hno
    | batch b =>
      obtain ⟨batch, hrow, hf⟩ := hb.hired o w b hw hd (by simp [Work.countsTowardBatch, hid])
      obtain ⟨-, items, hwait⟩ := hb.waiting b batch hrow
      exact hf ▸ hwait.unanswered

/-- While the transport is open, responses match requests; batches and the ids of calls
in a session that has received fewer than `2 ^ 64` batches. -/
theorem serve_rpc_session_corresponds {es : List SessionEvent} (h : run step init es = some s)
    (hop : s.closed = false) :
    s.SinglesAnswered ∧
      ((s.received.filter Received.isBatch).length < 2 ^ 64 →
        s.BatchesAnswered ∧ s.IdsUnique) := by
  have hs := run_sound h hop
  refine ⟨singlesAnswered hs, fun hcount => ?_⟩
  have hb := hs.batches hcount
  refine ⟨batchesAnswered hs.base hb, ?_, ?_⟩
  · intro o o' id h₁ h₂
    exact (hs.ids hcount).unique o o' id (owner_of_outstanding hs hb h₁)
      (owner_of_outstanding hs hb h₂)
  · intro o w id hw hid
    exact outstanding_of_worker hs hb hw hid

section Runs

def ping (id : String) : RpcCall := ⟨some (.string id), "session.ping"⟩

/-- A batch of two calls around a peer response, finished in the opposite order. -/
theorem serve_rpc_session_corresponds_reordered :
    let events := opening ++
      [.input (.batch [.call (ping "a"), .response, .call (ping "b")]) (fun _ => free) true true,
        .dispatch ⟨1, 2⟩ ⟨.success, true, false⟩, .deliver ⟨1, 2⟩ true true,
        .dispatch ⟨1, 0⟩ ⟨.failure (.new .internal), true, false⟩, .deliver ⟨1, 0⟩ true true]
    ∃ s, run step init events = some s ∧ s.closed = false ∧ (s.answers 1).length = 1 ∧
      s.SinglesAnswered ∧ s.BatchesAnswered ∧ s.IdsUnique := by
  intro events
  have h : run step init events = some _ := rfl
  obtain ⟨hsingles, hbatches⟩ := serve_rpc_session_corresponds h rfl
  exact ⟨_, h, rfl, rfl, hsingles, hbatches (by decide)⟩

def peerResponse : SessionEvent := .input (.batch [.response]) (fun _ => free) true true

/-- `n` batches of one peer response were received. -/
def afterPeerResponses (s : Session) (n : Nat) : Session :=
  { s with
    nextBatch := (s.nextBatch + n) % 2 ^ 64
    received := s.received ++ List.replicate n ⟨.message (.batch [.response]), s.accepting⟩ }

theorem step_peerResponse (hw : s.waiting = true) (hp : s.handshakePending = false)
    (hf : s.firstMessage = false) : step s peerResponse = some (s.afterPeerResponses 1) := by
  simp [step, peerResponse, hw, hp, receive, hf, receiveBatch, scheduleItems, BatchAssembly.new,
    finishBatch, flushBatch, release, log, afterPeerResponses]

theorem run_peerResponses (hw : s.waiting = true) (hp : s.handshakePending = false)
    (hf : s.firstMessage = false) (hb : s.nextBatch < 2 ^ 64) (n : Nat) :
    run step s (List.replicate n peerResponse) = some (s.afterPeerResponses n) := by
  induction n generalizing s with
  | zero =>
    simp only [afterPeerResponses, Nat.add_zero, Nat.mod_eq_of_lt hb, List.replicate_zero,
      List.append_nil, run_nil]
  | succ n ih =>
    rw [List.replicate_succ, run_cons_eq_some]
    refine ⟨_, step_peerResponse hw hp hf, ?_⟩
    rw [ih (by exact hw) (by exact hp) (by exact hf) (Nat.mod_lt _ (by decide))]
    simp [afterPeerResponses, List.replicate_succ, Nat.add_comm, Nat.add_left_comm]

theorem callAt_snoc {rs : List Received} {r : Received} (h : s.received = rs ++ [r]) (k : Nat) :
    s.callAt ⟨rs.length, k⟩ = (r.items[k]?).bind RpcItem.call? := by
  simp [callAt, h]

/-- The first batch takes number 0: one of its members is answered, the other has finished. -/
def halfBatch : List SessionEvent :=
  opening ++
    [.input (.batch [.call (ping "a"), .call (ping "b")]) (fun _ => free) true true,
      .dispatch ⟨1, 0⟩ ⟨.success, true, false⟩, .deliver ⟨1, 0⟩ true true,
      .dispatch ⟨1, 1⟩ ⟨.success, true, false⟩]

def halfAnswered : Session := (run step init halfBatch).getD init

def lateBatch : List SessionEvent :=
  [.input (.batch [.call (ping "c")]) (fun _ => free) true true, .deliver ⟨1, 1⟩ true true]

/-- A batch that gets number 0 again is sent in the place of the first one. -/
theorem run_lateBatch (rest : List Received) :
    ∃ t, run step { halfAnswered with
          nextBatch := 0
          received := halfAnswered.received ++ rest } lateBatch = some t ∧ t.closed = false ∧
      ∃ n, t.callAt ⟨n, 0⟩ = some (ping "c") ∧ t.works.row ⟨n, 0⟩ ≠ none ∧
        t.answers n ≠ [] := by
  refine ⟨_, rfl, rfl, (halfAnswered.received ++ rest).length, ?_, ?_, ?_⟩
  · exact @callAt_snoc _ (halfAnswered.received ++ rest)
      ⟨.message (.batch [.call (ping "c")]), true⟩ rfl 0
  · exact fun h => absurd (Table.upsert_row_self _ _ _) (h ▸ Option.some_ne_none _).symm
  · exact List.ne_nil_of_mem (List.mem_filter.mpr
      ⟨List.mem_append_right _ (List.mem_singleton.mpr rfl), decide_eq_true rfl⟩)

/-- A call after a suspension is dropped, and a batch number used again after `2 ^ 64`
batches sends an array while its own member is still running. -/
theorem suspended_call_dropped_and_batch_number_reused :
    (let events := opening ++
        [.input (.batch [.call (ping "a"), .call (ping "b")]) (fun _ => free) true true,
          .dispatch ⟨1, 0⟩ ⟨.failure (.ofLifecycle .revoked), true, false⟩,
          .deliver ⟨1, 0⟩ true true,
          .input (.single (.call (ping "c"))) (fun _ => free) true true]
      ∃ s, run step init events = some s ∧ s.closed = false ∧
        s.callAt ⟨2, 0⟩ = some (ping "c") ∧ s.works.row ⟨2, 0⟩ = none ∧ s.answers 2 = []) ∧
    (let events := halfBatch ++ (List.replicate (2 ^ 64 - 1) peerResponse ++ lateBatch)
      ∃ s, run step init events = some s ∧ s.closed = false ∧
        ∃ n, s.callAt ⟨n, 0⟩ = some (ping "c") ∧ s.works.row ⟨n, 0⟩ ≠ none ∧
          s.answers n ≠ []) := by
  refine ⟨⟨_, rfl, rfl, rfl, rfl, rfl⟩, ?_⟩
  have hhalf : run step init halfBatch = some halfAnswered := rfl
  have hwrap : run step halfAnswered (List.replicate (2 ^ 64 - 1) peerResponse) = some _ :=
    run_peerResponses rfl rfl rfl (by decide) (2 ^ 64 - 1)
  have hback : (halfAnswered.nextBatch + (2 ^ 64 - 1)) % 2 ^ 64 = 0 := by decide
  rw [afterPeerResponses, hback] at hwrap
  obtain ⟨t, ht, hbad⟩ := run_lateBatch _
  exact ⟨t, run_append.mpr ⟨_, hhalf, run_append.mpr ⟨_, hwrap, ht⟩⟩, hbad⟩

end Runs

end Session

end Chahua.Rpc
