import Chahua.Rpc.Singles

namespace Chahua.Rpc

open Framework

namespace Book

variable {c d : Book}

/-- The responses `ps` of frame `n` are, once each, those its items are owed and have no
worker for. Invalid items are always answered, calls when the frame was accepted. -/
structure Elements (works : Table Origin Work) (n : Nat) (items : List RpcItem)
    (accepting : Bool) (ps : List PreparedResponse) : Prop where
  distinct : (ps.map fun p => p.origin.item).Nodup
  sound : ∀ p ∈ ps, p.origin.frame = n ∧
    (items[p.origin.item]?).bind RpcItem.owed = some p.response.id ∧
    works.row ⟨n, p.origin.item⟩ = none
  complete : ∀ k item id, items[k]? = some item → item.owed = some id →
    (accepting = true ∨ item.call? = none) → works.row ⟨n, k⟩ = none →
    ∃ p ∈ ps, p.origin.item = k

/-- The workers of frame `n` its batch waits for. -/
def waitingFor (works : Table Origin Work) (n : Nat) : Finset Origin :=
  works.select fun o w => decide (o.frame = n) && w.countsTowardBatch

theorem mem_waitingFor {works : Table Origin Work} {n : Nat} {o : Origin} :
    o ∈ waitingFor works n ↔
      ∃ w, works.row o = some w ∧ o.frame = n ∧ w.countsTowardBatch = true := by
  simp only [waitingFor, Table.mem_select, Bool.and_eq_true, decide_eq_true_eq]

/-- A batch that waits for some of its members. -/
structure Waiting (c : Book) (b : Nat) (items : List RpcItem) (batch : BatchAssembly) :
    Prop where
  received : c.received[batch.frame]? = some ⟨.message (.batch items), true⟩
  requestIds : batch.requestIds = items.filterMap RpcItem.callId
  some_pending : batch.pending ≠ 0
  pending : batch.pending = (waitingFor c.works batch.frame).card
  destination : ∀ o w, c.works.row o = some w → o.frame = batch.frame →
    w.destination = .batch b
  unanswered : c.answers batch.frame = []
  elements : Elements c.works batch.frame items true batch.responses

/-- A batch whose members have all finished: at most one array was queued for it. -/
structure SettledBatch (c : Book) (n : Nat) (items : List RpcItem) (accepting : Bool) :
    Prop where
  idle : waitingFor c.works n = ∅
  answered : ∃ ps, Elements c.works n items accepting ps ∧
    c.answers n = if ps.isEmpty then [] else [.batch n ps]

structure Batches (c : Book) : Prop where
  waiting : ∀ b batch, c.batches.row b = some batch →
    b < c.batchCount ∧ ∃ items, c.Waiting b items batch
  apart : ∀ b batch b' batch', c.batches.row b = some batch → c.batches.row b' = some batch' →
    batch.frame = batch'.frame → b = b'
  hired : ∀ o w b, c.works.row o = some w → w.destination = .batch b →
    w.countsTowardBatch = true → ∃ batch, c.batches.row b = some batch ∧ batch.frame = o.frame
  settled : ∀ n items accepting,
    c.received[n]? = some ⟨.message (.batch items), accepting⟩ →
    (∀ b batch, c.batches.row b = some batch → batch.frame ≠ n) →
    c.SettledBatch n items accepting

/-- Elements only depend on which members of the frame have a worker. -/
theorem Elements.congr {works works' : Table Origin Work} {n : Nat} {items : List RpcItem}
    {accepting : Bool} {ps : List PreparedResponse} (h : Elements works n items accepting ps)
    (hw : ∀ k item id, items[k]? = some item → item.owed = some id →
      (works'.row ⟨n, k⟩ = none ↔ works.row ⟨n, k⟩ = none)) :
    Elements works' n items accepting ps := by
  refine ⟨h.distinct, ?_, ?_⟩
  · intro p hp
    obtain ⟨hf, hown, hrow⟩ := h.sound p hp
    obtain ⟨item, hitem, hid⟩ := Option.bind_eq_some_iff.mp hown
    exact ⟨hf, hown, (hw _ item _ hitem hid).mpr hrow⟩
  · intro k item id hitem hid hcov hrow
    exact h.complete k item id hitem hid hcov ((hw k item id hitem hid).mp hrow)

theorem waitingFor_congr {works works' : Table Origin Work} {n : Nat}
    (h : ∀ o, o.frame = n → (works'.row o).any Work.countsTowardBatch =
      (works.row o).any Work.countsTowardBatch) :
    waitingFor works' n = waitingFor works n := by
  apply Table.select_congr
  intro o
  by_cases hf : o.frame = n
  · simpa [hf] using h o hf
  · cases works'.row o <;> cases works.row o <;> simp [hf]

/-- A worker without an id to answer leaves what a frame is owed. -/
theorem Base.owed_ne (h : c.Base) {o : Origin} {w : Work} {items : List RpcItem}
    {accepting : Bool} (hw : c.works.row o = some w)
    (hr : c.received[o.frame]? = some ⟨.message (.batch items), accepting⟩)
    (hid : w.call.id = none) {k : Nat} {item : RpcItem} {id : RpcId}
    (hitem : items[k]? = some item) (hown : item.owed = some id) : k ≠ o.item := by
  rintro rfl
  obtain ⟨x, hx, -, hcall, -⟩ := h.works o w hw
  rw [hr] at hx
  cases hx
  simp only [Received.items] at hcall
  rw [hitem] at hcall
  cases hcall
  rw [RpcItem.owed, hid] at hown
  cases hown

/-- The settled batches of a book stay settled when the workers of their frame and the
answers to it stay what they were. -/
theorem SettledBatch.same {n : Nat} {items : List RpcItem} {accepting : Bool}
    (h : c.SettledBatch n items accepting)
    (hw : ∀ o, o.frame = n → (d.works.row o).any Work.countsTowardBatch =
      (c.works.row o).any Work.countsTowardBatch)
    (hrow : ∀ k item id, items[k]? = some item → item.owed = some id →
      (d.works.row ⟨n, k⟩ = none ↔ c.works.row ⟨n, k⟩ = none))
    (ha : d.answers n = c.answers n) : d.SettledBatch n items accepting := by
  obtain ⟨ps, hps, hans⟩ := h.answered
  exact ⟨(waitingFor_congr hw).trans h.idle, ps, hps.congr hrow, ha.trans hans⟩

theorem Waiting.same {b : Nat} {items : List RpcItem} {batch : BatchAssembly}
    (h : c.Waiting b items batch)
    (hr : d.received[batch.frame]? = c.received[batch.frame]?)
    (hw : ∀ o, o.frame = batch.frame → (d.works.row o).any Work.countsTowardBatch =
      (c.works.row o).any Work.countsTowardBatch)
    (hrow : ∀ k item id, items[k]? = some item → item.owed = some id →
      (d.works.row ⟨batch.frame, k⟩ = none ↔ c.works.row ⟨batch.frame, k⟩ = none))
    (hd : ∀ o w, d.works.row o = some w → o.frame = batch.frame →
      ∃ w', c.works.row o = some w' ∧ w'.destination = w.destination)
    (ha : d.answers batch.frame = c.answers batch.frame) : d.Waiting b items batch where
  received := hr.trans h.received
  requestIds := h.requestIds
  some_pending := h.some_pending
  pending := by rw [waitingFor_congr hw, h.pending]
  destination := by
    intro o w ho hf
    obtain ⟨w', hw', hdest⟩ := hd o w ho hf
    exact hdest.symm.trans (h.destination o w' hw' hf)
  unanswered := ha.trans h.unanswered
  elements := h.elements.congr hrow

/-- A change that leaves the batches alone and every worker of a batch frame in place. -/
theorem Batches.same (h : c.Batches) (hbase : c.Base) (hb : d.batches = c.batches)
    (hcount : c.batchCount ≤ d.batchCount)
    (hr : ∀ n, n < c.received.length → d.received[n]? = c.received[n]?)
    (hnew : ∀ n items accepting, c.received.length ≤ n →
      d.received[n]? ≠ some ⟨.message (.batch items), accepting⟩)
    (hw : ∀ o items accepting,
      c.received[o.frame]? = some ⟨.message (.batch items), accepting⟩ →
      (d.works.row o).map (fun w => (w.call, w.destination)) =
        (c.works.row o).map fun w => (w.call, w.destination))
    (hsingle : ∀ o w b, d.works.row o = some w → w.destination = .batch b →
      ∃ w', c.works.row o = some w' ∧ w'.destination = .batch b ∧ w'.call = w.call)
    (ha : ∀ n items accepting, c.received[n]? = some ⟨.message (.batch items), accepting⟩ →
      d.answers n = c.answers n) : d.Batches := by
  have hany : ∀ o items accepting,
      c.received[o.frame]? = some ⟨.message (.batch items), accepting⟩ →
      (d.works.row o).any Work.countsTowardBatch =
        (c.works.row o).any Work.countsTowardBatch := by
    intro o items accepting hx
    have := hw o items accepting hx
    cases hd : d.works.row o <;> cases hc : c.works.row o <;> simp_all [Work.countsTowardBatch,
      Work.activateAfterSuccess]
  have hnone : ∀ o items accepting,
      c.received[o.frame]? = some ⟨.message (.batch items), accepting⟩ →
      (d.works.row o = none ↔ c.works.row o = none) := by
    intro o items accepting hx
    have := hw o items accepting hx
    cases hd : d.works.row o <;> cases hc : c.works.row o <;> simp_all
  refine ⟨?_, ?_, ?_, ?_⟩
  · intro b batch hrow
    rw [hb] at hrow
    obtain ⟨hlt, items, hwait⟩ := h.waiting b batch hrow
    refine ⟨hlt.trans_le hcount, items, hwait.same (hr _ (hbase.batch_lt hrow)) ?_ ?_ ?_ ?_⟩
    · intro o hf
      exact hany o items true (hf ▸ hwait.received)
    · intro k item id _ _
      exact hnone ⟨batch.frame, k⟩ items true hwait.received
    · intro o w hdw hf
      have := hw o items true (hf ▸ hwait.received)
      rw [hdw] at this
      obtain ⟨w', hw', hpair⟩ := Option.map_eq_some_iff.mp this.symm
      exact ⟨w', hw', (Prod.mk.inj hpair).2⟩
    · exact ha _ items true hwait.received
  · rw [hb]
    exact h.apart
  · intro o w b hdw hdest hcnt
    obtain ⟨w', hw', hdest', hcall⟩ := hsingle o w b hdw hdest
    rw [hb]
    refine h.hired o w' b hw' hdest' ?_
    simpa [Work.countsTowardBatch, Work.activateAfterSuccess, hcall] using hcnt
  · intro n items accepting hn hno
    have hlt : n < c.received.length := by
      by_contra hge
      exact hnew n items accepting (not_lt.mp hge) hn
    rw [hr n hlt] at hn
    rw [hb] at hno
    refine (h.settled n items accepting hn hno).same ?_ ?_ (ha n items accepting hn)
    · intro o hf
      exact hany o items accepting (hf ▸ hn)
    · intro k item id _ _
      exact hnone ⟨n, k⟩ items accepting hn

/-- A worker the batch does not wait for leaves. -/
theorem Batches.erase_idle (h : c.Batches) (hbase : c.Base) {o : Origin} {w : Work}
    (hw : c.works.row o = some w) (hcnt : w.countsTowardBatch = false) :
    ({ c with works := c.works.erase o } : Book).Batches := by
  have hid : w.call.id = none := by
    simp only [Work.countsTowardBatch, Bool.or_eq_false_iff, Option.isSome_eq_false_iff,
      Option.isNone_iff_eq_none] at hcnt
    exact hcnt.1
  have hany : ∀ o', ((c.works.erase o).row o').any Work.countsTowardBatch =
      (c.works.row o').any Work.countsTowardBatch := by
    intro o'
    by_cases ho : o' = o
    · simp [ho, hw, hcnt]
    · rw [Table.erase_row_ne _ ho]
  have hrow : ∀ n items accepting, c.received[n]? = some ⟨.message (.batch items), accepting⟩ →
      ∀ k item id, items[k]? = some item → item.owed = some id →
      ((c.works.erase o).row ⟨n, k⟩ = none ↔ c.works.row ⟨n, k⟩ = none) := by
    intro n items accepting hn k item id hitem hown
    rw [Table.erase_row_ne]
    rintro rfl
    exact hbase.owed_ne hw hn hid hitem hown rfl
  have hback : ∀ {o' w'}, (c.works.erase o).row o' = some w' → c.works.row o' = some w' := by
    intro o' w' h'
    rw [Table.erase_row] at h'
    split at h'
    · cases h'
    · exact h'
  refine ⟨?_, h.apart, ?_, ?_⟩
  · intro b batch hb
    obtain ⟨hlt, items, hwait⟩ := h.waiting b batch hb
    refine ⟨hlt, items, hwait.same rfl (fun o' _ => hany o') (hrow _ items true hwait.received)
      ?_ rfl⟩
    intro o' w' h' _
    exact ⟨w', hback h', rfl⟩
  · intro o' w' b h' hd' hc'
    exact h.hired o' w' b (hback h') hd' hc'
  · intro n items accepting hn hno
    exact (h.settled n items accepting hn hno).same (fun o' _ => hany o')
      (hrow n items accepting hn) rfl

theorem absorb_idle {batch : BatchAssembly} {w : Work} {result : WorkResult}
    (hcnt : w.countsTowardBatch = false) (hr : result.response = none) :
    Session.absorb batch w result = batch := by
  have hact : w.activateAfterSuccess = false := by
    simp only [Work.countsTowardBatch, Bool.or_eq_false_iff] at hcnt
    exact hcnt.2
  simp [Session.absorb, hr, hcnt, hact]

/-- A notification has no response. -/
theorem Base.idle_response (h : c.Base) {o : Origin} {w : Work} {result : WorkResult}
    (hw : c.works.row o = some w) (hr : w.result = some result)
    (hcnt : w.countsTowardBatch = false) : result.response = none := by
  obtain ⟨-, -, -, -, -, hok⟩ := h.works o w hw
  cases hp : result.response with
  | none => rfl
  | some p =>
    obtain ⟨-, hid⟩ := (hok result hr).response (Option.mem_def.mpr hp)
    simp [Work.countsTowardBatch, hid] at hcnt

/-- The response of a finished member joins those of its frame. -/
theorem Elements.finish {works : Table Origin Work} {items : List RpcItem} {accepting : Bool}
    {ps : List PreparedResponse} {o : Origin} {w : Work} {p : Option PreparedResponse}
    (h : Elements works o.frame items accepting ps) (hw : works.row o = some w)
    (hitem : items[o.item]? = some (.call w.call)) (hp : Answers o w.call p) :
    Elements (works.erase o) o.frame items accepting (ps ++ p.toList) := by
  have hnew : ∀ x ∈ ps, x.origin.item ≠ o.item := by
    intro x hx he
    obtain ⟨-, -, hrow⟩ := h.sound x hx
    rw [he, hw] at hrow
    cases hrow
  refine ⟨?_, ?_, ?_⟩
  · rw [List.map_append, List.nodup_append]
    refine ⟨h.distinct, by cases p <;> simp, ?_⟩
    rintro k hk j hj rfl
    obtain ⟨x, hx, rfl⟩ := List.mem_map.mp hk
    obtain ⟨y, hy, hxy⟩ := List.mem_map.mp hj
    rw [(hp.response (Option.mem_toList.mp hy)).1] at hxy
    exact hnew x hx hxy.symm
  · intro x hx
    rcases List.mem_append.mp hx with hx | hx
    · obtain ⟨hf, hown, hrow⟩ := h.sound x hx
      refine ⟨hf, hown, ?_⟩
      rw [Table.erase_row, hrow, ite_self]
    · obtain ⟨horigin, hid⟩ := hp.response (Option.mem_toList.mp hx)
      rw [horigin]
      exact ⟨rfl, by simp [hitem, RpcItem.owed, hid], by simp⟩
  · intro k item id hk hown hcov hrow
    by_cases hko : k = o.item
    · subst hko
      rw [hitem] at hk
      cases hk
      cases hpo : p with
      | none =>
        rw [hpo] at hp
        rw [RpcItem.owed, hp.none] at hown
        cases hown
      | some x =>
        refine ⟨x, by simp, ?_⟩
        rw [(hp.response (Option.mem_def.mpr hpo)).1]
    · rw [Table.erase_row_ne] at hrow
      · obtain ⟨x, hx, hxk⟩ := h.complete k item id hk hown hcov hrow
        exact ⟨x, List.mem_append_left _ hx, hxk⟩
      · exact fun he => hko (congrArg Origin.item he)

/-- The batch a finished member belongs to, before and after its result is entered. -/
theorem Batches.member (h : c.Batches) (hbase : c.Base) {o : Origin} {w : Work}
    {result : WorkResult} {b : Nat} {batch : BatchAssembly} (hw : c.works.row o = some w)
    (hr : w.result = some result) (hd : w.destination = .batch b)
    (hb : c.batches.row b = some batch) (hcnt : w.countsTowardBatch = true) :
    batch.frame = o.frame ∧ ∃ items, c.Waiting b items batch ∧
      (waitingFor (c.works.erase o) o.frame).card + 1 = batch.pending ∧
      Elements (c.works.erase o) o.frame items true (Session.absorb batch w result).responses := by
  obtain ⟨batch', hb', hframe⟩ := h.hired o w b hw hd hcnt
  rw [hb] at hb'
  cases hb'
  obtain ⟨-, items, hwait⟩ := h.waiting b batch hb
  obtain ⟨x, hx, -, hitem, -, hok⟩ := hbase.works o w hw
  have hrec := hwait.received
  rw [hframe, hx] at hrec
  cases hrec
  refine ⟨hframe, items, hwait, ?_, ?_⟩
  · have hcard := @Table.card_select_erase _ _ _ c.works
      (fun o' w' => decide (o'.frame = o.frame) && w'.countsTowardBatch) o w hw
    simp only [hcnt, decide_true, Bool.and_self, if_true] at hcard
    rw [hwait.pending, hframe]
    exact hcard
  · rw [absorb_responses]
    have helem := hwait.elements
    rw [hframe] at helem
    exact helem.finish hw hitem (hok result hr)

/-- The frames a step that removes worker `o` does not concern. -/
theorem erase_other {o : Origin} {n : Nat} (hn : o.frame ≠ n) (k : Nat) :
    (c.works.erase o).row ⟨n, k⟩ = c.works.row ⟨n, k⟩ := by
  apply Table.erase_row_ne
  rintro rfl
  exact hn rfl

theorem erase_other_any {o : Origin} {n : Nat} (hn : o.frame ≠ n) :
    ∀ o', o'.frame = n → ((c.works.erase o).row o').any Work.countsTowardBatch =
      (c.works.row o').any Work.countsTowardBatch := by
  rintro ⟨f, k⟩ rfl
  rw [erase_other hn k]

theorem erase_back {o o' : Origin} {w : Work} (h : (c.works.erase o).row o' = some w) :
    o' ≠ o ∧ c.works.row o' = some w := by
  rw [Table.erase_row] at h
  split at h
  · cases h
  · exact ⟨by assumption, h⟩

theorem Batches.absorb (h : c.Batches) (hbase : c.Base) {o : Origin} {w : Work}
    {result : WorkResult} {b : Nat} {batch : BatchAssembly} (hw : c.works.row o = some w)
    (hr : w.result = some result) (hd : w.destination = .batch b)
    (hb : c.batches.row b = some batch) (hcnt : w.countsTowardBatch = true)
    (hp : (Session.absorb batch w result).pending ≠ 0) :
    ({ c with
      works := c.works.erase o
      batches := c.batches.upsert b (Session.absorb batch w result) } : Book).Batches := by
  obtain ⟨hframe, items, hwait, hcard, helem⟩ := h.member hbase hw hr hd hb hcnt
  have hrow : ∀ {b' batch'}, (c.batches.upsert b (Session.absorb batch w result)).row b' =
      some batch' → ∃ old, c.batches.row b' = some old ∧ old.frame = batch'.frame := by
    intro b' batch' h'
    rw [Table.upsert_row] at h'
    split at h'
    · next he =>
      cases h'
      exact ⟨batch, by rw [he, hb], (absorb_frame batch w result).symm⟩
    · exact ⟨batch', h', rfl⟩
  refine ⟨?_, ?_, ?_, ?_⟩
  · intro b' batch' h'
    rw [Table.upsert_row] at h'
    split at h'
    · next he =>
      cases h'
      refine ⟨he ▸ (h.waiting b batch hb).1, items, ?_⟩
      exact
        { received := by rw [absorb_frame]; exact hwait.received
          requestIds := by rw [absorb_requestIds]; exact hwait.requestIds
          some_pending := hp
          pending := by
            rw [absorb_pending, if_pos hcnt, absorb_frame, hframe, ← hcard]
            rfl
          destination := by
            intro o' w' h'' hf
            rw [absorb_frame] at hf
            rw [he]
            exact hwait.destination o' w' (erase_back h'').2 hf
          unanswered := by rw [absorb_frame]; exact hwait.unanswered
          elements := by
            rw [absorb_frame, hframe]
            exact helem }
    · next he =>
      obtain ⟨hlt, items', hwait'⟩ := h.waiting b' batch' h'
      have hne : o.frame ≠ batch'.frame := by
        intro hf
        exact he (h.apart b' batch' b batch h' hb (hf.symm.trans hframe.symm))
      refine ⟨hlt, items', hwait'.same rfl (erase_other_any hne) ?_ ?_ rfl⟩
      · intro k item id _ _
        rw [erase_other hne k]
      · intro o' w' h'' _
        exact ⟨w', (erase_back h'').2, rfl⟩
  · intro b₁ batch₁ b₂ batch₂ h₁ h₂ hf
    obtain ⟨old₁, hold₁, hf₁⟩ := hrow h₁
    obtain ⟨old₂, hold₂, hf₂⟩ := hrow h₂
    exact h.apart b₁ old₁ b₂ old₂ hold₁ hold₂ (hf₁.trans (hf.trans hf₂.symm))
  · intro o' w' b' h' hd' hc'
    obtain ⟨batch', hb', hf'⟩ := h.hired o' w' b' (erase_back h').2 hd' hc'
    by_cases he : b' = b
    · subst he
      rw [hb] at hb'
      cases hb'
      exact ⟨_, Table.upsert_row_self _ _ _, (absorb_frame batch w result).trans hf'⟩
    · exact ⟨batch', by rw [Table.upsert_row_ne _ _ he, hb'], hf'⟩
  · intro n items' accepting hn hno
    have hold : ∀ b' batch', c.batches.row b' = some batch' → batch'.frame ≠ n := by
      intro b' batch' h'
      by_cases he : b' = b
      · subst he
        rw [hb] at h'
        cases h'
        rw [← absorb_frame batch w result]
        exact hno b' _ (Table.upsert_row_self _ _ _)
      · exact hno b' batch' (by rw [Table.upsert_row_ne _ _ he, h'])
    have hne : o.frame ≠ n := hframe ▸ hold b batch hb
    refine (h.settled n items' accepting hn hold).same (erase_other_any hne) ?_ rfl
    intro k item id _ _
    rw [erase_other hne k]

theorem Batches.complete (h : c.Batches) (hbase : c.Base) {o : Origin} {w : Work}
    {result : WorkResult} {b : Nat} {batch : BatchAssembly} {outstanding : Finset RpcId}
    (hw : c.works.row o = some w) (hr : w.result = some result) (hd : w.destination = .batch b)
    (hb : c.batches.row b = some batch) (hcnt : w.countsTowardBatch = true)
    (hp : (Session.absorb batch w result).pending = 0) :
    ({ c with
      works := c.works.erase o
      batches := c.batches.erase b
      outstanding := outstanding
      sent := c.sent ++ (Session.absorb batch w result).frames } : Book).Batches := by
  obtain ⟨hframe, items, hwait, hcard, helem⟩ := h.member hbase hw hr hd hb hcnt
  have hidle : waitingFor (c.works.erase o) o.frame = ∅ := by
    rw [absorb_pending, if_pos hcnt] at hp
    exact Finset.card_eq_zero.mp (by omega)
  have hans : ∀ n, ({ c with
      works := c.works.erase o
      batches := c.batches.erase b
      outstanding := outstanding
      sent := c.sent ++ (Session.absorb batch w result).frames } : Book).answers n =
      c.answers n ++ if batch.frame = n then (Session.absorb batch w result).frames else [] := by
    intro n
    rw [answers_append rfl, filter_frames, absorb_frame]
  have hback : ∀ {b' batch'}, (c.batches.erase b).row b' = some batch' →
      b' ≠ b ∧ c.batches.row b' = some batch' := by
    intro b' batch' h'
    rw [Table.erase_row] at h'
    split at h'
    · cases h'
    · exact ⟨by assumption, h'⟩
  refine ⟨?_, ?_, ?_, ?_⟩
  · intro b' batch' h'
    obtain ⟨he, h'⟩ := hback h'
    obtain ⟨hlt, items', hwait'⟩ := h.waiting b' batch' h'
    have hbf : batch.frame ≠ batch'.frame := by
      intro hf
      exact he (h.apart b' batch' b batch h' hb hf.symm)
    refine ⟨hlt, items', hwait'.same rfl (erase_other_any (hframe ▸ hbf)) ?_ ?_ ?_⟩
    · intro k item id _ _
      rw [erase_other (hframe ▸ hbf) k]
    · intro o' w' h'' _
      exact ⟨w', (erase_back h'').2, rfl⟩
    · rw [hans, if_neg hbf, List.append_nil]
  · intro b₁ batch₁ b₂ batch₂ h₁ h₂ hf
    exact h.apart b₁ batch₁ b₂ batch₂ (hback h₁).2 (hback h₂).2 hf
  · intro o' w' b' h' hd' hc'
    obtain ⟨batch', hb', hf'⟩ := h.hired o' w' b' (erase_back h').2 hd' hc'
    by_cases he : b' = b
    · subst he
      rw [hb] at hb'
      cases hb'
      have hmem : o' ∈ waitingFor (c.works.erase o) o.frame :=
        mem_waitingFor.mpr ⟨w', h', hf'.symm.trans hframe, hc'⟩
      rw [hidle] at hmem
      simp at hmem
    · exact ⟨batch', by rw [Table.erase_row_ne _ he, hb'], hf'⟩
  · intro n items' accepting hn hno
    by_cases hbf : batch.frame = n
    · subst hbf
      have hrec := hwait.received
      rw [hn] at hrec
      cases hrec
      refine ⟨?_, (Session.absorb batch w result).responses, ?_, ?_⟩
      · rw [hframe]
        exact hidle
      · rw [hframe]
        exact helem
      · rw [hans, if_pos rfl, hwait.unanswered, List.nil_append, BatchAssembly.frames,
          absorb_frame]
    · have hold : ∀ b' batch', c.batches.row b' = some batch' → batch'.frame ≠ n := by
        intro b' batch' h'
        by_cases he : b' = b
        · subst he
          rw [hb] at h'
          cases h'
          exact hbf
        · exact hno b' batch' (by rw [Table.erase_row_ne _ he, h'])
      refine (h.settled n items' accepting hn hold).same (erase_other_any (hframe ▸ hbf)) ?_ ?_
      · intro k item id _ _
        rw [erase_other (hframe ▸ hbf) k]
      · rw [hans, if_neg hbf, List.append_nil]

section Assembled

variable {accepting : Bool} {outstanding : Finset RpcId} {works : Table Origin Work} {b : Nat}
  {items : List RpcItem} {batch : BatchAssembly}

theorem assembled_elements
    (ha : Session.Assembling accepting c.outstanding outstanding c.works works b
      c.received.length items batch) :
    Elements works c.received.length items accepting batch.responses :=
  ⟨ha.distinct, ha.sound, ha.complete⟩

theorem assembled_other
    (ha : Session.Assembling accepting c.outstanding outstanding c.works works b
      c.received.length items batch) {n : Nat} (hn : n < c.received.length) (k : Nat) :
    works.row ⟨n, k⟩ = c.works.row ⟨n, k⟩ :=
  ha.other ⟨n, k⟩ (Nat.ne_of_lt hn)

theorem assembled_any
    (ha : Session.Assembling accepting c.outstanding outstanding c.works works b
      c.received.length items batch) {n : Nat} (hn : n < c.received.length) :
    ∀ o, o.frame = n → (works.row o).any Work.countsTowardBatch =
      (c.works.row o).any Work.countsTowardBatch := by
  rintro ⟨f, k⟩ rfl
  rw [assembled_other ha hn k]

/-- The waiting batches stay, whatever the new frame is. -/
theorem Batches.waiting_assembled (h : c.Batches) (hbase : c.Base)
    (ha : Session.Assembling accepting c.outstanding outstanding c.works works b
      c.received.length items batch) (hd : d.received = c.received ++ [⟨.message (.batch items),
      accepting⟩]) (hw : d.works = works) (hans : ∀ n < c.received.length,
      d.answers n = c.answers n) {b' : Nat} {batch' : BatchAssembly}
    (hrow : c.batches.row b' = some batch') :
    b' < c.batchCount ∧ ∃ items', d.Waiting b' items' batch' := by
  obtain ⟨hlt, items', hwait⟩ := h.waiting b' batch' hrow
  have hf := hbase.batch_lt hrow
  refine ⟨hlt, items', hwait.same ?_ ?_ ?_ ?_ (hans _ hf)⟩
  · rw [hd, received_snoc hwait.received, hwait.received]
  · rw [hw]
    exact assembled_any ha hf
  · intro k item id _ _
    rw [hw, assembled_other ha hf k]
  · rintro ⟨f, k⟩ w' h' hfo
    obtain rfl : f = batch'.frame := hfo
    rw [hw, assembled_other ha hf k] at h'
    exact ⟨w', h', rfl⟩

/-- The settled batches stay, whatever the new frame is. -/
theorem Batches.settled_assembled (h : c.Batches)
    (ha : Session.Assembling accepting c.outstanding outstanding c.works works b
      c.received.length items batch) (hd : d.received = c.received ++ [⟨.message (.batch items),
      accepting⟩]) (hw : d.works = works) (hans : ∀ n < c.received.length,
      d.answers n = c.answers n) {n : Nat} {items' : List RpcItem} {accepting' : Bool}
    (hn : d.received[n]? = some ⟨.message (.batch items'), accepting'⟩)
    (hne : n ≠ c.received.length)
    (hno : ∀ b batch, c.batches.row b = some batch → batch.frame ≠ n) :
    d.SettledBatch n items' accepting' := by
  rw [hd] at hn
  have hold := received_snoc_of_ne hn hne
  have hlt := (List.getElem?_eq_some_iff.mp hold).1
  refine (h.settled n items' accepting' hold hno).same ?_ ?_ (hans n hlt)
  · rw [hw]
    exact assembled_any ha hlt
  · intro k item id _ _
    rw [hw, assembled_other ha hlt k]

theorem Batches.store (h : c.Batches) (hbase : c.Base) (hcount : c.batchCount < 2 ^ 64)
    (ha : Session.Assembling accepting c.outstanding outstanding c.works works c.nextBatch
      c.received.length items batch) (hp : batch.pending ≠ 0) :
    ({ c with
      received := c.received ++ [⟨.message (.batch items), accepting⟩]
      nextBatch := (c.nextBatch + 1) % 2 ^ 64
      outstanding := outstanding
      works := works
      batches := c.batches.upsert c.nextBatch batch } : Book).Batches := by
  have hnext : c.nextBatch = c.batchCount := by
    rw [hbase.next, Nat.mod_eq_of_lt hcount]
  have hfresh : ∀ b' batch', c.batches.row b' = some batch' → b' ≠ c.nextBatch := by
    intro b' batch' h'
    have := (h.waiting b' batch' h').1
    omega
  have hacc : accepting = true := by
    obtain ⟨⟨f, k⟩, ho⟩ := Finset.card_pos.mp (Nat.pos_of_ne_zero (ha.pending ▸ hp))
    obtain ⟨w, hw, hf, -⟩ := mem_waitingFor.mp ho
    obtain rfl : f = c.received.length := hf
    exact (ha.own k w hw).1
  subst hacc
  generalize hdef : ({ c with
      received := c.received ++ [⟨.message (.batch items), true⟩]
      nextBatch := (c.nextBatch + 1) % 2 ^ 64
      outstanding := outstanding
      works := works
      batches := c.batches.upsert c.nextBatch batch } : Book) = d
  have hr : d.received = c.received ++ [⟨.message (.batch items), true⟩] := by rw [← hdef]
  have hw : d.works = works := by rw [← hdef]
  have hb : d.batches = c.batches.upsert c.nextBatch batch := by rw [← hdef]
  have hans : ∀ n, d.answers n = c.answers n := answers_same (by rw [← hdef])
  have hnew : d.Waiting c.nextBatch items batch :=
    { received := by rw [hr, ha.frame, getElem?_snoc, if_pos rfl]
      requestIds := ha.requestIds
      some_pending := hp
      pending := by rw [hw, ha.frame]; exact ha.pending
      destination := by
        rintro ⟨f, k⟩ w hrow hf
        rw [ha.frame] at hf
        obtain rfl : f = c.received.length := hf
        rw [hw] at hrow
        rw [(ha.own k w hrow).2.2]
      unanswered := by rw [hans, ha.frame]; exact hbase.unsent _ (le_refl _)
      elements := by rw [hw, ha.frame]; exact assembled_elements ha }
  refine ⟨?_, ?_, ?_, ?_⟩
  · intro b' batch' h'
    rw [hb, Table.upsert_row] at h'
    rw [batchCount_snoc hr]
    split at h'
    · next he =>
      cases h'
      exact ⟨by simp [Received.isBatch, he, hnext], items, he ▸ hnew⟩
    · obtain ⟨hlt, hwait⟩ := h.waiting_assembled hbase ha hr hw (fun n _ => hans n) h'
      exact ⟨hlt.trans_le (Nat.le_add_right _ _), hwait⟩
  · intro b₁ batch₁ b₂ batch₂ h₁ h₂ hf
    rw [hb, Table.upsert_row] at h₁ h₂
    split at h₁ <;> split at h₂
    · next he₁ he₂ => rw [he₁, he₂]
    · cases h₁
      have := hbase.batch_lt h₂
      rw [ha.frame] at hf
      omega
    · cases h₂
      have := hbase.batch_lt h₁
      rw [ha.frame] at hf
      omega
    · exact h.apart b₁ batch₁ b₂ batch₂ h₁ h₂ hf
  · rintro ⟨f, k⟩ w b' hrow hdest hcnt
    rw [hw] at hrow
    rw [hb]
    by_cases hf : f = c.received.length
    · subst hf
      rw [(ha.own k w hrow).2.2] at hdest
      cases hdest
      exact ⟨batch, Table.upsert_row_self _ _ _, ha.frame⟩
    · rw [show works.row ⟨f, k⟩ = c.works.row ⟨f, k⟩ from ha.other ⟨f, k⟩ hf] at hrow
      obtain ⟨batch', hb', hfr⟩ := h.hired ⟨f, k⟩ w b' hrow hdest hcnt
      exact ⟨batch', by rw [Table.upsert_row_ne _ _ (hfresh b' batch' hb'), hb'], hfr⟩
  · intro n items' accepting' hn hno
    rw [hb] at hno
    have hne : n ≠ c.received.length := by
      rintro rfl
      exact hno c.nextBatch batch (Table.upsert_row_self _ _ _) ha.frame
    refine h.settled_assembled ha hr hw (fun n _ => hans n) hn hne ?_
    intro b' batch' h'
    exact hno b' batch' (by rw [Table.upsert_row_ne _ _ (hfresh b' batch' h'), h'])

theorem Batches.flush (h : c.Batches) (hbase : c.Base) {outstanding' : Finset RpcId}
    (ha : Session.Assembling accepting c.outstanding outstanding c.works works c.nextBatch
      c.received.length items batch) (hp : batch.pending = 0) :
    ({ c with
      received := c.received ++ [⟨.message (.batch items), accepting⟩]
      nextBatch := (c.nextBatch + 1) % 2 ^ 64
      outstanding := outstanding'
      works := works
      sent := c.sent ++ batch.frames } : Book).Batches := by
  have hidle : waitingFor works c.received.length = ∅ :=
    Finset.card_eq_zero.mp (ha.pending.symm.trans hp)
  have hans : ∀ n, ({ c with
      received := c.received ++ [⟨.message (.batch items), accepting⟩]
      nextBatch := (c.nextBatch + 1) % 2 ^ 64
      outstanding := outstanding'
      works := works
      sent := c.sent ++ batch.frames } : Book).answers n =
      c.answers n ++ if c.received.length = n then batch.frames else [] := by
    intro n
    rw [answers_append rfl, filter_frames, ha.frame]
  have hold : ∀ n < c.received.length, ({ c with
      received := c.received ++ [⟨.message (.batch items), accepting⟩]
      nextBatch := (c.nextBatch + 1) % 2 ^ 64
      outstanding := outstanding'
      works := works
      sent := c.sent ++ batch.frames } : Book).answers n = c.answers n := by
    intro n hn
    rw [hans, if_neg (Nat.ne_of_gt hn), List.append_nil]
  refine ⟨?_, h.apart, ?_, ?_⟩
  · intro b' batch' h'
    rw [batchCount_snoc rfl]
    obtain ⟨hlt, hwait⟩ := h.waiting_assembled hbase ha rfl rfl hold h'
    exact ⟨hlt.trans_le (Nat.le_add_right _ _), hwait⟩
  · rintro ⟨f, k⟩ w b' hw hdest hcnt
    by_cases hf : f = c.received.length
    · subst hf
      have hmem : (⟨c.received.length, k⟩ : Origin) ∈ waitingFor works c.received.length :=
        mem_waitingFor.mpr ⟨w, hw, rfl, hcnt⟩
      rw [hidle] at hmem
      simp at hmem
    · rw [show works.row ⟨f, k⟩ = c.works.row ⟨f, k⟩ from ha.other ⟨f, k⟩ hf] at hw
      exact h.hired ⟨f, k⟩ w b' hw hdest hcnt
  · intro n items' accepting' hn hno
    by_cases hne : n = c.received.length
    · subst hne
      rw [getElem?_snoc, if_pos rfl] at hn
      cases hn
      refine ⟨hidle, batch.responses, assembled_elements ha, ?_⟩
      rw [hans, if_pos rfl, hbase.unsent _ (le_refl _), List.nil_append, BatchAssembly.frames,
        ha.frame]
    · exact h.settled_assembled ha rfl rfl hold hn hne hno

end Assembled

/-- Fewer than `2 ^ 64` batches: no batch number is used twice, and the batches stay sound. -/
theorem Batches.step (h : c.Batches) (hbase : c.Base) (hs : c.Step d)
    (hcount : c.batchCount < 2 ^ 64) : d.Batches := by
  cases hs with
  | stay => exact h
  | note r ps hb ho hsp =>
    refine h.same hbase rfl (batchCount_le rfl) ?_ ?_ (fun _ _ _ _ => rfl) ?_ ?_
    · intro n hn
      exact List.getElem?_append_left hn
    · intro n items accepting hn hx
      have hlen : n = c.received.length := by
        have := (List.getElem?_eq_some_iff.mp hx).1
        simp only [List.length_append, List.length_singleton] at this
        omega
      rw [hlen, getElem?_snoc, if_pos rfl] at hx
      cases hx
      cases hb
    · intro o w b hw hd
      exact ⟨w, hw, hd, rfl⟩
    · intro n items accepting hn
      have hlt := (List.getElem?_eq_some_iff.mp hn).1
      rw [answers_append rfl, filter_responses ho, if_neg (Nat.ne_of_gt hlt), List.append_nil]
  | accept call close hid =>
    refine h.same hbase rfl (batchCount_le rfl) ?_ ?_ ?_ ?_ (fun _ _ _ _ => rfl)
    · intro n hn
      exact List.getElem?_append_left hn
    · intro n items accepting hn hx
      have hlen : n = c.received.length := by
        have := (List.getElem?_eq_some_iff.mp hx).1
        simp only [List.length_append, List.length_singleton] at this
        omega
      rw [hlen, getElem?_snoc, if_pos rfl] at hx
      cases hx
    · intro o items accepting ho
      have hlt := (List.getElem?_eq_some_iff.mp ho).1
      rw [Table.upsert_row_ne]
      rintro rfl
      exact lt_irrefl _ hlt
    · intro o w b hw hd
      rw [Table.upsert_row] at hw
      split at hw
      · cases hw
        cases hd
      · exact ⟨w, hw, hd, rfl⟩
  | dispatch o w result hw ha =>
    refine h.same hbase rfl (le_refl _) (fun _ _ => rfl) ?_ ?_ ?_ (fun _ _ _ _ => rfl)
    · intro n items accepting hn hx
      rw [List.getElem?_eq_none hn] at hx
      cases hx
    · intro o' items accepting _
      rw [Table.upsert_row]
      split
      · next he => rw [he, hw]; rfl
      · rfl
    · intro o' w' b hw' hd
      rw [Table.upsert_row] at hw'
      split at hw'
      · next he =>
        cases hw'
        exact ⟨w, by rw [he, hw], hd, rfl⟩
      · exact ⟨w', hw', hd, rfl⟩
  | answer o w result hw hr hd =>
    obtain ⟨x, hx, -, -, hdest, hok⟩ := hbase.works o w hw
    have hne : ∀ n items accepting,
        c.received[n]? = some ⟨.message (.batch items), accepting⟩ → o.frame ≠ n := by
      rintro n items accepting hn rfl
      rw [hx] at hn
      cases hn
      have := hdest.mpr hd
      cases this
    refine h.same hbase rfl (le_refl _) (fun _ _ => rfl) ?_ ?_ ?_ ?_
    · intro n items accepting hn hx'
      rw [List.getElem?_eq_none hn] at hx'
      cases hx'
    · rintro ⟨f, k⟩ items accepting hn
      rw [erase_other (hne f items accepting hn) k]
    · intro o' w' b hw' hd'
      exact ⟨w', (erase_back hw').2, hd', rfl⟩
    · intro n items accepting hn
      rw [answers_append rfl, (hok result hr).frames, if_neg (hne n items accepting hn),
        List.append_nil]
  | drop o w b hw hd hb =>
    cases hcnt : w.countsTowardBatch with
    | false => exact h.erase_idle hbase hw hcnt
    | true =>
      obtain ⟨batch, hb', -⟩ := h.hired o w b hw hd hcnt
      rw [hb] at hb'
      cases hb'
  | absorb o w result b batch hw hr hd hb hp =>
    cases hcnt : w.countsTowardBatch with
    | true => exact h.absorb hbase hw hr hd hb hcnt hp
    | false =>
      rw [absorb_idle hcnt (hbase.idle_response hw hr hcnt), Table.upsert_of_row hb]
      exact h.erase_idle hbase hw hcnt
  | complete o w result b batch hw hr hd hb hp =>
    cases hcnt : w.countsTowardBatch with
    | true => exact h.complete hbase hw hr hd hb hcnt hp
    | false =>
      obtain ⟨-, items, hwait⟩ := h.waiting b batch hb
      rw [absorb_idle hcnt (hbase.idle_response hw hr hcnt)] at hp
      exact absurd hp hwait.some_pending
  | store accepting outstanding works items batch ha hp => exact h.store hbase hcount ha hp
  | flush accepting outstanding works items batch ha hp => exact h.flush hbase ha hp

end Book

end Chahua.Rpc
