import Chahua.Rpc.Book

namespace Chahua.Rpc

open Framework

namespace Book

variable {c d : Book}

def batchCount (c : Book) : Nat := (c.received.filter Received.isBatch).length

/-- A worker belongs to a call that arrived while the session accepted work, and its result,
once there, is what the call is owed. -/
def Hired (c : Book) (o : Origin) (w : Work) : Prop :=
  ∃ r, c.received[o.frame]? = some r ∧ r.accepting = true ∧
    r.items[o.item]? = some (.call w.call) ∧ (r.isBatch = false ↔ w.destination = .single) ∧
    ∀ result, w.result = some result → Answers o w.call result.response

structure Base (c : Book) : Prop where
  works : ∀ o w, c.works.row o = some w → c.Hired o w
  batches : ∀ b batch, c.batches.row b = some batch →
    ∃ items accepting, c.received[batch.frame]? = some ⟨.message (.batch items), accepting⟩
  unsent : ∀ n, c.received.length ≤ n → c.answers n = []
  next : c.nextBatch = c.batchCount % 2 ^ 64

theorem received_snoc {rs : List Received} {r x : Received} {n : Nat}
    (h : rs[n]? = some x) : (rs ++ [r])[n]? = some x := by
  rw [getElem?_snoc, if_neg, h]
  rintro rfl
  simp at h

theorem received_snoc_of_ne {rs : List Received} {r x : Received} {n : Nat}
    (h : (rs ++ [r])[n]? = some x) (hn : n ≠ rs.length) : rs[n]? = some x := by
  rwa [getElem?_snoc, if_neg hn] at h

theorem Hired.log {o : Origin} {w : Work} {r : Received} (h : c.Hired o w)
    (hd : d.received = c.received ++ [r]) : d.Hired o w := by
  obtain ⟨x, hx, hrest⟩ := h
  exact ⟨x, by rw [hd]; exact received_snoc hx, hrest⟩

theorem Hired.same {o : Origin} {w : Work} (h : c.Hired o w) (hd : d.received = c.received) :
    d.Hired o w := by
  obtain ⟨x, hx, hrest⟩ := h
  exact ⟨x, by rw [hd, hx], hrest⟩

theorem Base.frame_lt (h : c.Base) {o : Origin} {w : Work} (hw : c.works.row o = some w) :
    o.frame < c.received.length := by
  obtain ⟨x, hx, -⟩ := h.works o w hw
  exact (List.getElem?_eq_some_iff.mp hx).1

theorem Base.batch_lt (h : c.Base) {b : Nat} {batch : BatchAssembly}
    (hb : c.batches.row b = some batch) : batch.frame < c.received.length := by
  obtain ⟨items, accepting, hx⟩ := h.batches b batch hb
  exact (List.getElem?_eq_some_iff.mp hx).1

theorem Base.free (h : c.Base) {k : Nat} : c.works.row ⟨c.received.length, k⟩ = none := by
  by_contra hno
  obtain ⟨w, hw⟩ := Option.ne_none_iff_exists'.mp hno
  exact absurd (h.frame_lt hw) (lt_irrefl _)

theorem answers_append {fs : List Frame} (hd : d.sent = c.sent ++ fs) (n : Nat) :
    d.answers n = c.answers n ++ fs.filter (Frame.answers n) := by
  simp [answers, hd, List.filter_append]

theorem answers_same (hd : d.sent = c.sent) (n : Nat) : d.answers n = c.answers n := by
  simp [answers, hd]

theorem filter_frames (batch : BatchAssembly) (n : Nat) :
    batch.frames.filter (Frame.answers n) = if batch.frame = n then batch.frames else [] := by
  unfold BatchAssembly.frames
  by_cases hr : batch.responses.isEmpty = true
  · simp [hr]
  · by_cases hf : batch.frame = n <;> simp [hr, hf, Frame.answers]

@[simp] theorem absorb_frame (batch : BatchAssembly) (w : Work) (result : WorkResult) :
    (Session.absorb batch w result).frame = batch.frame := by
  unfold Session.absorb
  cases result.response <;> rfl

@[simp] theorem absorb_requestIds (batch : BatchAssembly) (w : Work) (result : WorkResult) :
    (Session.absorb batch w result).requestIds = batch.requestIds := by
  unfold Session.absorb
  cases result.response <;> rfl

@[simp] theorem absorb_pending (batch : BatchAssembly) (w : Work) (result : WorkResult) :
    (Session.absorb batch w result).pending =
      if w.countsTowardBatch then batch.pending - 1 else batch.pending := by
  unfold Session.absorb
  cases result.response <;> rfl

@[simp] theorem absorb_responses (batch : BatchAssembly) (w : Work) (result : WorkResult) :
    (Session.absorb batch w result).responses = batch.responses ++ result.response.toList := by
  unfold Session.absorb
  cases result.response <;> simp [BatchAssembly.push]

theorem Base.erase_works (h : c.Base) {o : Origin} (hd : d.received = c.received)
    (hw : d.works = c.works.erase o) :
    ∀ o' w, d.works.row o' = some w → d.Hired o' w := by
  intro o' w hrow
  rw [hw, Table.erase_row] at hrow
  split at hrow
  · cases hrow
  · exact (h.works o' w hrow).same hd

theorem batchCount_snoc {r : Received} (hd : d.received = c.received ++ [r]) :
    d.batchCount = c.batchCount + if r.isBatch then 1 else 0 := by
  simp only [batchCount, hd, List.filter_append, List.length_append]
  by_cases hr : r.isBatch = true <;> simp [hr]

theorem batchCount_le {r : Received} (hd : d.received = c.received ++ [r]) :
    c.batchCount ≤ d.batchCount := by
  rw [batchCount_snoc hd]
  exact Nat.le_add_right _ _

theorem batchCount_same (hd : d.received = c.received) : d.batchCount = c.batchCount := by
  simp [batchCount, hd]

/-- The workers of an assembled batch were hired for its calls. -/
theorem Base.assembled (h : c.Base) {accepting : Bool} {outstanding : Finset RpcId}
    {works : Table Origin Work} {items : List RpcItem} {batch : BatchAssembly}
    (ha : Session.Assembling accepting c.outstanding outstanding c.works works c.nextBatch
      c.received.length items batch)
    (hd : d.received = c.received ++ [⟨.message (.batch items), accepting⟩])
    (hw : d.works = works) :
    ∀ o w, d.works.row o = some w → d.Hired o w := by
  intro o w hrow
  rw [hw] at hrow
  by_cases hf : o.frame = c.received.length
  · obtain ⟨f, k⟩ := o
    obtain rfl : f = c.received.length := hf
    obtain ⟨hacc, hget, hval⟩ := ha.own k w hrow
    refine ⟨⟨.message (.batch items), accepting⟩, ?_, hacc, hget, ?_, ?_⟩
    · rw [hd, getElem?_snoc, if_pos rfl]
    · rw [hval]
      simp [Received.isBatch]
    · intro result hr
      rw [hval] at hr
      cases hr
  · rw [ha.other o hf] at hrow
    exact (h.works o w hrow).log hd

theorem Base.step (h : c.Base) (hs : c.Step d) : d.Base := by
  have hlog : ∀ {r : Received} {batches : Table Nat BatchAssembly},
      (∀ b batch, batches.row b = some batch → ∃ items accepting,
        c.received[batch.frame]? = some ⟨.message (.batch items), accepting⟩) →
      ∀ b batch, batches.row b = some batch → ∃ items accepting,
        (c.received ++ [r])[batch.frame]? = some ⟨.message (.batch items), accepting⟩ := by
    intro r batches hb b batch hrow
    obtain ⟨items, accepting, hx⟩ := hb b batch hrow
    exact ⟨items, accepting, received_snoc hx⟩
  cases hs with
  | stay => exact h
  | note r ps hb ho hs =>
    refine ⟨fun o w hrow => (h.works o w hrow).log rfl, hlog h.batches, ?_, ?_⟩
    · intro n hn
      simp only [List.length_append, List.length_singleton] at hn
      rw [answers_append rfl, h.unsent n (by omega), filter_responses ho, if_neg (by omega)]
      rfl
    · rw [batchCount_snoc rfl, hb]
      exact h.next
  | accept call close hid =>
    refine ⟨?_, hlog h.batches, ?_, ?_⟩
    · intro o w hrow
      rw [Table.upsert_row] at hrow
      split at hrow
      · next ho =>
        cases hrow
        refine ⟨_, by rw [ho, getElem?_snoc, if_pos rfl], rfl, ?_, ?_, ?_⟩
        · simp [ho, Received.items]
        · simp [Received.isBatch]
        · intro result hr
          cases hr
      · exact (h.works o w hrow).log rfl
    · intro n hn
      simp only [List.length_append, List.length_singleton] at hn
      exact h.unsent n (by omega)
    · rw [batchCount_snoc rfl]
      exact h.next
  | dispatch o w result hw ha =>
    refine ⟨?_, h.batches, h.unsent, h.next⟩
    intro o' w' hrow
    rw [Table.upsert_row] at hrow
    split at hrow
    · next ho =>
      cases hrow
      obtain ⟨r, hr, hacc, hitem, hdest, -⟩ := h.works o w hw
      refine ⟨r, by rw [ho]; exact hr, hacc, by rw [ho]; exact hitem, hdest, ?_⟩
      rintro result' ⟨⟩
      rw [ho]
      exact ha
    · exact (h.works o' w' hrow).same rfl
  | answer o w result hw hr hd =>
    refine ⟨h.erase_works rfl rfl, h.batches, ?_, h.next⟩
    intro n hn
    obtain ⟨x, -, -, -, -, hres⟩ := h.works o w hw
    rw [answers_append rfl, h.unsent n hn, (hres result hr).frames, if_neg]
    · rfl
    · have := h.frame_lt hw
      rintro rfl
      exact absurd hn (by simpa using this)
  | drop o w b hw hd hb =>
    exact ⟨h.erase_works rfl rfl, h.batches, h.unsent, h.next⟩
  | absorb o w result b batch hw hr hd hb hp =>
    refine ⟨h.erase_works rfl rfl, ?_, h.unsent, h.next⟩
    intro b' batch' hrow
    rw [Table.upsert_row] at hrow
    split at hrow
    · cases hrow
      rw [absorb_frame]
      exact h.batches b batch hb
    · exact h.batches b' batch' hrow
  | complete o w result b batch hw hr hd hb hp =>
    refine ⟨h.erase_works rfl rfl, ?_, ?_, h.next⟩
    · intro b' batch' hrow
      rw [Table.erase_row] at hrow
      split at hrow
      · cases hrow
      · exact h.batches b' batch' hrow
    · intro n hn
      rw [answers_append rfl, h.unsent n hn, filter_frames, absorb_frame, if_neg]
      · rfl
      · have := h.batch_lt hb
        rintro rfl
        exact absurd hn (by simpa using this)
  | store accepting outstanding works items batch ha hp =>
    refine ⟨h.assembled ha rfl rfl, ?_, ?_, ?_⟩
    · intro b' batch' hrow
      rw [Table.upsert_row] at hrow
      split at hrow
      · cases hrow
        exact ⟨items, accepting, by rw [ha.frame, getElem?_snoc, if_pos rfl]⟩
      · exact hlog h.batches b' batch' hrow
    · intro n hn
      simp only [List.length_append, List.length_singleton] at hn
      exact h.unsent n (by omega)
    · rw [batchCount_snoc rfl, h.next]
      simp [Received.isBatch]
  | flush accepting outstanding works items batch ha hp =>
    refine ⟨h.assembled ha rfl rfl, hlog h.batches, ?_, ?_⟩
    · intro n hn
      simp only [List.length_append, List.length_singleton] at hn
      rw [answers_append rfl, h.unsent n (by omega), filter_frames, ha.frame, if_neg (by omega)]
      rfl
    · rw [batchCount_snoc rfl, h.next]
      simp [Received.isBatch]

/-- What a single call that has no worker got: nothing, or one response with its id. -/
def SettledSingle (c : Book) (n : Nat) (r : Received) (call : RpcCall) : Prop :=
  (c.answers n = [] ∧ (call.id = none ∨ r.accepting = false)) ∨
    ∃ p, c.answers n = [.response p] ∧ call.id = some p.response.id

/-- Every single call is being worked on and unanswered, or settled. -/
def Singles (c : Book) : Prop :=
  ∀ n r call, c.received[n]? = some r → r.isBatch = false → r.items = [.call call] →
    (c.works.row ⟨n, 0⟩ ≠ none ∧ c.answers n = []) ∨
      (c.works.row ⟨n, 0⟩ = none ∧ c.SettledSingle n r call)

/-- A frame whose worker and answers a step leaves alone. -/
theorem Singles.same (h : c.Singles) {n : Nat} {r : Received} {call : RpcCall}
    (hr : c.received[n]? = some r) (hb : r.isBatch = false) (hi : r.items = [.call call])
    (hw : d.works.row ⟨n, 0⟩ = c.works.row ⟨n, 0⟩) (ha : d.answers n = c.answers n) :
    (d.works.row ⟨n, 0⟩ ≠ none ∧ d.answers n = []) ∨
      (d.works.row ⟨n, 0⟩ = none ∧ d.SettledSingle n r call) := by
  have := h n r call hr hb hi
  unfold SettledSingle at this ⊢
  rwa [hw, ha]

/-- A worker whose result goes to a batch is not that of a single call. -/
theorem Base.not_single (h : c.Base) {o : Origin} {w : Work} {b n : Nat} {r : Received}
    (hw : c.works.row o = some w) (hd : w.destination = .batch b)
    (hr : c.received[n]? = some r) (hb : r.isBatch = false) : o.frame ≠ n := by
  rintro rfl
  obtain ⟨x, hx, -, -, hdest, -⟩ := h.works o w hw
  rw [hr] at hx
  cases hx
  rw [hdest.mp hb] at hd
  cases hd

theorem Base.batch_frame_ne (h : c.Base) {b n : Nat} {batch : BatchAssembly} {r : Received}
    (hrow : c.batches.row b = some batch) (hr : c.received[n]? = some r)
    (hb : r.isBatch = false) : batch.frame ≠ n := by
  rintro rfl
  obtain ⟨items, accepting, hx⟩ := h.batches b batch hrow
  rw [hr] at hx
  cases hx
  cases hb

theorem Singles.step (h : c.Singles) (hbase : c.Base) (hs : c.Step d) : d.Singles := by
  intro n r call hr hb hi
  have herase : ∀ {o : Origin}, o.frame ≠ n →
      (c.works.erase o).row ⟨n, 0⟩ = c.works.row ⟨n, 0⟩ := by
    intro o ho
    apply Table.erase_row_ne
    rintro rfl
    exact ho rfl
  cases hs with
  | stay => exact h n r call hr hb hi
  | note r' ps hb' ho hsp =>
    by_cases hn : n = c.received.length
    · subst hn
      rw [getElem?_snoc, if_pos rfl] at hr
      cases hr
      refine Or.inr ⟨hbase.free, ?_⟩
      unfold SettledSingle
      rw [answers_append rfl, hbase.unsent _ (le_refl _), filter_responses ho, if_pos rfl,
        List.nil_append]
      rcases hsp call hi with ⟨rfl, hno⟩ | ⟨p, rfl, hp⟩
      · exact Or.inl ⟨rfl, hno⟩
      · exact Or.inr ⟨p, rfl, hp⟩
    · refine h.same (received_snoc_of_ne hr hn) hb hi rfl ?_
      rw [answers_append rfl, filter_responses ho, if_neg (Ne.symm hn), List.append_nil]
  | accept call' close hid =>
    by_cases hn : n = c.received.length
    · subst hn
      exact Or.inl ⟨by simp, hbase.unsent _ (le_refl _)⟩
    · refine h.same (received_snoc_of_ne hr hn) hb hi ?_ (answers_same rfl n)
      apply Table.upsert_row_ne
      intro ho
      exact hn (Origin.mk.inj ho).1
  | dispatch o w result hw ha =>
    have hsome : (c.works.upsert o { w with result := some result }).row ⟨n, 0⟩ = none ↔
        c.works.row ⟨n, 0⟩ = none := by
      rw [Table.upsert_row]
      split
      · next ho =>
        rw [ho, hw]
        simp
      · rfl
    have := h n r call hr hb hi
    unfold SettledSingle at this ⊢
    rw [Ne, hsome]
    exact this
  | answer o w result hw hres hd =>
    obtain ⟨x, hx, -, hitem, -, hok⟩ := hbase.works o w hw
    by_cases ho : o.frame = n
    · subst ho
      rw [hr] at hx
      cases hx
      obtain ⟨f, k⟩ := o
      simp only [hi] at hitem
      obtain rfl : k = 0 := by
        cases k with
        | zero => rfl
        | succ k => simp at hitem
      simp only [List.getElem?_cons_zero, Option.some.injEq, RpcItem.call.injEq] at hitem
      have hold : c.answers f = [] := by
        rcases h f r call hr hb hi with hcase | hcase
        · exact hcase.2
        · rw [hw] at hcase
          cases hcase.1
      refine Or.inr ⟨by simp, ?_⟩
      unfold SettledSingle
      rw [answers_append rfl, hold, (hok result hres).frames, if_pos rfl, List.nil_append]
      cases hp : result.response with
      | none =>
        have hno := hok result hres
        rw [hp] at hno
        exact Or.inl ⟨rfl, Or.inl (hitem ▸ hno.none)⟩
      | some p =>
        have hyes := (hok result hres).response (Option.mem_def.mpr hp)
        exact Or.inr ⟨p, rfl, hitem ▸ hyes.2⟩
    · refine h.same hr hb hi (herase ho) ?_
      rw [answers_append rfl, (hok result hres).frames, if_neg ho, List.append_nil]
  | drop o w b hw hd hbn =>
    exact h.same hr hb hi (herase (hbase.not_single hw hd hr hb)) (answers_same rfl n)
  | absorb o w result b batch hw hres hd hbn hp =>
    exact h.same hr hb hi (herase (hbase.not_single hw hd hr hb)) (answers_same rfl n)
  | complete o w result b batch hw hres hd hbn hp =>
    refine h.same hr hb hi (herase (hbase.not_single hw hd hr hb)) ?_
    rw [answers_append rfl, filter_frames, absorb_frame,
      if_neg (hbase.batch_frame_ne hbn hr hb), List.append_nil]
  | store accepting outstanding works items batch ha hp =>
    by_cases hn : n = c.received.length
    · subst hn
      rw [getElem?_snoc, if_pos rfl] at hr
      cases hr
      cases hb
    · exact h.same (received_snoc_of_ne hr hn) hb hi (ha.other ⟨n, 0⟩ hn) (answers_same rfl n)
  | flush accepting outstanding works items batch ha hp =>
    by_cases hn : n = c.received.length
    · subst hn
      rw [getElem?_snoc, if_pos rfl] at hr
      cases hr
      cases hb
    · refine h.same (received_snoc_of_ne hr hn) hb hi (ha.other ⟨n, 0⟩ hn) ?_
      rw [answers_append rfl, filter_frames, ha.frame, if_neg (Ne.symm hn), List.append_nil]

end Book

end Chahua.Rpc
