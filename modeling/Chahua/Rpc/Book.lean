import Chahua.Rpc.Batches

namespace Chahua.Rpc

open Framework

/-- The part of a session that correlates requests with responses. -/
structure Book where
  nextBatch : Nat
  batches : Table Nat BatchAssembly
  outstanding : Finset RpcId
  works : Table Origin Work
  received : List Received
  sent : List Frame

def Session.book (s : Session) : Book :=
  ⟨s.nextBatch, s.batches, s.outstanding, s.works, s.received, s.sent⟩

namespace Session

@[simp] theorem book_nextBatch (s : Session) : s.book.nextBatch = s.nextBatch := rfl

@[simp] theorem book_batches (s : Session) : s.book.batches = s.batches := rfl

@[simp] theorem book_outstanding (s : Session) : s.book.outstanding = s.outstanding := rfl

@[simp] theorem book_works (s : Session) : s.book.works = s.works := rfl

@[simp] theorem book_received (s : Session) : s.book.received = s.received := rfl

@[simp] theorem book_sent (s : Session) : s.book.sent = s.sent := rfl

end Session

/-- The response a worker prepared is the one its call is owed. -/
def Answers (o : Origin) (call : RpcCall) (p : Option PreparedResponse) : Prop :=
  (p.map fun r => (r.origin, r.response.id)) = call.id.map fun id => (o, id)

theorem finish_answers (w : Work) (o : Origin) (outcome : DispatchOutcome) :
    ∀ result, (Session.finish w o outcome).result = some result →
      Answers o w.call result.response := by
  rintro result ⟨⟩
  cases hid : w.call.id <;> simp [Answers, hid]

theorem Answers.response {o : Origin} {call : RpcCall} {p : Option PreparedResponse}
    (h : Answers o call p) {r : PreparedResponse} (hr : r ∈ p) :
    r.origin = o ∧ call.id = some r.response.id := by
  obtain rfl := Option.mem_def.mp hr
  unfold Answers at h
  cases hid : call.id with
  | none =>
    rw [hid] at h
    cases h
  | some id =>
    rw [hid] at h
    simp only [Option.map_some, Option.some.injEq, Prod.mk.injEq] at h
    exact ⟨h.1, by rw [h.2]⟩

theorem Answers.none {o : Origin} {call : RpcCall} (h : Answers o call none) :
    call.id = none := by
  unfold Answers at h
  cases hid : call.id with
  | none => rfl
  | some id =>
    rw [hid] at h
    cases h

theorem filter_responses {ps : List PreparedResponse} {m : Nat}
    (h : ∀ p ∈ ps, p.origin.frame = m) (n : Nat) :
    (ps.map Frame.response).filter (Frame.answers n) =
      if m = n then ps.map Frame.response else [] := by
  by_cases hmn : m = n
  · rw [if_pos hmn, List.filter_eq_self]
    intro f hf
    obtain ⟨p, hp, rfl⟩ := List.mem_map.mp hf
    simp [Frame.answers, h p hp, hmn]
  · rw [if_neg hmn, List.filter_eq_nil_iff]
    intro f hf
    obtain ⟨p, hp, rfl⟩ := List.mem_map.mp hf
    simp [Frame.answers, h p hp, hmn]

theorem Answers.frames {o : Origin} {call : RpcCall} {p : Option PreparedResponse}
    (h : Answers o call p) (n : Nat) :
    (p.map Frame.response).toList.filter (Frame.answers n) =
      if o.frame = n then (p.map Frame.response).toList else [] := by
  have hmap : (p.map Frame.response).toList = p.toList.map Frame.response := by
    cases p <;> rfl
  rw [hmap]
  apply filter_responses
  intro r hr
  rw [(h.response (Option.mem_toList.mp hr)).1]

/-- The frame `flush_batch` queues. -/
def BatchAssembly.frames (batch : BatchAssembly) : List Frame :=
  if batch.responses.isEmpty then [] else [.batch batch.frame batch.responses]

namespace Book

def answers (c : Book) (n : Nat) : List Frame := c.sent.filter (Frame.answers n)

/-- All a step can do to the book while the transport stays open. -/
inductive Step : Book → Book → Prop
  | stay (c) : Step c c
  | note (c r ps) (hb : r.isBatch = false) (ho : ∀ p ∈ ps, p.origin.frame = c.received.length)
      (hs : ∀ call, r.items = [.call call] →
        (ps = [] ∧ (call.id = none ∨ r.accepting = false)) ∨
          ∃ p, ps = [p] ∧ call.id = some p.response.id) :
      Step c
        { c with
          received := c.received ++ [r]
          sent := c.sent ++ ps.map Frame.response }
  | accept (c call close) (hid : ∀ id ∈ call.id, id ∉ c.outstanding) :
      Step c
        { c with
          received := c.received ++ [⟨.message (.single (.call call)), true⟩]
          outstanding := c.outstanding ∪ call.id.toFinset
          works := c.works.upsert ⟨c.received.length, 0⟩ ⟨call, .single, close, none⟩ }
  | dispatch (c o w result) (hw : c.works.row o = some w)
      (ha : Answers o w.call result.response) :
      Step c { c with works := c.works.upsert o { w with result := some result } }
  | answer (c o w result) (hw : c.works.row o = some w) (hr : w.result = some result)
      (hd : w.destination = .single) :
      Step c
        { c with
          works := c.works.erase o
          outstanding := c.outstanding \ w.call.id.toFinset
          sent := c.sent ++ (result.response.map Frame.response).toList }
  | drop (c o w b) (hw : c.works.row o = some w) (hd : w.destination = .batch b)
      (hb : c.batches.row b = none) : Step c { c with works := c.works.erase o }
  | absorb (c o w result b batch) (hw : c.works.row o = some w) (hr : w.result = some result)
      (hd : w.destination = .batch b) (hb : c.batches.row b = some batch)
      (hp : (Session.absorb batch w result).pending ≠ 0) :
      Step c
        { c with
          works := c.works.erase o
          batches := c.batches.upsert b (Session.absorb batch w result) }
  | complete (c o w result b batch) (hw : c.works.row o = some w) (hr : w.result = some result)
      (hd : w.destination = .batch b) (hb : c.batches.row b = some batch)
      (hp : (Session.absorb batch w result).pending = 0) :
      Step c
        { c with
          works := c.works.erase o
          batches := c.batches.erase b
          outstanding := c.outstanding \ (Session.absorb batch w result).requestIds.toFinset
          sent := c.sent ++ (Session.absorb batch w result).frames }
  | store (c accepting outstanding works items batch)
      (ha : Session.Assembling accepting c.outstanding outstanding c.works works c.nextBatch
        c.received.length items batch) (hp : batch.pending ≠ 0) :
      Step c
        { c with
          received := c.received ++ [⟨.message (.batch items), accepting⟩]
          nextBatch := (c.nextBatch + 1) % 2 ^ 64
          outstanding := outstanding
          works := works
          batches := c.batches.upsert c.nextBatch batch }
  | flush (c accepting outstanding works items batch)
      (ha : Session.Assembling accepting c.outstanding outstanding c.works works c.nextBatch
        c.received.length items batch) (hp : batch.pending = 0) :
      Step c
        { c with
          received := c.received ++ [⟨.message (.batch items), accepting⟩]
          nextBatch := (c.nextBatch + 1) % 2 ^ 64
          outstanding := outstanding \ batch.requestIds.toFinset
          works := works
          sent := c.sent ++ batch.frames }

end Book

namespace Session

variable {s t : Session}

theorem Schedules.book (h : s.Schedules t) :
    t.book = { s.book with outstanding := t.outstanding, works := t.works } := by
  unfold Schedules at h
  rw [h]
  rfl

theorem offerLast_closed (s : Session) (p : Option PreparedResponse) (sendOk : Bool) :
    (s.offerLast p sendOk).closed = true := by
  cases p <;> rfl

theorem send_open {frame : Frame} {sendOk : Bool} (h : (s.send frame sendOk).closed = false) :
    s.closed = false ∧ s.send frame sendOk = s.push frame := by
  unfold send at h ⊢
  split at h
  · cases h
  · next hc =>
    simp only [Bool.or_eq_true, not_or, Bool.not_eq_true] at hc
    exact ⟨hc.1, by simp [hc.1, hc.2]⟩

theorem activate_book (s : Session) : s.activate.book = s.book := by
  unfold activate
  split <;> rfl

theorem activate_closed (s : Session) : s.activate.closed = s.closed := by
  unfold activate
  split <;> rfl

@[simp] theorem activateThen_book (s : Session) (spawning : Spawning) :
    (s.activateThen spawning).book = s.book := activate_book s

@[simp] theorem activateThen_closed (s : Session) (spawning : Spawning) :
    (s.activateThen spawning).closed = s.closed := activate_closed s

@[simp] theorem resume_book (s : Session) : s.resume.book = s.book := rfl

@[simp] theorem resume_closed (s : Session) : s.resume.closed = s.closed := rfl

theorem flushBatch_open {batch : BatchAssembly} {sendOk : Bool}
    (h : s.flushBatch batch sendOk = some t) :
    t = { s with sent := s.sent ++ batch.frames } := by
  unfold flushBatch at h
  unfold BatchAssembly.frames
  split at h
  · next he =>
    cases h
    simp [he]
  · next he =>
    split at h
    · cases h
    · cases h
      simp [he, push]

theorem finishBatch_open {batch : BatchAssembly} {sendOk notifyOk : Bool}
    (h : (s.finishBatch batch sendOk notifyOk).closed = false) :
    s.closed = false ∧ (s.finishBatch batch sendOk notifyOk).book =
      { s.book with
        outstanding := s.outstanding \ batch.requestIds.toFinset
        sent := s.sent ++ batch.frames } := by
  unfold finishBatch at h ⊢
  cases hf : s.flushBatch batch sendOk with
  | none =>
    rw [hf] at h
    cases h
  | some u =>
    rw [hf] at h
    obtain rfl := flushBatch_open hf
    cases hl : batch.lifecycle with
    | some failure =>
      rw [hl] at h
      cases h
    | none =>
      rw [hl] at h
      exact ⟨h, rfl⟩

theorem completeBatch_open {batch : BatchAssembly} {sendOk notifyOk : Bool}
    (h : (s.completeBatch batch sendOk notifyOk).closed = false) :
    s.closed = false ∧ (s.completeBatch batch sendOk notifyOk).book =
      { s.book with
        outstanding := s.outstanding \ batch.requestIds.toFinset
        sent := s.sent ++ batch.frames } := by
  unfold completeBatch at h ⊢
  cases hf : s.flushBatch batch sendOk with
  | none =>
    rw [hf] at h
    cases h
  | some u =>
    rw [hf] at h
    obtain rfl := flushBatch_open hf
    cases hl : batch.lifecycle with
    | some failure =>
      rw [hl] at h
      cases h
    | none =>
      simp only [hl] at h ⊢
      split at h
      · next ha =>
        rw [if_pos ha]
        rw [activateThen_closed] at h
        exact ⟨h, activateThen_book _ _⟩
      · next ha =>
        rw [if_neg ha]
        split at h
        · cases h
        · next hcl =>
          rw [if_neg hcl]
          exact ⟨h, rfl⟩

theorem deliverSingle_open {w : Work} {result : WorkResult} {sendOk notifyOk : Bool}
    (h : (s.deliverSingle w result sendOk notifyOk).closed = false) :
    s.closed = false ∧ (s.deliverSingle w result sendOk notifyOk).book =
      { s.book with
        outstanding := s.outstanding \ w.call.id.toFinset
        sent := s.sent ++ (result.response.map Frame.response).toList } := by
  have hforget : (s.forget w.call.id).book =
      { s.book with outstanding := s.outstanding \ w.call.id.toFinset } := by
    rw [(forget_schedules s w.call.id).book]
    simp [book]
  have hfc := forget_closed s w.call.id
  unfold deliverSingle at h ⊢
  generalize s.forget w.call.id = u at h hforget hfc ⊢
  cases hr : result.response with
  | none =>
    simp only [hr] at h ⊢
    split at h
    · next ha =>
      rw [if_pos ha]
      rw [activateThen_closed, hfc] at h
      exact ⟨h, by simp [hforget]⟩
    · next ha =>
      rw [if_neg ha]
      rw [resume_closed, hfc] at h
      exact ⟨h, by simp [hforget]⟩
  | some r =>
    simp only [hr] at h ⊢
    have hsus : (if r.lifecycle.isSome = true then u.suspendAuthorizedWork else u).book = u.book ∧
        (if r.lifecycle.isSome = true then u.suspendAuthorizedWork else u).closed = u.closed := by
      split <;> exact ⟨rfl, rfl⟩
    generalize (if r.lifecycle.isSome = true then u.suspendAuthorizedWork else u) = v at h hsus ⊢
    split at h
    · cases h
    next hc =>
    rw [if_neg hc]
    have hpush : (v.push (.response r)).book =
        { s.book with
          outstanding := s.outstanding \ w.call.id.toFinset
          sent := s.sent ++ [.response r] } := by
      have hv := hsus.1.trans hforget
      simp only [book, Book.mk.injEq] at hv ⊢
      simp [push, hv]
    have hvc : v.closed = false → s.closed = false := fun hv => hfc ▸ hsus.2 ▸ hv
    split at h
    · next ha =>
      rw [if_pos ha]
      rw [activateThen_closed] at h
      exact ⟨hvc h, by simp [hpush]⟩
    · next ha =>
      rw [if_neg ha]
      cases hl : r.lifecycle with
      | some failure =>
        rw [hl] at h
        cases h
      | none =>
        simp only [hl] at h ⊢
        split at h
        · cases h
        · next hcl =>
          rw [if_neg hcl]
          exact ⟨hvc h, by simp [hpush]⟩

theorem deliverBatch_open {b : Nat} {w : Work} {result : WorkResult} {sendOk notifyOk : Bool}
    (h : (s.deliverBatch b w result sendOk notifyOk).closed = false) :
    s.closed = false ∧
      (s.batches.row b = none ∧ (s.deliverBatch b w result sendOk notifyOk).book = s.book ∨
      ∃ batch, s.batches.row b = some batch ∧
        ((absorb batch w result).pending ≠ 0 ∧
          (s.deliverBatch b w result sendOk notifyOk).book =
            { s.book with batches := s.batches.upsert b (absorb batch w result) } ∨
        (absorb batch w result).pending = 0 ∧
          (s.deliverBatch b w result sendOk notifyOk).book =
            { s.book with
              batches := s.batches.erase b
              outstanding := s.outstanding \ (absorb batch w result).requestIds.toFinset
              sent := s.sent ++ (absorb batch w result).frames })) := by
  unfold deliverBatch at h ⊢
  have hsus : (if (result.response.bind PreparedResponse.lifecycle).isSome = true then
      s.suspendAuthorizedWork else s).book = s.book ∧
      (if (result.response.bind PreparedResponse.lifecycle).isSome = true then
        s.suspendAuthorizedWork else s).closed = s.closed := by
    split <;> exact ⟨rfl, rfl⟩
  generalize (if (result.response.bind PreparedResponse.lifecycle).isSome = true then
    s.suspendAuthorizedWork else s) = v at h hsus ⊢
  obtain ⟨hv, hvc⟩ := hsus
  have hb : v.batches = s.batches := congrArg Book.batches hv
  have ho : v.outstanding = s.outstanding := congrArg Book.outstanding hv
  have hs : v.sent = s.sent := congrArg Book.sent hv
  simp only [hb] at h ⊢
  cases hrow : s.batches.row b with
  | none =>
    simp only [hrow] at h ⊢
    exact ⟨hvc ▸ h, Or.inl ⟨trivial, hv⟩⟩
  | some batch =>
    simp only [hrow] at h ⊢
    split at h
    · next hp =>
      obtain ⟨hc, hbook⟩ := completeBatch_open h
      refine ⟨hvc ▸ hc, Or.inr ⟨batch, rfl, Or.inr ⟨hp, ?_⟩⟩⟩
      rw [if_pos hp, hbook]
      simp only [book, Book.mk.injEq] at hv ⊢
      simp [hv]
    · next hp =>
      refine ⟨hvc ▸ h, Or.inr ⟨batch, rfl, Or.inl ⟨hp, ?_⟩⟩⟩
      rw [if_neg hp]
      simp only [book, Book.mk.injEq] at hv ⊢
      simp [resume, hv]

/-- The results arm, seen from the book. -/
theorem deliver_open {o : Origin} {w : Work} {result : WorkResult} {sendOk notifyOk : Bool}
    (hw : s.works.row o = some w) (hr : w.result = some result)
    (h : (({ s with works := s.works.erase o } : Session).deliver w result sendOk
      notifyOk).closed = false) :
    s.closed = false ∧ s.book.Step
      (({ s with works := s.works.erase o } : Session).deliver w result sendOk notifyOk).book := by
  unfold deliver at h ⊢
  cases hd : w.destination with
  | single =>
    simp only [hd] at h ⊢
    obtain ⟨hc, hbook⟩ := deliverSingle_open h
    refine ⟨hc, ?_⟩
    rw [hbook]
    exact Book.Step.answer s.book o w result hw hr hd
  | batch b =>
    simp only [hd] at h ⊢
    obtain ⟨hc, hcases⟩ := deliverBatch_open h
    refine ⟨hc, ?_⟩
    rcases hcases with ⟨hb, hbook⟩ | ⟨batch, hb, ⟨hp, hbook⟩ | ⟨hp, hbook⟩⟩
    · rw [hbook]
      exact Book.Step.drop s.book o w b hw hd hb
    · rw [hbook]
      exact Book.Step.absorb s.book o w result b batch hw hr hd hb hp
    · rw [hbook]
      exact Book.Step.complete s.book o w result b batch hw hr hd hb hp

/-- The frame is entered in the log and nothing else has happened to the book. -/
structure Logged (s u : Session) (message : RpcMessage) : Prop where
  book : u.book = { s.book with received := s.received ++ [⟨.message message, s.accepting⟩] }
  closed : u.closed = s.closed
  accepting : u.accepting = s.accepting

theorem Logged.note {u v : Session} {item : RpcItem} (hu : Logged s u (.single item))
    (ps : List PreparedResponse) (ho : ∀ p ∈ ps, p.origin.frame = s.received.length)
    (hs : ∀ call, item = .call call →
      (ps = [] ∧ (call.id = none ∨ s.accepting = false)) ∨
        ∃ p, ps = [p] ∧ call.id = some p.response.id)
    (hv : v.book = { u.book with sent := u.sent ++ ps.map Frame.response }) :
    s.book.Step v.book := by
  have hsent : u.sent = s.sent := congrArg Book.sent hu.book
  rw [hv, hu.book, hsent]
  refine Book.Step.note s.book ⟨.message (.single item), s.accepting⟩ ps rfl ho ?_
  intro call hcall
  exact hs call (by simpa [Received.items] using hcall)

theorem receiveItem_open {u : Session} {item : RpcItem} {opening sendOk : Bool} {choice : Choice}
    (hu : Logged s u (.single item))
    (h : (u.receiveItem s.received.length opening choice sendOk item).closed = false) :
    s.closed = false ∧
      s.book.Step (u.receiveItem s.received.length opening choice sendOk item).book := by
  cases item with
  | response =>
    refine ⟨hu.closed ▸ h, hu.note [] (by simp) (by simp) ?_⟩
    simp [receiveItem, book]
  | invalid response =>
    simp only [receiveItem] at h ⊢
    split at h
    · next hp =>
      rw [if_pos hp]
      obtain ⟨hc, hsend⟩ := send_open h
      refine ⟨hu.closed ▸ hc, hu.note [prepareResponse ⟨s.received.length, 0⟩ response
        choice.oversized] (by simp) (by simp) ?_⟩
      rw [hsend]
      rfl
    · cases h
  | call call =>
    simp only [receiveItem] at h ⊢
    rcases hcall : u.scheduleCall call ⟨s.received.length, 0⟩ .single opening choice with ⟨v, q⟩
    obtain ⟨hs, hc, hcases⟩ := scheduleCall_cases hcall
    have hout : u.outstanding = s.outstanding := congrArg Book.outstanding hu.book
    have hworks : u.works = s.works := congrArg Book.works hu.book
    simp only [hcall] at h ⊢
    rcases hcases with ⟨p, rfl, -⟩ | ⟨hid, ⟨rfl, hac, hw, ho⟩ | ⟨p, rfl, href⟩⟩
    · have hclosed := offerLast_closed v p sendOk
      rw [hclosed] at h
      cases h
    · refine ⟨hu.closed ▸ hc h, ?_⟩
      have hstep := Book.Step.accept s.book call opening (by rwa [hout] at hid)
      rw [hs.book, hu.book, ho, hw, hout, hworks]
      rw [hu.accepting] at hac
      rw [hac]
      exact hstep
    · have hbook : v.closed = false → v.book = u.book := by
        intro hop
        rw [hs.book, href.works]
        rcases href.outstanding hop with ⟨ho, -⟩ | ⟨-, hd⟩
        · rw [ho]
          rfl
        · exact absurd rfl hd
      cases p with
      | none =>
        simp only at h ⊢
        refine ⟨hu.closed ▸ hc h, hu.note [] (by simp) ?_ ?_⟩
        · rintro call' ⟨⟩
          exact Or.inl ⟨rfl, hu.accepting ▸ href.silent h rfl⟩
        · rw [hbook h]
          simp [book]
      | some r =>
        simp only at h ⊢
        obtain ⟨hop, hsend⟩ := send_open h
        obtain ⟨horigin, hown⟩ := href.response r rfl
        refine ⟨hu.closed ▸ hc hop, hu.note [r] ?_ ?_ ?_⟩
        · simp [horigin]
        · rintro call' ⟨⟩
          exact Or.inr ⟨r, rfl, hown⟩
        · have hsent : v.sent = u.sent := congrArg Book.sent (hbook hop)
          rw [hsend, ← hbook hop, ← hsent]
          rfl

theorem receiveBatch_open {u : Session} {items : List RpcItem} {sendOk notifyOk : Bool}
    {choice : Nat → Choice} (hu : Logged s u (.batch items))
    (hfree : s.closed = false → ∀ o w, s.works.row o = some w → o.frame ≠ s.received.length)
    (h : (u.receiveBatch s.received.length choice sendOk notifyOk items).closed = false) :
    s.closed = false ∧
      s.book.Step (u.receiveBatch s.received.length choice sendOk notifyOk items).book := by
  have hout : u.outstanding = s.outstanding := congrArg Book.outstanding hu.book
  have hworks : u.works = s.works := congrArg Book.works hu.book
  have hnext : u.nextBatch = s.nextBatch := congrArg Book.nextBatch hu.book
  have hsent : u.sent = s.sent := congrArg Book.sent hu.book
  have hbat : u.batches = s.batches := congrArg Book.batches hu.book
  have hrec : u.received = s.received ++ [⟨.message (.batch items), s.accepting⟩] :=
    congrArg Book.received hu.book
  unfold receiveBatch at h ⊢
  rcases hrun : scheduleItems u.nextBatch s.received.length choice
    { u with nextBatch := (u.nextBatch + 1) % 2 ^ 64 } 0 (.new s.received.length) items with ⟨v, r⟩
  obtain ⟨hs, hc⟩ := scheduleItems_schedules items hrun
  simp only [hrun] at h ⊢
  have hv := hs.book
  cases r with
  | inl p =>
    have hclosed := offerLast_closed v p sendOk
    simp only [hclosed] at h
    cases h
  | inr batch =>
    have hasm : v.closed = false → Assembling s.accepting s.outstanding v.outstanding s.works
        v.works s.nextBatch s.received.length items batch := by
      intro hop
      have hstart : Assembling s.accepting s.outstanding u.outstanding s.works u.works u.nextBatch
          s.received.length [] (.new s.received.length) := by
        rw [hout, hworks]
        exact Assembling.start (hfree (hu.closed ▸ hc hop))
      have hend := scheduleItems_assembling
        (s := { u with nextBatch := (u.nextBatch + 1) % 2 ^ 64 }) items hu.accepting hstart hrun hop
      rw [hnext] at hend
      simpa using hend
    simp only at h ⊢
    split at h
    · next hp =>
      rw [if_pos hp]
      obtain ⟨hop, hbook⟩ := finishBatch_open h
      refine ⟨hu.closed ▸ hc hop, ?_⟩
      have hvs : v.sent = s.sent := (congrArg Book.sent hv).trans hsent
      rw [hbook, hv, hvs]
      have hstep := Book.Step.flush s.book s.accepting _ _ items batch (hasm hop) hp
      simp only [book] at hstep ⊢
      rw [hbat, hrec, hnext]
      exact hstep
    · next hp =>
      rw [if_neg hp]
      refine ⟨hu.closed ▸ hc h, ?_⟩
      have hstep := Book.Step.store s.book s.accepting _ _ items batch (hasm h) hp
      have hvn : v.batches = s.batches := (congrArg Book.batches hv).trans hbat
      have hvs : v.sent = s.sent := (congrArg Book.sent hv).trans hsent
      have hvr : v.received = _ := (congrArg Book.received hv).trans hrec
      have hvx : v.nextBatch = _ := congrArg Book.nextBatch hv
      simp only [book] at hstep hvx ⊢
      rw [hvn, hvs, hvr, hvx, hnext]
      exact hstep

theorem receive_open {message : RpcMessage} {choice : Nat → Choice} {sendOk notifyOk : Bool}
    (hfree : s.closed = false → ∀ o w, s.works.row o = some w → o.frame ≠ s.received.length)
    (h : (s.receive message choice sendOk notifyOk).closed = false) :
    s.closed = false ∧ s.book.Step (s.receive message choice sendOk notifyOk).book := by
  simp only [receive] at h ⊢
  split at h
  · rw [offerLast_closed] at h
    cases h
  · next hv =>
    rw [if_neg hv]
    cases message with
    | single item => exact receiveItem_open ⟨rfl, rfl, rfl⟩ h
    | batch items => exact receiveBatch_open ⟨rfl, rfl, rfl⟩ hfree h

/-- Every step that leaves the transport open is one of the book's steps. -/
theorem step_book {e : SessionEvent}
    (hfree : s.closed = false → ∀ o w, s.works.row o = some w → o.frame ≠ s.received.length)
    (h : s.step e = some t) (hop : t.closed = false) :
    s.closed = false ∧ s.book.Step t.book := by
  cases e with
  | input message choice sendOk notifyOk =>
    simp only [step] at h
    split at h
    · cases h
      exact receive_open hfree hop
    · cases h
  | malformed code prepared sendOk =>
    simp only [step] at h
    split at h
    · cases h
      split at hop
      · next hp =>
        obtain ⟨hc, hsend⟩ := send_open hop
        rw [if_pos hp]
        refine ⟨hc, ?_⟩
        rw [hsend]
        exact Book.Step.note s.book ⟨.malformed, s.accepting⟩ [_] rfl (by simp) (by
          intro call hcall
          cases hcall)
      · cases hop
    · cases h
  | oversized id prepared sendOk =>
    simp only [step] at h
    split at h
    · cases h
      rw [offerLast_closed] at hop
      cases hop
    · cases h
  | dispatch o outcome =>
    obtain ⟨w, hw, h⟩ := Option.bind_eq_some_iff.mp h
    split at h
    · cases h
    · obtain ⟨u, hu, rfl⟩ := Option.map_eq_some_iff.mp h
      have hsame : u.closed = s.closed ∧ u.book = s.book := by
        unfold handshake at hu
        split at hu
        · cases hu
          exact ⟨rfl, rfl⟩
        split at hu
        · split at hu <;> cases hu
          exact ⟨rfl, rfl⟩
        split at hu
        · split at hu <;> cases hu
          exact ⟨rfl, rfl⟩
        · cases hu
          exact ⟨rfl, rfl⟩
      refine ⟨hsame.1 ▸ hop, ?_⟩
      have hstep := Book.Step.dispatch s.book o w _ hw (finish_answers w o outcome _ rfl)
      rw [← hsame.2] at hstep
      exact hsame.2 ▸ hstep
  | abort o =>
    obtain ⟨w, -, rfl⟩ := Option.map_eq_some_iff.mp h
    cases hop
  | deliver o sendOk notifyOk =>
    simp only [step] at h
    split at h
    · obtain ⟨w, hw, h⟩ := Option.bind_eq_some_iff.mp h
      obtain ⟨result, hr, rfl⟩ := Option.map_eq_some_iff.mp h
      exact deliver_open hw hr hop
    · cases h
  | spawn =>
    obtain ⟨spawning, -, rfl⟩ := Option.map_eq_some_iff.mp h
    dsimp only at hop ⊢
    split at hop
    · cases hop
    · next hc =>
      rw [if_neg hc]
      exact ⟨hop, Book.Step.stay s.book⟩
  | guardFailure failure notifyOk =>
    simp only [step] at h
    split at h <;> cases h
    cases hop
  | leave =>
    simp only [step] at h
    split at h <;> cases h
    cases hop
  | close =>
    cases h
    cases hop

end Session

end Chahua.Rpc
