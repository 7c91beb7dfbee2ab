import Chahua.Receipts.ReadReceipts

namespace Chahua.Receipts

open Framework

theorem canonicalPair_cases (a b : Int) :
    (a < b ∧ canonicalPair a b = (a, b)) ∨ (¬ a < b ∧ canonicalPair a b = (b, a)) := by
  unfold canonicalPair
  by_cases h : a < b
  · exact .inl ⟨h, if_pos h⟩
  · exact .inr ⟨h, if_neg h⟩

theorem canonicalPair_comm (a b : Int) : canonicalPair a b = canonicalPair b a := by
  obtain ⟨hab, hpair⟩ | ⟨hab, hpair⟩ := canonicalPair_cases a b
  · obtain ⟨hba, -⟩ | ⟨-, hpair'⟩ := canonicalPair_cases b a
    · omega
    · rw [hpair, hpair']
  · obtain ⟨-, hpair'⟩ | ⟨hba, hpair'⟩ := canonicalPair_cases b a
    · rw [hpair, hpair']
    · have heq : a = b := by omega
      rw [heq]

/-- The pair with a participant determines the other one. -/
theorem canonicalPair_cancel {a b c : Int} (h : canonicalPair a b = canonicalPair a c) : b = c := by
  obtain ⟨hab, hb⟩ | ⟨hab, hb⟩ := canonicalPair_cases a b
  · obtain ⟨hac, hc⟩ | ⟨hac, hc⟩ := canonicalPair_cases a c
    · rw [hb, hc, Prod.mk.injEq] at h
      exact h.2
    · rw [hb, hc, Prod.mk.injEq] at h
      omega
  · obtain ⟨hac, hc⟩ | ⟨hac, hc⟩ := canonicalPair_cases a c
    · rw [hb, hc, Prod.mk.injEq] at h
      omega
    · rw [hb, hc, Prod.mk.injEq] at h
      exact h.1

/-- The overrides of a participant and of the other one. -/
def Friendship.overrides (friendship : Friendship) (viewer peer : Int) :
    Option Bool × Option Bool :=
  if viewer = (canonicalPair viewer peer).1 then
    (friendship.uid1SharesReadReceipts, friendship.uid2SharesReadReceipts)
  else (friendship.uid2SharesReadReceipts, friendship.uid1SharesReadReceipts)

theorem Friendship.overrides_swap (friendship : Friendship) {a b : Int} (h : a ≠ b) :
    friendship.overrides b a = (friendship.overrides a b).swap := by
  unfold Friendship.overrides
  obtain ⟨hab, hpair⟩ | ⟨hab, hpair⟩ := canonicalPair_cases a b
  · rw [canonicalPair_comm b a, hpair, if_neg (Ne.symm h), if_pos rfl]
    rfl
  · rw [canonicalPair_comm b a, hpair, if_pos rfl, if_neg h]
    rfl

namespace Database

variable {db : Database}

def visibility (db : Database) (uid : Int) : ReadReceiptVisibility :=
  (db.userExtra.row uid).getD .friends

/-- The two are friends, neither blocks the other, and both share their receipts. -/
def Visible (db : Database) (viewer peer : Int) : Prop :=
  ∃ friendship, db.friendships.row (canonicalPair viewer peer) = some friendship ∧
    db.blocks.row (viewer, peer) = none ∧ db.blocks.row (peer, viewer) = none ∧
    sharesReadReceipts (db.visibility viewer) (friendship.overrides viewer peer).1 = true ∧
    sharesReadReceipts (db.visibility peer) (friendship.overrides viewer peer).2 = true

theorem Visible.symm {a b : Int} (h : db.Visible a b) : db.Visible b a := by
  obtain ⟨friendship, hrow, hab, hba, ha, hb⟩ := h
  by_cases heq : a = b
  · subst heq
    exact ⟨friendship, hrow, hab, hba, ha, hb⟩
  · refine ⟨friendship, canonicalPair_comm a b ▸ hrow, hba, hab, ?_, ?_⟩
    · rw [friendship.overrides_swap heq]
      exact hb
    · rw [friendship.overrides_swap heq]
      exact ha

/-- The single lookup returns what the peer has stored, or nothing. -/
theorem getReadReceipt_eq {viewer peer chatId : Int} (thread : Option Int)
    (hpeer : db.dmPeerForMember chatId viewer = some peer) (receipt : Int) :
    db.getReadReceipt viewer chatId thread = .ok (some receipt) ↔
      db.Visible viewer peer ∧ db.storedReceipt chatId thread peer = some receipt := by
  unfold getReadReceipt Visible
  simp only [hpeer]
  cases hfriend : db.friendships.row (canonicalPair viewer peer) with
  | none => simp
  | some friendship =>
    simp only [Option.some.injEq, exists_eq_left']
    have hvisible : readReceiptIsVisible true
        ((db.blocks.row (viewer, peer)).isSome || (db.blocks.row (peer, viewer)).isSome)
        ((db.userExtra.row viewer).getD .friends) (friendship.overrides viewer peer).1
        ((db.userExtra.row peer).getD .friends) (friendship.overrides viewer peer).2 = true ↔
      (db.blocks.row (viewer, peer) = none ∧ db.blocks.row (peer, viewer) = none ∧
        sharesReadReceipts (db.visibility viewer) (friendship.overrides viewer peer).1 = true ∧
        sharesReadReceipts (db.visibility peer) (friendship.overrides viewer peer).2 = true) := by
      simp [readReceiptIsVisible, visibility, and_assoc]
    rw [← hvisible]
    change (if readReceiptIsVisible true _ _ (friendship.overrides viewer peer).1 _
      (friendship.overrides viewer peer).2 = true then Except.ok _ else Except.ok none) = _ ↔ _
    split
    · simp only [Except.ok.injEq, true_and, *]
    · simp [*]

theorem dmPeers_row (viewer : Int) (chatIds : List Int) (chatId : Int) :
    (db.dmPeers viewer chatIds).row chatId =
      if chatId ∈ chatIds then db.dmPeerForMember chatId viewer else none := by
  unfold dmPeers dmPeerForMember dmParticipants
  rw [Table.filterMap_row]
  cases db.groups.row chatId with
  | none => simp
  | some g =>
    by_cases hmem : chatId ∈ chatIds
    · by_cases hkind : g.kind = .dm
      · have hfilter : (some g).filter (fun g => decide (g.kind = .dm)) = some g :=
          if_pos (decide_eq_true hkind)
        rw [hfilter]
        cases hfirst : g.dmUid1 with
        | none => simp [hfirst]
        | some first =>
          cases hsecond : g.dmUid2 with
          | none => simp [hfirst, hsecond]
          | some second =>
            simp [hmem, hkind, hfirst, hsecond, DmParticipants.peerFor, eq_comm]
      · have hfilter : (some g).filter (fun g => decide (g.kind = .dm)) = none :=
          if_neg (by simp [hkind])
        rw [hfilter]
        simp [hkind]
    · simp [hmem]

/-- The maps loaded for all peers decide about one of them as the single lookup does. -/
theorem retained_iff {viewer peer : Int} {peers : Finset Int} (hpeer : peer ∈ peers) :
    db.retained viewer peers peer = true ↔ db.Visible viewer peer := by
  have hpair : canonicalPair viewer peer = (viewer, peer) ∨
      canonicalPair viewer peer = (peer, viewer) := by
    obtain ⟨-, h⟩ | ⟨-, h⟩ := canonicalPair_cases viewer peer
    · exact .inl h
    · exact .inr h
  have hfriend : (db.friendshipMap viewer peers).row (canonicalPair viewer peer) =
      (db.friendships.row (canonicalPair viewer peer)).map fun f =>
        (f.uid1SharesReadReceipts, f.uid2SharesReadReceipts) := by
    unfold friendshipMap
    rw [Table.filterMap_row]
    cases db.friendships.row (canonicalPair viewer peer) with
    | none => rfl
    | some f =>
      have hcond : (canonicalPair viewer peer).1 = viewer ∧ (canonicalPair viewer peer).2 ∈ peers ∨
          (canonicalPair viewer peer).2 = viewer ∧ (canonicalPair viewer peer).1 ∈ peers := by
        obtain h | h := hpair
        · exact .inl (by rw [h]; exact ⟨rfl, hpeer⟩)
        · exact .inr (by rw [h]; exact ⟨rfl, hpeer⟩)
      simp only [Option.bind_some, Option.map_some]
      rw [if_pos hcond]
  have hblocked : canonicalPair viewer peer ∈ db.blockedPairs viewer peers ↔
      ((db.blocks.row (viewer, peer)).isSome || (db.blocks.row (peer, viewer)).isSome) = true := by
    unfold blockedPairs
    rw [Table.mem_image, Bool.or_eq_true]
    constructor
    · rintro ⟨⟨blocker, blocked⟩, v, hrow, hcond, heq⟩
      simp only [decide_eq_true_eq] at hcond heq
      obtain ⟨rfl, -⟩ | ⟨-, rfl⟩ := hcond
      · obtain rfl := canonicalPair_cancel heq
        exact .inl (by rw [hrow]; rfl)
      · rw [canonicalPair_comm] at heq
        obtain rfl := canonicalPair_cancel heq
        exact .inr (by rw [hrow]; rfl)
    · rintro (hrow | hrow)
      · obtain ⟨v, hv⟩ := Option.isSome_iff_exists.mp hrow
        exact ⟨_, v, hv, by simp [hpeer], rfl⟩
      · obtain ⟨v, hv⟩ := Option.isSome_iff_exists.mp hrow
        exact ⟨_, v, hv, by simp [hpeer], canonicalPair_comm peer viewer⟩
  have hvisibility : ∀ uid, uid ∈ peers ∨ uid = viewer →
      ((db.visibilityMap viewer peers).row uid).getD .friends = db.visibility uid := by
    intro uid huid
    unfold visibilityMap visibility
    rw [Table.filterMap_row]
    cases db.userExtra.row uid with
    | none => rfl
    | some v => simp [huid]
  unfold retained Visible
  simp only [hfriend, hvisibility viewer (.inr rfl), hvisibility peer (.inl hpeer)]
  cases db.friendships.row (canonicalPair viewer peer) with
  | none => simp
  | some friendship =>
    simp only [Option.map_some, Option.some.injEq, exists_eq_left']
    have hswap : (if (canonicalPair viewer peer).1 = viewer then
          (friendship.uid1SharesReadReceipts, friendship.uid2SharesReadReceipts)
        else (friendship.uid2SharesReadReceipts, friendship.uid1SharesReadReceipts)) =
        friendship.overrides viewer peer := by
      unfold Friendship.overrides
      simp only [eq_comm]
    rw [hswap]
    have hdecide : decide (canonicalPair viewer peer ∈ db.blockedPairs viewer peers) =
        ((db.blocks.row (viewer, peer)).isSome || (db.blocks.row (peer, viewer)).isSome) := by
      rw [Bool.eq_iff_iff, decide_eq_true_eq]
      exact hblocked
    rw [hdecide]
    simp [readReceiptIsVisible, and_assoc]

theorem mem_peerUids {peers : Table Int Int} {peer : Int} :
    peer ∈ peerUids peers ↔ ∃ chatId, peers.row chatId = some peer := by
  unfold peerUids
  rw [Table.mem_image]
  constructor
  · rintro ⟨chatId, p, hrow, -, rfl⟩
    exact ⟨chatId, hrow⟩
  · rintro ⟨chatId, hrow⟩
    exact ⟨chatId, peer, hrow, rfl, rfl⟩

/-- A chat keeps its peer when the peer's receipts are visible. -/
theorem visibleDmPeers_row (viewer : Int) (chatIds : List Int) (chatId peer : Int) :
    (db.visibleDmPeers viewer chatIds).row chatId = some peer ↔
      chatId ∈ chatIds ∧ db.dmPeerForMember chatId viewer = some peer ∧ db.Visible viewer peer := by
  unfold visibleDmPeers
  simp only [Table.filterMap_row, Option.bind_eq_some_iff, dmPeers_row]
  constructor
  · rintro ⟨p, hrow, hkeep⟩
    split at hkeep
    · obtain rfl := Option.some.inj hkeep
      have hp : p ∈ peerUids (db.dmPeers viewer chatIds) :=
        mem_peerUids.mpr ⟨chatId, by rw [dmPeers_row]; exact hrow⟩
      split at hrow
      · exact ⟨‹_›, hrow, (retained_iff hp).mp ‹_›⟩
      · cases hrow
    · cases hkeep
  · rintro ⟨hmem, hrow, hvisible⟩
    have hp : peer ∈ peerUids (db.dmPeers viewer chatIds) :=
      mem_peerUids.mpr ⟨chatId, by rw [dmPeers_row, if_pos hmem]; exact hrow⟩
    exact ⟨peer, by rw [if_pos hmem]; exact hrow, by rw [if_pos ((retained_iff hp).mpr hvisible)]⟩

theorem getReadReceipt_ok {viewer chatId : Int} {thread : Option Int} {receipt : Int} :
    db.getReadReceipt viewer chatId thread = .ok (some receipt) ↔
      ∃ peer, db.dmPeerForMember chatId viewer = some peer ∧ db.Visible viewer peer ∧
        db.storedReceipt chatId thread peer = some receipt := by
  cases hpeer : db.dmPeerForMember chatId viewer with
  | none => simp [getReadReceipt, hpeer]
  | some peer => simp [getReadReceipt_eq thread hpeer]

theorem mem_visibleChatReceipts {viewer : Int} {chatIds : List Int} {chatId receipt : Int} :
    (chatId, receipt) ∈ db.visibleChatReceipts viewer chatIds ↔
      chatId ∈ chatIds ∧ db.getReadReceipt viewer chatId none = .ok (some receipt) := by
  unfold visibleChatReceipts
  rw [Table.mem_image, getReadReceipt_ok]
  constructor
  · rintro ⟨⟨chat, peer⟩, state, hrow, hkept, heq⟩
    simp only [Bool.and_eq_true, decide_eq_true_eq] at hkept
    obtain ⟨⟨-, -, hpeer⟩, hsome⟩ := hkept
    rw [Prod.mk.injEq] at heq
    obtain ⟨rfl, rfl⟩ := heq
    obtain ⟨hmem, hmember, hvisible⟩ := (visibleDmPeers_row viewer chatIds chat peer).mp hpeer
    refine ⟨hmem, peer, hmember, hvisible, ?_⟩
    obtain ⟨value, hvalue⟩ := Option.isSome_iff_exists.mp hsome
    simp [storedReceipt, hrow, hvalue]
  · rintro ⟨hmem, peer, hmember, hvisible, hstored⟩
    have hpeer := (visibleDmPeers_row viewer chatIds chatId peer).mpr ⟨hmem, hmember, hvisible⟩
    obtain ⟨state, hrow, hvalue⟩ := Option.bind_eq_some_iff.mp hstored
    refine ⟨(chatId, peer), state, hrow, ?_, by simp [hvalue]⟩
    simp only [Bool.and_eq_true, decide_eq_true_eq]
    exact ⟨⟨(Table.mem_keys _ _).mpr (by rw [hpeer]; rfl), mem_peerUids.mpr ⟨chatId, hpeer⟩, hpeer⟩,
      by rw [hvalue]; rfl⟩

/-- An entry of the thread map comes from the row of some scope's chat. -/
theorem mem_visibleThreadReceipts {viewer : Int} {scopes : List (Int × Int)} {root receipt : Int} :
    (root, receipt) ∈ db.visibleThreadReceipts viewer scopes ↔
      root ∈ scopes.map Prod.snd ∧ ∃ chatId ∈ scopes.map Prod.fst,
        db.getReadReceipt viewer chatId (some root) = .ok (some receipt) := by
  unfold visibleThreadReceipts
  rw [Table.mem_image]
  simp only [getReadReceipt_ok]
  constructor
  · rintro ⟨⟨chat, thread, peer⟩, state, hrow, hkept, heq⟩
    simp only [Bool.and_eq_true, decide_eq_true_eq] at hkept
    obtain ⟨⟨-, hroot, -, hpeer⟩, hsome⟩ := hkept
    rw [Prod.mk.injEq] at heq
    obtain ⟨rfl, rfl⟩ := heq
    obtain ⟨hmem, hmember, hvisible⟩ := (visibleDmPeers_row viewer _ chat peer).mp hpeer
    refine ⟨hroot, chat, hmem, peer, hmember, hvisible, ?_⟩
    obtain ⟨value, hvalue⟩ := Option.isSome_iff_exists.mp hsome
    simp [storedReceipt, hrow, hvalue]
  · rintro ⟨hroot, chatId, hmem, peer, hmember, hvisible, hstored⟩
    have hpeer := (visibleDmPeers_row viewer _ chatId peer).mpr ⟨hmem, hmember, hvisible⟩
    obtain ⟨state, hrow, hvalue⟩ := Option.bind_eq_some_iff.mp hstored
    refine ⟨(chatId, root, peer), state, hrow, ?_, by simp [hvalue]⟩
    simp only [Bool.and_eq_true, decide_eq_true_eq]
    exact ⟨⟨(Table.mem_keys _ _).mpr (by rw [hpeer]; rfl), hroot,
      mem_peerUids.mpr ⟨chatId, hpeer⟩, hpeer⟩, by rw [hvalue]; rfl⟩

/-- The root message of the scope is a message of its chat. -/
def InChat (db : Database) (chatId threadRootId : Int) : Prop :=
  ∃ message, db.messages.row threadRootId = some message ∧ message.chatId = chatId

/-- Receipts are stored for threads of the chat only. -/
def ThreadReceiptsInChat (db : Database) : Prop :=
  ∀ chatId root uid state, db.threadUserStates.row (chatId, root, uid) = some state →
    state.lastReadReceiptMessageId ≠ none → db.InChat chatId root

theorem InChat.unique {a b root : Int} (ha : db.InChat a root) (hb : db.InChat b root) : a = b := by
  obtain ⟨m, hm, rfl⟩ := ha
  obtain ⟨n, hn, rfl⟩ := hb
  rw [Option.some.inj (hm.symm.trans hn)]

/-- With receipts only in their chat's threads, the entry of a root is its scope's. -/
theorem mem_visibleThreadReceipts_of_scope (h : db.ThreadReceiptsInChat) {viewer : Int}
    {scopes : List (Int × Int)} {chatId root receipt : Int} (hscope : (chatId, root) ∈ scopes)
    (hroot : db.InChat chatId root) :
    (root, receipt) ∈ db.visibleThreadReceipts viewer scopes ↔
      db.getReadReceipt viewer chatId (some root) = .ok (some receipt) := by
  rw [mem_visibleThreadReceipts]
  constructor
  · rintro ⟨-, other, -, hreceipt⟩
    obtain ⟨peer, -, -, hstored⟩ := getReadReceipt_ok.mp hreceipt
    obtain ⟨state, hrow, hvalue⟩ := Option.bind_eq_some_iff.mp hstored
    have hother := h other root peer state hrow (by simp [hvalue])
    rw [hroot.unique hother]
    exact hreceipt
  · intro hreceipt
    exact ⟨List.mem_map_of_mem hscope, chatId, List.mem_map_of_mem hscope, hreceipt⟩

/-- A write leaves every stored receipt or raises it. -/
def Raises (db after : Database) : Prop :=
  ∀ chatId thread uid last, db.storedReceipt chatId thread uid = some last →
    ∃ receipt, after.storedReceipt chatId thread uid = some receipt ∧ last ≤ receipt

theorem raises_refl (db : Database) : db.Raises db := fun _ _ _ last h => ⟨last, h, Int.le_refl last⟩

theorem Raises.trans {a b c : Database} (hab : a.Raises b) (hbc : b.Raises c) : a.Raises c := by
  intro chatId thread uid last hlast
  obtain ⟨mid, hmid, hle⟩ := hab chatId thread uid last hlast
  obtain ⟨receipt, hreceipt, hle'⟩ := hbc chatId thread uid mid hmid
  exact ⟨receipt, hreceipt, Int.le_trans hle hle'⟩

/-- An update that leaves the receipt or raises it, row by row. -/
theorem updateWhere_raises {K : Type} {t : Table K ReadState} {p : K → ReadState → Bool}
    {f : K → ReadState → ReadState}
    (h : ∀ k state last, p k state = true → state.lastReadReceiptMessageId = some last →
      ∃ receipt, (f k state).lastReadReceiptMessageId = some receipt ∧ last ≤ receipt)
    {k : K} {last : Int} (hlast : (t.row k).bind (·.lastReadReceiptMessageId) = some last) :
    ∃ receipt, ((t.updateWhere p f).row k).bind (·.lastReadReceiptMessageId) = some receipt ∧
      last ≤ receipt := by
  obtain ⟨state, hrow, hvalue⟩ := Option.bind_eq_some_iff.mp hlast
  rw [Table.updateWhere_row, hrow]
  simp only [Option.map_some, Option.bind_some]
  split
  · exact h k state last ‹_› hvalue
  · exact ⟨last, hvalue, Int.le_refl last⟩

theorem raises_of_memberships {groupMembership : Table (Int × Int) ReadState}
    (h : ∀ k last, (db.groupMembership.row k).bind (·.lastReadReceiptMessageId) = some last →
      ∃ receipt, (groupMembership.row k).bind (·.lastReadReceiptMessageId) = some receipt ∧
        last ≤ receipt) : db.Raises { db with groupMembership } := by
  intro chatId thread uid last hlast
  cases thread with
  | none => exact h (chatId, uid) last hlast
  | some root => exact ⟨last, hlast, Int.le_refl last⟩

theorem raises_of_threads {threadUserStates : Table (Int × Int × Int) ReadState}
    (h : ∀ k last, (db.threadUserStates.row k).bind (·.lastReadReceiptMessageId) = some last →
      ∃ receipt, (threadUserStates.row k).bind (·.lastReadReceiptMessageId) = some receipt ∧
        last ≤ receipt) : db.Raises { db with threadUserStates } := by
  intro chatId thread uid last hlast
  cases thread with
  | none => exact ⟨last, hlast, Int.le_refl last⟩
  | some root => exact h (chatId, root, uid) last hlast

theorem le_of_behind {messageId last : Int} {state : ReadState} (h : behind messageId state = true)
    (hlast : state.lastReadReceiptMessageId = some last) : last ≤ messageId := by
  simp only [behind, hlast, Option.all_some, decide_eq_true_eq] at h
  omega

theorem write_raises (db : Database) (w : Write) : db.Raises (db.write w) := by
  cases w with
  | advanceChat chatId uid messageId =>
    apply raises_of_memberships
    intro k last hlast
    apply updateWhere_raises _ hlast
    intro _ state last hp hvalue
    rw [Bool.and_eq_true] at hp
    exact ⟨messageId, rfl, le_of_behind hp.2 hvalue⟩
  | advanceThread chatId root uid messageId =>
    apply raises_of_threads
    intro k last hlast
    apply updateWhere_raises _ hlast
    intro _ state last hp hvalue
    rw [Bool.and_eq_true] at hp
    exact ⟨messageId, rfl, le_of_behind hp.2 hvalue⟩
  | markAsUnread chatId uid newReadId =>
    apply raises_of_memberships
    intro k last hlast
    apply updateWhere_raises _ hlast
    exact fun _ _ last _ hvalue => ⟨last, hvalue, Int.le_refl last⟩
  | shiftChat chatId deleted previous =>
    apply raises_of_memberships
    intro k last hlast
    apply updateWhere_raises _ hlast
    exact fun _ _ last _ hvalue => ⟨last, hvalue, Int.le_refl last⟩
  | shiftThread root deleted previous =>
    apply raises_of_threads
    intro k last hlast
    apply updateWhere_raises _ hlast
    exact fun _ _ last _ hvalue => ⟨last, hvalue, Int.le_refl last⟩

theorem foldl_write_raises (db : Database) (writes : List Write) :
    db.Raises (writes.foldl write db) := by
  induction writes generalizing db with
  | nil => exact raises_refl db
  | cons w writes ih => exact (write_raises db w).trans (ih (db.write w))

end Database

/-- The bulk lookups return what the single one does for each scope, receipts are visible under
a symmetric condition, and a stored receipt never decreases. -/
theorem bulk_receipts_agree (db : Database) (viewer : Int) (chatIds : List Int)
    (scopes : List (Int × Int)) (writes : List Database.Write) :
    (∀ chatId receipt, (chatId, receipt) ∈ db.visibleChatReceipts viewer chatIds ↔
      chatId ∈ chatIds ∧ db.getReadReceipt viewer chatId none = .ok (some receipt)) ∧
    (db.ThreadReceiptsInChat → (∀ scope ∈ scopes, db.InChat scope.1 scope.2) →
      ∀ chatId root, (chatId, root) ∈ scopes → ∀ receipt,
        (root, receipt) ∈ db.visibleThreadReceipts viewer scopes ↔
          db.getReadReceipt viewer chatId (some root) = .ok (some receipt)) ∧
    (∀ root receipt, (root, receipt) ∈ db.visibleThreadReceipts viewer scopes →
      root ∈ scopes.map Prod.snd) ∧
    (∀ chatId peer thread receipt, db.dmPeerForMember chatId viewer = some peer →
      (db.getReadReceipt viewer chatId thread = .ok (some receipt) ↔
        db.Visible viewer peer ∧ db.storedReceipt chatId thread peer = some receipt)) ∧
    (∀ peer, db.Visible viewer peer ↔ db.Visible peer viewer) ∧
    db.Raises (writes.foldl Database.write db) := by
  refine ⟨fun _ _ => Database.mem_visibleChatReceipts, ?_, ?_, ?_, ?_,
    db.foldl_write_raises writes⟩
  · intro hstored hscopes chatId root hscope receipt
    exact Database.mem_visibleThreadReceipts_of_scope hstored hscope (hscopes _ hscope)
  · intro root receipt h
    exact (Database.mem_visibleThreadReceipts.mp h).1
  · intro chatId peer thread receipt hpeer
    exact Database.getReadReceipt_eq thread hpeer receipt
  · exact fun peer => ⟨Database.Visible.symm, Database.Visible.symm⟩

/-- Two DMs of user 1, each with a thread, between friends who share. -/
def twoDms (threadUserStates : Table (Int × Int × Int) ReadState) : Database where
  groups := .ofList [(10, ⟨.dm, some 1, some 2⟩), (20, ⟨.dm, some 1, some 3⟩)]
  friendships := .ofList [((1, 2), ⟨none, none⟩), ((1, 3), ⟨none, none⟩)]
  blocks := .empty
  userExtra := .empty
  groupMembership := .empty
  threadUserStates := threadUserStates
  messages := .ofList [(100, ⟨10, none⟩), (200, ⟨20, none⟩)]

theorem bulk_receipts_agree_threads :
    (100, 7) ∈ (twoDms (.ofList [((10, 100, 2), ⟨none, some 7⟩)])).visibleThreadReceipts 1
      [(20, 200), (10, 100)] := by
  have h := (bulk_receipts_agree (twoDms (.ofList [((10, 100, 2), ⟨none, some 7⟩)])) 1 []
    [(20, 200), (10, 100)] []).2.1 ?_ ?_ 10 100 (by decide) 7
  · exact h.mpr rfl
  · intro chatId root uid state hrow hreceipt
    have hmem := Table.mem_of_ofList_row hrow
    rw [List.mem_singleton, Prod.mk.injEq, Prod.mk.injEq, Prod.mk.injEq] at hmem
    obtain ⟨⟨rfl, rfl, rfl⟩, rfl⟩ := hmem
    exact ⟨_, rfl, rfl⟩
  · intro scope hscope
    simp only [List.mem_cons, List.not_mem_nil, or_false] at hscope
    obtain rfl | rfl := hscope
    · exact ⟨_, rfl, rfl⟩
    · exact ⟨_, rfl, rfl⟩

/-- A receipt stored under the root of another chat's thread is returned for that thread. -/
theorem foreign_thread_row_leaks :
    (100, 7) ∈ (twoDms (.ofList [((20, 100, 3), ⟨none, some 7⟩)])).visibleThreadReceipts 1
        [(10, 100), (20, 200)] ∧
      (twoDms (.ofList [((20, 100, 3), ⟨none, some 7⟩)])).getReadReceipt 1 10 (some 100) =
        .ok none ∧
      ∀ scope ∈ [(10, 100), (20, 200)],
        (twoDms (.ofList [((20, 100, 3), ⟨none, some 7⟩)])).InChat scope.1 scope.2 := by
  refine ⟨by decide, rfl, ?_⟩
  intro scope hscope
  simp only [List.mem_cons, List.not_mem_nil, or_false] at hscope
  obtain rfl | rfl := hscope
  · exact ⟨_, rfl, rfl⟩
  · exact ⟨_, rfl, rfl⟩

end Chahua.Receipts
