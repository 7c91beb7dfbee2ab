import Chahua.Lists.ChatList

namespace Chahua.Lists

open Framework Messages

def MAX_MESSAGES_LIMIT : Int := 100

structure ListMessagesQuery where
  before : Option Int
  around : Option Int
  after : Option Int
  maximum : Option Int
  threadId : Option Int
  deriving DecidableEq, Repr

/-- The messages of a response are the ids of the rows. -/
structure ListMessagesResponse where
  membershipMessagePolicy : MembershipMessagePolicy
  showMembershipMessages : Bool
  messages : List Int
  nextCursor : Option Int
  prevCursor : Option Int
  olderCursor : Option Int
  newerCursor : Option Int
  deriving DecidableEq, Repr

def allows (visibility : MembershipMessageVisibility) (role : Option GroupRole) : Bool :=
  match visibility with
  | .members => role.isSome
  | .admins => decide (role = some .admin)
  | .nobody => false

/-- `raw_query!`: the published rows of a chat, or of one of its threads with its root. -/
def inHistory (chatId : Int) (threadId : Option Int) (id : Int) (m : Message) : Bool :=
  decide (m.chatId = chatId) && m.isPublished &&
    match threadId with
    | some tid => decide (m.replyRootId = some tid) && m.deletedAt.isNone || decide (id = tid)
    | none => m.replyRootId.isNone && (m.deletedAt.isNone || m.hasThread)

def hidesMembershipMessages (showMembershipMessages : Bool) (kind : GroupKind)
    (threadId : Option Int) : Bool :=
  !showMembershipMessages && decide (kind = .group) && threadId.isNone

def filters (policy : MembershipMessagePolicy) (showMembershipMessages : Bool) (kind : GroupKind)
    (threadId : Option Int) : Bool :=
  !policy.canView || hidesMembershipMessages showMembershipMessages kind threadId

namespace ListTables

/-- `load_chat_settings_for_chat`. -/
def loadChatSettingsForChat (t : ListTables) (uid chatId : Int) :
    Option (Bool × GroupKind × MembershipMessagePolicy) :=
  (t.groups.row chatId).map fun g =>
    (t.loadChatSettings uid, g.kind,
      { visibility := g.membershipMessageVisibility
        canView := decide (g.kind = .dm) || allows g.membershipMessageVisibility
          ((t.groupMembership.row (chatId, uid)).map ListedMembership.role) })

/-- `base_query!`: the rows of the history that pass the filter. -/
def visibleIds (t : ListTables) (chatId : Int) (threadId : Option Int) (filtering : Bool) :
    Finset Int :=
  t.messages.select fun id m => inHistory chatId threadId id m && (!filtering || m.nonMembership)

end ListTables

/-- `ORDER BY id ASC LIMIT limit`. -/
def oldest (ids : Finset Int) (limit : Int) : List Int := (ascending ids).take limit.toNat

/-- `ORDER BY id DESC LIMIT limit`. -/
def newest (ids : Finset Int) (limit : Int) : List Int :=
  (ascending ids).reverse.take limit.toNat

/-- The ids of a window with its cursors. -/
structure Window where
  messages : List Int
  olderCursor : Option Int
  newerCursor : Option Int
  deriving DecidableEq, Repr

/-- A membership message that is asked for by its id is kept for the link to it. -/
def keepTarget (hiddenTarget : Option Int) (combined : List Int) : List Int :=
  match hiddenTarget with
  | some target => (combined ++ [target]).mergeSort fun a b => decide (a ≤ b)
  | none => combined

def aroundWindow (visible : Finset Int) (hiddenTarget : Option Int) (maximum target : Int) :
    Window :=
  let half := maximum / 2
  let newerRows := oldest (visible.filter fun id => target ≤ id) (half + 2)
  let olderRows := newest (visible.filter fun id => id < target) (half + 1)
  let hasOlder := decide (half < olderRows.length)
  let hasNewer := decide (half + 1 < newerRows.length)
  let olderToUse := olderRows.take half.toNat
  let newerToUse := newerRows.take (half + 1).toNat
  { messages := keepTarget hiddenTarget (olderToUse.reverse ++ newerToUse)
    olderCursor := if hasOlder then olderToUse.getLast? else none
    newerCursor := if hasNewer then newerToUse.getLast? else none }

def afterWindow (visible : Finset Int) (maximum after : Int) : Window :=
  let rows := oldest (visible.filter fun id => after < id) (maximum + 1)
  let hasMore := decide (maximum < rows.length)
  let messages := rows.take maximum.toNat
  { messages := messages
    olderCursor := none
    newerCursor := if hasMore then messages.getLast? else none }

def beforeWindow (visible : Finset Int) (maximum : Int) (before : Option Int) : Window :=
  let rows := newest (visible.filter fun id => before.all fun b => decide (id < b)) (maximum + 1)
  let hasMore := decide (maximum < rows.length)
  let messages := rows.take maximum.toNat
  { messages := messages.reverse
    olderCursor := if hasMore then messages.getLast? else none
    newerCursor := none }

namespace ListTables

/-- The hidden target of a window, which its reader may see. -/
def hiddenTarget (t : ListTables) (chatId : Int) (threadId : Option Int) (filtering canView : Bool)
    (target : Int) : Option Int :=
  if filtering && canView then
    ((t.messages.row target).filter fun m =>
      inHistory chatId threadId target m && !m.nonMembership).map fun _ => target
  else none

def getMessages (t : ListTables) (uid chatId : Int) (q : ListMessagesQuery) :
    Except AppError ListMessagesResponse :=
  if (t.groupMembership.row (chatId, uid)).isNone then
    .error (.forbidden "Not a member of this chat")
  else
    match t.loadChatSettingsForChat uid chatId with
    | none => .error .dbQuery
    | some (showMembershipMessages, kind, policy) =>
        let maximum := validateLimit q.maximum MAX_MESSAGES_LIMIT
        let filtering := filters policy showMembershipMessages kind q.threadId
        let visible := t.visibleIds chatId q.threadId filtering
        let respond := fun (w : Window) (nextCursor prevCursor : Option Int) =>
          Except.ok
            { membershipMessagePolicy := policy
              showMembershipMessages := showMembershipMessages
              messages := w.messages
              nextCursor := nextCursor
              prevCursor := prevCursor
              olderCursor := w.olderCursor
              newerCursor := w.newerCursor }
        match q.around, q.after with
        | some target, _ =>
            let w := aroundWindow visible
              (t.hiddenTarget chatId q.threadId filtering policy.canView target) maximum target
            respond w w.olderCursor w.newerCursor
        | none, some after =>
            let w := afterWindow visible maximum after
            respond w none w.newerCursor
        | none, none =>
            let w := beforeWindow visible maximum q.before
            respond w w.olderCursor none

/-- The rows of a history that a user sees. -/
def visibleTo (t : ListTables) (uid chatId : Int) (threadId : Option Int) : Finset Int :=
  match t.loadChatSettingsForChat uid chatId with
  | some (showMembershipMessages, kind, policy) =>
      t.visibleIds chatId threadId (filters policy showMembershipMessages kind threadId)
  | none => ∅

/-- The pages towards older rows, newest row first. -/
def olderPage (t : ListTables) (uid chatId : Int) (q : ListMessagesQuery) (before : Option Int) :
    Chunk Int Int :=
  match t.getMessages uid chatId { q with before := before, around := none, after := none } with
  | .ok response => ⟨response.messages.reverse, response.olderCursor⟩
  | .error _ => ⟨[], none⟩

def newerPage (t : ListTables) (uid chatId : Int) (q : ListMessagesQuery) :
    Option Int → Chunk Int Int
  | none => ⟨[], none⟩
  | some after =>
      match t.getMessages uid chatId { q with before := none, around := none, after := after } with
      | .ok response => ⟨response.messages, response.newerCursor⟩
      | .error _ => ⟨[], none⟩

end ListTables

namespace ListMessagesQuery

def looksBack (q : ListMessagesQuery) : Prop := q.around.isSome ∨ q.after = none

def looksForward (q : ListMessagesQuery) : Prop := q.around.isSome ∨ q.after.isSome

/-- What a form lists from: all rows, those after its anchor, or those before it. -/
def reaches (q : ListMessagesQuery) (id : Int) : Bool :=
  match q.around, q.after with
  | some _, _ => true
  | none, some after => decide (after < id)
  | none, none => q.before.all fun before => decide (id < before)

end ListMessagesQuery

/-- A window with exact edges: a cursor stands exactly where the form reaches a visible row beyond
all the visible rows shown, and following both cursors lists every visible row once. -/
structure ExactWindow (t : ListTables) (uid chatId : Int) (q : ListMessagesQuery)
    (response : ListMessagesResponse) : Prop where
  sorted : response.messages.Pairwise (· < ·)
  shown : ∀ id ∈ response.messages, id ∈ t.visibleTo uid chatId q.threadId ∨ q.around = some id
  older : q.looksBack → (response.olderCursor.isSome = true ↔
    ∃ v ∈ t.visibleTo uid chatId q.threadId, q.reaches v = true ∧
      ∀ id ∈ response.messages, id ∈ t.visibleTo uid chatId q.threadId → v < id)
  newer : q.looksForward → (response.newerCursor.isSome = true ↔
    ∃ v ∈ t.visibleTo uid chatId q.threadId, q.reaches v = true ∧
      ∀ id ∈ response.messages, id ∈ t.visibleTo uid chatId q.threadId → id < v)
  enumerates : ∃ olderPages newerPages,
    Continues (t.olderPage uid chatId q) response.olderCursor olderPages ∧
      Continues (t.newerPage uid chatId q) response.newerCursor newerPages ∧
        (olderPages.flatMap Chunk.rows).reverse ++
            (response.messages.filter fun id => decide (id ∈ t.visibleTo uid chatId q.threadId)) ++
          newerPages.flatMap Chunk.rows =
            ascending ((t.visibleTo uid chatId q.threadId).filter fun id => q.reaches id = true)

theorem ascending_filter (ids : Finset Int) (p : Int → Prop) [DecidablePred p] :
    ascending (ids.filter p) = (ascending ids).filter fun id => decide (p id) :=
  ascending_eq_of_pairwise ((pairwise_ascending ids).filter _) fun id => by simp

/-- A window over what a form reaches: `older` backwards and `newer` forwards from its anchor,
with a page of each. -/
structure Segment (reached : List Int) (older newer : List Int) (k l : Nat) : Prop where
  split : reached = older.reverse ++ newer
  back : 0 < k ∨ older = []
  forward : 0 < l ∨ newer = []

namespace Segment

variable {reached older newer : List Int} {k l : Nat}

/-- What a window shows of its two sides. -/
def shown (older newer : List Int) (k l : Nat) : List Int :=
  (older.take k).reverse ++ newer.take l

theorem reached_eq (h : Segment reached older newer k l) :
    reached = (older.drop k).reverse ++ shown older newer k l ++ newer.drop l := by
  calc reached = older.reverse ++ newer := h.split
    _ = (older.take k ++ older.drop k).reverse ++ (newer.take l ++ newer.drop l) := by
        rw [List.take_append_drop, List.take_append_drop]
    _ = _ := by simp only [shown, List.reverse_append, List.append_assoc]

theorem shown_sublist (h : Segment reached older newer k l) :
    (shown older newer k l).Sublist reached := by
  rw [h.reached_eq]
  exact (List.sublist_append_right _ _).trans (List.sublist_append_left _ _)

/-- A window that shows nothing has nothing to show. -/
theorem eq_nil (h : Segment reached older newer k l) (hs : shown older newer k l = []) :
    older = [] ∧ newer = [] := by
  simp only [shown, List.append_eq_nil_iff, List.reverse_eq_nil_iff, List.take_eq_nil_iff] at hs
  have hb := h.back
  have hf := h.forward
  constructor
  · obtain hk | ho := hb
    · exact hs.1.resolve_left hk.ne'
    · exact ho
  · obtain hl | hn := hf
    · exact hs.2.resolve_left hl.ne'
    · exact hn

theorem older_iff (h : Segment reached older newer k l) (hr : reached.Pairwise (· < ·)) :
    older.drop k ≠ [] ↔ ∃ v ∈ reached, ∀ id ∈ shown older newer k l, v < id := by
  have heq := h.reached_eq
  constructor
  · intro hne
    obtain ⟨v, hv⟩ := List.exists_mem_of_ne_nil _ hne
    have hvr : v ∈ (older.drop k).reverse := List.mem_reverse.mpr hv
    refine ⟨v, by rw [heq]; simp [hv], fun id hid => ?_⟩
    rw [heq] at hr
    exact (List.pairwise_append.mp (List.pairwise_append.mp hr).1).2.2 v hvr id hid
  · intro hex hnil
    obtain ⟨v, hv, hall⟩ := hex
    rw [heq, hnil, List.reverse_nil, List.nil_append] at hv hr
    obtain hv | hv := List.mem_append.mp hv
    · exact lt_irrefl v (hall v hv)
    · by_cases hs : shown older newer k l = []
      · rw [(h.eq_nil hs).2] at hv
        simp at hv
      · obtain ⟨id, hid⟩ := List.exists_mem_of_ne_nil _ hs
        exact absurd (hall id hid) ((List.pairwise_append.mp hr).2.2 id hid v hv).asymm

theorem newer_iff (h : Segment reached older newer k l) (hr : reached.Pairwise (· < ·)) :
    newer.drop l ≠ [] ↔ ∃ v ∈ reached, ∀ id ∈ shown older newer k l, id < v := by
  have heq := h.reached_eq
  constructor
  · intro hne
    obtain ⟨v, hv⟩ := List.exists_mem_of_ne_nil _ hne
    refine ⟨v, by rw [heq]; simp [hv], fun id hid => ?_⟩
    rw [heq] at hr
    exact (List.pairwise_append.mp hr).2.2 id (List.mem_append_right _ hid) v hv
  · intro hex hnil
    obtain ⟨v, hv, hall⟩ := hex
    rw [heq, hnil, List.append_nil] at hv hr
    obtain hv | hv := List.mem_append.mp hv
    · by_cases hs : shown older newer k l = []
      · rw [(h.eq_nil hs).1] at hv
        simp at hv
      · obtain ⟨id, hid⟩ := List.exists_mem_of_ne_nil _ hs
        exact absurd (hall id hid) ((List.pairwise_append.mp hr).2.2 v hv id hid).asymm
    · exact lt_irrefl v (hall v hv)

end Segment

/-- The rows before a cursor, newest first. -/
def rowsBefore (visible : Finset Int) (before : Option Int) : List Int :=
  ((ascending visible).filter fun id => before.all fun b => decide (id < b)).reverse

/-- The rows after a cursor, oldest first. -/
def rowsAfter (visible : Finset Int) (after : Option Int) : List Int :=
  (ascending visible).filter fun id => after.all fun a => decide (a < id)

theorem rowsBefore_behind {visible : Finset Int} {p : Int → Bool} {pre suf : List Int} {x : Int}
    (hp : ∀ a b, p a = true → b < a → p b = true)
    (h : ((ascending visible).filter p).reverse = pre ++ x :: suf) :
    rowsBefore visible (some x) = suf := by
  rw [← List.filter_reverse] at h
  rw [rowsBefore, ← List.filter_reverse]
  have hs : (ascending visible).reverse.Pairwise fun a b : Int => id b < id a :=
    List.pairwise_reverse.mpr (pairwise_ascending visible)
  exact filter_below hs hp h

theorem rowsAfter_behind {visible : Finset Int} {p : Int → Bool} {pre suf : List Int} {x : Int}
    (hp : ∀ a b, p a = true → a < b → p b = true)
    (h : (ascending visible).filter p = pre ++ x :: suf) : rowsAfter visible (some x) = suf := by
  have hs : (ascending visible).Pairwise fun a b : Int => OrderDual.toDual b < OrderDual.toDual a :=
    pairwise_ascending visible
  exact filter_below hs hp h

theorem rowsBefore_follows (visible : Finset Int) : Follows id (rowsBefore visible) := by
  intro c pre x suf h
  refine rowsBefore_behind (fun a b ha hab => ?_) h
  cases c with
  | none => rfl
  | some before => exact decide_eq_true (hab.trans (of_decide_eq_true ha))

theorem rowsAfter_follows (visible : Finset Int) : Follows id (rowsAfter visible) := by
  intro c pre x suf h
  refine rowsAfter_behind (fun a b ha hab => ?_) h
  cases c with
  | none => rfl
  | some after => exact decide_eq_true ((of_decide_eq_true ha).trans hab)

/-- The two sides of a window, each with its rows and its cursor. -/
def segmentWindow (hiddenTarget : Option Int) (older newer : List Int) (k l : Nat) : Window where
  messages := keepTarget hiddenTarget (Segment.shown older newer k l)
  olderCursor := (chunk id k older).next
  newerCursor := (chunk id l newer).next

theorem beforeWindow_eq (visible : Finset Int) {maximum : Int} (hm : 1 ≤ maximum)
    (before : Option Int) :
    beforeWindow visible maximum before =
      segmentWindow none (rowsBefore visible before) [] maximum.toNat 0 := by
  have hn : (maximum + 1).toNat = maximum.toNat + 1 := by omega
  have hlt : ∀ n : Nat, maximum < n ↔ maximum.toNat < n := by omega
  simp [beforeWindow, newest, ascending_filter, hn, segmentWindow, Segment.shown, keepTarget,
    chunk, rowsBefore, hlt, List.take_take]

theorem afterWindow_eq (visible : Finset Int) {maximum : Int} (hm : 1 ≤ maximum) (after : Int) :
    afterWindow visible maximum after =
      segmentWindow none [] (rowsAfter visible (some after)) 0 maximum.toNat := by
  have hn : (maximum + 1).toNat = maximum.toNat + 1 := by omega
  have hlt : ∀ n : Nat, maximum < n ↔ maximum.toNat < n := by omega
  simp [afterWindow, oldest, ascending_filter, hn, segmentWindow, Segment.shown, keepTarget,
    chunk, rowsAfter, hlt, List.take_take]

theorem aroundWindow_eq (visible : Finset Int) (hiddenTarget : Option Int) {maximum : Int}
    (hm : 1 ≤ maximum) (target : Int) :
    aroundWindow visible hiddenTarget maximum target =
      segmentWindow hiddenTarget (rowsBefore visible (some target))
        ((ascending visible).filter fun id => decide (target ≤ id))
        (maximum / 2).toNat ((maximum / 2).toNat + 1) := by
  have h1 : (maximum / 2 + 1).toNat = (maximum / 2).toNat + 1 := by omega
  have h2 : (maximum / 2 + 2).toNat = (maximum / 2).toNat + 2 := by omega
  have hlt : ∀ n : Nat, maximum / 2 < n ↔ (maximum / 2).toNat < n := by omega
  have hlt' : ∀ n : Nat, maximum / 2 + 1 < n ↔ (maximum / 2).toNat + 1 < n := by omega
  simp only [aroundWindow, hlt, hlt']
  simp [oldest, newest, ascending_filter, h1, h2, segmentWindow, Segment.shown, chunk, rowsBefore,
    List.take_take]

section keepTarget

variable {hiddenTarget : Option Int} {combined : List Int}

theorem keepTarget_perm :
    (keepTarget hiddenTarget combined).Perm (combined ++ hiddenTarget.toList) := by
  cases hiddenTarget with
  | none => simp [keepTarget]
  | some target => exact List.mergeSort_perm _ _

theorem mem_keepTarget {id : Int} : id ∈ keepTarget hiddenTarget combined ↔
    id ∈ combined ∨ hiddenTarget = some id := by
  rw [keepTarget_perm.mem_iff, List.mem_append, Option.mem_toList]

theorem keepTarget_sorted (hs : combined.Pairwise (· < ·))
    (hn : ∀ id, hiddenTarget = some id → id ∉ combined) :
    (keepTarget hiddenTarget combined).Pairwise (· < ·) := by
  cases hiddenTarget with
  | none => exact hs
  | some target =>
    have hle : (keepTarget (some target) combined).Pairwise (· ≤ ·) := by
      refine (List.pairwise_mergeSort ?_ ?_ _).imp fun h => by simpa using h
      · intro a b c hab hbc
        simp only [decide_eq_true_eq] at hab hbc ⊢
        exact hab.trans hbc
      · intro a b
        simpa using le_total a b
    have hnodup : (keepTarget (some target) combined).Nodup := by
      refine keepTarget_perm.nodup_iff.mpr (List.nodup_append.mpr ⟨?_, by simp, ?_⟩)
      · exact hs.imp ne_of_lt
      · intro a ha b hb
        obtain rfl : b = target := by simpa using hb
        intro heq
        exact hn b rfl (heq ▸ ha)
    exact (hle.and hnodup).imp fun h => lt_of_le_of_ne h.1 h.2

/-- The visible part of what is shown. -/
theorem keepTarget_filter {visible : Finset Int} (hs : combined.Pairwise (· < ·))
    (hv : ∀ id ∈ combined, id ∈ visible) (hn : ∀ id, hiddenTarget = some id → id ∉ visible) :
    (keepTarget hiddenTarget combined).filter (fun id => decide (id ∈ visible)) = combined := by
  have hperm : ((keepTarget hiddenTarget combined).filter fun id => decide (id ∈ visible)).Perm
      combined := by
    refine (keepTarget_perm.filter _).trans (.of_eq ?_)
    have hnone : (hiddenTarget.toList.filter fun id => decide (id ∈ visible)) = [] := by
      refine List.filter_eq_nil_iff.mpr fun id hid => ?_
      simpa using hn id (Option.mem_toList.mp hid)
    rw [List.filter_append, hnone, List.append_nil]
    exact List.filter_eq_self.mpr fun id hid => decide_eq_true (hv id hid)
  refine hperm.eq_of_pairwise (fun a b _ _ hab hba => absurd hab hba.asymm) ?_ hs
  exact (keepTarget_sorted hs fun id hid hmem => hn id hid (hv id hmem)).filter _

end keepTarget

/-- The window that a query asks for. -/
def windowOf (visible : Finset Int) (hiddenTarget : Int → Option Int) (q : ListMessagesQuery) :
    Window :=
  let maximum := validateLimit q.maximum MAX_MESSAGES_LIMIT
  match q.around, q.after with
  | some target, _ => aroundWindow visible (hiddenTarget target) maximum target
  | none, some after => afterWindow visible maximum after
  | none, none => beforeWindow visible maximum q.before

/-- A window of one row around an anchor that visible rows stand before: half of one is none. -/
def OneAround (visible : Finset Int) (q : ListMessagesQuery) : Prop :=
  ∃ target, q.around = some target ∧ validateLimit q.maximum MAX_MESSAGES_LIMIT = 1 ∧
    ∃ v ∈ visible, v < target

/-- A window as two sides cut from what its form reaches. -/
structure Cut (visible : Finset Int) (q : ListMessagesQuery) (hidden : Option Int)
    (older newer : List Int) (k l : Nat) : Prop where
  split : ascending (visible.filter fun id => q.reaches id = true) = older.reverse ++ newer
  back : (0 < k ∨ older = []) ↔ ¬OneAround visible q
  forward : 0 < l ∨ newer = []
  behind : ∀ pre x suf, older = pre ++ x :: suf → rowsBefore visible (some x) = suf
  beyond : ∀ pre x suf, newer = pre ++ x :: suf → rowsAfter visible (some x) = suf
  target : ∀ id, hidden = some id → q.around = some id

theorem ascending_split (visible : Finset Int) (target : Int) :
    ascending visible = ((ascending visible).filter fun id => decide (id < target)) ++
      (ascending visible).filter fun id => decide (target ≤ id) := by
  refine ascending_eq_of_pairwise (List.pairwise_append.mpr ⟨?_, ?_, ?_⟩) fun id => ?_
  · exact (pairwise_ascending visible).filter _
  · exact (pairwise_ascending visible).filter _
  · intro a ha b hb
    have ha := of_decide_eq_true (List.mem_filter.mp ha).2
    exact ha.trans_le (of_decide_eq_true (List.mem_filter.mp hb).2)
  · simp only [List.mem_append, List.mem_filter, mem_ascending, decide_eq_true_eq, ← and_or_left,
      lt_or_ge, and_true]

theorem not_oneAround_iff {visible : Finset Int} {q : ListMessagesQuery} {target : Int}
    (h : q.around = some target) :
    (0 < (validateLimit q.maximum MAX_MESSAGES_LIMIT / 2).toNat ∨
      rowsBefore visible (some target) = []) ↔ ¬OneAround visible q := by
  have hm : 1 ≤ validateLimit q.maximum MAX_MESSAGES_LIMIT := le_max_right _ _
  have hrows : rowsBefore visible (some target) = [] ↔ ¬∃ v ∈ visible, v < target := by
    simp [rowsBefore, List.filter_eq_nil_iff]
  have hone : OneAround visible q ↔ validateLimit q.maximum MAX_MESSAGES_LIMIT = 1 ∧
      ∃ v ∈ visible, v < target := by
    simp [OneAround, h]
  rw [hrows, hone, not_and_or]
  refine or_congr_left ?_
  omega

theorem windowOf_cut (visible : Finset Int) {hiddenTarget : Int → Option Int}
    (hh : ∀ target id, hiddenTarget target = some id → id = target) (q : ListMessagesQuery) :
    ∃ hidden older newer k l, windowOf visible hiddenTarget q =
      segmentWindow hidden older newer k l ∧ (hidden = none ∨ ∃ target, hidden =
        hiddenTarget target) ∧ Cut visible q hidden older newer k l := by
  have hm : 1 ≤ validateLimit q.maximum MAX_MESSAGES_LIMIT := le_max_right _ _
  unfold windowOf
  cases har : q.around with
  | some target =>
    simp only [aroundWindow_eq visible _ hm]
    refine ⟨_, _, _, _, _, rfl, .inr ⟨target, rfl⟩, ?_, ?_, ?_, ?_, ?_, ?_⟩
    · simp only [rowsBefore, List.reverse_reverse, ListMessagesQuery.reaches, har,
        Finset.filter_true]
      exact ascending_split visible target
    · exact not_oneAround_iff har
    · exact .inl (by omega)
    · intro pre x suf h
      exact rowsBefore_follows visible _ pre x suf h
    · intro pre x suf h
      refine rowsAfter_behind (fun a b ha hab => ?_) h
      exact decide_eq_true ((of_decide_eq_true ha).trans hab.le)
    · intro id hid
      rw [har, hh target id hid]
  | none =>
    have hlone : ¬OneAround visible q := by
      intro h
      obtain ⟨target, ht, -⟩ := h
      rw [har] at ht
      cases ht
    cases haf : q.after with
    | some after =>
      simp only [afterWindow_eq visible hm]
      refine ⟨_, _, _, _, _, rfl, .inl rfl, ?_, ?_, ?_, ?_, ?_, ?_⟩
      · simp [ascending_filter, rowsAfter, ListMessagesQuery.reaches, har, haf]
      · simp [hlone]
      · exact .inl (by omega)
      · intro pre x suf h
        simp at h
      · intro pre x suf h
        exact rowsAfter_follows visible _ pre x suf h
      · intro id hid
        cases hid
    | none =>
      simp only [beforeWindow_eq visible hm]
      refine ⟨_, _, _, _, _, rfl, .inl rfl, ?_, ?_, ?_, ?_, ?_, ?_⟩
      · simp [ascending_filter, rowsBefore, ListMessagesQuery.reaches, har, haf]
      · simp only [hlone, not_false_eq_true, iff_true]
        exact .inl (by omega)
      · exact .inr rfl
      · intro pre x suf h
        exact rowsBefore_follows visible _ pre x suf h
      · intro pre x suf h
        simp at h
      · intro id hid
        cases hid

namespace ListTables

variable {t : ListTables} {uid chatId : Int} {q : ListMessagesQuery}

theorem hiddenTarget_eq_some {threadId : Option Int} {filtering canView : Bool} {target id : Int}
    (h : t.hiddenTarget chatId threadId filtering canView target = some id) :
    id = target ∧ id ∉ t.visibleIds chatId threadId filtering := by
  unfold hiddenTarget at h
  split at h
  · next hf =>
    obtain ⟨m, hm, rfl⟩ := Option.map_eq_some_iff.mp h
    obtain ⟨hrow, hp⟩ := Option.filter_eq_some_iff.mp hm
    refine ⟨rfl, fun hmem => ?_⟩
    obtain ⟨m', hm', hv⟩ := Table.mem_select.mp hmem
    obtain rfl := Option.some.inj (hrow.symm.trans hm')
    simp_all
  · cases h

/-- Every answer of a history is the window of its query over the same visible rows. -/
theorem getMessages_window {response : ListMessagesResponse}
    (h : t.getMessages uid chatId q = .ok response) :
    ∃ hiddenTarget : Int → Option Int,
      (∀ target id, hiddenTarget target = some id →
        id = target ∧ id ∉ t.visibleTo uid chatId q.threadId) ∧
      ∀ q' : ListMessagesQuery, q'.threadId = q.threadId →
        ∃ r, t.getMessages uid chatId q' = .ok r ∧
          (⟨r.messages, r.olderCursor, r.newerCursor⟩ : Window) =
            windowOf (t.visibleTo uid chatId q.threadId) hiddenTarget q' := by
  unfold getMessages at h
  split at h
  · cases h
  · next hmember =>
    split at h
    · cases h
    · next showMembershipMessages kind policy hload =>
      have hvis : t.visibleTo uid chatId q.threadId =
          t.visibleIds chatId q.threadId
            (filters policy showMembershipMessages kind q.threadId) := by
        simp only [visibleTo, hload]
      refine ⟨t.hiddenTarget chatId q.threadId
        (filters policy showMembershipMessages kind q.threadId) policy.canView, ?_, ?_⟩
      · intro target id hid
        rw [hvis]
        exact hiddenTarget_eq_some hid
      · intro q' hq
        rw [hvis]
        simp only [getMessages, hmember, hload, windowOf, hq]
        cases q'.around with
        | some target => exact ⟨_, rfl, rfl⟩
        | none => cases q'.after <;> exact ⟨_, rfl, rfl⟩

/-- The pages that follow a cursor are cut from what stands beyond it. -/
theorem olderPage_eq {response : ListMessagesResponse}
    (h : t.getMessages uid chatId q = .ok response) (before : Int) :
    t.olderPage uid chatId q (some before) =
      chunk id (validateLimit q.maximum MAX_MESSAGES_LIMIT).toNat
        (rowsBefore (t.visibleTo uid chatId q.threadId) (some before)) := by
  obtain ⟨hiddenTarget, -, hwindow⟩ := getMessages_window h
  obtain ⟨r, hr, hw⟩ := hwindow
    { q with before := some before, around := none, after := none } rfl
  have hm : 1 ≤ validateLimit q.maximum MAX_MESSAGES_LIMIT := le_max_right _ _
  simp only [windowOf, beforeWindow_eq _ hm, segmentWindow, Window.mk.injEq] at hw
  simp only [olderPage, hr, hw]
  simp [keepTarget, Segment.shown, chunk]

theorem newerPage_eq {response : ListMessagesResponse}
    (h : t.getMessages uid chatId q = .ok response) (after : Int) :
    t.newerPage uid chatId q (some after) =
      chunk id (validateLimit q.maximum MAX_MESSAGES_LIMIT).toNat
        (rowsAfter (t.visibleTo uid chatId q.threadId) (some after)) := by
  obtain ⟨hiddenTarget, -, hwindow⟩ := getMessages_window h
  obtain ⟨r, hr, hw⟩ := hwindow
    { q with before := none, around := none, after := some after } rfl
  have hm : 1 ≤ validateLimit q.maximum MAX_MESSAGES_LIMIT := le_max_right _ _
  simp only [windowOf, afterWindow_eq _ hm, segmentWindow, Window.mk.injEq] at hw
  simp only [newerPage, hr, hw]
  simp [keepTarget, Segment.shown, chunk]

/-- A window whose two sides are cut at a row has exact edges. -/
theorem exactWindow {response : ListMessagesResponse}
    (h : t.getMessages uid chatId q = .ok response)
    (hone : ¬OneAround (t.visibleTo uid chatId q.threadId) q) :
    ExactWindow t uid chatId q response := by
  obtain ⟨hiddenTarget, hhidden, hwindow⟩ := getMessages_window h
  obtain ⟨r, hr, hw⟩ := hwindow q rfl
  obtain rfl := Except.ok.inj (h.symm.trans hr)
  obtain ⟨hidden, older, newer, k, l, hseg, hfrom, hcut⟩ := windowOf_cut
    (t.visibleTo uid chatId q.threadId) (fun target id hid => (hhidden target id hid).1) q
  rw [hseg, segmentWindow, Window.mk.injEq] at hw
  obtain ⟨hmessages, holder, hnewer⟩ := hw
  have hback := hcut.back.mpr hone
  have hs : Segment _ older newer k l := ⟨hcut.split, hback, hcut.forward⟩
  have hreached := pairwise_ascending
    ((t.visibleTo uid chatId q.threadId).filter fun id => q.reaches id = true)
  have hshown := hreached.sublist hs.shown_sublist
  have hvisible : ∀ id ∈ Segment.shown older newer k l,
      id ∈ t.visibleTo uid chatId q.threadId := by
    intro id hid
    have hmem := hs.shown_sublist.subset hid
    exact (Finset.mem_filter.mp (mem_ascending.mp hmem)).1
  have hnot : ∀ id, hidden = some id → id ∉ t.visibleTo uid chatId q.threadId := by
    intro id hid
    obtain rfl | ⟨target, rfl⟩ := hfrom
    · cases hid
    · exact (hhidden target id hid).2
  have hiff : ∀ p : Int → Prop,
      (∀ id ∈ response.messages, id ∈ t.visibleTo uid chatId q.threadId → p id) ↔
        ∀ id ∈ Segment.shown older newer k l, p id := by
    intro p
    rw [hmessages]
    constructor
    · intro hp id hid
      exact hp id (mem_keepTarget.mpr (.inl hid)) (hvisible id hid)
    · intro hp id hid hv
      obtain hid | hid := mem_keepTarget.mp hid
      · exact hp id hid
      · exact absurd hv (hnot id hid)
  refine ⟨?_, ?_, fun _ => ?_, fun _ => ?_, ?_⟩
  · rw [hmessages]
    exact keepTarget_sorted hshown fun id hid hmem => hnot id hid (hvisible id hmem)
  · intro id hid
    rw [hmessages] at hid
    exact (mem_keepTarget.mp hid).imp (hvisible id) (hcut.target id)
  · rw [holder, chunk_next_isSome hback, hs.older_iff hreached]
    simp [hiff, and_assoc]
  · rw [hnewer, chunk_next_isSome hcut.forward, hs.newer_iff hreached]
    simp [hiff, and_assoc]
  · have hnodup := (List.nodup_append.mp (hcut.split ▸ nodup_ascending _ : (older.reverse ++
      newer).Nodup))
    obtain ⟨olderPages, hold, holdrows⟩ := continues_of_follows
      (validateLimit_pos q.maximum MAX_MESSAGES_LIMIT) (olderPage_eq h) (rowsBefore_follows _)
      hback (List.nodup_reverse.mp hnodup.1) hcut.behind
    obtain ⟨newerPages, hnew, hnewrows⟩ := continues_of_follows
      (validateLimit_pos q.maximum MAX_MESSAGES_LIMIT) (newerPage_eq h) (rowsAfter_follows _)
      hcut.forward hnodup.2.1 hcut.beyond
    refine ⟨olderPages, newerPages, holder ▸ hold, hnewer ▸ hnew, ?_⟩
    rw [holdrows, hnewrows, hmessages, keepTarget_filter hshown hvisible hnot]
    exact hs.reached_eq.symm

/-- Half of a window of one row is none: it never has a cursor towards the rows before it. -/
theorem not_exactWindow {response : ListMessagesResponse}
    (h : t.getMessages uid chatId q = .ok response)
    (hone : OneAround (t.visibleTo uid chatId q.threadId) q) :
    ¬ExactWindow t uid chatId q response := by
  obtain ⟨hiddenTarget, hhidden, hwindow⟩ := getMessages_window h
  obtain ⟨r, hr, hw⟩ := hwindow q rfl
  obtain rfl := Except.ok.inj (h.symm.trans hr)
  obtain ⟨target, har, hmax, v, hv, hlt⟩ := hone
  simp only [windowOf, har, hmax, aroundWindow_eq _ _ le_rfl, segmentWindow,
    Window.mk.injEq] at hw
  obtain ⟨hmessages, holder, -⟩ := hw
  intro hexact
  have hnone : response.olderCursor = none := by
    rw [holder]
    simp [chunk]
  have hsome : response.olderCursor.isSome = true := by
    refine (hexact.older (.inl (by rw [har]; rfl))).mpr ⟨v, hv, ?_, fun id hid hvis => ?_⟩
    · simp [ListMessagesQuery.reaches, har]
    · rw [hmessages] at hid
      obtain hid | hid := mem_keepTarget.mp hid
      · have hge : target ≤ id := by
          have hmem : id ∈ (ascending (t.visibleTo uid chatId q.threadId)).filter
              fun id => decide (target ≤ id) := by
            simp only [Segment.shown] at hid
            exact List.mem_of_mem_take (by simpa using hid)
          exact of_decide_eq_true (List.mem_filter.mp hmem).2
        exact hlt.trans_le hge
      · exact absurd hvis (hhidden target id hid).2
  rw [hnone] at hsome
  cases hsome

/-- Windows have exact edges, except around a message with room for one row: no older row is then
shown or reachable, whether there is one or not. -/
theorem exact_window_iff {response : ListMessagesResponse}
    (h : t.getMessages uid chatId q = .ok response) :
    ExactWindow t uid chatId q response ↔ ¬OneAround (t.visibleTo uid chatId q.threadId) q :=
  ⟨fun hexact hone => not_exactWindow h hone hexact, exactWindow h⟩

def chatMessage (createdAt : Int) : Message where
  message := some "hello"
  messageType := .text
  replyToId := none
  replyRootId := none
  senderUid := 7
  chatId := 1
  createdAt := createdAt
  deletedAt := none
  hasThread := false
  isPublished := true
  transcodeStatus := .none
  systemKind := none

/-- A group chat of one member with two messages. -/
def twoMessages : ListTables where
  messages := .ofList [(10, chatMessage 100), (20, chatMessage 200)]
  groups := .ofList [(1, ⟨.group, .members, some 20, some 200⟩)]
  groupMembership := .ofList [((1, 7), ⟨.member, none, false⟩)]
  showMembershipMessages := .empty

/-- The link to the second message, with room for one. -/
def aroundSecond : ListMessagesQuery := ⟨none, some 20, none, some 1, none⟩

def aroundSecondResponse : ListMessagesResponse where
  membershipMessagePolicy := ⟨.members, true⟩
  showMembershipMessages := true
  messages := [20]
  nextCursor := none
  prevCursor := none
  olderCursor := none
  newerCursor := none

theorem aroundSecond_ok : twoMessages.getMessages 7 1 aroundSecond = .ok aroundSecondResponse := by
  decide +kernel

theorem exact_window_iff_around_second : ExactWindow twoMessages 7 1 aroundSecond
    aroundSecondResponse ↔ ¬OneAround (twoMessages.visibleTo 7 1 none) aroundSecond :=
  exact_window_iff aroundSecond_ok

/-- The first message is visible, but the window of the second has no cursor to it. -/
theorem older_row_lost : ¬ ∀ (t : ListTables) (uid chatId : Int) (q : ListMessagesQuery)
    (response : ListMessagesResponse), t.getMessages uid chatId q = .ok response →
      ExactWindow t uid chatId q response := by
  intro h
  refine not_exactWindow aroundSecond_ok ⟨20, rfl, rfl, 10, ?_, by decide⟩
    (h twoMessages 7 1 aroundSecond aroundSecondResponse aroundSecond_ok)
  decide +kernel

end ListTables

end Chahua.Lists
