import Chahua.ReadStates.UnreadTotals
import Mathlib.Tactic

namespace Chahua.ReadStates

open Framework

/-- Addition of `i64`, which wraps. -/
def addI64 (a b : Int) : Int := Int.bmod (a + b) (2 ^ 64)

/-- `i64::saturating_add`. -/
def saturatingAddI64 (a b : Int) : Int := max (-(2 ^ 63)) (min (a + b) (2 ^ 63 - 1))

structure ConversationView where
  key : String
  selector : ConversationSelector
  deriving DecidableEq, Repr

structure ConversationUnreadSummary where
  key : String
  unreadMessageCount : Int
  unreadUnmutedMessageCount : Int
  unreadConversationCount : Int
  unreadUnmutedConversationCount : Int
  unreadAttentionCount : Int
  unreadUnmutedAttentionCount : Int
  deriving DecidableEq, Repr

/-- `validate_conversation_views`, with the keys and the references seen so far. -/
def validateViews : List ConversationView → List String → Nat → Except AppError Unit
  | [], _, _ => .ok ()
  | view :: views, keys, refs =>
      if view.key = "" ∨ 128 < view.key.utf8ByteSize ∨ view.key ∈ keys then
        .error (.badRequest "View keys must be unique and contain 1 to 128 bytes")
      else
        let refs := refs + (view.selector.inclusions.length + view.selector.exclusions.length)
        if 2048 < refs ∨ 4 < view.selector.categories.length then
          .error (.badRequest "Too many conversation selectors")
        else if (view.selector.inclusions ++ view.selector.exclusions).any fun scope =>
            decide (scope.chatId ≤ 0) || scope.threadId.any fun id => decide (id ≤ 0) then
          .error (.badRequest "Conversation IDs must be positive")
        else validateViews views (view.key :: keys) refs

def validateConversationViews (views : List ConversationView) : Except AppError Unit :=
  if 32 < views.length then .error (.badRequest "At most 32 conversation views are allowed")
  else validateViews views [] 0

def scopeCount (main threads : Table Int Nat) (scope : Scope) : Nat :=
  ((scope.threadId.elim (main.row scope.chatId) threads.row)).getD 0

def scopeAttention (attention : Table (Bool × Int) Nat) (scope : Scope) : Nat :=
  (attention.row (scope.threadId.isSome, scope.threadId.getD scope.chatId)).getD 0

/-- One scope of the loop of `aggregate`. -/
def ConversationUnreadSummary.add (summary : ConversationUnreadSummary) (muted : Bool)
    (count attentionCount : Nat) : ConversationUnreadSummary :=
  let capped (total : Int) (count : Nat) := min (addI64 total count) MAX_UNREAD_COUNT
  let counted := if 0 < count then 1 else 0
  let summary := { summary with
    unreadMessageCount := capped summary.unreadMessageCount count
    unreadConversationCount := summary.unreadConversationCount + counted
    unreadAttentionCount := capped summary.unreadAttentionCount attentionCount }
  if muted then summary
  else
    { summary with
      unreadUnmutedMessageCount := capped summary.unreadUnmutedMessageCount count
      unreadUnmutedConversationCount := summary.unreadUnmutedConversationCount + counted
      unreadUnmutedAttentionCount := capped summary.unreadUnmutedAttentionCount attentionCount }

def aggregate (views : List ConversationView) (scopes : List Scope) (main threads : Table Int Nat)
    (attention : Table (Bool × Int) Nat) : List ConversationUnreadSummary :=
  views.map fun view => (scopes.filter view.selector.contains).foldl
    (fun summary scope => summary.add scope.muted (scopeCount main threads scope)
      (scopeAttention attention scope)) ⟨view.key, 0, 0, 0, 0, 0, 0⟩

namespace Database

variable (db : Database)

/-- The replies that the query counts for one thread. -/
def threadCount (scope : Scope) : Nat :=
  min (db.repliesAfter (scope.threadId.getD 0) scope.lastReadMessageId).card MAX_UNREAD_COUNT

def threadCounts (scopes : List Scope) : Table Int Nat :=
  (scopes.filter (·.threadId.isSome)).foldl
    (fun counts scope => counts.upsert (scope.threadId.getD 0) (db.threadCount scope)) .empty

/-- The mentions and replies that the query counts for one scope. -/
def attentionCount (uid : Int) (scope : Scope) : Nat :=
  db.countChatUnreadMentions uid scope.chatId scope.lastReadMessageId scope.threadId

/-- Main chats and threads are counted one after the other; DMs are not. -/
def attentionCounts (uid : Int) (views : List ConversationView) (scopes : List Scope) :
    Table (Bool × Int) Nat :=
  [false, true].foldl (fun attention isThread =>
    (scopes.filter fun scope => !scope.isDm && decide (scope.threadId.isSome = isThread) &&
      views.any fun view => view.selector.contains scope).foldl
        (fun attention scope => attention.upsert (isThread, scope.threadId.getD scope.chatId)
          (db.attentionCount uid scope)) attention) .empty

def scopes (now uid : Int) : List Scope := db.chatScopes now uid ++ db.threadScopes uid

def conversationSummariesAndBadge (now uid : Int) (views : List ConversationView)
    (appBadge : Bool) : List ConversationUnreadSummary × Option Int :=
  if views = [] ∧ appBadge = false then ([], none)
  else
    let scopes := (db.scopes now uid).filter fun scope =>
      appBadge && scope.threadId.isNone || views.any fun view => view.selector.contains scope
    let showMembershipMessages := db.loadChatSettings uid
    let memberships := (scopes.filter (·.threadId.isNone)).map (·.membership showMembershipMessages)
    let mainCounts := db.countMembershipUnreads memberships
    let badge := if appBadge then
        some ((scopes.filter fun scope => scope.threadId.isNone && !scope.archived &&
          !scope.muted).foldl (fun total scope =>
            min (saturatingAddI64 total ((mainCounts.row scope.chatId).getD 0)) MAX_UNREAD_COUNT) 0)
      else none
    (aggregate views scopes mainCounts (db.threadCounts scopes)
      (db.attentionCounts uid views scopes), badge)

end Database

/-- The scope is in the collection of a view. -/
def InCollection (view : ConversationView) (scope : Scope) : Prop :=
  scope.archived = view.selector.archived ∧
    ⟨scope.chatId, scope.threadId⟩ ∉ view.selector.exclusions ∧
      (scope.category ∈ view.selector.categories ∨
        ⟨scope.chatId, scope.threadId⟩ ∈ view.selector.inclusions)

instance (view : ConversationView) (scope : Scope) : Decidable (InCollection view scope) :=
  inferInstanceAs (Decidable (_ ∧ _))

def cappedSum (count : Scope → Nat) (scopes : List Scope) : Int :=
  (min MAX_UNREAD_COUNT (scopes.map count).sum : Nat)

def unreadScopes (count : Scope → Nat) (scopes : List Scope) : Int :=
  (scopes.countP fun scope => decide (0 < count scope) : Nat)

/-- The counters of some scopes: capped sums and numbers of scopes. -/
def countersOf (key : String) (count attention : Scope → Nat) (scopes : List Scope) :
    ConversationUnreadSummary where
  key := key
  unreadMessageCount := cappedSum count scopes
  unreadUnmutedMessageCount := cappedSum count (scopes.filter (!·.muted))
  unreadConversationCount := unreadScopes count scopes
  unreadUnmutedConversationCount := unreadScopes count (scopes.filter (!·.muted))
  unreadAttentionCount := cappedSum attention scopes
  unreadUnmutedAttentionCount := cappedSum attention (scopes.filter (!·.muted))

/-- The counters of the collection of a view. -/
def summaryOf (scopes : List Scope) (count attention : Scope → Nat) (view : ConversationView) :
    ConversationUnreadSummary :=
  countersOf view.key count attention (scopes.filter fun scope => decide (InCollection view scope))

/-- No capped total overflows with one more count. -/
def Addable (count : Nat) : Prop := count ≤ 2 ^ 63 - 1 - MAX_UNREAD_COUNT

instance (count : Nat) : Decidable (Addable count) := inferInstanceAs (Decidable (_ ≤ _))

section aggregate

theorem contains_eq (view : ConversationView) (scope : Scope) :
    view.selector.contains scope = decide (InCollection view scope) := by
  unfold ConversationSelector.contains InCollection
  by_cases harchived : scope.archived = view.selector.archived
  · by_cases hexcluded : ⟨scope.chatId, scope.threadId⟩ ∈ view.selector.exclusions
    · simp [hexcluded]
    · simp [harchived, hexcluded, Bool.decide_or]
  · simp [harchived]

/-- Capping at each addition caps the sum. -/
theorem capped_addI64 {count : Nat} (h : Addable count) (total : Nat) :
    min (addI64 (min MAX_UNREAD_COUNT total : Nat) count) MAX_UNREAD_COUNT =
      (min MAX_UNREAD_COUNT (total + count) : Nat) := by
  unfold Addable at h
  unfold addI64
  unfold MAX_UNREAD_COUNT at *
  rw [Int.bmod_eq_of_le (by omega) (by omega)]
  omega

theorem cappedSum_append (count : Scope → Nat) (scopes : List Scope) (scope : Scope)
    (h : Addable (count scope)) :
    min (addI64 (cappedSum count scopes) (count scope)) MAX_UNREAD_COUNT =
      cappedSum count (scopes ++ [scope]) := by
  unfold cappedSum
  rw [capped_addI64 h, List.map_append, List.sum_append]
  simp

theorem unreadScopes_append (count : Scope → Nat) (scopes : List Scope) (scope : Scope) :
    unreadScopes count (scopes ++ [scope]) =
      unreadScopes count scopes + if 0 < count scope then 1 else 0 := by
  unfold unreadScopes
  rw [List.countP_append, List.countP_singleton]
  by_cases hpos : 0 < count scope
  · simp [hpos]
  · simp [hpos]

/-- One more scope. -/
theorem countersOf_append (key : String) {count attention : Scope → Nat} (scopes : List Scope)
    (scope : Scope) (hcount : Addable (count scope)) (hattention : Addable (attention scope)) :
    (countersOf key count attention scopes).add scope.muted (count scope) (attention scope) =
      countersOf key count attention (scopes ++ [scope]) := by
  have hmessages := cappedSum_append count scopes scope hcount
  have hunmuted := cappedSum_append count (scopes.filter (!·.muted)) scope hcount
  have hattended := cappedSum_append attention scopes scope hattention
  have hattendedUnmuted := cappedSum_append attention (scopes.filter (!·.muted)) scope hattention
  have hscopes := unreadScopes_append count scopes scope
  have hscopesUnmuted := unreadScopes_append count (scopes.filter (!·.muted)) scope
  unfold ConversationUnreadSummary.add countersOf
  dsimp only
  rw [hmessages, hattended, hscopes, List.filter_append]
  cases hmuted : scope.muted with
  | true => simp [hmuted]
  | false => simp [hmuted, hunmuted, hattendedUnmuted, hscopesUnmuted]

theorem foldl_countersOf (key : String) {count attention : Scope → Nat} {scopes : List Scope}
    (h : ∀ scope ∈ scopes, Addable (count scope) ∧ Addable (attention scope)) :
    scopes.foldl (fun summary scope => summary.add scope.muted (count scope) (attention scope))
      ⟨key, 0, 0, 0, 0, 0, 0⟩ = countersOf key count attention scopes := by
  induction scopes using List.reverseRecOn with
  | nil => rfl
  | append_singleton scopes scope ih =>
    have hscope := h scope (by simp)
    rw [List.foldl_append, ih fun s hs => h s (List.mem_append_left _ hs)]
    exact countersOf_append key scopes scope hscope.1 hscope.2

theorem aggregate_eq {views : List ConversationView} {scopes : List Scope}
    {main threads : Table Int Nat} {attention : Table (Bool × Int) Nat}
    (h : ∀ view ∈ views, ∀ scope ∈ scopes, InCollection view scope →
      Addable (scopeCount main threads scope) ∧ Addable (scopeAttention attention scope)) :
    aggregate views scopes main threads attention =
      views.map (summaryOf scopes (scopeCount main threads) (scopeAttention attention)) := by
  unfold aggregate summaryOf
  refine List.map_congr_left fun view hview => ?_
  have hcontains : view.selector.contains = fun scope => decide (InCollection view scope) :=
    funext (contains_eq view)
  rw [hcontains]
  refine foldl_countersOf view.key fun scope hscope => ?_
  obtain ⟨hmem, hin⟩ := List.mem_filter.mp hscope
  exact h view hview scope hmem (of_decide_eq_true hin)

theorem countersOf_perm {key : String} {count attention : Scope → Nat} {a b : List Scope}
    (h : a.Perm b) : countersOf key count attention a = countersOf key count attention b := by
  have hunmuted := h.filter (!·.muted)
  unfold countersOf cappedSum unreadScopes
  rw [(h.map count).sum_eq, (h.map attention).sum_eq, h.countP_eq, (hunmuted.map count).sum_eq,
    (hunmuted.map attention).sum_eq, hunmuted.countP_eq]

/-- The views have the same keys, and selectors with the same entries, in any order and any number
of times. -/
def SameEntries (a b : ConversationView) : Prop :=
  a.key = b.key ∧ a.selector.archived = b.selector.archived ∧
    (∀ category, category ∈ a.selector.categories ↔ category ∈ b.selector.categories) ∧
      (∀ reference, reference ∈ a.selector.inclusions ↔ reference ∈ b.selector.inclusions) ∧
        ∀ reference, reference ∈ a.selector.exclusions ↔ reference ∈ b.selector.exclusions

theorem aggregate_sameEntries {a b : List ConversationView} (h : List.Forall₂ SameEntries a b)
    (scopes : List Scope) (main threads : Table Int Nat) (attention : Table (Bool × Int) Nat) :
    aggregate a scopes main threads attention = aggregate b scopes main threads attention := by
  unfold aggregate
  induction h with
  | nil => rfl
  | cons hview _ ih =>
    obtain ⟨hkey, harchived, hcategories, hinclusions, hexclusions⟩ := hview
    rw [List.map_cons, List.map_cons, ih, hkey]
    congr 3
    funext scope
    unfold ConversationSelector.contains
    simp only [harchived, hcategories, hinclusions, hexclusions]

end aggregate

section database

variable {db : Database} {now uid : Int}

theorem foldl_upsert_row_ne {α : Type*} {K V : Type*} [DecidableEq K] {key : α → K}
    {value : α → V} {xs : List α} {t : Table K V} {k : K} (h : ∀ x ∈ xs, key x ≠ k) :
    (xs.foldl (fun t x => t.upsert (key x) (value x)) t).row k = t.row k := by
  induction xs generalizing t with
  | nil => rfl
  | cons x xs ih =>
    rw [List.foldl_cons, ih fun y hy => h y (List.mem_cons_of_mem _ hy),
      Table.upsert_row_ne _ _ (Ne.symm (h x List.mem_cons_self))]

/-- A main chat has one scope, and a thread has one, as its root is a message of one chat. -/
theorem scopes_unique {scope other : Scope} (hscope : scope ∈ db.scopes now uid)
    (hother : other ∈ db.scopes now uid)
    (h : other.threadId.isSome = scope.threadId.isSome ∧
      other.threadId.getD other.chatId = scope.threadId.getD scope.chatId) : other = scope := by
  have hsplit : ∀ s ∈ db.scopes now uid,
      (∃ row ∈ db.userChats uid, s = db.chatScope now uid row) ∨
      ∃ row ∈ db.userChats uid, ∃ root state, (∃ message, db.messages.row root = some message ∧
          message.chatId = row.1) ∧
        db.threadUserStates.row (row.1, root, uid) = some state ∧
        s = { membershipAllowed := true
              chatId := row.1
              threadId := some root
              isDm := decide (row.2.2.kind = .dm)
              archived := state.archived
              muted := state.archived
              lastReadMessageId := state.lastReadMessageId } := by
    intro s hs
    obtain hs | hs := List.mem_append.mp hs
    · obtain ⟨row, hrow, rfl⟩ := List.mem_map.mp hs
      exact .inl ⟨row, hrow, rfl⟩
    · obtain ⟨row, hrow, hs⟩ := List.mem_flatMap.mp hs
      obtain ⟨root, hroot, hs⟩ := List.mem_filterMap.mp hs
      obtain ⟨state, hstate, rfl⟩ := Option.map_eq_some_iff.mp hs
      obtain ⟨key, hkey, rfl⟩ := Finset.mem_image.mp (mem_ascending.mp hroot)
      obtain ⟨_, -, hselected⟩ := Table.mem_select.mp hkey
      simp only [Bool.and_eq_true, decide_eq_true_eq, Option.any_eq_true] at hselected
      obtain ⟨-, message, hmessage, ⟨⟨hchat, -⟩, -⟩, -⟩ := hselected
      exact .inr ⟨row, hrow, _, state, ⟨message, hmessage, hchat⟩, hstate, rfl⟩
  obtain ⟨hkind, hid⟩ := h
  obtain ⟨row, hrow, rfl⟩ | ⟨row, hrow, root, state, ⟨message, hmessage, hchat⟩, hstate, rfl⟩ :=
    hsplit scope hscope
  · obtain ⟨row', hrow', rfl⟩ | ⟨row', -, root', state', -, -, rfl⟩ := hsplit other hother
    · have hsame : row'.1 = row.1 := hid
      rw [Database.userChats_unique hrow hrow' hsame]
    · cases hkind
  · obtain ⟨row', -, rfl⟩ | ⟨row', hrow', root', state', ⟨message', hmessage', hchat'⟩, hstate',
      rfl⟩ := hsplit other hother
    · cases hkind
    · obtain rfl : root' = root := hid
      obtain rfl := Option.some.inj (hmessage.symm.trans hmessage')
      have hsame : row'.1 = row.1 := hchat'.symm.trans hchat
      obtain rfl := Database.userChats_unique hrow hrow' hsame
      obtain rfl := Option.some.inj (hstate.symm.trans hstate')
      rfl

/-- What the queries count for a scope. -/
def Database.unreadOf (db : Database) (uid : Int) (scope : Scope) : Nat :=
  if scope.threadId.isSome then db.threadCount scope
  else
    let membership := scope.membership (db.loadChatSettings uid)
    db.countCursor membership.hideMembershipMessages scope.chatId
      (unreadCursor scope.lastReadMessageId)

def Database.attentionOf (db : Database) (uid : Int) (scope : Scope) : Nat :=
  if scope.isDm then 0 else db.attentionCount uid scope

theorem addable_of_le {count : Nat} (h : count ≤ MAX_UNREAD_COUNT) : Addable count := by
  unfold Addable
  unfold MAX_UNREAD_COUNT at *
  omega

theorem unreadOf_addable (db : Database) (uid : Int) (scope : Scope) :
    Addable (db.unreadOf uid scope) := by
  refine addable_of_le ?_
  unfold Database.unreadOf
  split
  · exact min_le_right _ _
  · exact min_le_right _ _

theorem attentionOf_addable (db : Database) (uid : Int) (scope : Scope) :
    Addable (db.attentionOf uid scope) := by
  refine addable_of_le ?_
  unfold Database.attentionOf
  split
  · exact Nat.zero_le _
  · exact min_le_right _ _

/-- Each selected scope finds its own count. -/
theorem scopeCount_eq {scopes : List Scope} (hsub : ∀ scope ∈ scopes, scope ∈ db.scopes now uid)
    {scope : Scope} (hscope : scope ∈ scopes) :
    scopeCount (db.countMembershipUnreads ((scopes.filter (·.threadId.isNone)).map
      (·.membership (db.loadChatSettings uid)))) (db.threadCounts scopes) scope =
        db.unreadOf uid scope := by
  unfold scopeCount Database.unreadOf
  cases hthread : scope.threadId with
  | none =>
    have hmain : scope ∈ scopes.filter (·.threadId.isNone) :=
      List.mem_filter.mpr ⟨hscope, by rw [hthread]; rfl⟩
    have hmembership := List.mem_map_of_mem (f := (·.membership (db.loadChatSettings uid))) hmain
    refine congrArg (Option.getD · 0) (Database.countMembershipUnreads_row hmembership ?_)
    intro membership hmembership hchat
    obtain ⟨other, hother, rfl⟩ := List.mem_map.mp hmembership
    obtain ⟨hother, hnone⟩ := List.mem_filter.mp hother
    have hnone' : other.threadId = none := Option.isNone_iff_eq_none.mp hnone
    rw [scopes_unique (hsub scope hscope) (hsub other hother)
      ⟨by rw [hthread, hnone'], by rw [hthread, hnone']; exact hchat⟩]
  | some thread =>
    have hrow : (db.threadCounts scopes).row thread = some (db.threadCount scope) := by
      refine Table.foldl_upsert_row (fun other hother hid => ?_) (.inr ⟨scope, ?_, ?_⟩)
      · obtain ⟨hother, hsome⟩ := List.mem_filter.mp hother
        obtain ⟨thread', hthread'⟩ := Option.isSome_iff_exists.mp hsome
        rw [hthread'] at hid
        obtain rfl : thread' = thread := hid
        rw [scopes_unique (hsub scope hscope) (hsub other hother)
          ⟨by rw [hthread, hthread'], by rw [hthread, hthread']; rfl⟩]
      · exact List.mem_filter.mpr ⟨hscope, by rw [hthread]; rfl⟩
      · rw [hthread]
        rfl
    exact congrArg (Option.getD · 0) hrow

/-- The scopes whose attention is counted in one of the two rounds. -/
def addressed (views : List ConversationView) (scopes : List Scope) (isThread : Bool) :
    List Scope :=
  scopes.filter fun scope => !scope.isDm && decide (scope.threadId.isSome = isThread) &&
    views.any fun view => view.selector.contains scope

theorem attentionCounts_row {views : List ConversationView} {scopes : List Scope}
    (hsub : ∀ scope ∈ scopes, scope ∈ db.scopes now uid) {scope : Scope} (hscope : scope ∈ scopes)
    {view : ConversationView} (hview : view ∈ views)
    (hcontains : view.selector.contains scope = true) :
    scopeAttention (db.attentionCounts uid views scopes) scope = db.attentionOf uid scope := by
  have hsame : ∀ isThread, ∀ other ∈ addressed views scopes isThread,
      (isThread, other.threadId.getD other.chatId) =
        (scope.threadId.isSome, scope.threadId.getD scope.chatId) → other = scope := by
    intro isThread other hother hkey
    obtain ⟨hmem, hround⟩ := List.mem_filter.mp hother
    simp only [Bool.and_eq_true, decide_eq_true_eq] at hround
    obtain ⟨hkind, hid⟩ := Prod.mk.inj hkey
    exact scopes_unique (hsub scope hscope) (hsub other hmem) ⟨hround.1.2.trans hkind, hid⟩
  have hrounds : db.attentionCounts uid views scopes =
      (addressed views scopes true).foldl (fun attention scope =>
          attention.upsert (true, scope.threadId.getD scope.chatId) (db.attentionCount uid scope))
        ((addressed views scopes false).foldl (fun attention scope =>
          attention.upsert (false, scope.threadId.getD scope.chatId)
            (db.attentionCount uid scope)) .empty) := rfl
  unfold scopeAttention Database.attentionOf
  rw [hrounds]
  by_cases hdm : scope.isDm = true
  · have hne : ∀ isThread, ∀ other ∈ addressed views scopes isThread,
        (isThread, other.threadId.getD other.chatId) ≠
          (scope.threadId.isSome, scope.threadId.getD scope.chatId) := by
      intro isThread other hother hkey
      have hround := (List.mem_filter.mp hother).2
      rw [hsame isThread other hother hkey, hdm] at hround
      cases hround
    rw [if_pos hdm, foldl_upsert_row_ne (hne true), foldl_upsert_row_ne (hne false)]
    rfl
  · have hmem : scope ∈ addressed views scopes scope.threadId.isSome := by
      refine List.mem_filter.mpr ⟨hscope, ?_⟩
      simp only [hdm, decide_true, Bool.and_true, Bool.not_false, Bool.true_and, List.any_eq_true]
      exact ⟨view, hview, hcontains⟩
    have hround : ∀ isThread (attention : Table (Bool × Int) Nat),
        scope.threadId.isSome = isThread → scope ∈ addressed views scopes isThread →
        ((addressed views scopes isThread).foldl (fun attention scope =>
          attention.upsert (isThread, scope.threadId.getD scope.chatId)
            (db.attentionCount uid scope)) attention).row
              (scope.threadId.isSome, scope.threadId.getD scope.chatId) =
          some (db.attentionCount uid scope) := by
      intro isThread attention hkind hmem
      exact Table.foldl_upsert_row
        (fun other hother hkey => by rw [hsame isThread other hother hkey])
        (.inr ⟨scope, hmem, by rw [hkind]⟩)
    rw [if_neg hdm]
    cases hkind : scope.threadId.isSome with
    | true =>
      rw [← hkind, hround _ _ rfl hmem]
      rfl
    | false =>
      rw [hkind] at hmem hround
      rw [foldl_upsert_row_ne (fun other _ hkey => by cases hkey), hround _ _ rfl hmem]
      rfl

/-- The badge adds up capped counts. -/
theorem foldl_saturating {count : Scope → Nat} {scopes : List Scope}
    (h : ∀ scope ∈ scopes, Addable (count scope)) :
    scopes.foldl (fun total scope =>
      min (saturatingAddI64 total (count scope)) MAX_UNREAD_COUNT) 0 = cappedSum count scopes := by
  induction scopes using List.reverseRecOn with
  | nil => rfl
  | append_singleton scopes scope ih =>
    have hscope := h scope (by simp)
    rw [List.foldl_append, ih fun s hs => h s (List.mem_append_left _ hs)]
    unfold cappedSum saturatingAddI64
    unfold Addable at hscope
    rw [List.map_append, List.sum_append]
    simp only [List.foldl_cons, List.foldl_nil, List.map_cons, List.map_nil, List.sum_singleton]
    unfold MAX_UNREAD_COUNT at *
    omega

/-- The mains that the badge adds up. -/
def badgeScopes (scopes : List Scope) : List Scope :=
  scopes.filter fun scope => scope.threadId.isNone && !scope.archived && !scope.muted

theorem cappedSum_congr {count count' : Scope → Nat} {scopes : List Scope}
    (h : ∀ scope ∈ scopes, count scope = count' scope) :
    cappedSum count scopes = cappedSum count' scopes := by
  unfold cappedSum
  rw [List.map_congr_left h]

theorem countersOf_congr {key : String} {count count' attention attention' : Scope → Nat}
    {scopes : List Scope} (hcount : ∀ scope ∈ scopes, count scope = count' scope)
    (hattention : ∀ scope ∈ scopes, attention scope = attention' scope) :
    countersOf key count attention scopes = countersOf key count' attention' scopes := by
  have hmem : ∀ scope ∈ scopes.filter (!·.muted), scope ∈ scopes := fun _ h =>
    (List.mem_filter.mp h).1
  have hcountP : ∀ xs : List Scope, (∀ scope ∈ xs, scope ∈ scopes) →
      unreadScopes count xs = unreadScopes count' xs := by
    intro xs hsub
    unfold unreadScopes
    rw [List.countP_congr fun scope hscope => by rw [hcount scope (hsub scope hscope)]]
  unfold countersOf
  rw [cappedSum_congr hcount, cappedSum_congr hattention, hcountP scopes fun _ h => h,
    hcountP _ hmem, cappedSum_congr fun scope h => hcount scope (hmem scope h),
    cappedSum_congr fun scope h => hattention scope (hmem scope h)]

/-- The summaries and the badge over all of the user's chats and threads. -/
theorem conversationSummariesAndBadge_eq (db : Database) (now uid : Int)
    (views : List ConversationView) (appBadge : Bool) :
    db.conversationSummariesAndBadge now uid views appBadge =
      (views.map (summaryOf (db.scopes now uid) (db.unreadOf uid) (db.attentionOf uid)),
        if appBadge then some (cappedSum (db.unreadOf uid) (badgeScopes (db.scopes now uid)))
        else none) := by
  unfold Database.conversationSummariesAndBadge
  split
  · next h =>
    rw [h.1, h.2]
    rfl
  · dsimp only
    generalize hscopes : ((db.scopes now uid).filter fun scope =>
      appBadge && scope.threadId.isNone || views.any fun view => view.selector.contains scope) =
        scopes
    have hsub : ∀ scope ∈ scopes, scope ∈ db.scopes now uid := by
      intro scope hscope
      rw [← hscopes] at hscope
      exact (List.mem_filter.mp hscope).1
    have hcount : ∀ scope ∈ scopes, scopeCount _ _ scope = db.unreadOf uid scope :=
      fun scope hscope => scopeCount_eq hsub hscope
    generalize db.countMembershipUnreads ((scopes.filter (·.threadId.isNone)).map
      (·.membership (db.loadChatSettings uid))) = main at hcount ⊢
    have hattention : ∀ view ∈ views, ∀ scope ∈ scopes, InCollection view scope →
        scopeAttention (db.attentionCounts uid views scopes) scope = db.attentionOf uid scope := by
      intro view hview scope hscope hin
      exact attentionCounts_row hsub hscope hview
        ((contains_eq view scope).trans (decide_eq_true hin))
    refine Prod.ext ?_ ?_
    · dsimp only
      rw [aggregate_eq fun view hview scope hscope hin => by
        rw [hcount scope hscope, hattention view hview scope hscope hin]
        exact ⟨unreadOf_addable db uid scope, attentionOf_addable db uid scope⟩]
      refine List.map_congr_left fun view hview => ?_
      have hselected : (scopes.filter fun scope => decide (InCollection view scope)) =
          (db.scopes now uid).filter fun scope => decide (InCollection view scope) := by
        rw [← hscopes, List.filter_filter]
        refine List.filter_congr fun scope _ => ?_
        by_cases hin : InCollection view scope
        · have hany : (views.any fun view => view.selector.contains scope) = true :=
            List.any_eq_true.mpr ⟨view, hview, (contains_eq view scope).trans (decide_eq_true hin)⟩
          rw [hany, Bool.or_true, Bool.and_true]
        · rw [decide_eq_false hin, Bool.false_and]
      unfold summaryOf
      rw [← hselected]
      refine countersOf_congr (fun scope h => ?_) fun scope h => ?_
      · exact hcount scope (List.mem_filter.mp h).1
      · obtain ⟨hscope, hin⟩ := List.mem_filter.mp h
        exact hattention view hview scope hscope (of_decide_eq_true hin)
    · cases appBadge with
      | false => rfl
      | true =>
        have hbadge : badgeScopes scopes = badgeScopes (db.scopes now uid) := by
          unfold badgeScopes
          rw [← hscopes, List.filter_filter]
          refine List.filter_congr fun scope _ => ?_
          cases hmain : scope.threadId.isNone with
          | true => simp
          | false => simp
        have hmains : ∀ scope ∈ badgeScopes scopes, (main.row scope.chatId).getD 0 =
            db.unreadOf uid scope := by
          intro scope hscope
          obtain ⟨hmem, hmain⟩ := List.mem_filter.mp hscope
          simp only [Bool.and_eq_true, Option.isNone_iff_eq_none] at hmain
          have hown := hcount scope hmem
          unfold scopeCount at hown
          rw [hmain.1.1] at hown
          exact hown
        have haddable : ∀ scope ∈ badgeScopes scopes,
            Addable ((main.row scope.chatId).getD 0) := by
          intro scope hscope
          rw [hmains scope hscope]
          exact unreadOf_addable db uid scope
        have hfold := foldl_saturating haddable
        rw [if_pos rfl, if_pos rfl, ← hbadge, ← cappedSum_congr hmains, ← hfold]
        rfl

end database

/-- Collections are sets, with capped sums of their counts: in `aggregate` as long as no addition
overflows, and over the database whatever views are asked for. -/
theorem collection_summaries :
    (∀ (views : List ConversationView) (scopes : List Scope) (main threads : Table Int Nat)
        (attention : Table (Bool × Int) Nat),
      (∀ scope ∈ scopes, Addable (scopeCount main threads scope) ∧
        Addable (scopeAttention attention scope)) →
      aggregate views scopes main threads attention =
          views.map (summaryOf scopes (scopeCount main threads) (scopeAttention attention)) ∧
        ∀ other : List Scope, other.Perm scopes →
          aggregate views other main threads attention =
            aggregate views scopes main threads attention) ∧
    (∀ (views other : List ConversationView), List.Forall₂ SameEntries views other →
      ∀ (scopes : List Scope) (main threads : Table Int Nat) (attention : Table (Bool × Int) Nat),
        aggregate views scopes main threads attention =
          aggregate other scopes main threads attention) ∧
    ∀ (db : Database) (now uid : Int) (views : List ConversationView) (appBadge : Bool),
      db.conversationSummariesAndBadge now uid views appBadge =
        (views.map (summaryOf (db.scopes now uid) (db.unreadOf uid) (db.attentionOf uid)),
          if appBadge then some (cappedSum (db.unreadOf uid) (badgeScopes (db.scopes now uid)))
          else none) := by
  refine ⟨fun views scopes main threads attention h => ?_, fun _ _ h => aggregate_sameEntries h,
    conversationSummariesAndBadge_eq⟩
  have heq : aggregate views scopes main threads attention = _ :=
    aggregate_eq fun _ _ scope hscope _ => h scope hscope
  refine ⟨heq, fun other hperm => ?_⟩
  rw [heq, aggregate_eq fun _ _ scope hscope _ => h scope (hperm.subset hscope)]
  refine List.map_congr_left fun view _ => ?_
  exact countersOf_perm (hperm.filter _)

/-- A chat, a thread of it and an archived chat. -/
def mixedScopes : List Scope :=
  [⟨true, 1, none, false, false, false, none⟩, ⟨true, 1, some 10, false, false, true, none⟩,
    ⟨true, 2, none, false, true, false, none⟩]

def mixedView : ConversationView :=
  ⟨"mixed", [.group], [⟨1, none⟩, ⟨1, none⟩, ⟨1, some 10⟩], [], false⟩

theorem collection_summaries_mixed :
    aggregate [mixedView] mixedScopes ((Table.empty.upsert 1 900).upsert 2 1)
        (Table.empty.upsert 10 900) ((Table.empty.upsert (false, 1) 1).upsert (true, 10) 2) =
      [⟨"mixed", 1000, 900, 2, 1, 3, 1⟩] := by
  have h := (collection_summaries.1 [mixedView] mixedScopes ((Table.empty.upsert 1 900).upsert 2 1)
    (Table.empty.upsert 10 900) ((Table.empty.upsert (false, 1) 1).upsert (true, 10) 2)
    (by decide)).1
  rw [h]
  decide

/-- A count near the end of the range overflows the sum. -/
theorem aggregate_overflows :
    validateConversationViews [⟨"groups", [.group], [], [], false⟩] = .ok () ∧
      (aggregate [⟨"groups", [.group], [], [], false⟩]
        [⟨true, 1, none, false, false, false, none⟩, ⟨true, 2, none, false, false, false, none⟩]
        ((Table.empty.upsert 1 1).upsert 2 (2 ^ 63 - 1)) .empty .empty).map
          (·.unreadMessageCount) = [-(2 ^ 63)] ∧
      min 1000 ((2 ^ 63 - 1 : Int) + 1) = 1000 := by
  refine ⟨by rfl, by decide, by decide⟩

end Chahua.ReadStates
