import Chahua.ReadStates.Totals

namespace Chahua.ReadStates

open Framework

section Capped

variable {α : Type*}

/-- Sums saturate: capping after each addition caps the sum once. -/
theorem foldl_cappedAdd (f : α → Nat) (xs : List α) (start : Nat) (h : start ≤ MAX_UNREAD_COUNT) :
    xs.foldl (fun total x => cappedAdd total (f x)) start =
      min (start + (xs.map f).sum) MAX_UNREAD_COUNT := by
  induction xs generalizing start with
  | nil => simp [h]
  | cons x xs ih =>
    have hle : cappedAdd start (f x) ≤ MAX_UNREAD_COUNT := Nat.min_le_right _ _
    rw [List.foldl_cons, ih _ hle, List.map_cons, List.sum_cons, cappedAdd]
    omega

/-- A sum of capped numbers is capped like the sum of the numbers. -/
theorem min_sum_min (f : α → Nat) (xs : List α) :
    min (xs.map fun x => min (f x) MAX_UNREAD_COUNT).sum MAX_UNREAD_COUNT =
      min (xs.map f).sum MAX_UNREAD_COUNT := by
  induction xs with
  | nil => rfl
  | cons x xs ih =>
    simp only [List.map_cons, List.sum_cons]
    omega

end Capped

namespace Database

variable {db : Database}

/-- The visible top-level messages after the user's cursor in a chat. -/
def visibleUnread (db : Database) (uid chatId : Int) : Nat :=
  match db.loadMembershipMessageFilter uid chatId, db.groupMembership.row (chatId, uid) with
  | .ok hide, some gm =>
    (db.messages.select (countsUnread hide chatId (unreadCursor gm.lastReadMessageId))).card
  | _, _ => 0

/-- The user's unarchived, unmuted chats. -/
def countedChats (db : Database) (now uid : Int) : Finset Int :=
  (db.groupMembership.keys.image Prod.fst).filter fun chatId =>
    (db.groupMembership.row (chatId, uid)).any fun gm => (db.groups.row chatId).any fun group =>
      !gm.archived && !gm.isMuted group.kind (db.loadNotificationDefaults uid) now

def unreadTotal (db : Database) (now uid : Int) : Nat :=
  min (∑ chatId ∈ db.countedChats now uid, db.visibleUnread uid chatId) MAX_UNREAD_COUNT

theorem mem_userChats {uid chatId : Int} {gm : Membership} {group : Group} :
    (chatId, gm, group) ∈ db.userChats uid ↔
      db.groupMembership.row (chatId, uid) = some gm ∧ db.groups.row chatId = some group := by
  simp only [userChats, List.mem_filterMap, mem_ascending, Finset.mem_image, Finset.mem_filter,
    Option.bind_eq_some_iff, Option.map_eq_some_iff, Prod.mk.injEq]
  constructor
  · intro h
    obtain ⟨_, -, gm', hgm, group', hgroup, rfl, rfl, rfl⟩ := h
    exact ⟨hgm, hgroup⟩
  · intro h
    have hkey : (chatId, uid) ∈ db.groupMembership.keys := by
      rw [db.groupMembership.mem_keys, h.1]
      rfl
    exact ⟨chatId, ⟨(chatId, uid), ⟨hkey, rfl⟩, rfl⟩, gm, h.1, group, h.2, rfl, rfl, rfl⟩

theorem filterMap_map_sublist {α β : Type*} {g : α → Option β} {key : β → α}
    (h : ∀ a b, g a = some b → key b = a) (xs : List α) : ((xs.filterMap g).map key).Sublist xs := by
  induction xs with
  | nil => exact List.Sublist.refl _
  | cons x xs ih =>
    cases hx : g x with
    | none => simpa [hx] using ih.cons x
    | some b => simpa [hx, h x b hx] using ih.cons_cons x

theorem nodup_userChats (uid : Int) : ((db.userChats uid).map Prod.fst).Nodup := by
  refine (filterMap_map_sublist ?_ _).nodup (nodup_ascending _)
  intro chatId row hrow
  obtain ⟨gm, -, hrow⟩ := Option.bind_eq_some_iff.mp hrow
  obtain ⟨group, -, rfl⟩ := Option.map_eq_some_iff.mp hrow
  rfl

/-- The policy of the bulk queries is the one `load_membership_message_filter` evaluates. -/
theorem loadMembershipMessageFilter_of_mem {uid chatId : Int} {gm : Membership} {group : Group}
    (h : (chatId, gm, group) ∈ db.userChats uid) :
    db.loadMembershipMessageFilter uid chatId = .ok (hidesMembershipMessages
      (db.loadChatSettings uid && membershipAllowed group gm.role) group.kind none) := by
  obtain ⟨hgm, hgroup⟩ := mem_userChats.mp h
  have hshown : (db.userExtra.row uid).elim true (·.showMembershipMessages) =
      db.loadChatSettings uid := by
    rw [loadChatSettings]
    cases db.userExtra.row uid <;> rfl
  have hview : (decide (group.kind = .dm) ||
      group.membershipMessageVisibility.allows (some gm.role)) = membershipAllowed group gm.role := by
    rw [membershipAllowed]
    cases group.membershipMessageVisibility <;> cases group.kind <;> cases gm.role <;> rfl
  simp only [loadMembershipMessageFilter, hgroup, hgm, hshown, Option.map_some, hview]

theorem loadNotificationDefaultsForUsers_row {uid : Int} {uids : List Int} (h : uid ∈ uids) :
    ((db.loadNotificationDefaultsForUsers uids).row uid).getD .default =
      db.loadNotificationDefaults uid := by
  rw [loadNotificationDefaultsForUsers, Table.filterMap_row, loadNotificationDefaults]
  cases db.userExtra.row uid with
  | none => rfl
  | some extra => simp [h]

theorem countChatUnreadCursors_row {cursors : List ChatUnreadCursor} {cursor : ChatUnreadCursor}
    (h : cursor ∈ cursors) :
    (db.countChatUnreadCursors cursors).row cursor =
      some (db.countCursor cursor.hideMembershipMessages cursor.chatId cursor.lastReadMessageId) := by
  rw [countChatUnreadCursors, Table.tabulate_row, if_pos (List.mem_toFinset.mpr h)]

/-- What every query counts for one of the user's chats. -/
def chatCursor (db : Database) (uid : Int) (row : Int × Membership × Group) : ChatUnreadCursor :=
  ⟨hidesMembershipMessages (db.loadChatSettings uid && membershipAllowed row.2.2 row.2.1.role)
    row.2.2.kind none, row.1, unreadCursor row.2.1.lastReadMessageId⟩

theorem countCursor_chatCursor {uid : Int} {row : Int × Membership × Group}
    (h : row ∈ db.userChats uid) :
    db.countCursor (db.chatCursor uid row).hideMembershipMessages (db.chatCursor uid row).chatId
      (db.chatCursor uid row).lastReadMessageId =
      min (db.visibleUnread uid row.1) MAX_UNREAD_COUNT := by
  obtain ⟨chatId, gm, group⟩ := row
  have hfilter := loadMembershipMessageFilter_of_mem h
  have hgm := (mem_userChats.mp h).1
  simp only [visibleUnread, hfilter, hgm, chatCursor, countCursor]

/-- The chats a total adds up, and the capped number each of them adds. -/
theorem sum_userChats (now uid : Int) :
    min (((db.userChats uid).filter fun row => !row.2.1.archived &&
        !row.2.1.isMuted row.2.2.kind (db.loadNotificationDefaults uid) now).map fun row =>
          min (db.visibleUnread uid row.1) MAX_UNREAD_COUNT).sum MAX_UNREAD_COUNT =
      db.unreadTotal now uid := by
  rw [min_sum_min, unreadTotal]
  congr 1
  have hnodup : (((db.userChats uid).filter fun row => !row.2.1.archived &&
      !row.2.1.isMuted row.2.2.kind (db.loadNotificationDefaults uid) now).map Prod.fst).Nodup :=
    (List.filter_sublist.map Prod.fst).nodup (nodup_userChats uid)
  have hchats : (((db.userChats uid).filter fun row => !row.2.1.archived &&
      !row.2.1.isMuted row.2.2.kind (db.loadNotificationDefaults uid) now).map
        Prod.fst).toFinset = db.countedChats now uid := by
    ext chatId
    simp only [List.mem_toFinset, List.mem_map, List.mem_filter, countedChats, Finset.mem_filter,
      Option.any_eq_true]
    constructor
    · intro h
      obtain ⟨⟨chatId, gm, group⟩, ⟨hrow, hcounts⟩, rfl⟩ := h
      obtain ⟨hgm, hgroup⟩ := mem_userChats.mp hrow
      have hkey : (chatId, uid) ∈ db.groupMembership.keys := by
        rw [db.groupMembership.mem_keys, hgm]
        rfl
      exact ⟨Finset.mem_image_of_mem Prod.fst hkey, gm, hgm, group, hgroup, hcounts⟩
    · intro h
      obtain ⟨-, gm, hgm, group, hgroup, hcounts⟩ := h
      exact ⟨(chatId, gm, group), ⟨mem_userChats.mpr ⟨hgm, hgroup⟩, hcounts⟩, rfl⟩
  rw [← hchats, List.sum_toFinset _ hnodup, List.map_map]
  rfl

theorem foldl_add_unreadCount (count : ChatUnreadMembership → Nat)
    (memberships : List ChatUnreadMembership) (summary : UnreadSummaryCounts) :
    (memberships.foldl (fun summary m => summary.add m (count m)) summary).unreadCount =
      (memberships.filter fun m => !m.archived && !m.isMuted).foldl
        (fun total m => cappedAdd total (count m)) summary.unreadCount := by
  induction memberships generalizing summary with
  | nil => rfl
  | cons m memberships ih =>
    rw [List.foldl_cons, ih]
    cases harchived : m.archived <;> cases hmuted : m.isMuted <;>
      simp [UnreadSummaryCounts.add, harchived, hmuted]

theorem countUserUnreadSummary_unreadCount (now uid : Int) :
    (db.countUserUnreadSummary now uid).unreadCount = db.unreadTotal now uid := by
  rw [countUserUnreadSummary, summarizeMembershipUnreads, foldl_add_unreadCount,
    foldl_cappedAdd _ _ _ (Nat.zero_le _), Nat.zero_add, ← sum_userChats]
  congr 2
  rw [loadUserChatMemberships, List.filter_map, List.map_map]
  refine List.map_congr_left fun row hrow => ?_
  have hmem := (List.mem_filter.mp hrow).1
  have hcursor : db.chatCursor uid row ∈ ((db.loadUserChatMemberships now uid).map (·.cursor)) := by
    rw [loadUserChatMemberships, List.map_map]
    exact List.mem_map.mpr ⟨row, hmem, rfl⟩
  rw [← countCursor_chatCursor hmem]
  exact congrArg (Option.getD · 0) (countChatUnreadCursors_row hcursor)

/-- The entry of one user gathers the rows of that user only. -/
theorem foldl_totals_row (count : UserChatUnreadMembership → Nat)
    (memberships : List UserChatUnreadMembership) (totals : Table Int Nat) {uid : Int} {total : Nat}
    (h : totals.row uid = some total) :
    (memberships.foldl (fun totals m =>
        totals.upsert m.uid (cappedAdd ((totals.row m.uid).getD 0) (count m))) totals).row uid =
      some ((memberships.filter fun m => decide (m.uid = uid)).foldl
        (fun total m => cappedAdd total (count m)) total) := by
  induction memberships generalizing totals total with
  | nil => exact h
  | cons m memberships ih =>
    rw [List.foldl_cons]
    by_cases huid : m.uid = uid
    · have hrow : (totals.upsert m.uid (cappedAdd ((totals.row m.uid).getD 0) (count m))).row uid =
          some (cappedAdd total (count m)) := by simp [huid, h]
      rw [ih _ hrow,
        List.filter_cons_of_pos (by simp [huid]), List.foldl_cons]
    · rw [ih _ (by rw [Table.upsert_row_ne _ _ (Ne.symm huid), h]),
        List.filter_cons_of_neg (by simp [huid])]

/-- Of the rows of several users, those of one user are the rows loaded for that user. -/
theorem filter_flatMap_of_nodup {α β : Type*} [DecidableEq α] (rows : α → List β) (owner : β → α)
    (howner : ∀ a, ∀ b ∈ rows a, owner b = a) {xs : List α} (hxs : xs.Nodup) {a : α} (ha : a ∈ xs) :
    (xs.flatMap rows).filter (fun b => decide (owner b = a)) = rows a := by
  have hself : (rows a).filter (fun b => decide (owner b = a)) = rows a :=
    List.filter_eq_self.mpr fun b hb => by simp [howner a b hb]
  have hother : ∀ c ≠ a, (rows c).filter (fun b => decide (owner b = a)) = [] := by
    intro c hc
    refine List.filter_eq_nil_iff.mpr fun b hb => ?_
    simp [howner c b hb, hc]
  induction xs with
  | nil => cases ha
  | cons x xs ih =>
    obtain ⟨hx, hxs⟩ := List.nodup_cons.mp hxs
    rw [List.flatMap_cons, List.filter_append]
    by_cases hxa : x = a
    · subst hxa
      have hrest : (xs.flatMap rows).filter (fun b => decide (owner b = x)) = [] := by
        refine List.filter_eq_nil_iff.mpr fun b hb => ?_
        obtain ⟨c, hc, hb⟩ := List.mem_flatMap.mp hb
        have hne : c ≠ x := fun heq => hx (heq ▸ hc)
        simp [howner c b hb, hne]
      rw [hself, hrest, List.append_nil]
    · have ha' : a ∈ xs := (List.mem_cons.mp ha).resolve_left (Ne.symm hxa)
      rw [hother x hxa, ih hxs ha', List.nil_append]

/-- The row loaded for a user among several is the one the single query builds. -/
def userMembership (db : Database) (now uid : Int) (row : Int × Membership × Group) :
    UserChatUnreadMembership where
  uid := uid
  chatId := row.1
  lastReadMessageId := row.2.1.lastReadMessageId
  archived := row.2.1.archived
  isMuted := row.2.1.isMuted row.2.2.kind (db.loadNotificationDefaults uid) now
  hideMembershipMessages := hidesMembershipMessages
    (db.loadChatSettings uid && membershipAllowed row.2.2 row.2.1.role) row.2.2.kind none

theorem loadUsersChatMemberships_eq (now : Int) (targetUids : List Int) :
    db.loadUsersChatMemberships now targetUids =
      (ascending targetUids.toFinset).flatMap fun uid =>
        (db.userChats uid).map (db.userMembership now uid) := by
  rw [loadUsersChatMemberships]
  refine List.flatMap_congr fun uid huid => List.map_congr_left fun row _ => ?_
  have hmem : uid ∈ targetUids := List.mem_toFinset.mp (mem_ascending.mp huid)
  rw [userMembership, loadNotificationDefaultsForUsers_row hmem, loadChatSettings]

theorem countUsersUnreadTotals_row (now uid : Int) {targetUids : List Int} (h : uid ∈ targetUids) :
    (db.countUsersUnreadTotals now targetUids).row uid = some (db.unreadTotal now uid) := by
  have hstart : ∀ other ∈ targetUids,
      (Table.tabulate targetUids.toFinset fun _ => (0 : Nat)).row other = some 0 := by
    intro other hother
    rw [Table.tabulate_row, if_pos (List.mem_toFinset.mpr hother)]
  have hrows : (db.loadUsersChatMemberships now targetUids).filter (fun m => decide (m.uid = uid)) =
      (db.userChats uid).map (db.userMembership now uid) := by
    rw [loadUsersChatMemberships_eq]
    refine filter_flatMap_of_nodup _ UserChatUnreadMembership.uid ?_ (nodup_ascending _)
      (mem_ascending.mpr (List.mem_toFinset.mpr h))
    intro other m hm
    obtain ⟨row, -, rfl⟩ := List.mem_map.mp hm
    rfl
  rw [countUsersUnreadTotals, countUserMembershipUnreadTotals,
    foldl_totals_row _ _ _ (hstart uid h), foldl_cappedAdd _ _ _ (Nat.zero_le _), Nat.zero_add,
    ← sum_userChats, Option.some.injEq, List.filter_comm, hrows, List.filter_map, List.map_map]
  congr 2
  have hfilter : (db.userChats uid).filter ((fun m : UserChatUnreadMembership =>
      ((Table.tabulate targetUids.toFinset fun _ => (0 : Nat)).row m.uid).isSome && !m.archived &&
        !m.isMuted) ∘ db.userMembership now uid) =
      (db.userChats uid).filter fun row => !row.2.1.archived &&
        !row.2.1.isMuted row.2.2.kind (db.loadNotificationDefaults uid) now := by
    refine List.filter_congr fun row _ => ?_
    simp [userMembership, hstart uid h]
  rw [hfilter]
  refine List.map_congr_left fun row hrow => ?_
  obtain ⟨hmem, hcounts⟩ := List.mem_filter.mp hrow
  rw [← countCursor_chatCursor hmem]
  refine congrArg (Option.getD · 0) (countChatUnreadCursors_row ?_)
  refine List.mem_map.mpr ⟨db.userMembership now uid row, List.mem_filter.mpr ⟨?_, ?_⟩, rfl⟩
  · exact (List.mem_filter.mp (hrows ▸ List.mem_map_of_mem hmem)).1
  · simpa [userMembership, hstart uid h] using hcounts

theorem countMembershipUnreads_row {memberships : List ChatUnreadMembership}
    {m : ChatUnreadMembership} (hm : m ∈ memberships)
    (hsame : ∀ other ∈ memberships, other.chatId = m.chatId → other.cursor = m.cursor) :
    (db.countMembershipUnreads memberships).row m.chatId = some (db.countCursor
      m.hideMembershipMessages m.chatId (unreadCursor m.lastReadMessageId)) := by
  have hcount : ((db.countChatUnreadCursors (memberships.map (·.cursor))).row m.cursor).getD 0 =
      db.countCursor m.hideMembershipMessages m.chatId (unreadCursor m.lastReadMessageId) :=
    congrArg (Option.getD · 0) (countChatUnreadCursors_row (List.mem_map_of_mem hm))
  refine Table.foldl_upsert_row (fun other hother hchat => ?_) (.inr ⟨m, hm, rfl⟩)
  rw [hsame other hother hchat, hcount]

theorem userChats_unique {uid : Int} {row other : Int × Membership × Group}
    (hrow : row ∈ db.userChats uid) (hother : other ∈ db.userChats uid) (h : other.1 = row.1) :
    other = row := by
  obtain ⟨chatId, gm, group⟩ := row
  obtain ⟨otherId, gm', group'⟩ := other
  obtain rfl : otherId = chatId := h
  obtain ⟨hgm, hgroup⟩ := mem_userChats.mp hrow
  obtain ⟨hgm', hgroup'⟩ := mem_userChats.mp hother
  cases hgm.symm.trans hgm'
  cases hgroup.symm.trans hgroup'
  rfl

/-- A page of the user's memberships is counted as each of its chats is alone. -/
theorem countMembershipUnreads_single (now uid : Int) {memberships : List ChatUnreadMembership}
    (hsub : ∀ m ∈ memberships, m ∈ db.loadUserChatMemberships now uid)
    {m : ChatUnreadMembership} (hm : m ∈ memberships) :
    ∃ n, (db.countMembershipUnreads memberships).row m.chatId = some n ∧
      db.countChatUnread uid m.chatId m.lastReadMessageId = .ok n := by
  obtain ⟨row, hrow, rfl⟩ := List.mem_map.mp (hsub m hm)
  refine ⟨_, countMembershipUnreads_row hm ?_, ?_⟩
  · intro other hother hchat
    obtain ⟨row', hrow', rfl⟩ := List.mem_map.mp (hsub other hother)
    rw [userChats_unique hrow hrow' hchat]
  · rw [countChatUnread, loadMembershipMessageFilter_of_mem hrow]
    rfl

/-- Whatever views are asked for, the badge runs over every chat and no thread. -/
theorem filter_scopes (now uid : Int) (views : List ConversationSelector) :
    ((db.chatScopes now uid ++ db.threadScopes uid).filter fun scope =>
      scope.threadId.isNone || views.any fun view => view.contains scope).filter
        (·.threadId.isNone) = db.chatScopes now uid := by
  have hchats : ∀ scope ∈ db.chatScopes now uid, scope.threadId = none := by
    intro scope hscope
    obtain ⟨row, -, rfl⟩ := List.mem_map.mp hscope
    rfl
  have hthreads : ∀ scope ∈ db.threadScopes uid, scope.threadId ≠ none := by
    intro scope hscope
    obtain ⟨row, -, hscope⟩ := List.mem_flatMap.mp hscope
    obtain ⟨root, -, hscope⟩ := List.mem_filterMap.mp hscope
    obtain ⟨state, -, rfl⟩ := Option.map_eq_some_iff.mp hscope
    simp
  rw [List.filter_filter, List.filter_append]
  have hkeep : (db.chatScopes now uid).filter (fun scope => scope.threadId.isNone &&
      (scope.threadId.isNone || views.any fun view => view.contains scope)) =
      db.chatScopes now uid :=
    List.filter_eq_self.mpr fun scope hscope => by simp [hchats scope hscope]
  have hdrop : (db.threadScopes uid).filter (fun scope => scope.threadId.isNone &&
      (scope.threadId.isNone || views.any fun view => view.contains scope)) = [] :=
    List.filter_eq_nil_iff.mpr fun scope hscope => by simp [hthreads scope hscope]
  rw [hkeep, hdrop, List.append_nil]

theorem chatScope_muted (now uid : Int) (row : Int × Membership × Group) :
    (db.chatScope now uid row).muted =
      row.2.1.isMuted row.2.2.kind (db.loadNotificationDefaults uid) now := by
  obtain ⟨chatId, gm, group⟩ := row
  simp only [chatScope, Membership.isMuted]
  cases group.kind <;> rfl

theorem chatScope_cursor (now uid : Int) (row : Int × Membership × Group) :
    ((db.chatScope now uid row).membership (db.loadChatSettings uid)).cursor =
      db.chatCursor uid row := by
  obtain ⟨chatId, gm, kind, visibility⟩ := row
  cases kind <;> rfl

theorem appBadge_eq (now uid : Int) (views : List ConversationSelector) :
    db.appBadge now uid views = db.unreadTotal now uid := by
  have hcounted := List.filter_filter (p := fun scope : Scope => !scope.archived && !scope.muted)
    (q := fun scope : Scope => scope.threadId.isNone)
    (l := (db.chatScopes now uid ++ db.threadScopes uid).filter fun scope =>
      scope.threadId.isNone || views.any fun view => view.contains scope)
  rw [filter_scopes] at hcounted
  have hpred : ∀ scope : Scope, (!scope.archived && !scope.muted && scope.threadId.isNone) =
      (scope.threadId.isNone && !scope.archived && !scope.muted) := by
    intro scope
    cases scope.archived <;> cases scope.muted <;> cases scope.threadId <;> rfl
  simp only [hpred] at hcounted
  rw [appBadge, filter_scopes, ← hcounted, foldl_cappedAdd _ _ _ (Nat.zero_le _), Nat.zero_add,
    ← sum_userChats, chatScopes, List.filter_map, List.map_map, List.map_map]
  have hfilter : (db.userChats uid).filter
      ((fun scope : Scope => !scope.archived && !scope.muted) ∘ db.chatScope now uid) =
      (db.userChats uid).filter fun row => !row.2.1.archived &&
        !row.2.1.isMuted row.2.2.kind (db.loadNotificationDefaults uid) now := by
    refine List.filter_congr fun row _ => ?_
    simp only [Function.comp_apply, chatScope_muted]
    rfl
  rw [hfilter]
  congr 2
  refine List.map_congr_left fun row hrow => ?_
  have hmem := (List.mem_filter.mp hrow).1
  rw [← countCursor_chatCursor hmem, ← chatScope_cursor now]
  refine congrArg (Option.getD · 0) (countMembershipUnreads_row
    (m := (db.chatScope now uid row).membership (db.loadChatSettings uid)) ?_ ?_)
  · exact List.mem_map_of_mem hmem
  · intro other hother hchat
    obtain ⟨row', hrow', rfl⟩ := List.mem_map.mp hother
    rw [userChats_unique hmem hrow' hchat]
    rfl

end Database

end Chahua.ReadStates
