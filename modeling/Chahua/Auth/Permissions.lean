import Chahua.Framework.ReadThrough
import Chahua.Framework.Run

namespace Chahua.Auth.Permissions

open Framework

/-- Milliseconds. -/
def CACHE_TTL : Nat := 60 * 1000

def PRUNE_AGE : Nat := 15 * 60 * 1000

inductive Action where
  | ChatCreate
  | MemberViewAll
  | InviteCreate
  | OnBehalfOfSocialRead
  | OnBehalfOfSocialWrite
  | OnBehalfOfMessageSend
  | PermissionAll
  | ServiceTokenManage
  | SessionRead
  | SessionRevoke
  deriving DecidableEq, Repr

def Action.asStr : Action → String
  | .ChatCreate => "chat.create"
  | .MemberViewAll => "member.viewAll"
  | .InviteCreate => "invite.create"
  | .OnBehalfOfSocialRead => "onBehalfOf.socialRead"
  | .OnBehalfOfSocialWrite => "onBehalfOf.socialWrite"
  | .OnBehalfOfMessageSend => "onBehalfOf.messageSend"
  | .PermissionAll => "permission.all"
  | .ServiceTokenManage => "serviceToken.manage"
  | .SessionRead => "session.read"
  | .SessionRevoke => "session.revoke"

inductive PermissionResourceType where
  | Global
  | Chat
  deriving DecidableEq, Repr

inductive PolicySubjectType where
  | User
  | DiscuzGroup
  | ServiceToken
  deriving DecidableEq, Repr

inductive Resource where
  | Global
  | Chat (chatId : Int)
  deriving DecidableEq, Repr

def Resource.resourceType : Resource → PermissionResourceType
  | .Global => .Global
  | .Chat _ => .Chat

def Resource.resourceId : Resource → Option Int
  | .Global => none
  | .Chat chatId => some chatId

inductive CacheSubject where
  | User (uid : Int) (discuzGroupId : Option Int)
  | ServiceToken (tokenId : Int)
  deriving DecidableEq, Repr

structure CacheKey where
  subject : CacheSubject
  resourceType : PermissionResourceType
  resourceId : Option Int
  deriving DecidableEq, Repr

def cacheKey (subject : CacheSubject) (resource : Resource) : CacheKey :=
  ⟨subject, resource.resourceType, resource.resourceId⟩

/-- The rows of `policy_assignments` and `policy_permissions`. -/
structure Policies where
  assignments : Finset (PolicySubjectType × Int × Int)
  permissions : Finset (Int × PermissionResourceType × Option Int × String)

namespace Policies

variable (db : Policies)

def policiesOf (subjectType : PolicySubjectType) (subjectId : Int) : Finset Int :=
  (db.assignments.filter fun row => row.1 = subjectType ∧ row.2.1 = subjectId).image
    fun row => row.2.2

/-- The first query of `load_actions_for_resource`. -/
def subjectPolicies : CacheSubject → Finset Int
  | .User uid _ => db.policiesOf .User uid
  | .ServiceToken tokenId => db.policiesOf .ServiceToken tokenId

/-- The second, made for a user with a group. -/
def groupPolicies : CacheSubject → Finset Int
  | .User _ (some groupId) => db.policiesOf .DiscuzGroup groupId
  | _ => ∅

/-- The last, over the policies found; without any the answer is empty. -/
def actionsOf (policyIds : Finset Int) (key : CacheKey) : Finset String :=
  if policyIds = ∅ then ∅
  else (db.permissions.filter fun row => row.1 ∈ policyIds ∧ row.2.1 = key.resourceType ∧
    row.2.2.1 = key.resourceId).image fun row => row.2.2.2

/-- The queries on unchanging tables. -/
def loadActions (key : CacheKey) : Finset String :=
  db.actionsOf (db.subjectPolicies key.subject ∪ db.groupPolicies key.subject) key

end Policies

/-- The query a load runs next, with what the ones before found. -/
inductive LoadStage where
  | subject
  | group (policyIds : Finset Int)
  | permissions (policyIds : Finset Int)
  | loaded (actions : Finset String)

structure Load where
  server : Nat
  key : CacheKey
  startedAt : Nat
  stage : LoadStage

structure Authorization where
  now : Nat
  groupOf : Table Int Int
  db : Policies
  changedAt : Nat
  cache : Table (Nat × CacheKey) (CacheEntry (Finset String))
  loads : Table Nat Load

inductive AuthorizationEvent where
  | tick (elapsed : Nat)
  | regroup (uid : Int) (groupId : Option Int)
  | write (db : Policies)
  | start (n server : Nat) (key : CacheKey)
  | query (n : Nat)
  | store (n : Nat)

namespace Authorization

variable (s : Authorization)

/-- The cached actions of a key. -/
def cached (server : Nat) (key : CacheKey) : Option (Finset String) :=
  match s.cache.row (server, key) with
  | some entry => if s.now - entry.storedAt ≤ CACHE_TTL then some entry.value else none
  | none => none

/-- `load_cached_user_actions` looks the group up before it looks into the cache. -/
def userKey (uid : Int) (resource : Resource) : CacheKey :=
  cacheKey (.User uid (s.groupOf.row uid)) resource

def pruneStaleEntries (server : Nat)
    (cache : Table (Nat × CacheKey) (CacheEntry (Finset String))) :
    Table (Nat × CacheKey) (CacheEntry (Finset String)) :=
  if (cache.select fun key _ => decide (key.1 = server)).card ≤ 1024 then cache
  else cache.deleteWhere fun key entry =>
    decide (key.1 = server) && decide (entry.storedAt + PRUNE_AGE < s.now)

def nextQuery (load : Load) : LoadStage :=
  match load.stage with
  | .subject => .group (s.db.subjectPolicies load.key.subject)
  | .group policyIds => .permissions (policyIds ∪ s.db.groupPolicies load.key.subject)
  | .permissions policyIds => .loaded (s.db.actionsOf policyIds load.key)
  | .loaded actions => .loaded actions

def storeActions (n : Nat) (load : Load) : Option Authorization :=
  match load.stage with
  | .loaded actions => some { s with
      cache := s.pruneStaleEntries load.server
        (s.cache.upsert (load.server, load.key) ⟨actions, load.startedAt, s.now⟩)
      loads := s.loads.erase n }
  | _ => none

/-- Every query of a load is a step, so the policies may change between two of them. -/
def step (s : Authorization) : AuthorizationEvent → Option Authorization
  | .tick elapsed => some { s with now := s.now + elapsed }
  | .regroup uid groupId => some { s with
      groupOf := match groupId with
        | some groupId => s.groupOf.upsert uid groupId
        | none => s.groupOf.erase uid }
  | .write db => some { s with db := db, changedAt := s.now }
  | .start n server key =>
      if (s.loads.row n).isSome then none
      else some { s with loads := s.loads.upsert n ⟨server, key, s.now, .subject⟩ }
  | .query n => (s.loads.row n).map fun load =>
      { s with loads := s.loads.upsert n { load with stage := s.nextQuery load } }
  | .store n => (s.loads.row n).bind fun load => s.storeActions n load

def initial (groupOf : Table Int Int) (db : Policies) : Authorization :=
  ⟨0, groupOf, db, 0, Table.empty, Table.empty⟩

end Authorization

/-- `has_permission` over the actions it has. -/
def hasPermission (actions : Finset String) (action : Action) : Bool :=
  decide (action.asStr ∈ actions) || decide (Action.PermissionAll.asStr ∈ actions)

/-- The actions a request is answered with: cached, or loaded within the latency. -/
def Authorization.Answers (s : Authorization) (latency server : Nat) (key : CacheKey)
    (actions : Finset String) : Prop :=
  s.cached server key = some actions ∨
    ∃ n load, s.loads.row n = some load ∧ load.server = server ∧ load.key = key ∧
      load.stage = .loaded actions ∧ s.now ≤ load.startedAt + latency

def Timely (latency : Nat) (s : Authorization) : AuthorizationEvent → Prop
  | .store n => ∀ load, s.loads.row n = some load → s.now ≤ load.startedAt + latency
  | _ => True

namespace Authorization

variable {latency : Nat} {s : Authorization}

/-- What a load has found so far is what it would find now. -/
def Found (db : Policies) (load : Load) : Prop :=
  match load.stage with
  | .subject => True
  | .group policyIds => policyIds = db.subjectPolicies load.key.subject
  | .permissions policyIds =>
      policyIds = db.subjectPolicies load.key.subject ∪ db.groupPolicies load.key.subject
  | .loaded actions => actions = db.loadActions load.key

structure Sound (latency : Nat) (s : Authorization) : Prop where
  cache : CacheEntry.Valid latency Prod.snd s.now s.db.loadActions (fun _ => s.changedAt) s.cache
  started : ∀ k e, s.cache.row k = some e → e.startedAt ≤ s.now
  loads : ∀ n load, s.loads.row n = some load → load.startedAt ≤ s.now ∧
    (s.changedAt < load.startedAt → Found s.db load)

theorem found_nextQuery {load : Load} (h : Found s.db load) :
    Found s.db { load with stage := s.nextQuery load } := by
  unfold Found nextQuery at *
  cases hstage : load.stage with
  | subject => rfl
  | group policyIds =>
    rw [hstage] at h
    dsimp only at h ⊢
    rw [h]
  | permissions policyIds =>
    rw [hstage] at h
    dsimp only at h ⊢
    rw [h]
    rfl
  | loaded actions =>
    rw [hstage] at h
    exact h

theorem Sound.storeActions {n : Nat} {load : Load} {t : Authorization} (h : s.Sound latency)
    (hload : s.loads.row n = some load) (htimely : s.now ≤ load.startedAt + latency)
    (ht : s.storeActions n load = some t) : t.Sound latency := by
  obtain ⟨hstarted, hfound⟩ := h.loads n load hload
  unfold Authorization.storeActions at ht
  cases hstage : load.stage with
  | loaded actions =>
    rw [hstage] at ht
    cases ht
    have hreads : CacheEntry.Reads s.db.loadActions (fun _ => s.changedAt) load.key
        load.startedAt actions := by
      intro hlt
      have hf := hfound hlt
      rw [Found, hstage] at hf
      exact hf
    have hnew := @CacheEntry.Valid.store _ _ _ _ _ _ _ _ _ _ h.cache (load.server, load.key)
      actions load.startedAt htimely hreads
    have hentries : ∀ k e, (s.cache.upsert (load.server, load.key)
        ⟨actions, load.startedAt, s.now⟩).row k = some e → e.startedAt ≤ s.now := by
      intro k e he
      rw [Table.upsert_row] at he
      split at he
      · cases he
        exact hstarted
      · exact h.started k e he
    refine ⟨?_, ?_, fun m l hl => h.loads m l (Table.row_of_erase hl).2⟩
    · unfold pruneStaleEntries
      split
      · exact hnew
      · exact hnew.evict _
    · intro k e he
      simp only [pruneStaleEntries] at he
      split at he
      · exact hentries k e he
      · rw [Table.deleteWhere_row, Option.filter_eq_some_iff] at he
        exact hentries k e he.1
  | _ => rw [hstage] at ht; cases ht

theorem sound_step (s : Authorization) (e : AuthorizationEvent) (t : Authorization)
    (h : s.Sound latency) (htimely : Timely latency s e) (hstep : s.step e = some t) :
    t.Sound latency := by
  cases e with
  | tick elapsed =>
    cases hstep
    refine ⟨h.cache.tick elapsed, ?_, ?_⟩
    · intro k e he
      exact Nat.le_add_right_of_le (h.started k e he)
    · intro n load hload
      obtain ⟨hstarted, hfound⟩ := h.loads n load hload
      exact ⟨Nat.le_add_right_of_le hstarted, hfound⟩
  | regroup uid groupId =>
    cases hstep
    exact ⟨h.cache, h.started, h.loads⟩
  | write db =>
    cases hstep
    refine ⟨h.cache.write h.started fun _ => Or.inr le_rfl, h.started, ?_⟩
    intro n load hload
    obtain ⟨hstarted, -⟩ := h.loads n load hload
    exact ⟨hstarted, fun hlt => absurd hlt (not_lt.mpr hstarted)⟩
  | start n server key =>
    simp only [step] at hstep
    split at hstep
    · cases hstep
    · cases hstep
      refine ⟨h.cache, h.started, ?_⟩
      intro m load hload
      rw [Table.upsert_row] at hload
      split at hload
      · cases hload
        exact ⟨le_rfl, fun _ => trivial⟩
      · exact h.loads m load hload
  | query n =>
    obtain ⟨load, hload, rfl⟩ := Option.map_eq_some_iff.mp hstep
    obtain ⟨hstarted, hfound⟩ := h.loads n load hload
    refine ⟨h.cache, h.started, ?_⟩
    intro m other hother
    rw [Table.upsert_row] at hother
    split at hother
    · cases hother
      exact ⟨hstarted, fun hlt => found_nextQuery (hfound hlt)⟩
    · exact h.loads m other hother
  | store n =>
    obtain ⟨load, hload, hstore⟩ := Option.bind_eq_some_iff.mp hstep
    exact h.storeActions hload (htimely load hload) hstore

theorem sound_initial (groupOf : Table Int Int) (db : Policies) :
    (initial groupOf db).Sound latency := by
  refine ⟨CacheEntry.valid_empty, ?_, ?_⟩
  · intro k e he
    cases he
  · intro n load hload
    cases hload

theorem cached_eq_some {server : Nat} {key : CacheKey} {actions : Finset String}
    (h : s.cached server key = some actions) :
    ∃ entry, s.cache.row (server, key) = some entry ∧ entry.value = actions ∧
      s.now - entry.storedAt ≤ CACHE_TTL := by
  unfold cached at h
  split at h
  · next entry hentry =>
    split at h
    · next hfresh => exact ⟨entry, hentry, Option.some.inj h, hfresh⟩
    · cases h
  · cases h

end Authorization

/-- What a subject may do by its policies, long enough after their last change. -/
theorem Authorization.Answers.permits {latency : Nat} {groupOf : Table Int Int} {db : Policies}
    {s : Authorization} {es : List AuthorizationEvent} {server : Nat} {key : CacheKey}
    {actions : Finset String} (h : s.Answers latency server key actions)
    (htimely : Along Authorization.step (Timely latency) (Authorization.initial groupOf db) es)
    (hrun : run Authorization.step (Authorization.initial groupOf db) es = some s)
    (hlag : s.changedAt + CACHE_TTL + latency < s.now)
    (action : Action) :
    hasPermission actions action = true ↔
      ∃ policy ∈ s.db.subjectPolicies key.subject ∪ s.db.groupPolicies key.subject,
        (policy, key.resourceType, key.resourceId, action.asStr) ∈ s.db.permissions ∨
        (policy, key.resourceType, key.resourceId, Action.PermissionAll.asStr) ∈
          s.db.permissions := by
  have hsound := run_invariant_along Authorization.sound_step
    (@Authorization.sound_initial latency groupOf db) htimely hrun
  have hactions : actions = s.db.loadActions key := by
    rcases h with hcached | ⟨n, load, hload, -, rfl, hstage, hlatency⟩
    · obtain ⟨entry, hentry, rfl, hfresh⟩ := Authorization.cached_eq_some hcached
      have hstored := (hsound.cache.stored _ entry hentry).1
      exact hsound.cache.value_eq hentry
        (show s.changedAt + latency < entry.storedAt by omega)
    · have hfound := (hsound.loads n load hload).2 (by omega)
      rw [Authorization.Found, hstage] at hfound
      exact hfound
  have hmem : ∀ name : String, name ∈ s.db.loadActions key ↔
      ∃ policy ∈ s.db.subjectPolicies key.subject ∪ s.db.groupPolicies key.subject,
        (policy, key.resourceType, key.resourceId, name) ∈ s.db.permissions := by
    intro name
    unfold Policies.loadActions Policies.actionsOf
    split
    · next hempty => simp [hempty]
    · constructor
      · intro hname
        obtain ⟨⟨policy, kind, id, other⟩, hrow, rfl⟩ := Finset.mem_image.mp hname
        obtain ⟨hrow, hpolicy, rfl, rfl⟩ := Finset.mem_filter.mp hrow
        exact ⟨policy, hpolicy, hrow⟩
      · rintro ⟨policy, hpolicy, hrow⟩
        exact Finset.mem_image.mpr
          ⟨(policy, key.resourceType, key.resourceId, name),
            Finset.mem_filter.mpr ⟨hrow, hpolicy, rfl, rfl⟩, rfl⟩
  unfold hasPermission
  rw [hactions, Bool.or_eq_true, decide_eq_true_eq, decide_eq_true_eq, hmem, hmem]
  constructor
  · rintro (⟨policy, hpolicy, hrow⟩ | ⟨policy, hpolicy, hrow⟩)
    · exact ⟨policy, hpolicy, Or.inl hrow⟩
    · exact ⟨policy, hpolicy, Or.inr hrow⟩
  · rintro ⟨policy, hpolicy, hrow | hrow⟩
    · exact Or.inl ⟨policy, hpolicy, hrow⟩
    · exact Or.inr ⟨policy, hpolicy, hrow⟩

theorem Policies.mem_policiesOf {db : Policies} {subjectType : PolicySubjectType}
    {subjectId policy : Int} : policy ∈ db.policiesOf subjectType subjectId ↔
      (subjectType, subjectId, policy) ∈ db.assignments := by
  unfold Policies.policiesOf
  constructor
  · intro h
    obtain ⟨⟨kind, id, found⟩, hrow, rfl⟩ := Finset.mem_image.mp h
    obtain ⟨hmem, hkind, hid⟩ := Finset.mem_filter.mp hrow
    rw [← hkind, ← hid]
    exact hmem
  · intro h
    exact Finset.mem_image.mpr ⟨(subjectType, subjectId, policy),
      Finset.mem_filter.mpr ⟨h, rfl, rfl⟩, rfl⟩

theorem Policies.mem_groupPolicies {db : Policies} {uid policy : Int} {group : Option Int} :
    policy ∈ db.groupPolicies (.User uid group) ↔
      ∃ groupId, group = some groupId ∧ (.DiscuzGroup, groupId, policy) ∈ db.assignments := by
  cases group with
  | none => simp [Policies.groupPolicies]
  | some groupId => simp [Policies.groupPolicies, Policies.mem_policiesOf]

/-- A change of the policies reaches every answer once the cache time and the latency of a load
have passed: from then on a user may do exactly what the policies of the user and of the user's
present group allow on the resource, whatever changed between the queries of earlier loads. -/
theorem permission_lag {latency : Nat} {groupOf : Table Int Int} {db : Policies}
    {s : Authorization} {es : List AuthorizationEvent}
    (htimely : Along Authorization.step (Timely latency) (Authorization.initial groupOf db) es)
    (hrun : run Authorization.step (Authorization.initial groupOf db) es = some s)
    {server : Nat} {uid : Int} {resource : Resource} {actions : Finset String}
    (h : s.Answers latency server (s.userKey uid resource) actions)
    (hlag : s.changedAt + CACHE_TTL + latency < s.now) (action : Action) :
    hasPermission actions action = true ↔
      ∃ policy, ((.User, uid, policy) ∈ s.db.assignments ∨
          ∃ groupId, s.groupOf.row uid = some groupId ∧
            (.DiscuzGroup, groupId, policy) ∈ s.db.assignments) ∧
        ((policy, resource.resourceType, resource.resourceId, action.asStr) ∈ s.db.permissions ∨
          (policy, resource.resourceType, resource.resourceId, Action.PermissionAll.asStr) ∈
            s.db.permissions) := by
  have hsubject : ∀ policy, policy ∈ s.db.subjectPolicies (s.userKey uid resource).subject ↔
      (.User, uid, policy) ∈ s.db.assignments := fun policy => Policies.mem_policiesOf
  have hgroup : ∀ policy, policy ∈ s.db.groupPolicies (s.userKey uid resource).subject ↔
      ∃ groupId, s.groupOf.row uid = some groupId ∧
        (.DiscuzGroup, groupId, policy) ∈ s.db.assignments := fun policy =>
    Policies.mem_groupPolicies
  rw [h.permits htimely hrun hlag action]
  simp only [Finset.mem_union, hsubject, hgroup]
  rfl

/-- A policy is granted to a group while a load is between its queries. -/
def grantedMeanwhile : List AuthorizationEvent :=
  [.start 0 1 (cacheKey (.User 7 (some 3)) .Global), .query 0, .query 0,
    .write ⟨{(.DiscuzGroup, 3, 5)}, {(5, .Global, none, "chat.create")}⟩, .query 0, .store 0,
    .tick 70000, .start 1 1 (cacheKey (.User 7 (some 3)) .Global), .query 1, .query 1, .query 1,
    .store 1]

theorem grantedMeanwhile_lag : ∃ s, run Authorization.step
    (Authorization.initial (Table.empty.upsert 7 3) ⟨∅, ∅⟩) grantedMeanwhile = some s ∧
    hasPermission {"chat.create"} .ChatCreate = true ∧
    ∃ policy, ((.User, 7, policy) ∈ s.db.assignments ∨
        ∃ groupId, s.groupOf.row 7 = some groupId ∧
          (.DiscuzGroup, groupId, policy) ∈ s.db.assignments) ∧
      ((policy, PermissionResourceType.Global, none, "chat.create") ∈ s.db.permissions ∨
        (policy, PermissionResourceType.Global, none, "permission.all") ∈ s.db.permissions) := by
  have hrun : ((run Authorization.step (Authorization.initial (Table.empty.upsert 7 3) ⟨∅, ∅⟩)
      grantedMeanwhile).map fun s =>
        (s.cached 1 (s.userKey 7 .Global), s.changedAt, s.now)) =
          some (some {"chat.create"}, 0, 70000) := by
    decide +kernel
  have htimely : Along Authorization.step (Timely 5)
      (Authorization.initial (Table.empty.upsert 7 3) ⟨∅, ∅⟩) grantedMeanwhile := by
    refine Along.cons rfl trivial (Along.cons rfl trivial (Along.cons rfl trivial (Along.cons rfl
      trivial (Along.cons rfl trivial (Along.cons rfl ?_ (Along.cons rfl trivial (Along.cons rfl
      trivial (Along.cons rfl trivial (Along.cons rfl trivial (Along.cons rfl trivial
      (Along.cons rfl ?_ trivial)))))))))))
    all_goals
      intro load hload
      cases hload
      decide
  obtain ⟨s, hs, heq⟩ := Option.map_eq_some_iff.mp hrun
  simp only [Prod.mk.injEq] at heq
  obtain ⟨hcached, hchanged, hnow⟩ := heq
  have hlag : s.changedAt + CACHE_TTL + 5 < s.now := by
    rw [hchanged, hnow]
    decide
  refine ⟨s, hs, by decide, ?_⟩
  exact (permission_lag htimely hs (Or.inl hcached) hlag .ChatCreate).mp (by decide)

end Chahua.Auth.Permissions
