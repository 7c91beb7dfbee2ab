import Chahua.Framework.StackedKinds
import Mathlib.Data.List.TakeWhile

namespace Chahua.Navigation

open Framework

inductive PanelKind where
  | settings | profile | info | search | invites | reactions | stickers | stickerDiscovery
  | sticker | create | addFriend | join | media
  deriving DecidableEq, Repr

/-- The place of a settings page below its parent. -/
structure SettingsNode where
  parent : Option String
  deriving DecidableEq, Repr

structure PanelDefinition where
  path : String
  kind : PanelKind
  settings : Option SettingsNode
  deriving DecidableEq, Repr

def panelDefinitions : List PanelDefinition :=
  [⟨"sticker-discovery", .stickerDiscovery, none⟩,
    ⟨"media", .media, none⟩,
    ⟨"chats/chat/:id/message/:messageId/reactions", .reactions, none⟩,
    ⟨"profile", .profile, none⟩,
    ⟨"profile/:uid", .profile, none⟩,
    ⟨"profile/:uid/request/:requestId", .profile, none⟩,
    ⟨"stickers/:packId", .stickers, none⟩,
    ⟨"sticker/:stickerId", .sticker, none⟩,
    ⟨"chats/new", .create, none⟩,
    ⟨"chats/add-friend", .addFriend, none⟩,
    ⟨"chats/join", .join, none⟩,
    ⟨"chats/join/:code", .join, none⟩,
    ⟨"chats/chat/:id/stickers/:packId", .stickers, none⟩,
    ⟨"settings", .settings, some ⟨none⟩⟩,
    ⟨"settings/notifications", .settings, some ⟨some "/settings"⟩⟩,
    ⟨"settings/notifications/dm", .settings, some ⟨some "/settings/notifications"⟩⟩,
    ⟨"settings/notifications/group", .settings, some ⟨some "/settings/notifications"⟩⟩,
    ⟨"settings/general", .settings, some ⟨some "/settings"⟩⟩,
    ⟨"settings/language", .settings, some ⟨some "/settings"⟩⟩,
    ⟨"settings/advanced", .settings, some ⟨some "/settings"⟩⟩,
    ⟨"settings/friend-verification", .settings, some ⟨some "/settings/privacy"⟩⟩,
    ⟨"settings/privacy", .settings, some ⟨some "/settings"⟩⟩,
    ⟨"settings/blocked-users", .settings, some ⟨some "/settings/privacy"⟩⟩,
    ⟨"settings/presence", .settings, some ⟨some "/settings/privacy"⟩⟩,
    ⟨"settings/read-receipts", .settings, some ⟨some "/settings/privacy"⟩⟩,
    ⟨"settings/stickers", .settings, some ⟨some "/settings/general"⟩⟩,
    ⟨"settings/stickers/:packId", .settings, some ⟨some "/settings/stickers"⟩⟩,
    ⟨"chats/chat/:id/info", .info, none⟩,
    ⟨"chats/chat/:id/thread/:threadId/info", .info, none⟩,
    ⟨"chats/chat/:id/invites", .invites, none⟩,
    ⟨"chats/chat/:id/search", .search, none⟩]

/-- `split('/')`. -/
def segments : List Char → List (List Char)
  | [] => [[]]
  | c :: path =>
      if c = '/' then [] :: segments path
      else
        match segments path with
        | [] => [[c]]
        | segment :: rest => (c :: segment) :: rest

def isParameter (part : List Char) : Bool := part.head? = some ':'

def matchPanel (parts : List (List Char)) : Option PanelDefinition :=
  panelDefinitions.find? fun route =>
    decide ((segments route.path.toList).length = parts.length) &&
      ((segments route.path.toList).zip parts).all fun pair =>
        isParameter pair.1 || decide (pair.1 = pair.2)

def panelIdentity (path : List Char) : List Char := path.takeWhile (· ≠ '?')

def panelDefinition (path : List Char) : Option PanelDefinition :=
  let address := panelIdentity path
  matchPanel (segments (if address.head? = some '/' then address.tail else address))

/-- The whole path matches the pattern, every parameter by a segment that is not empty. -/
def matchesPath (pattern path : List Char) : Bool :=
  decide ((segments pattern).length = (segments path).length) &&
    ((segments pattern).zip (segments path)).all fun pair =>
      if isParameter pair.1 then decide (pair.2 ≠ []) else decide (pair.1 = pair.2)

def settingsNode (path : List Char) : Option SettingsNode :=
  (panelDefinitions.find? fun definition => definition.settings.isSome &&
    matchesPath ('/' :: definition.path.toList) path).bind PanelDefinition.settings

def panelParent (path : List Char) : Option (List Char) :=
  if path ≠ panelIdentity path then some (panelIdentity path)
  else (settingsNode path).bind fun node => node.parent.map String.toList

/-- The kind of a panel; every path that is none has the same one. -/
def panelKey (path : List Char) : Option PanelKind := (panelDefinition path).map (·.kind)

/-- The parent that the loop of `appendPanel` goes on with; an empty one ends it. -/
def nextParent (path : List Char) : Option (List Char) := (panelParent path).filter (· ≠ [])

/-- The parents that the loop collects in `fuel` rounds. -/
def ancestorsUpTo : Nat → List Char → List (List Char)
  | 0, _ => []
  | fuel + 1, path =>
      match nextParent path with
      | none => []
      | some parent => parent :: ancestorsUpTo fuel parent

def ancestors (path : List Char) : List (List Char) := ancestorsUpTo 4 path

/-- The entry stays below a new panel of its kind. -/
def staysBelow (entry path : List Char) : Bool :=
  decide (entry ∈ ancestors path) && decide (panelIdentity entry ≠ panelIdentity path)

def appendPanel (paths : List (List Char)) (path : List Char) : List (List Char) :=
  layer panelKey staysBelow paths path

/-- The stack that `setPanelPaths` and `pathsFromParameters` build. -/
def panelStack (paths : List (List Char)) : List (List Char) := paths.foldl appendPanel []

/-- The groups of `setPanelPaths`: the parameters of the address, one a kind. -/
def panelGroups (paths : List (List Char)) : List (Option PanelKind × List (List Char)) :=
  kindGroups panelKey (panelStack paths)

def settingsParents : List (List Char) :=
  panelDefinitions.filterMap fun definition =>
    (definition.settings.bind SettingsNode.parent).map String.toList

theorem panelIdentity_idem (path : List Char) :
    panelIdentity (panelIdentity path) = panelIdentity path := by
  exact List.takeWhile_idem

theorem panelParent_cases {path parent : List Char} (h : panelParent path = some parent) :
    path ≠ panelIdentity path ∧ parent = panelIdentity path ∨ parent ∈ settingsParents := by
  unfold panelParent at h
  split at h
  · next hne => exact Or.inl ⟨hne, (Option.some.inj h).symm⟩
  · right
    obtain ⟨node, hnode, hparent⟩ := Option.bind_eq_some_iff.mp h
    obtain ⟨definition, hfound, hsettings⟩ := Option.bind_eq_some_iff.mp hnode
    refine List.mem_filterMap.mpr ⟨definition, List.mem_of_find?_eq_some hfound, ?_⟩
    rw [hsettings]
    exact hparent

theorem settingsParents_identity : ∀ parent ∈ settingsParents, panelIdentity parent = parent := by
  decide +kernel

theorem settingsParents_key : ∀ parent ∈ settingsParents, panelKey parent = some .settings := by
  decide +kernel

/-- The loop over the parents ends within so many rounds. -/
def climbEnds : Nat → List Char → Bool
  | 0, path => (nextParent path).isNone
  | fuel + 1, path =>
      match nextParent path with
      | none => true
      | some parent => climbEnds fuel parent

theorem climbEnds_succ {fuel : Nat} {path : List Char} (h : climbEnds fuel path = true) :
    climbEnds (fuel + 1) path = true := by
  induction fuel generalizing path with
  | zero =>
    rw [climbEnds, Option.isNone_iff_eq_none.mp h]
  | succ fuel ih =>
    rw [climbEnds] at h ⊢
    cases hparent : nextParent path with
    | none => rfl
    | some parent =>
      rw [hparent] at h
      exact ih h

theorem ancestorsUpTo_add {fuel : Nat} {path : List Char} (h : climbEnds fuel path = true)
    (more : Nat) : ancestorsUpTo (fuel + more) path = ancestorsUpTo fuel path := by
  induction fuel generalizing path with
  | zero =>
    cases more with
    | zero => rfl
    | succ more =>
      have hnone : nextParent path = none := Option.isNone_iff_eq_none.mp h
      simp [ancestorsUpTo, hnone]
  | succ fuel ih =>
    have hfuel : fuel + 1 + more = fuel + more + 1 := by omega
    rw [climbEnds] at h
    rw [hfuel, ancestorsUpTo, ancestorsUpTo]
    cases hparent : nextParent path with
    | none => rfl
    | some parent =>
      rw [hparent] at h
      exact congrArg (parent :: ·) (ih h)

theorem settingsParents_climb : ∀ parent ∈ settingsParents, climbEnds 2 parent = true := by
  decide +kernel

theorem parent_climb {fuel : Nat} {path : List Char}
    (h : ∀ parent, panelParent path = some parent → climbEnds fuel parent = true) :
    climbEnds (fuel + 1) path = true := by
  unfold climbEnds
  split
  · rfl
  · next parent hparent => exact h parent (Option.filter_eq_some_iff.mp hparent).1

/-- No path has more than four ancestors: the loop collects them all. -/
theorem climbEnds_four (path : List Char) : climbEnds 4 path = true := by
  refine parent_climb fun parent hparent => ?_
  obtain ⟨-, rfl⟩ | hmem := panelParent_cases hparent
  · refine parent_climb fun above habove => ?_
    obtain ⟨hne, -⟩ | hmem := panelParent_cases habove
    · exact absurd (panelIdentity_idem path).symm hne
    · exact settingsParents_climb above hmem
  · exact climbEnds_succ (settingsParents_climb parent hmem)

theorem ancestorsUpTo_four (path : List Char) (more : Nat) :
    ancestorsUpTo (4 + more) path = ancestors path :=
  ancestorsUpTo_add (climbEnds_four path) more

theorem mem_ancestorsUpTo {fuel : Nat} {path entry : List Char}
    (h : entry ∈ ancestorsUpTo fuel path) :
    entry = panelIdentity path ∨ entry ∈ settingsParents := by
  induction fuel generalizing path with
  | zero => cases h
  | succ fuel ih =>
    unfold ancestorsUpTo at h
    split at h
    · cases h
    · next parent hparent =>
      have hcases := panelParent_cases (Option.filter_eq_some_iff.mp hparent).1
      obtain rfl | hmem := List.mem_cons.mp h
      · exact hcases.imp And.right id
      · obtain heq | hentry := ih hmem
        · obtain ⟨-, rfl⟩ | hparent := hcases
          · exact Or.inl (heq.trans (panelIdentity_idem path))
          · exact Or.inr (by rwa [heq, settingsParents_identity parent hparent])
        · exact Or.inr hentry

/-- Only a settings page stays below another panel. -/
theorem staysBelow_settings {entry path : List Char} (h : staysBelow entry path = true) :
    panelKey entry = some .settings := by
  obtain ⟨hmem, hne⟩ := Bool.and_eq_true_iff.mp h
  obtain heq | hparent := mem_ancestorsUpTo (of_decide_eq_true hmem)
  · refine absurd ?_ (of_decide_eq_true hne)
    rw [heq, panelIdentity_idem]
  · exact settingsParents_key entry hparent

theorem layered_panelStack (paths : List (List Char)) :
    Layered panelKey staysBelow (panelStack paths) := layered_foldl paths layered_nil

theorem mem_foldl_appendPanel {paths stack : List (List Char)} {path : List Char}
    (h : path ∈ paths.foldl appendPanel stack) : path ∈ stack ∨ path ∈ paths := by
  induction paths generalizing stack with
  | nil => exact Or.inl h
  | cons first paths ih =>
    obtain hmem | hmem := ih h
    · simp only [appendPanel, layer, List.mem_append, List.mem_filter, List.mem_singleton] at hmem
      obtain (hmem | hmem) | rfl := hmem
      · exact Or.inl hmem.1
      · exact Or.inl hmem.1
      · exact Or.inr List.mem_cons_self
    · exact Or.inr (List.mem_cons_of_mem _ hmem)

/-- Whatever panels are opened in whatever order, the last is on top, nothing else is opened, and
no kind besides the settings is open twice; the panels of a kind stand together, each an ancestor of
the later ones; the address has one parameter for each kind, in their order the stack, and building
the stack anew from them gives it again. The loop over a panel's parents ends for every path. -/
theorem panel_stack_normal (paths : List (List Char)) :
    (∀ path, climbEnds 4 path = true) ∧
    ((panelGroups paths).map Prod.fst).Nodup ∧
    (panelGroups paths).flatMap Prod.snd = panelStack paths ∧
    panelStack ((panelGroups paths).flatMap Prod.snd) = panelStack paths ∧
    (panelStack paths).getLast? = paths.getLast? ∧
    (∀ path ∈ panelStack paths, path ∈ paths) ∧
    (∀ kind, kind ≠ some .settings →
      ((panelStack paths).filter fun path => decide (panelKey path = kind)).length ≤ 1) ∧
    (panelStack paths).Pairwise (fun a b => panelKey a = panelKey b →
      (∀ more, a ∈ ancestorsUpTo (4 + more) b) ∧ panelIdentity a ≠ panelIdentity b) ∧
    ∀ a b c, [a, b, c].Sublist (panelStack paths) → panelKey a = panelKey c →
      panelKey b = panelKey a := by
  have h := layered_panelStack paths
  have hopened : ∀ path ∈ panelStack paths, path ∈ paths := fun path hpath =>
    (mem_foldl_appendPanel hpath).resolve_left List.not_mem_nil
  have hgroups : (panelGroups paths).flatMap Prod.snd = panelStack paths := h.grouped.entries
  refine ⟨climbEnds_four, h.grouped.once, hgroups, ?_, getLast_foldl_layer paths, hopened, ?_, ?_,
    h.together⟩
  · rw [hgroups]
    exact h.foldl_layer
  · intro kind hkind
    have hchained := h.chained.filter fun path => decide (panelKey path = kind)
    have hown : ∀ path ∈ (panelStack paths).filter fun path => decide (panelKey path = kind),
        panelKey path = kind := fun path hpath => of_decide_eq_true (List.mem_filter.mp hpath).2
    generalize (panelStack paths).filter (fun path => decide (panelKey path = kind)) = own
      at hchained hown ⊢
    obtain _ | ⟨a, _ | ⟨b, own⟩⟩ := own
    · exact Nat.zero_le 1
    · exact Nat.le_refl 1
    · have hmem := hown
      have ha := hmem a (by simp)
      have hbelow := (List.pairwise_cons.mp hchained).1 b List.mem_cons_self
        (ha.trans (hmem b (by simp)).symm)
      exact absurd (ha.symm.trans (staysBelow_settings hbelow)) hkind
  · refine h.chained.imp fun {a b} hbelow hkind => ?_
    obtain ⟨hmem, hne⟩ := Bool.and_eq_true_iff.mp (hbelow hkind)
    refine ⟨fun more => ?_, of_decide_eq_true hne⟩
    rw [ancestorsUpTo_four]
    exact of_decide_eq_true hmem

example : panelStack ["/settings".toList, "/profile/7".toList, "/settings/general".toList,
    "/profile/8".toList] = ["/settings".toList, "/settings/general".toList,
      "/profile/8".toList] := by decide +kernel

end Chahua.Navigation
