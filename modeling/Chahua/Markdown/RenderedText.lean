import Chahua.Markdown.SafeLinks
import Mathlib

namespace Chahua.Markdown

open Mentions (MacroMatch matchAll macroText)

mutual

/-- The text leaves of a node in order; a restored placeholder stands for itself. -/
def Node.leaves : Node → List Part
  | .text text => [.text text]
  | .element _ _ children => leavesAll children
  | .mention _ _ _ _ => []
  | .widget index _ => [.placeholder index]

def leavesAll : List Node → List Part
  | [] => []
  | node :: nodes => node.leaves ++ leavesAll nodes

end

def TokenType.Plain (type : TokenType) : Prop :=
  ∀ container, type ≠ .opening container ∧ type ≠ .closing container

/-- A stream whose containers are closed in order. -/
inductive Nested {α : Type*} (type : α → TokenType) : List α → Prop where
  | nil : Nested type []
  | single {token : α} {tokens : List α} (hplain : (type token).Plain) (h : Nested type tokens) :
      Nested type (token :: tokens)
  | container {first last : α} {inner rest : List α} {c : Container}
      (hfirst : type first = .opening c) (hlast : type last = .closing c)
      (hinner : Nested type inner) (hrest : Nested type rest) :
      Nested type (first :: (inner ++ last :: rest))

inductive Level where
  | lines | items | blocks

/-- What stands in a container of the block stream. -/
def Container.inside : Container → Level
  | .paragraph => .lines
  | .bulletList | .orderedList => .items
  | _ => .blocks

/-- A balanced stream of block tokens: paragraphs hold inline tokens, and lists their items. -/
inductive Balanced : Level → List BlockToken → Prop where
  | nil {level : Level} : Balanced level []
  | line {token : BlockToken} {tokens : List BlockToken} (htype : token.type = .inline)
      (hchildren : Nested Token.type (token.children.getD [])) (h : Balanced .lines tokens) :
      Balanced .lines (token :: tokens)
  | item {first last : BlockToken} {inner rest : List BlockToken}
      (hfirst : first.type = .opening .listItem) (hlast : last.type = .closing .listItem)
      (hinner : Balanced .blocks inner) (hrest : Balanced .items rest) :
      Balanced .items (first :: (inner ++ last :: rest))
  | single {token : BlockToken} {tokens : List BlockToken} (hplain : token.type.Plain)
      (hchildren : token.type = .inline → Nested Token.type (token.children.getD []))
      (h : Balanced .blocks tokens) : Balanced .blocks (token :: tokens)
  | container {first last : BlockToken} {inner rest : List BlockToken} {c : Container}
      (hfirst : first.type = .opening c) (hlast : last.type = .closing c)
      (hinner : Balanced c.inside inner) (hrest : Balanced .blocks rest) :
      Balanced .blocks (first :: (inner ++ last :: rest))

def restored (options : MarkdownRenderOptions) : Part → Bool
  | .text _ => true
  | .placeholder index => (options.onPlaceholder index).isSome

def textContent (options : MarkdownRenderOptions) (text : List Char) : List Part :=
  (splitByPlaceholders text).filter (restored options)

/-- What an inline token has to show. -/
def inlineContent (options : MarkdownRenderOptions) (token : Token) : List Part :=
  match token.type with
  | .opening _ | .closing _ => []
  | .softbreak | .hardbreak => if options.singleLine then [.text [' ']] else []
  | .codeInline => [.text (codeText options token.content)]
  | .image => chunkOf (imageLabel token)
  | _ => textContent options token.content

/-- What a block token has to show. -/
def blockContent (options : MarkdownRenderOptions) (token : BlockToken) : List Part :=
  match token.type with
  | .opening _ | .closing _ | .chatGap => []
  | .fence | .codeBlock => [.text token.content]
  | .inline => (token.children.getD []).flatMap (inlineContent options)
  | _ => textContent options token.content

/-- A hook for links that shows its label. -/
def KeepsLabels (options : MarkdownRenderOptions) : Prop :=
  ∀ href label token node, options.renderLink href label token = some node →
    node.leaves = leavesAll label

theorem leavesAll_append (ns ms : List Node) :
    leavesAll (ns ++ ms) = leavesAll ns ++ leavesAll ms := by
  induction ns with
  | nil => rfl
  | cons n ns ih => rw [List.cons_append, leavesAll, leavesAll, ih, List.append_assoc]

theorem leavesAll_single (n : Node) : leavesAll [n] = n.leaves := by
  simp only [leavesAll, List.append_nil]

section matching

variable {α : Type*} {type : α → TokenType} {tokens inner : List α}

/-- The search for the end of a container passes what is nested in it. -/
theorem Nested.matchEnd_append (h : Nested type tokens) (c : Container) (depth : Nat)
    (types : List TokenType) :
    matchEnd (.opening c) (.closing c) (depth + 1) (tokens.map type ++ types) =
      (matchEnd (.opening c) (.closing c) (depth + 1) types).map (· + tokens.length) := by
  induction h generalizing depth types with
  | nil => simp
  | single hplain h ih =>
    rw [List.map_cons, List.cons_append, matchEnd, if_neg (hplain c).1, if_neg (hplain c).2, ih,
      Option.map_map]
    rfl
  | @container first last inner rest c' hfirst hlast hinner hrest ihinner ihrest =>
    rw [List.map_cons, List.map_append, List.map_cons, List.cons_append, List.append_assoc,
      List.cons_append, matchEnd, hfirst, hlast]
    by_cases hc : c' = c
    · subst hc
      rw [if_pos rfl, ihinner, matchEnd, if_neg (by simp), if_pos rfl, if_neg (by omega),
        Nat.add_sub_cancel, ihrest]
      simp only [Option.map_map, List.length_cons, List.length_append]
      congr 1
      funext n
      simp only [Function.comp_apply]
      omega
    · have hopen : TokenType.opening c' ≠ .opening c := fun h => hc (TokenType.opening.inj h)
      have hclose : TokenType.closing c' ≠ .closing c := fun h => hc (TokenType.closing.inj h)
      rw [if_neg hopen, if_neg (by simp), ihinner, matchEnd, if_neg (by simp), if_neg hclose,
        ihrest]
      simp only [Option.map_map, List.length_cons, List.length_append]
      congr 1
      funext n
      simp only [Function.comp_apply]
      omega

theorem Nested.findMatchingTokenEnd_eq (h : Nested type inner) (rest : List α) {first last : α}
    {c : Container}
    (hfirst : type first = .opening c) (hlast : type last = .closing c) :
    findMatchingTokenEnd ((first :: (inner ++ last :: rest)).map type) = inner.length + 1 := by
  have hnested := h.matchEnd_append c 0 ((last :: rest).map type)
  rw [List.map_cons] at hnested
  rw [List.map_cons, List.map_append, List.map_cons, findMatchingTokenEnd, hfirst,
    TokenType.closed, matchEnd, if_pos rfl, hnested, hlast, matchEnd, if_neg (by simp),
    if_pos rfl, if_pos rfl]
  simp

end matching

section inline

variable {options : MarkdownRenderOptions} {token : Token} {tokens : List Token}

theorem leaves_pushTextNodes (text : List Char) :
    leavesAll (pushTextNodes options text) = textContent options text := by
  have hparts : ∀ parts : List Part, .text [] ∉ parts →
      leavesAll (parts.flatMap fun
        | .text chunk => if chunk = [] then [] else [.text chunk]
        | .placeholder index => (options.onPlaceholder index).toList.map (.widget index)) =
      parts.filter (restored options) := by
    intro parts hne
    induction parts with
    | nil => rfl
    | cons part parts ih =>
      rw [List.mem_cons, not_or] at hne
      obtain ⟨hpart, hparts⟩ := hne
      rw [List.flatMap_cons, leavesAll_append, ih hparts, List.filter_cons]
      cases part with
      | text chunk =>
        have hchunk : chunk ≠ [] := fun hnil => hpart (by rw [hnil])
        simp [hchunk, restored, leavesAll, Node.leaves]
      | placeholder index =>
        cases h : options.onPlaceholder index <;> simp [h, restored, leavesAll, Node.leaves]
  unfold pushTextNodes textContent
  split
  · next hnil =>
    rw [hnil, splitByPlaceholders_plain rfl]
    rfl
  · next hne =>
    split
    · next hplain =>
      rw [splitByPlaceholders_plain (by simpa using hplain), chunkOf, if_neg hne]
      rfl
    · exact hparts _ (nonempty_of_spells (spells_splitByPlaceholders text))

theorem leaves_linkNodes (hlabels : KeepsLabels options) (label : List Node) :
    leavesAll (linkNodes options token label) = leavesAll label := by
  unfold linkNodes
  split
  · rfl
  · next href _ =>
    have hlink : ((options.renderLink href label token).getD (externalLink href label)).leaves =
        leavesAll label := by
      cases h : options.renderLink href label token with
      | none => rfl
      | some node => exact hlabels href label token node h
    split
    · next tag attrs children heq =>
      rw [heq] at hlink
      split <;> rw [leavesAll_single] <;> exact hlink
    · rw [leavesAll_single]
      exact hlink

theorem leaves_wrapInline (hlabels : KeepsLabels options) (children : List Node)
    (container : Container) :
    leavesAll (wrapInline options token children container) = leavesAll children := by
  cases container with
  | link => exact leaves_linkNodes hlabels children
  | _ => simp only [wrapInline, leavesAll, Node.leaves, List.append_nil]

theorem leaves_imageNodes (token : Token) :
    leavesAll (imageNodes token) = chunkOf (imageLabel token) := by
  unfold imageNodes chunkOf
  split
  · next href hsrc =>
    obtain ⟨hsome, hsafe⟩ := Option.filter_eq_some_iff.mp hsrc
    have hlabel : imageLabel token ≠ [] := by
      unfold imageLabel
      split
      · rw [hsome, Option.getD_some]
        intro hnil
        rw [hnil] at hsafe
        exact absurd hsafe (by decide)
      · assumption
    rw [if_neg hlabel]
    rfl
  · split <;> rfl

theorem leaves_inlineNodes (hplain : token.type.Plain) :
    leavesAll (inlineNodes options token) = inlineContent options token := by
  unfold inlineNodes inlineContent
  cases htype : token.type with
  | opening c => exact absurd htype (hplain c).1
  | closing c => exact absurd htype (hplain c).2
  | softbreak | hardbreak =>
    dsimp only
    unfold lineBreakNode
    split <;> rfl
  | codeInline => rfl
  | image => exact leaves_imageNodes token
  | _ => exact leaves_pushTextNodes token.content

theorem renderInlineTokens_plain (hplain : token.type.Plain) :
    renderInlineTokens options (token :: tokens) =
      inlineNodes options token ++ renderInlineTokens options tokens := by
  rw [renderInlineTokens]
  split
  · next c htype => exact absurd htype (hplain c).1
  · rfl

theorem renderInlineTokens_container {first last : Token} {inner rest : List Token}
    {c : Container} (hfirst : first.type = .opening c) (hlast : last.type = .closing c)
    (hinner : Nested Token.type inner) :
    renderInlineTokens options (first :: (inner ++ last :: rest)) =
      wrapInline options first (renderInlineTokens options inner) c ++
        renderInlineTokens options rest := by
  have hclose := hinner.findMatchingTokenEnd_eq rest hfirst hlast
  rw [renderInlineTokens]
  split
  · next c' htype =>
    obtain rfl := TokenType.opening.inj (htype.symm.trans hfirst)
    dsimp only
    rw [hclose, Nat.add_sub_cancel, List.take_left]
    congr 2
    rw [List.drop_append]
    simp
  · next hnot => exact absurd hfirst (hnot c)

/-- An inline stream shows what its tokens have to show. -/
theorem leaves_renderInlineTokens (hlabels : KeepsLabels options) (h : Nested Token.type tokens) :
    leavesAll (renderInlineTokens options tokens) = tokens.flatMap (inlineContent options) := by
  induction h with
  | nil => simp only [renderInlineTokens, leavesAll, List.flatMap_nil]
  | single hplain h ih =>
    rw [renderInlineTokens_plain hplain, leavesAll_append, leaves_inlineNodes hplain, ih,
      List.flatMap_cons]
  | container hfirst hlast hinner hrest ihinner ihrest =>
    rw [renderInlineTokens_container hfirst hlast hinner, leavesAll_append,
      leaves_wrapInline hlabels, ihinner, ihrest, List.flatMap_cons, List.flatMap_append,
      List.flatMap_cons]
    simp only [inlineContent, hfirst, hlast, List.nil_append]

end inline

section blocks

variable {numberOf : List Char → Option Int} {options : MarkdownRenderOptions}
  {token : BlockToken} {tokens : List BlockToken}

theorem Balanced.nested {level : Level} (h : Balanced level tokens) :
    Nested (fun token : BlockToken => token.type) tokens := by
  induction h with
  | nil => exact .nil
  | line htype hchildren h ih =>
    refine .single (fun c => ?_) ih
    rw [htype]
    exact ⟨nofun, nofun⟩
  | item hfirst hlast hinner hrest ihinner ihrest => exact .container hfirst hlast ihinner ihrest
  | single hplain hchildren h ih => exact .single hplain ih
  | container hfirst hlast hinner hrest ihinner ihrest =>
    exact .container hfirst hlast ihinner ihrest

theorem nested_append {α : Type*} {type : α → TokenType} {xs ys : List α} (hx : Nested type xs)
    (hy : Nested type ys) : Nested type (xs ++ ys) := by
  induction hx with
  | nil => exact hy
  | single hplain h ih => exact .single hplain ih
  | container hfirst hlast hinner hrest ihinner ihrest =>
    rw [List.cons_append, List.append_assoc, List.cons_append]
    exact .container hfirst hlast hinner ihrest

/-- The lines of a paragraph show what their tokens have to show. -/
theorem leaves_blockInlineContent (hlabels : KeepsLabels options)
    (h : Balanced .lines tokens) :
    leavesAll (blockInlineContent options tokens) = tokens.flatMap (blockContent options) := by
  have hlines : Nested Token.type (tokens.flatMap fun token =>
        if token.type = .inline then token.children.getD [] else [token.toToken]) ∧
      (tokens.flatMap fun token =>
        if token.type = .inline then token.children.getD [] else [token.toToken]).flatMap
          (inlineContent options) = tokens.flatMap (blockContent options) := by
    generalize hlevel : Level.lines = level at h
    induction h with
    | nil => exact ⟨.nil, rfl⟩
    | line htype hchildren h ih =>
      obtain ⟨hnested, hcontent⟩ := ih hlevel
      rw [List.flatMap_cons, if_pos htype]
      refine ⟨nested_append hchildren hnested, ?_⟩
      rw [List.flatMap_append, hcontent, List.flatMap_cons]
      simp only [blockContent, htype]
    | item => cases hlevel
    | single => cases hlevel
    | container => cases hlevel
  rw [blockInlineContent, leaves_renderInlineTokens hlabels hlines.1, hlines.2]

theorem leaves_blockNodes (hlabels : KeepsLabels options) (hplain : token.type.Plain)
    (hchildren : token.type = .inline → Nested Token.type (token.children.getD [])) :
    leavesAll (blockNodes options token) = blockContent options token := by
  have hbreaks : ∀ text : List Char,
      leavesAll (text.map fun _ => Node.element "br" [] []) = [] := by
    intro text
    induction text with
    | nil => rfl
    | cons c text ih => simpa only [List.map_cons, leavesAll, Node.leaves, List.nil_append] using ih
  unfold blockNodes blockContent
  cases htype : token.type with
  | opening c => exact absurd htype (hplain c).1
  | closing c => exact absurd htype (hplain c).2
  | chatGap =>
    dsimp only
    rw [leavesAll_single, Node.leaves, hbreaks]
  | fence | codeBlock => rfl
  | inline => exact leaves_renderInlineTokens hlabels (hchildren htype)
  | _ => exact leaves_pushTextNodes token.content

theorem slice_container (rest : List BlockToken) {first last : BlockToken}
    {inner : List BlockToken} {c : Container} {level : Level} (hfirst : first.type = .opening c)
    (hlast : last.type = .closing c) (hinner : Balanced level inner) :
    (inner ++ last :: rest).take (findMatchingTokenEnd
        ((first :: (inner ++ last :: rest)).map fun token => token.type) - 1) = inner ∧
      (inner ++ last :: rest).drop (findMatchingTokenEnd
        ((first :: (inner ++ last :: rest)).map fun token => token.type)) = rest := by
  have hclose := hinner.nested.findMatchingTokenEnd_eq rest hfirst hlast
  rw [hclose, Nat.add_sub_cancel, List.take_left, List.drop_append]
  simp

theorem renderBlocks_plain (hplain : token.type.Plain) :
    renderBlocks numberOf options (token :: tokens) =
      blockNodes options token ++ renderBlocks numberOf options tokens := by
  rw [renderBlocks]
  split
  · next c htype => exact absurd htype (hplain c).1
  · rfl

/-- A balanced block stream shows what its tokens have to show. -/
theorem leaves_renderBlocks (hlabels : KeepsLabels options) {level : Level}
    (h : Balanced level tokens) :
    (level = .blocks → leavesAll (renderBlocks numberOf options tokens) =
      tokens.flatMap (blockContent options)) ∧
    (level = .items → leavesAll (renderItems numberOf options tokens) =
      tokens.flatMap (blockContent options)) := by
  induction h with
  | nil =>
    constructor
    · intro _
      simp only [renderBlocks, leavesAll, List.flatMap_nil]
    · intro _
      simp only [renderItems, leavesAll, List.flatMap_nil]
  | line => exact ⟨Level.noConfusion, Level.noConfusion⟩
  | @item first last inner rest hfirst hlast hinner hrest ihinner ihrest =>
    refine ⟨Level.noConfusion, fun _ => ?_⟩
    obtain ⟨htake, hdrop⟩ := slice_container rest hfirst hlast hinner
    rw [renderItems, if_neg (not_not.mpr hfirst)]
    dsimp only
    rw [htake, hdrop, leavesAll, Node.leaves, ihinner.1 rfl, ihrest.2 rfl, List.flatMap_cons,
      List.flatMap_append, List.flatMap_cons]
    simp only [blockContent, hfirst, hlast, List.nil_append]
  | @single token tokens hplain hchildren h ih =>
    refine ⟨fun _ => ?_, Level.noConfusion⟩
    rw [renderBlocks_plain hplain, leavesAll_append, leaves_blockNodes hlabels hplain hchildren, ih.1 rfl,
      List.flatMap_cons]
  | @container first last inner rest c hfirst hlast hinner hrest ihinner ihrest =>
    refine ⟨fun _ => ?_, Level.noConfusion⟩
    obtain ⟨htake, hdrop⟩ := slice_container rest hfirst hlast hinner
    have hcontent : (first :: (inner ++ last :: rest)).flatMap (blockContent options) =
        inner.flatMap (blockContent options) ++ rest.flatMap (blockContent options) := by
      rw [List.flatMap_cons, List.flatMap_append, List.flatMap_cons]
      simp only [blockContent, hfirst, hlast, List.nil_append]
    rw [hcontent, renderBlocks]
    simp only [hfirst]
    rw [htake, hdrop, leavesAll_append, ihrest.1 rfl]
    congr 1
    cases c with
    | paragraph =>
      have hlines := leaves_blockInlineContent hlabels hinner
      dsimp only
      split
      · exact hlines
      · rw [leavesAll_single, Node.leaves, hlines]
    | bulletList | orderedList =>
      dsimp only
      rw [leavesAll_single, Node.leaves, ihinner.2 rfl]
    | _ =>
      dsimp only
      rw [leavesAll_single, Node.leaves, ihinner.1 rfl]

end blocks

/-- A message that types no placeholder is given back by the parts of its body, each widget once;
and a balanced stream shows what its tokens have to show, with safe addresses only. -/
theorem rendering_keeps_text (regions : List TextRegion) {message : List Char}
    (hmessage : Unmarked message) (numberOf : List Char → Option Int)
    {options : MarkdownRenderOptions} {tokens : List BlockToken} {inlines : List Token}
    (htokens : Balanced .blocks tokens) (hinlines : Nested Token.type inlines) :
    (∃ carved : List MacroMatch, carved.Sublist (matchAll message).1 ∧
      (extractMentionWidgets regions message).2 = carved.map MacroMatch.uid ∧
      Restores (carved.map MacroMatch.raw) (extractMentionWidgets regions message).1 message ∧
      ((∀ m ∈ carved, m.digits = Nat.toDigits 10 m.uid) →
        Restores ((extractMentionWidgets regions message).2.map macroText)
          (extractMentionWidgets regions message).1 message)) ∧
    (∀ text, Spells (splitByPlaceholders text) text) ∧
    (KeepsLabels options →
      leavesAll (renderBlocks numberOf options tokens) = tokens.flatMap (blockContent options) ∧
      leavesAll (renderInlineTokens options inlines) = inlines.flatMap (inlineContent options)) ∧
    (SafeHook options → SafeAll (renderBlocks numberOf options tokens) ∧
      SafeAll (renderInlineTokens options inlines)) := by
  have hrestores := restores_carve regions hmessage
  refine ⟨⟨_, carve_sublist _ _ _ _ _, rfl, hrestores, fun hcanonical => ?_⟩,
    spells_splitByPlaceholders, fun hlabels => ⟨?_, ?_⟩, fun hhook => ⟨?_, ?_⟩⟩
  · have hmacros : (extractMentionWidgets regions message).2.map macroText =
        (carve regions 0 0 (matchAll message).1 (matchAll message).2).2.map MacroMatch.raw := by
      simp only [extractMentionWidgets, List.map_map]
      refine List.map_congr_left fun m hm => ?_
      simp only [Function.comp_apply, macroText, MacroMatch.raw]
      rw [← hcanonical m hm]
    rw [hmacros]
    exact hrestores
  · exact (leaves_renderBlocks hlabels htokens).1 rfl
  · exact leaves_renderInlineTokens hlabels hinlines
  · exact safe_renderBlocks hhook tokens
  · exact safe_renderInlineTokens hhook inlines

def plainToken (type : TokenType) (content : List Char) : Token :=
  ⟨type, "", [], content, [], "", false⟩

/-- A bold word, and a link whose address is not safe. -/
def boldLine : List Token :=
  [plainToken (.opening .strong) [], plainToken .text ['h', 'i'],
    plainToken (.closing .strong) [],
    { plainToken (.opening .link) [] with attrs := [("href", .text ['/', 'm'])] },
    plainToken .text ['m'], plainToken (.closing .link) []]

def boldParagraph : List BlockToken :=
  [⟨plainToken (.opening .paragraph) [], none⟩, ⟨plainToken .inline [], some boldLine⟩,
    ⟨plainToken (.closing .paragraph) [], none⟩]

def noHooks : MarkdownRenderOptions := ⟨fun _ => none, fun _ _ _ => none, false⟩

theorem nested_boldLine : Nested Token.type boldLine := by
  have hword : ∀ content, Nested Token.type [plainToken .text content] := fun _ =>
    .single (fun _ => ⟨nofun, nofun⟩) .nil
  have hlink := @Nested.container _ Token.type
    { plainToken (.opening .link) [] with attrs := [("href", .text ['/', 'm'])] }
    (plainToken (.closing .link) []) _ _ _ rfl rfl (hword ['m']) .nil
  exact @Nested.container _ Token.type (plainToken (.opening .strong) [])
    (plainToken (.closing .strong) []) _ _ _ rfl rfl (hword ['h', 'i']) hlink

theorem balanced_boldParagraph : Balanced .blocks boldParagraph := by
  have hline : Balanced .lines [⟨plainToken .inline [], some boldLine⟩] :=
    .line rfl nested_boldLine .nil
  exact @Balanced.container ⟨plainToken (.opening .paragraph) [], none⟩
    ⟨plainToken (.closing .paragraph) [], none⟩ _ _ .paragraph rfl rfl hline .nil

theorem rendering_keeps_text_bold :
    (∃ macros, Restores macros (extractMentionWidgets [] ['a', '@', '[', 'u', 'i', 'd', ':', '7',
      ']']).1 ['a', '@', '[', 'u', 'i', 'd', ':', '7', ']']) ∧
    leavesAll (renderBlocks (fun _ => none) noHooks boldParagraph) =
      [.text ['h', 'i'], .text ['m']] ∧
    SafeAll (renderBlocks (fun _ => none) noHooks boldParagraph) := by
  have hmessage : Unmarked ['a', '@', '[', 'u', 'i', 'd', ':', '7', ']'] :=
    unmarked_of_plain (by decide)
  obtain ⟨⟨carved, -, -, hrestores, -⟩, -, hleaves, hsafe⟩ :=
    @rendering_keeps_text [] _ hmessage (fun _ => none) noHooks _ _ balanced_boldParagraph
      nested_boldLine
  have hword : ∀ c cs, containsPlaceholder (c :: cs) = false →
      textContent noHooks (c :: cs) = [.text (c :: cs)] := by
    intro c cs h
    rw [textContent, splitByPlaceholders_plain h]
    rfl
  refine ⟨⟨_, hrestores⟩, (hleaves ?_).1.trans ?_, (hsafe ?_).1⟩
  · intro href label token node h
    cases h
  · simp only [boldParagraph, boldLine, plainToken, List.flatMap_cons, List.flatMap_nil,
      blockContent, inlineContent, Option.getD_some, hword _ _ (by decide : containsPlaceholder
        ['h', 'i'] = false), hword _ _ (by decide : containsPlaceholder ['m'] = false),
      List.nil_append, List.append_nil, List.cons_append]
  · intro href label token node hhref hlabel h
    cases h

end Chahua.Markdown
