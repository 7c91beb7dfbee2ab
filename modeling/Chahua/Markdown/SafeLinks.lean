import Chahua.Markdown.Nodes
import Mathlib

namespace Chahua.Markdown

mutual

/-- Every address outside of the widgets is a safe one. -/
def Node.Safe : Node → Prop
  | .text _ => True
  | .element _ attrs children =>
      (∀ href, ("href", href) ∈ attrs → isSafeLinkHref href = true) ∧ SafeAll children
  | .mention _ _ _ _ => True
  | .widget _ _ => True

def SafeAll : List Node → Prop
  | [] => True
  | node :: nodes => node.Safe ∧ SafeAll nodes

end

/-- A hook for links that adds no unsafe address. -/
def SafeHook (options : MarkdownRenderOptions) : Prop :=
  ∀ href label token node, isSafeLinkHref href = true → SafeAll label →
    options.renderLink href label token = some node → node.Safe

theorem safeAll_append {ns ms : List Node} (hn : SafeAll ns) (hm : SafeAll ms) :
    SafeAll (ns ++ ms) := by
  induction ns with
  | nil => exact hm
  | cons n ns ih => exact ⟨hn.1, ih hn.2⟩

variable {numberOf : List Char → Option Int} {options : MarkdownRenderOptions}

theorem safe_element {tag : String} {attrs : List (String × List Char)} {children : List Node}
    (hattrs : ∀ href, ("href", href) ∉ attrs) (h : SafeAll children) :
    SafeAll [.element tag attrs children] :=
  ⟨⟨fun href hmem => absurd hmem (hattrs href), h⟩, trivial⟩

theorem safe_text (text : List Char) : SafeAll [.text text] := ⟨trivial, trivial⟩

theorem safe_pushTextNodes (text : List Char) : SafeAll (pushTextNodes options text) := by
  unfold pushTextNodes
  split
  · exact trivial
  · split
    · exact safe_text text
    · generalize splitByPlaceholders text = parts
      induction parts with
      | nil => exact trivial
      | cons part parts ih =>
        rw [List.flatMap_cons]
        refine safeAll_append ?_ ih
        cases part with
        | text chunk =>
          dsimp only
          split
          · exact trivial
          · exact safe_text chunk
        | placeholder index =>
          cases h : options.onPlaceholder index with
          | none => simp [h, SafeAll]
          | some node => simp [h, SafeAll, Node.Safe]

theorem safe_externalLink {href : List Char} (h : isSafeLinkHref href = true)
    {children : List Node} (hchildren : SafeAll children) :
    (externalLink href children).Safe := by
  refine ⟨fun other hmem => ?_, hchildren⟩
  have heq : other = href := by simpa using hmem
  rw [heq]
  exact h

theorem href_not_mem_single {name : String} {value : List Char} (h : "href" ≠ name)
    (href : List Char) : ("href", href) ∉ [(name, value)] :=
  fun hmem => h (congrArg Prod.fst (List.mem_singleton.mp hmem))

theorem mem_of_mem_rawUrl {attrs : List (String × List Char)} {href : List Char}
    (h : ("href", href) ∈ rawUrl attrs) : ("href", href) ∈ attrs := by
  unfold rawUrl setAttr at h
  obtain h | h := List.mem_append.mp h
  · exact (List.mem_filter.mp h).1
  · exact absurd h (href_not_mem_single (by decide) href)

theorem safe_linkNodes (hhook : SafeHook options) (token : Token) {label : List Node}
    (hlabel : SafeAll label) : SafeAll (linkNodes options token label) := by
  unfold linkNodes
  split
  · exact hlabel
  · next href hsrc =>
    have hsafe : isSafeLinkHref href = true := (Option.filter_eq_some_iff.mp hsrc).2
    have hlink : ((options.renderLink href label token).getD (externalLink href label)).Safe := by
      cases h : options.renderLink href label token with
      | none => exact safe_externalLink hsafe hlabel
      | some node => exact hhook href label token node hsafe hlabel h
    split
    · next tag attrs children heq =>
      rw [heq] at hlink
      obtain ⟨hattrs, hchildren⟩ := hlink
      split
      · exact ⟨⟨fun other hmem => hattrs other (mem_of_mem_rawUrl hmem), hchildren⟩, trivial⟩
      · exact ⟨⟨hattrs, hchildren⟩, trivial⟩
    · exact ⟨hlink, trivial⟩

theorem safe_wrapInline (hhook : SafeHook options) (token : Token) {children : List Node}
    (h : SafeAll children) (container : Container) :
    SafeAll (wrapInline options token children container) := by
  cases container with
  | link => exact safe_linkNodes hhook token h
  | spoiler => exact safe_element (href_not_mem_single (by decide)) h
  | em | strong | s => exact safe_element (fun _ => List.not_mem_nil) h
  | _ => exact h

theorem safe_inlineNodes (token : Token) : SafeAll (inlineNodes options token) := by
  unfold inlineNodes
  split
  · unfold lineBreakNode
    split
    · exact safe_text _
    · exact safe_element (by simp) trivial
  · unfold lineBreakNode
    split
    · exact safe_text _
    · exact safe_element (by simp) trivial
  · exact safe_element (by simp) (safe_text _)
  · unfold imageNodes
    split
    · next href hsrc =>
      exact ⟨safe_externalLink (Option.filter_eq_some_iff.mp hsrc).2 (safe_text _), trivial⟩
    · split
      · exact trivial
      · exact safe_text _
  · exact safe_pushTextNodes _

theorem safe_renderInlineTokens (hhook : SafeHook options) (tokens : List Token) :
    SafeAll (renderInlineTokens options tokens) := by
  induction tokens using renderInlineTokens.induct with
  | case1 =>
    rw [renderInlineTokens]
    trivial
  | case2 token tokens c htype closeIndex ihinner ihrest =>
    rw [renderInlineTokens]
    simp only [htype]
    exact safeAll_append (safe_wrapInline hhook token ihinner c) ihrest
  | case3 token tokens htype ih =>
    rw [renderInlineTokens]
    split
    · next c htype' => exact absurd htype' (htype c)
    · exact safeAll_append (safe_inlineNodes token) ih

theorem languageAttrs_href (info href : List Char) : ("href", href) ∉ languageAttrs info := by
  unfold languageAttrs
  dsimp only
  split
  · exact href_not_mem_single (by decide) href
  · exact List.not_mem_nil

theorem listAttrs_href (token : Token) (href : List Char) :
    ("href", href) ∉ listAttrs numberOf token := by
  unfold listAttrs
  split
  · exact href_not_mem_single (by decide) href
  · exact List.not_mem_nil

theorem safe_blockNodes (hhook : SafeHook options) (token : BlockToken) :
    SafeAll (blockNodes options token) := by
  have hbreaks : ∀ text : List Char, SafeAll (text.map fun _ => Node.element "br" [] []) := by
    intro text
    induction text with
    | nil => exact trivial
    | cons c text ih => exact ⟨⟨by simp, trivial⟩, ih⟩
  unfold blockNodes
  split
  · exact safe_element (href_not_mem_single (by decide)) (hbreaks _)
  · exact safe_element (by simp) (safe_element (languageAttrs_href token.info) (safe_text _))
  · exact safe_element (by simp) (safe_element (languageAttrs_href token.info) (safe_text _))
  · exact safe_renderInlineTokens hhook _
  · exact safe_pushTextNodes _

/-- Every address of the rendered blocks is a safe one. -/
theorem safe_renderBlocks (hhook : SafeHook options) (tokens : List BlockToken) :
    SafeAll (renderBlocks numberOf options tokens) := by
  refine renderBlocks.induct numberOf options
    (fun tokens => SafeAll (renderBlocks numberOf options tokens))
    (fun tokens => SafeAll (renderItems numberOf options tokens)) ?_ ?_ ?_ ?_ ?_ ?_ tokens
  · rw [renderBlocks]
    trivial
  · intro token tokens c htype closeIndex ihitems ihinner ihrest
    rw [renderBlocks]
    simp only [htype]
    refine safeAll_append ?_ ihrest
    cases c with
    | paragraph =>
      have hlines : SafeAll (blockInlineContent options (tokens.take (closeIndex - 1))) :=
        safe_renderInlineTokens hhook _
      dsimp only
      split
      · exact hlines
      · exact safe_element (by simp) hlines
    | bulletList => exact safe_element (by simp) ihitems
    | orderedList => exact safe_element (listAttrs_href token.toToken) ihitems
    | _ => exact safe_element (by simp) ihinner
  · intro token tokens htype ih
    rw [renderBlocks]
    split
    · next c htype' => exact absurd htype' (htype c)
    · exact safeAll_append (safe_blockNodes hhook token) ih
  · rw [renderItems]
    trivial
  · intro token tokens htype ih
    rw [renderItems, if_pos htype]
    exact ih
  · intro token tokens htype closeIndex ihinner ihrest
    rw [renderItems, if_neg htype]
    exact ⟨⟨by simp, ihinner⟩, ihrest⟩

end Chahua.Markdown
