import Chahua.Framework.Text
import Chahua.Markdown.Preview

namespace Chahua.Markdown

/-- A text that stands between what is shown: blanks, a bullet or a number. -/
def Decoration (text : List Char) : Prop :=
  (∀ c ∈ text, c = ' ') ∨ ∃ ordered itemNumber, text = bullet ordered itemNumber

/-- All of `content` in its order, and decorations. -/
inductive Decorated : List Part → List Part → Prop where
  | nil : Decorated [] []
  | part (part : Part) {content leaves : List Part} (h : Decorated content leaves) :
      Decorated (part :: content) (part :: leaves)
  | decoration {text : List Char} (htext : Decoration text) {content leaves : List Part}
      (h : Decorated content leaves) : Decorated content (.text text :: leaves)

theorem decorated_self (content : List Part) : Decorated content content := by
  induction content with
  | nil => exact .nil
  | cons part content ih => exact .part part ih

theorem Decorated.append {content leaves content' leaves' : List Part}
    (h : Decorated content leaves) (h' : Decorated content' leaves') :
    Decorated (content ++ content') (leaves ++ leaves') := by
  induction h with
  | nil => exact h'
  | part part h ih => exact .part part ih
  | decoration htext h ih => exact .decoration htext ih

def lineTags : List String := ["a", "code", "em", "s", "span", "strong"]

mutual

/-- Texts without a line break, in elements that stand in a line. -/
def Node.InLine : Node → Prop
  | .text text => '\n' ∉ text
  | .element tag _ children => tag ∈ lineTags ∧ InLineAll children
  | .mention _ _ _ _ => True
  | .widget _ _ => True

def InLineAll : List Node → Prop
  | [] => True
  | node :: nodes => node.InLine ∧ InLineAll nodes

end

/-- A hook for links that stays in the line. -/
def LineHook (options : MarkdownRenderOptions) : Prop :=
  ∀ href label token node, InLineAll label → options.renderLink href label token = some node →
    node.InLine

/-- No text of the token breaks the line; the text of a code span may. -/
def Token.Unbroken (token : Token) : Prop :=
  (token.type ≠ .codeInline → '\n' ∉ token.content) ∧
    ∀ src, token.attrString "src" = some src → '\n' ∉ src

theorem inLineAll_append {ns ms : List Node} (hn : InLineAll ns) (hm : InLineAll ms) :
    InLineAll (ns ++ ms) := by
  induction ns with
  | nil => exact hm
  | cons n ns ih => exact ⟨hn.1, ih hn.2⟩

theorem inLine_element {tag : String} {attrs : List (String × List Char)} {children : List Node}
    (htag : tag ∈ lineTags) (h : InLineAll children) :
    InLineAll [.element tag attrs children] := ⟨⟨htag, h⟩, trivial⟩

theorem Spells.chunk_subset {parts : List Part} {text chunk : List Char} (h : Spells parts text)
    (hchunk : .text chunk ∈ parts) : ∀ c ∈ chunk, c ∈ text := by
  intro c hc
  induction h with
  | nil => cases hchunk
  | text hne h ih =>
    obtain heq | hmem := List.mem_cons.mp hchunk
    · cases heq
      exact List.mem_append_left _ hc
    · exact List.mem_append_right _ (ih hmem)
  | placeholder hne hdigits h ih =>
    obtain heq | hmem := List.mem_cons.mp hchunk
    · cases heq
    · exact List.mem_append_right _ (List.mem_cons_of_mem _ (ih hmem))

section inLine

variable {options : MarkdownRenderOptions} {token : Token} {tokens : List Token}

theorem inLine_pushTextNodes {text : List Char} (h : '\n' ∉ text) :
    InLineAll (pushTextNodes options text) := by
  unfold pushTextNodes
  split
  · exact trivial
  · split
    · exact ⟨h, trivial⟩
    · have hchunks : ∀ chunk, .text chunk ∈ splitByPlaceholders text → '\n' ∉ chunk :=
        fun chunk hchunk hmem =>
          h ((spells_splitByPlaceholders text).chunk_subset hchunk '\n' hmem)
      generalize splitByPlaceholders text = parts at hchunks
      induction parts with
      | nil => exact trivial
      | cons part parts ih =>
        rw [List.flatMap_cons]
        refine inLineAll_append ?_
          (ih fun chunk hmem => hchunks chunk (List.mem_cons_of_mem _ hmem))
        cases part with
        | text chunk =>
          dsimp only
          split
          · exact trivial
          · exact ⟨hchunks chunk List.mem_cons_self, trivial⟩
        | placeholder index =>
          cases h : options.onPlaceholder index with
          | none => simp [h, InLineAll]
          | some node => simp [h, InLineAll, Node.InLine]

theorem inLine_linkNodes (hhook : LineHook options) {label : List Node} (hlabel : InLineAll label) :
    InLineAll (linkNodes options token label) := by
  unfold linkNodes
  split
  · exact hlabel
  · next href _ =>
    have hlink : ((options.renderLink href label token).getD (externalLink href label)).InLine := by
      cases h : options.renderLink href label token with
      | none => exact ⟨by decide, hlabel⟩
      | some node => exact hhook href label token node hlabel h
    split
    · next tag attrs children heq =>
      rw [heq] at hlink
      split
      · exact ⟨hlink, trivial⟩
      · exact ⟨hlink, trivial⟩
    · exact ⟨hlink, trivial⟩

theorem inLine_wrapInline (hhook : LineHook options) {children : List Node}
    (h : InLineAll children) (container : Container) :
    InLineAll (wrapInline options token children container) := by
  cases container with
  | link => exact inLine_linkNodes hhook h
  | spoiler | em | strong | s => exact inLine_element (by decide) h
  | _ => exact h

theorem newline_not_mem_spaced (text : List Char) :
    '\n' ∉ text.map fun c => if c = '\n' then ' ' else c := by
  intro hmem
  obtain ⟨c, -, hc⟩ := List.mem_map.mp hmem
  split at hc
  · cases hc
  · next hne => exact hne hc

theorem inLine_inlineNodes (hsingle : options.singleLine = true) (h : token.Unbroken) :
    InLineAll (inlineNodes options token) := by
  have hbreak : InLineAll [lineBreakNode options] := by
    simp [lineBreakNode, hsingle, InLineAll, Node.InLine]
  have hlabel : token.type = .image → '\n' ∉ imageLabel token := by
    intro htype
    unfold imageLabel
    split
    · cases hsrc : token.attrString "src" with
      | none => exact List.not_mem_nil
      | some src => exact h.2 src hsrc
    · exact h.1 (by rw [htype]; nofun)
  unfold inlineNodes
  split
  · exact hbreak
  · exact hbreak
  · refine inLine_element (by decide) ⟨?_, trivial⟩
    rw [codeText, if_pos hsingle]
    exact newline_not_mem_spaced token.content
  · next htype =>
    unfold imageNodes
    split
    · exact inLine_element (by decide) ⟨hlabel htype, trivial⟩
    · split
      · exact trivial
      · exact ⟨hlabel htype, trivial⟩
  · next hcode _ => exact inLine_pushTextNodes (h.1 hcode)

theorem inLine_renderInlineTokens (hsingle : options.singleLine = true)
    (hhook : LineHook options) (tokens : List Token) (h : ∀ token ∈ tokens, token.Unbroken) :
    InLineAll (renderInlineTokens options tokens) := by
  induction tokens using renderInlineTokens.induct with
  | case1 =>
    rw [renderInlineTokens]
    trivial
  | case2 token tokens c htype closeIndex ihinner ihrest =>
    rw [renderInlineTokens]
    simp only [htype]
    have hinner := ihinner fun token hmem =>
      h token (List.mem_cons_of_mem _ (List.mem_of_mem_take hmem))
    have hrest := ihrest fun token hmem =>
      h token (List.mem_cons_of_mem _ (List.mem_of_mem_drop hmem))
    exact inLineAll_append (inLine_wrapInline hhook hinner c) hrest
  | case3 token tokens htype ih =>
    rw [renderInlineTokens]
    split
    · next c htype' => exact absurd htype' (htype c)
    · exact inLineAll_append (inLine_inlineNodes hsingle (h token List.mem_cons_self))
        (ih fun token hmem => h token (List.mem_cons_of_mem _ hmem))

end inLine

/-- What a block token has to show in a preview. -/
def previewContent (options : MarkdownRenderOptions) (token : BlockToken) : List Part :=
  match token.type with
  | .fence | .codeBlock => chunkOf (codePreview token.content)
  | .inline => (token.children.getD []).flatMap (inlineContent options)
  | _ => []

/-- Hooks of a caller that keep a preview on its line. -/
structure LineHooks (options : MarkdownRenderOptions) : Prop where
  single : options.singleLine = true
  labels : KeepsLabels options
  safe : SafeHook options
  inLine : LineHook options

/-- The nodes show the content between decorations, in one line, with safe addresses only. -/
structure Shows (content : List Part) (nodes : List Node) : Prop where
  content : Decorated content (leavesAll nodes)
  safe : SafeAll nodes
  inLine : InLineAll nodes

theorem Shows.nil : Shows [] [] := ⟨.nil, trivial, trivial⟩

theorem Shows.append {content content' : List Part} {nodes nodes' : List Node}
    (h : Shows content nodes) (h' : Shows content' nodes') :
    Shows (content ++ content') (nodes ++ nodes') := by
  refine ⟨?_, safeAll_append h.safe h'.safe, inLineAll_append h.inLine h'.inLine⟩
  rw [leavesAll_append]
  exact h.content.append h'.content

theorem shows_decoration {text : List Char} (h : Decoration text) (hline : '\n' ∉ text) :
    Shows [] [.text text] := ⟨.decoration h .nil, safe_text text, ⟨hline, trivial⟩⟩

theorem Shows.element {content : List Part} {nodes : List Node} (h : Shows content nodes)
    {tag : String} (htag : tag ∈ lineTags) : Shows content [.element tag [] nodes] := by
  refine ⟨?_, safe_element (by simp) h.safe, inLine_element htag h.inLine⟩
  rw [leavesAll_single]
  exact h.content

theorem Shows.push {content : List Part} {p : Preview} (h : Shows content p.parts)
    {text : List Char} (htext : ∀ c ∈ text, c = ' ') :
    Shows content (p.push (.text text)).parts := by
  have hline : '\n' ∉ text := fun hmem => absurd (htext '\n' hmem) (by decide)
  have hpush := h.append (shows_decoration (Or.inl htext) hline)
  rwa [List.append_nil] at hpush

theorem Shows.addUnit {content unit : List Part} {p : Preview} (h : Shows content p.parts)
    {nodes : List Node} (hunit : Shows unit nodes) :
    Shows (content ++ unit) (p.addUnit nodes).parts := by
  unfold Preview.addUnit
  split
  · exact (h.push (by simp)).append hunit
  · exact h.append hunit

theorem newline_not_mem_bullet (ordered : Bool) (itemNumber : Int) :
    '\n' ∉ bullet ordered itemNumber := by
  unfold bullet
  split
  · rw [String.toList_append, List.mem_append, not_or]
    exact ⟨Framework.not_mem_toString (by decide) (by decide) itemNumber, by decide⟩
  · decide

/-- What stands in a heading is inline. -/
def PlainHeadings (tokens : List BlockToken) : Prop :=
  ∀ first inner last, (first :: (inner ++ [last])) <:+: tokens →
    first.type = .opening (.other "heading") → last.type = .closing (.other "heading") →
    Balanced .blocks inner → ∀ token ∈ inner, token.type = .inline

theorem PlainHeadings.of_part {tokens part : List BlockToken} (h : PlainHeadings tokens)
    (hwhole : part <:+: tokens) : PlainHeadings part :=
  fun first inner last hpart => h first inner last (hpart.trans hwhole)

theorem container_parts {first last : BlockToken} (inner rest : List BlockToken) :
    inner <:+: first :: (inner ++ last :: rest) ∧ rest <:+: first :: (inner ++ last :: rest) ∧
      first :: (inner ++ [last]) <:+: first :: (inner ++ last :: rest) :=
  ⟨⟨[first], last :: rest, by simp⟩, ⟨first :: (inner ++ [last]), [], by simp⟩,
    ⟨[], rest, by simp⟩⟩

/-- No text of the stream's lines breaks them. -/
def UnbrokenLines (tokens : List BlockToken) : Prop :=
  ∀ token ∈ tokens, ∀ child ∈ token.children.getD [], child.Unbroken

theorem balanced_lines {level : Level} {tokens : List BlockToken} (h : Balanced level tokens)
    (hlevel : level = .blocks) (hinline : ∀ token ∈ tokens, token.type = .inline) :
    Balanced .lines tokens := by
  induction h with
  | nil => exact .nil
  | line => cases hlevel
  | item => cases hlevel
  | single hplain hchildren h ih =>
    have htype := hinline _ List.mem_cons_self
    exact .line htype (hchildren htype)
      (ih hlevel fun token hmem => hinline token (List.mem_cons_of_mem _ hmem))
  | container hfirst =>
    have htype := hinline _ List.mem_cons_self
    rw [hfirst] at htype
    cases htype

section previewBlocks

variable {numberOf : List Char → Option Int} {options : MarkdownRenderOptions}
  {token : BlockToken} {tokens : List BlockToken}

theorem lines_inline (h : Balanced .lines tokens) : ∀ token ∈ tokens, token.type = .inline := by
  generalize hlevel : Level.lines = level at h
  induction h with
  | nil => exact fun _ hmem => absurd hmem List.not_mem_nil
  | line htype hchildren h ih =>
    intro token hmem
    obtain rfl | hmem := List.mem_cons.mp hmem
    · exact htype
    · exact ih hlevel token hmem
  | item => cases hlevel
  | single => cases hlevel
  | container => cases hlevel

theorem shows_lines (hooks : LineHooks options) (h : Balanced .lines tokens)
    (hunbroken : UnbrokenLines tokens) :
    Shows (tokens.flatMap (previewContent options)) (blockInlineContent options tokens) := by
  have hinline := lines_inline h
  refine ⟨?_, safe_renderInlineTokens hooks.safe _, ?_⟩
  · rw [leaves_blockInlineContent hooks.labels h]
    have hcontent : tokens.flatMap (blockContent options) =
        tokens.flatMap (previewContent options) := by
      refine List.flatMap_congr fun token hmem => ?_
      simp only [blockContent, previewContent, hinline token hmem]
    rw [hcontent]
    exact decorated_self _
  · refine inLine_renderInlineTokens hooks.single hooks.inLine _ fun child hchild => ?_
    obtain ⟨token, hmem, hchild⟩ := List.mem_flatMap.mp hchild
    rw [if_pos (hinline token hmem)] at hchild
    exact hunbroken token hmem child hchild

theorem shows_previewSingle (hooks : LineHooks options) (hplain : token.type.Plain)
    (hchildren : token.type = .inline → Nested Token.type (token.children.getD []))
    (hunbroken : ∀ child ∈ token.children.getD [], child.Unbroken) {content : List Part}
    {p : Preview} (h : Shows content p.parts) :
    Shows (content ++ previewContent options token) (previewSingle options p token).parts := by
  have hcode : Shows (content ++ chunkOf (codePreview token.content))
      (if codePreview token.content = [] then p
        else p.addUnit [.element "code" [] [.text (codePreview token.content)]]).parts := by
    unfold chunkOf
    split
    · rwa [List.append_nil]
    · have htext : Shows [.text (codePreview token.content)]
          [.text (codePreview token.content)] :=
        ⟨decorated_self _, safe_text _, ⟨newline_not_mem_spaced _, trivial⟩⟩
      exact h.addUnit (htext.element (by decide))
  unfold previewSingle previewContent
  cases htype : token.type with
  | opening c => exact absurd htype (hplain c).1
  | closing c => exact absurd htype (hplain c).2
  | chatGap =>
    rw [List.append_nil]
    exact h.push (by simp)
  | fence | codeBlock => exact hcode
  | inline =>
    refine h.addUnit ⟨?_, safe_renderInlineTokens hooks.safe _,
      inLine_renderInlineTokens hooks.single hooks.inLine _ hunbroken⟩
    rw [leaves_renderInlineTokens hooks.labels (hchildren htype)]
    exact decorated_self _
  | _ => rwa [List.append_nil]

theorem flatMap_container {first last : BlockToken} {inner rest : List BlockToken} {c : Container}
    (hfirst : first.type = .opening c) (hlast : last.type = .closing c) :
    (first :: (inner ++ last :: rest)).flatMap (previewContent options) =
      inner.flatMap (previewContent options) ++ rest.flatMap (previewContent options) := by
  rw [List.flatMap_cons, List.flatMap_append, List.flatMap_cons]
  simp only [previewContent, hfirst, hlast, List.nil_append]

theorem previewLoop_plain (hplain : token.type.Plain) (p : Preview) :
    previewLoop numberOf options p (token :: tokens) =
      previewLoop numberOf options (previewSingle options p token) tokens := by
  rw [previewLoop]
  split
  · next c htype => exact absurd htype (hplain c).1
  · rfl

/-- A balanced stream adds what its tokens have to show. -/
theorem shows_previewLoop (hooks : LineHooks options) {level : Level} (h : Balanced level tokens)
    (hheadings : PlainHeadings tokens) (hunbroken : UnbrokenLines tokens) :
    (level = .blocks → ∀ p content, Shows content p.parts →
      Shows (content ++ tokens.flatMap (previewContent options))
        (previewLoop numberOf options p tokens).parts) ∧
    (level = .items → ∀ ordered itemNumber p content, Shows content p.parts →
      Shows (content ++ tokens.flatMap (previewContent options))
        (previewItems numberOf options ordered itemNumber p tokens).parts) := by
  induction h with
  | nil =>
    constructor
    · intro _ p content hp
      simpa only [previewLoop, List.flatMap_nil, List.append_nil] using hp
    · intro _ ordered itemNumber p content hp
      simpa only [previewItems, List.flatMap_nil, List.append_nil] using hp
  | line => exact ⟨Level.noConfusion, Level.noConfusion⟩
  | @item first last inner rest hfirst hlast hinner hrest ihinner ihrest =>
    refine ⟨Level.noConfusion, fun _ ordered itemNumber p content hp => ?_⟩
    obtain ⟨hpart, hpart', -⟩ := @container_parts first last inner rest
    have hitem := (ihinner (hheadings.of_part hpart)
      (fun token hmem => hunbroken token (hpart.subset hmem))).1 rfl .empty [] .nil
    have hbullet : Shows [] [.text (bullet ordered itemNumber)] :=
      shows_decoration (Or.inr ⟨ordered, itemNumber, rfl⟩)
        (newline_not_mem_bullet ordered itemNumber)
    obtain ⟨htake, hdrop⟩ := slice_container rest hfirst hlast hinner
    have hrest := (ihrest (hheadings.of_part hpart')
      (fun token hmem => hunbroken token (hpart'.subset hmem))).2 rfl ordered (itemNumber + 1) _ _
        (hp.addUnit (hbullet.append hitem))
    rw [flatMap_container hfirst hlast, previewItems, if_neg (not_not.mpr hfirst)]
    dsimp only
    rw [htake, hdrop, ← List.append_assoc]
    exact hrest
  | @single token tokens hplain hchildren h ih =>
    refine ⟨fun _ p content hp => ?_, Level.noConfusion⟩
    have hpart : tokens <:+: token :: tokens := (List.suffix_cons token tokens).isInfix
    have htoken := shows_previewSingle hooks hplain hchildren
      (hunbroken token List.mem_cons_self) hp
    have hrest := (ih (hheadings.of_part hpart)
      (fun token hmem => hunbroken token (hpart.subset hmem))).1 rfl _ _ htoken
    rwa [previewLoop_plain hplain, List.flatMap_cons, ← List.append_assoc]
  | @container first last inner rest c hfirst hlast hinner hrest ihinner ihrest =>
    refine ⟨fun _ p content hp => ?_, Level.noConfusion⟩
    obtain ⟨hpart, hpart', hpart''⟩ := @container_parts first last inner rest
    have hlines : UnbrokenLines inner := fun token hmem => hunbroken token (hpart.subset hmem)
    have ihinner := ihinner (hheadings.of_part hpart) hlines
    obtain ⟨htake, hdrop⟩ := slice_container rest hfirst hlast hinner
    have hnext : ∀ q : Preview,
        Shows (content ++ inner.flatMap (previewContent options)) q.parts →
        Shows (content ++ (inner.flatMap (previewContent options) ++
          rest.flatMap (previewContent options))) (previewLoop numberOf options q rest).parts := by
      intro q hq
      rw [← List.append_assoc]
      exact (ihrest (hheadings.of_part hpart')
        (fun token hmem => hunbroken token (hpart'.subset hmem))).1 rfl q _ hq
    rw [flatMap_container hfirst hlast, previewLoop]
    simp only [hfirst]
    rw [htake, hdrop]
    refine hnext _ ?_
    cases c with
    | paragraph => exact hp.addUnit (shows_lines hooks hinner hlines)
    | bulletList => exact ihinner.2 rfl false 1 p content hp
    | orderedList => exact ihinner.2 rfl true (firstNumber numberOf first.toToken) p content hp
    | other name =>
      have hblocks := ihinner.1 rfl .empty [] .nil
      split
      · next heq => cases heq
      · next heq =>
        have hheading := hheadings first inner last hpart'' (hfirst.trans (by rw [heq]))
          (hlast.trans (by rw [heq])) hinner
        have hshown := shows_lines hooks (balanced_lines hinner rfl hheading) hlines
        exact hp.addUnit (hshown.element (by decide))
      · next heq => cases heq
      · next heq => cases heq
      · exact hp.addUnit hblocks
    | _ => exact hp.addUnit (ihinner.1 rfl .empty [] .nil)

end previewBlocks

/-- The preview of a text is one line: nothing that its tokens have to show is lost or moved, only
blanks, bullets and numbers are added, no break and no block stands in it, and every address in it
is a safe one. -/
theorem preview_shows_text {numberOf : List Char → Option Int} {options : MarkdownRenderOptions}
    (hlabels : KeepsLabels options) (hsafe : SafeHook options) (hline : LineHook options)
    {parse : List Char → List BlockToken} {text : List Char} (htext : text ≠ [])
    (hparse : Balanced .blocks (parse text)) (hheadings : PlainHeadings (parse text))
    (hunbroken : UnbrokenLines (parse text)) :
    Decorated
        ((parse text).flatMap (previewContent { options with singleLine := true }))
        (leavesAll (renderMarkdownPreview numberOf options parse text)) ∧
      SafeAll (renderMarkdownPreview numberOf options parse text) ∧
      InLineAll (renderMarkdownPreview numberOf options parse text) := by
  have hooks : LineHooks { options with singleLine := true } := ⟨rfl, hlabels, hsafe, hline⟩
  have hshows : Shows _ (previewLoop numberOf _ .empty (parse text)).parts :=
    (shows_previewLoop hooks hparse hheadings hunbroken).1 rfl .empty [] .nil
  rw [renderMarkdownPreview, if_neg htext]
  exact ⟨hshows.content, hshows.safe, hshows.inLine⟩

/-- A heading of the bold line, and two lines of code. -/
def headedCode : List BlockToken :=
  [⟨plainToken (.opening (.other "heading")) [], none⟩, ⟨plainToken .inline [], some boldLine⟩,
    ⟨plainToken (.closing (.other "heading")) [], none⟩,
    ⟨plainToken .fence ['a', '\n', 'b', '\n'], none⟩]

theorem balanced_headedCode : Balanced .blocks headedCode := by
  have hline : Balanced .blocks [⟨plainToken .inline [], some boldLine⟩] :=
    .single (fun _ => ⟨nofun, nofun⟩) (fun _ => nested_boldLine) .nil
  have hcode : Balanced .blocks [⟨plainToken .fence ['a', '\n', 'b', '\n'], none⟩] :=
    .single (fun _ => ⟨nofun, nofun⟩) nofun .nil
  exact @Balanced.container ⟨plainToken (.opening (.other "heading")) [], none⟩
    ⟨plainToken (.closing (.other "heading")) [], none⟩ _ _ (.other "heading") rfl rfl hline hcode

theorem plainHeadings_headedCode : PlainHeadings headedCode := by
  intro first inner last hpart hfirst hlast _ token htoken
  obtain ⟨before, after, heq⟩ := hpart
  obtain _ | ⟨x, before⟩ := before
  · obtain _ | ⟨y, inner⟩ := inner
    · cases htoken
    · obtain _ | ⟨z, inner⟩ := inner
      · simp only [headedCode, List.nil_append, List.cons_append, List.cons.injEq] at heq
        rw [List.mem_singleton.mp htoken, heq.2.1]
        rfl
      · have hlater : last ∈ headedCode.drop 3 := by
          have hdrop := congrArg (List.drop 3) heq
          simp only [List.nil_append, List.cons_append, List.drop_succ_cons,
            List.drop_zero] at hdrop
          rw [← hdrop]
          simp
        rw [List.mem_singleton.mp hlater] at hlast
        cases hlast
  · have hlater : first ∈ headedCode.drop 1 := by
      have hdrop := congrArg (List.drop 1) heq
      simp only [List.cons_append, List.drop_succ_cons, List.drop_zero] at hdrop
      rw [← hdrop]
      simp
    have htypes : ∀ token ∈ headedCode.drop 1,
        token.type ≠ .opening (.other "heading") := by decide
    exact absurd hfirst (htypes first hlater)

theorem preview_shows_text_headedCode :
    Decorated [.text ['h', 'i'], .text ['m'], .text ['a', ' ', 'b']]
        (leavesAll (renderMarkdownPreview (fun _ => none) noHooks (fun _ => headedCode) ['#'])) ∧
      SafeAll (renderMarkdownPreview (fun _ => none) noHooks (fun _ => headedCode) ['#']) ∧
      InLineAll (renderMarkdownPreview (fun _ => none) noHooks (fun _ => headedCode) ['#']) := by
  have hunbroken : UnbrokenLines headedCode := by
    have hchildren : ∀ token ∈ headedCode, ∀ child ∈ token.children.getD [],
        '\n' ∉ child.content ∧ child.attrString "src" = none := by decide
    intro token htoken child hchild
    obtain ⟨hcontent, hsrc⟩ := hchildren token htoken child hchild
    refine ⟨fun _ => hcontent, fun src h => ?_⟩
    rw [hsrc] at h
    cases h
  have h := @preview_shows_text (fun _ => none) noHooks nofun nofun nofun (fun _ => headedCode)
    ['#'] (by decide) balanced_headedCode plainHeadings_headedCode hunbroken
  have hword : ∀ options c cs, containsPlaceholder (c :: cs) = false →
      textContent options (c :: cs) = [.text (c :: cs)] := by
    intro options c cs h
    rw [textContent, splitByPlaceholders_plain h]
    rfl
  have hcode : codePreview ['a', '\n', 'b', '\n'] = ['a', ' ', 'b'] := by decide
  refine ⟨?_, h.2⟩
  have hcontent := h.1
  simp only [headedCode, boldLine, plainToken, List.flatMap_cons, List.flatMap_nil,
    previewContent, inlineContent, Option.getD_some, hword _ _ _ (by decide : containsPlaceholder
      ['h', 'i'] = false), hword _ _ _ (by decide : containsPlaceholder ['m'] = false),
    hcode, chunkOf, List.nil_append, List.append_nil, List.cons_append] at hcontent
  exact hcontent

end Chahua.Markdown
