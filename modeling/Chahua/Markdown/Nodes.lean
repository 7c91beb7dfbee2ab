import Chahua.Markdown.Placeholders
import Chahua.Mentions.InlineFormat
import Mathlib

namespace Chahua.Markdown

/-- What the `_open` and `_close` tokens stand around. -/
inductive Container where
  | em | strong | s | spoiler | link | paragraph | bulletList | orderedList | listItem
  | other (name : String)
  deriving DecidableEq, Repr

/-- The types of the tokens; those that end in `_open` and `_close` name their container. -/
inductive TokenType where
  | opening (container : Container)
  | closing (container : Container)
  | text | softbreak | hardbreak | codeInline | image | htmlInline | inline | fence | codeBlock
  | chatGap
  | other (name : String)
  deriving DecidableEq, Repr

inductive AttrValue where
  | text (value : List Char)
  | number (value : Int)
  deriving DecidableEq, Repr

/-- A token of an inline stream. -/
structure Token where
  type : TokenType
  tag : String
  attrs : List (String × AttrValue)
  content : List Char
  info : List Char
  markup : String
  hidden : Bool
  deriving DecidableEq, Repr

/-- A token of the block stream; an `inline` one has the tokens of its text as children. -/
structure BlockToken extends Token where
  children : Option (List Token)
  deriving DecidableEq, Repr

inductive Node where
  | text (text : List Char)
  | element (tag : String) (attrs : List (String × List Char)) (children : List Node)
  | mention (uid : Nat) (name : List Char) (self clickable : Bool)
  | widget (index : Nat) (node : Node)

/-- The hooks of a caller; one that is absent gives nothing. -/
structure MarkdownRenderOptions where
  onPlaceholder : Nat → Option Node
  renderLink : List Char → List Node → Token → Option Node
  singleLine : Bool

def Token.attrString (token : Token) (name : String) : Option (List Char) :=
  match token.attrs.lookup name with
  | some (.text value) => some value
  | _ => none

def isSafeLinkHref (href : List Char) : Bool :=
  "http://".toList.isPrefixOf (href.map Char.toLower) ||
    "https://".toList.isPrefixOf (href.map Char.toLower)

def TokenType.closed : TokenType → TokenType
  | .opening container => .closing container
  | type => type

/-- How far behind the container closes, if it does. -/
def matchEnd (openType closeType : TokenType) : Nat → List TokenType → Option Nat
  | _, [] => none
  | depth, type :: types =>
      if type = openType then (matchEnd openType closeType (depth + 1) types).map (· + 1)
      else if type = closeType then
        if depth = 1 then some 0 else (matchEnd openType closeType (depth - 1) types).map (· + 1)
      else (matchEnd openType closeType depth types).map (· + 1)

/-- The end of the container that the first token opens. -/
def findMatchingTokenEnd : List TokenType → Nat
  | [] => 0
  | type :: types =>
      (matchEnd type type.closed 0 (type :: types)).getD types.length

def pushTextNodes (options : MarkdownRenderOptions) (text : List Char) : List Node :=
  if text = [] then []
  else if !containsPlaceholder text then [.text text]
  else (splitByPlaceholders text).flatMap fun
    | .text chunk => if chunk = [] then [] else [.text chunk]
    | .placeholder index => (options.onPlaceholder index).toList.map (.widget index)

def externalLink (href : List Char) (children : List Node) : Node :=
  .element "a" [("href", href), ("target", "_blank".toList), ("rel", "noopener noreferrer".toList)]
    children

def imageLabel (token : Token) : List Char :=
  if token.content = [] then (token.attrString "src").getD [] else token.content

def imageNodes (token : Token) : List Node :=
  match (token.attrString "src").filter isSafeLinkHref with
  | some href => [externalLink href [.text (imageLabel token)]]
  | none => if imageLabel token = [] then [] else [.text (imageLabel token)]

def setAttr (attrs : List (String × List Char)) (name : String) (value : List Char) :
    List (String × List Char) :=
  attrs.filter (fun attr => attr.1 ≠ name) ++ [(name, value)]

/-- A raw address is marked by its class. -/
def rawUrl (attrs : List (String × List Char)) : List (String × List Char) :=
  let own := (attrs.lookup "class").getD []
  setAttr attrs "class" (if own = [] then "raw-url".toList else own ++ " raw-url".toList)

/-- A link with a safe address, by the hook of the caller or as an external one. -/
def linkNodes (options : MarkdownRenderOptions) (token : Token) (label : List Node) : List Node :=
  match (token.attrString "href").filter isSafeLinkHref with
  | none => label
  | some href =>
      match (options.renderLink href label token).getD (externalLink href label) with
      | .element tag attrs children =>
          if token.markup = "linkify" ∧ options.singleLine = false then
            [.element tag (rawUrl attrs) children]
          else [.element tag attrs children]
      | link => [link]

/-- The nodes of an inline container around its children. -/
def wrapInline (options : MarkdownRenderOptions) (token : Token) (children : List Node) :
    Container → List Node
  | .spoiler => [.element "span" [("class", "spoiler".toList)] children]
  | .em => [.element "em" [] children]
  | .strong => [.element "strong" [] children]
  | .s => [.element "s" [] children]
  | .link => linkNodes options token children
  | _ => children

def lineBreakNode (options : MarkdownRenderOptions) : Node :=
  if options.singleLine then .text [' '] else .element "br" [] []

def codeText (options : MarkdownRenderOptions) (content : List Char) : List Char :=
  if options.singleLine then content.map fun c => if c = '\n' then ' ' else c else content

/-- An inline token that opens no container. -/
def inlineNodes (options : MarkdownRenderOptions) (token : Token) : List Node :=
  match token.type with
  | .softbreak | .hardbreak => [lineBreakNode options]
  | .codeInline => [.element "code" [] [.text (codeText options token.content)]]
  | .image => imageNodes token
  | _ => pushTextNodes options token.content

def renderInlineTokens (options : MarkdownRenderOptions) : List Token → List Node
  | [] => []
  | token :: tokens =>
      match token.type with
      | .opening container =>
          let closeIndex := findMatchingTokenEnd ((token :: tokens).map (·.type))
          wrapInline options token
              (renderInlineTokens options (tokens.take (closeIndex - 1))) container ++
            renderInlineTokens options (tokens.drop closeIndex)
      | _ => inlineNodes options token ++ renderInlineTokens options tokens
  termination_by tokens => tokens.length
  decreasing_by
    all_goals simp only [List.length_cons, List.length_take, List.length_drop]
    all_goals omega

def blockInlineContent (options : MarkdownRenderOptions) (inner : List BlockToken) : List Node :=
  renderInlineTokens options (inner.flatMap fun token =>
    if token.type = .inline then token.children.getD [] else [token.toToken])

/-- The language of a fence, where it is a plain word. -/
def languageAttrs (info : List Char) : List (String × List Char) :=
  let language := (info.dropWhile Mentions.isSpace).takeWhile fun c => !Mentions.isSpace c
  let plain := language.all fun c => isAlphanumeric c || c == '_' || c == '+' || c == '-'
  if language ≠ [] ∧ plain then [("class", "language-".toList ++ language)] else []

section renderBlocks

-- `Number` of a text, where it is an integer.
variable (numberOf : List Char → Option Int)

def startNumber (token : Token) : Option Int :=
  match token.attrs.lookup "start" with
  | none => none
  | some (.number start) => some start
  | some (.text start) => numberOf start

def listAttrs (token : Token) : List (String × List Char) :=
  match (startNumber numberOf token).filter (· ≠ 1) with
  | some start => [("start", (toString start).toList)]
  | none => []

/-- A block token that opens no container. -/
def blockNodes (options : MarkdownRenderOptions) (token : BlockToken) : List Node :=
  match token.type with
  | .chatGap =>
      [.element "div" [("class", "chat-line-gap".toList)]
        (token.content.map fun _ => .element "br" [] [])]
  | .fence | .codeBlock =>
      [.element "pre" [] [.element "code" (languageAttrs token.info) [.text token.content]]]
  | .inline => renderInlineTokens options (token.children.getD [])
  | _ => pushTextNodes options token.content

mutual

def renderBlocks (options : MarkdownRenderOptions) : List BlockToken → List Node
  | [] => []
  | token :: tokens =>
      match token.type with
      | .opening container =>
          let closeIndex := findMatchingTokenEnd ((token :: tokens).map (·.type))
          let nodes :=
            match container with
            | .paragraph =>
                let content := blockInlineContent options (tokens.take (closeIndex - 1))
                if token.hidden then content else [.element "p" [] content]
            | .orderedList =>
                [.element "ol" (listAttrs numberOf token.toToken)
                  (renderItems options (tokens.take (closeIndex - 1)))]
            | .bulletList => [.element "ul" [] (renderItems options (tokens.take (closeIndex - 1)))]
            | _ => [.element token.tag [] (renderBlocks options (tokens.take (closeIndex - 1)))]
          nodes ++ renderBlocks options (tokens.drop closeIndex)
      | _ => blockNodes options token ++ renderBlocks options tokens
  termination_by tokens => tokens.length
  decreasing_by
    all_goals simp only [List.length_cons, List.length_take, List.length_drop]
    all_goals omega

/-- The slices of `listItemSlices`, rendered. -/
def renderItems (options : MarkdownRenderOptions) : List BlockToken → List Node
  | [] => []
  | token :: tokens =>
      if token.type ≠ .opening .listItem then renderItems options tokens
      else
        let closeIndex := findMatchingTokenEnd ((token :: tokens).map (·.type))
        .element "li" [] (renderBlocks options (tokens.take (closeIndex - 1))) ::
          renderItems options (tokens.drop closeIndex)
  termination_by tokens => tokens.length
  decreasing_by
    all_goals simp only [List.length_cons, List.length_take, List.length_drop]
    all_goals omega

end

end renderBlocks

end Chahua.Markdown
