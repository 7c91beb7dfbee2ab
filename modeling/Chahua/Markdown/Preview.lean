import Chahua.Markdown.RenderedText

namespace Chahua.Markdown

/-- The parts of a preview, and whether a unit was added to them. -/
structure Preview where
  parts : List Node
  hasContent : Bool

namespace Preview

def empty : Preview := ⟨[], false⟩

def push (p : Preview) (node : Node) : Preview := { p with parts := p.parts ++ [node] }

def addUnit (p : Preview) (content : List Node) : Preview :=
  ⟨(if p.hasContent then p.push (.text [' ']) else p).parts ++ content, true⟩

end Preview

/-- The text of a code block, trimmed, its lines in one. -/
def codePreview (content : List Char) : List Char :=
  ((content.dropWhile Mentions.isSpace).rdropWhile Mentions.isSpace).map fun c =>
    if c = '\n' then ' ' else c

def bullet (ordered : Bool) (itemNumber : Int) : List Char :=
  if ordered then (toString itemNumber ++ ". ").toList else ['•', ' ']

/-- A block token that opens no container. -/
def previewSingle (options : MarkdownRenderOptions) (p : Preview) (token : BlockToken) : Preview :=
  match token.type with
  | .chatGap => p.push (.text (token.content.map fun _ => ' '))
  | .fence | .codeBlock =>
      if codePreview token.content = [] then p
      else p.addUnit [.element "code" [] [.text (codePreview token.content)]]
  | .inline => p.addUnit (renderInlineTokens options (token.children.getD []))
  | _ => p

section previewBlocks

-- `Number` of a text, where it is an integer.
variable (numberOf : List Char → Option Int)

def firstNumber (token : Token) : Int :=
  ((startNumber numberOf token).filter (1 ≤ ·)).getD 1

mutual

/-- The loop of `previewBlocks` over the tokens that are left. -/
def previewLoop (options : MarkdownRenderOptions) (p : Preview) : List BlockToken → Preview
  | [] => p
  | token :: tokens =>
      match token.type with
      | .opening container =>
          let closeIndex := findMatchingTokenEnd ((token :: tokens).map (·.type))
          let inner := tokens.take (closeIndex - 1)
          let next :=
            match container with
            | .paragraph => p.addUnit (blockInlineContent options inner)
            | .other "heading" =>
                p.addUnit [.element "strong" [] (blockInlineContent options inner)]
            | .bulletList => previewItems options false 1 p inner
            | .orderedList =>
                previewItems options true (firstNumber numberOf token.toToken) p inner
            | _ => p.addUnit (previewLoop options .empty inner).parts
          previewLoop options next (tokens.drop closeIndex)
      | _ => previewLoop options (previewSingle options p token) tokens
  termination_by tokens => tokens.length
  decreasing_by
    all_goals simp +zetaDelta only [List.length_cons, List.length_take, List.length_drop]
    all_goals omega

/-- The loop over the tokens of a list. -/
def previewItems (options : MarkdownRenderOptions) (ordered : Bool) (itemNumber : Int)
    (p : Preview) : List BlockToken → Preview
  | [] => p
  | token :: tokens =>
      if token.type ≠ .opening .listItem then previewItems options ordered itemNumber p tokens
      else
        let closeIndex := findMatchingTokenEnd ((token :: tokens).map (·.type))
        let itemContent := previewLoop options .empty (tokens.take (closeIndex - 1))
        previewItems options ordered (itemNumber + 1)
          (p.addUnit (.text (bullet ordered itemNumber) :: itemContent.parts))
          (tokens.drop closeIndex)
  termination_by tokens => tokens.length
  decreasing_by
    all_goals simp only [List.length_cons, List.length_take, List.length_drop]
    all_goals omega

end

def previewBlocks (options : MarkdownRenderOptions) (tokens : List BlockToken) : List Node :=
  (previewLoop numberOf options .empty tokens).parts

/-- The preview of a text, given the tokens the parser makes of it. -/
def renderMarkdownPreview (options : MarkdownRenderOptions) (parse : List Char → List BlockToken)
    (text : List Char) : List Node :=
  if text = [] then []
  else previewBlocks numberOf { options with singleLine := true } (parse text)

end previewBlocks

end Chahua.Markdown
