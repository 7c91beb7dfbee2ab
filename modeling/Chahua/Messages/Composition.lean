import Chahua.Framework.Text
import Chahua.Messages.Store

namespace Chahua.Messages

/-- Why a forwarded message stands in for its source. -/
inductive ForwardPlaceholder where
  | pendingAudio | nestedForward
  deriving DecidableEq, Repr

def ForwardPlaceholder.asStr : ForwardPlaceholder → String
  | .pendingAudio => "pendingAudio"
  | .nestedForward => "nestedForward"

def ForwardPlaceholder.fromCode (code : String) : Option ForwardPlaceholder :=
  if code = "pendingAudio" then some .pendingAudio
  else if code = "nestedForward" then some .nestedForward
  else none

@[simp] theorem ForwardPlaceholder.fromCode_asStr (reason : ForwardPlaceholder) :
    fromCode reason.asStr = some reason := by
  cases reason <;> decide

/-- `!text.trim().is_empty()` of a text that is there. -/
def hasText (message : Option String) : Bool :=
  message.any fun text => text.toList.any fun c => !Framework.isWhitespace c

/-- The composition rules that need no attachment rows. -/
def validateMessageShape (messageType : MessageType) (message : Option String)
    (stickerId : Option Int) : Except AppError Unit :=
  if messageType = .placeholder ∧ message.bind ForwardPlaceholder.fromCode = none then
    .error (.badRequest "Invalid placeholder reason")
  else if stickerId.isSome ∧ messageType ≠ .sticker then
    .error (.badRequest "Sticker ID is only valid for sticker messages")
  else if messageType = .sticker ∧ stickerId.isNone then
    .error (.badRequest "Sticker ID is required")
  else if messageType = .sticker ∧ hasText message then
    .error (.badRequest "Sticker messages cannot include text")
  else .ok ()

def MAX_ATTACHMENTS_PER_MESSAGE : Nat := 20

def kindStartsWith (start : String) (a : Attachment) : Bool :=
  start.toList.isPrefixOf a.kind.toList

def isVisual (a : Attachment) : Bool := kindStartsWith "image/" a || kindStartsWith "video/" a

/-- The composition rules every send and edit passes once its attachment rows are loaded. -/
def validateMessage (messageType : MessageType) (message : Option String)
    (stickerId : Option Int) (attachments : List Attachment) : Except AppError Unit :=
  match validateMessageShape messageType message stickerId with
  | .error e => .error e
  | .ok () =>
      if MAX_ATTACHMENTS_PER_MESSAGE < attachments.length then
        .error (.badRequest "Too many attachments (maximum of 20 allowed)")
      else
        match messageType with
        | .text =>
            if !hasText message && attachments.isEmpty then
              .error (.badRequest "Message cannot be empty")
            else if attachments.any fun a => !isVisual a then
              .error (.badRequest "Text messages can only include images or videos")
            else .ok ()
        | .file =>
            if hasText message then .error (.badRequest "File messages cannot include text")
            else if attachments.isEmpty then
              .error (.badRequest "File messages must include a file")
            else .ok ()
        | .audio =>
            if hasText message || decide (attachments.length ≠ 1) ||
                !attachments.head?.any (kindStartsWith "audio/") then
              .error (.badRequest "Voice messages require one audio attachment")
            else .ok ()
        | .sticker =>
            if attachments.isEmpty then .ok ()
            else .error (.badRequest "Sticker messages cannot include attachments")
        | .placeholder =>
            if attachments.isEmpty then .ok ()
            else .error (.badRequest "Placeholder messages cannot include attachments")
        | _ => .ok ()

end Chahua.Messages
