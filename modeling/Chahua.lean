import Chahua.Rpc.Activation
import Chahua.Rpc.Isolation
import Chahua.Rpc.Correspondence
import Chahua.Unread.Service
import Chahua.Unread.Watches
import Chahua.Framework.Run
import Chahua.ClientTracking.DailyActive
import Chahua.Messages.System
import Chahua.Messages.ThreadMeta
import Chahua.Messages.SingleDelete
import Chahua.Messages.ReadPointers
import Chahua.Messages.LatePublish
import Chahua.Messages.CommitOrder
import Chahua.Messages.ForwardNesting
import Chahua.Chats.OptimisticWrites
import Chahua.Chats.PushedReads
import Chahua.Conversations.MessageMerge
import Chahua.Conversations.Timeline
import Chahua.Api.JsonIds
import Chahua.Reactions.Broadcasts
import Chahua.ReadStates.ThreadCounts
import Chahua.ReadStates.Summaries
import Chahua.Receipts.Visibility
import Chahua.Speaking.Linearized
import Chahua.Speaking.Moderation
import Chahua.Social.Friendships
import Chahua.ReactionReads.Acknowledgement
import Chahua.Transcode.JobQueue
import Chahua.Transport.SingleSocket
import Chahua.Api.ActiveQuery
import Chahua.Auth.Permissions
import Chahua.Auth.TokenGeneration
import Chahua.Mentions.Agreement
import Chahua.Captures.OneVersion
import Chahua.Search.IndexTasks
import Chahua.Search.ByteScans
import Chahua.Presence.Refresh
import Chahua.Presence.Connections
import Chahua.Session.Switches
import Chahua.Invites.InvitePages
import Chahua.Lists.ThreadList
import Chahua.Lists.HiddenTail
import Chahua.Lists.QueuedRows
import Chahua.Mentions.EditText
import Chahua.Mentions.InlineFormat
import Chahua.Messages.MemberCleanup
import Chahua.Messages.EditedMentions
import Chahua.Stickers.Drags
import Chahua.Stickers.PackInvariants
import Chahua.Stickers.PackProgress
import Chahua.Markdown.PreviewLine
import Chahua.Markdown.MaskedText
import Chahua.Navigation.Panels
