import OjalvoChat.Properties.Consistency
import OjalvoChat.Properties.Memberless
import OjalvoChat.Properties.Routing
import OjalvoChat.Properties.UserList
import OjalvoChat.Properties.Access
import OjalvoChat.Properties.Coexistence
import OjalvoChat.Properties.Cleanup
import OjalvoChat.Properties.Attribution
import OjalvoChat.Properties.NullFields
import OjalvoChat.Properties.Framing
import OjalvoChat.Properties.Wire
import OjalvoChat.Properties.Anonymous
import OjalvoChat.Properties.Identity
import OjalvoChat.Properties.Removal
import OjalvoChat.Properties.Departed
import OjalvoChat.Properties.Addressee
import OjalvoChat.Properties.Joined
import OjalvoChat.Properties.Contested
import OjalvoChat.Properties.Broadcast
import OjalvoChat.Properties.Farewell
import OjalvoChat.Properties.Charged
import OjalvoChat.Properties.Invitations
import OjalvoChat.Properties.Atomicity
import OjalvoChat.Properties.Strangers
import OjalvoChat.Properties.Opened
import OjalvoChat.Properties.Lookups
import OjalvoChat.Properties.Parsed
import OjalvoChat.Properties.Kinds
import OjalvoChat.Properties.Rejection
import OjalvoChat.Properties.Names
import OjalvoChat.Properties.RoomView
import OjalvoChat.Protocol.Vocabulary
import OjalvoChat.Properties.Encoding
import OjalvoChat.Properties.Agreement
import OjalvoChat.Properties.Sentinel
import OjalvoChat.Properties.Sanitized
import OjalvoChat.Properties.Completion
import OjalvoChat.Properties.Announcements
import OjalvoChat.Properties.Adequacy
import OjalvoChat.Properties.Linearizable
import OjalvoChat.Properties.Confidentiality
import OjalvoChat.Properties.Conversation
import OjalvoChat.Concurrency.Texts
import OjalvoChat.Properties.Delivered
import OjalvoChat.Properties.Specification
import OjalvoChat.Properties.CommandLine
