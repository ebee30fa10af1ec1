import XYChat.Client.AtomicWrite
import XYChat.Client.CiphertextShapes
import XYChat.Client.EditsReach
import XYChat.Client.FullSync
import XYChat.Client.GroupDelivery
import XYChat.Client.GroupReceive
import XYChat.Client.KeyProtection
import XYChat.Client.MessageStatus
import XYChat.Client.OutboxIsolation
import XYChat.Client.OwnSenderKeys
import XYChat.Client.PlaintextsKept
import XYChat.Client.ReadCursors
import XYChat.Client.SenderKeyRecency
import XYChat.Client.SkippedKeyRuns
import XYChat.Client.SkippedKeysKept
import XYChat.Client.WireFormats
import XYChat.Common.PacketCodec
import XYChat.Common.RatchetAtomicity
import XYChat.Common.RatchetCorrectness
import XYChat.EndToEnd.DistributionSize
import XYChat.EndToEnd.GroupTransparency
import XYChat.EndToEnd.SenderAuthenticity
import XYChat.Server.Accounts
import XYChat.Server.EventGaps
import XYChat.Server.Frames
import XYChat.Server.GroupAuthority
import XYChat.Server.GroupOwners
import XYChat.Server.Limits
import XYChat.Server.LoginThrottle
import XYChat.Server.Membership
import XYChat.Server.MessageFlow
import XYChat.Server.MessageHandlers
import XYChat.Server.MessageRuns
import XYChat.Server.MigrationResume
import XYChat.Server.MultiRowWrites
import XYChat.Server.Paging
import XYChat.Server.PrekeyLifecycle
import XYChat.Server.PrekeyQuota
import XYChat.Server.PrekeyUse
import XYChat.Server.PrivateConversations
import XYChat.Server.ReceiptAggregation
import XYChat.Server.ReplaySafety
import XYChat.Server.SendOnce
import XYChat.Server.StreamReplay
import XYChat.Server.Termination
import XYChat.Server.TerminationTarget
import XYChat.Server.TokenRenewal
import XYChat.Server.Tombstones
