import NetBBS.Auth.Reach
import NetBBS.Auth.Recipients
import NetBBS.Boards.BoardPaging
import NetBBS.Boards.CanonicalBytes
import NetBBS.Boards.UnreadPosts
import NetBBS.Chat.Hub
import NetBBS.Files.Reclaim
import NetBBS.Ftn.MessageRoundTrip
import NetBBS.Ftn.Nodelist
import NetBBS.Ftn.Outbound
import NetBBS.Ftn.PacketCuts
import NetBBS.Ftn.Replaces
import NetBBS.Ftn.Segment
import NetBBS.Link.Attestations.DeliveryRuns
import NetBBS.Link.Attestations.SnapshotRuns
import NetBBS.Link.BoardPosting
import NetBBS.Link.ChainOrder
import NetBBS.Link.Channels.Restrictions
import NetBBS.Link.CompromisedKeys
import NetBBS.Link.Files.TransferRuns
import NetBBS.Link.InventoryDiff
import NetBBS.Link.Issuance.PublishedObjects
import NetBBS.Link.KeyHistory
import NetBBS.Link.LocalModeration
import NetBBS.Link.Moderators
import NetBBS.Link.PollVotes
import NetBBS.Link.Realtime.Frames
import NetBBS.Link.Realtime.LiveNetwork
import NetBBS.Link.Realtime.NoiseAgreement
import NetBBS.Link.Realtime.RendezvousRuns
import NetBBS.Link.Realtime.SessionRegistry
import NetBBS.Link.RefusedBatches
import NetBBS.Link.Relay.KeptApart
import NetBBS.Link.Replays
import NetBBS.Link.RestoredLifecycle
import NetBBS.Link.RestoredRevisions
import NetBBS.Link.RootedChains
import NetBBS.Link.Rotation.Crashes
import NetBBS.Link.Rotation.Resign
import NetBBS.Link.ServedOrder
import NetBBS.Link.Trust.CarriageRuns
import NetBBS.Link.Trust.ExpirySpelling
import NetBBS.Link.Trust.Pages
import NetBBS.Link.Trust.RenameChains
import NetBBS.Link.Trust.Renamed
import NetBBS.Mail.LinkAnswers
import NetBBS.Mrc.Protocol
import NetBBS.Net.KeyPieces
import NetBBS.Net.ZmodemContained
import NetBBS.Net.ZmodemFraming
import NetBBS.Qwk.ArchiveErrors
import NetBBS.Qwk.BlockNumbers
import NetBBS.Qwk.OfflineRuns
import NetBBS.Qwknet.TossRuns
import NetBBS.Rendering.PostBody
import NetBBS.Rendering.ScreenDiff
