import ChannelHistory.Archive
import ChannelHistory.Proofs.History.Queries
import ChannelHistory.Proofs.History.Refusal
import ChannelHistory.Proofs.Record.Decoding
import ChannelHistory.Proofs.History.Convergence
import ChannelHistory.Proofs.History.Restart
import ChannelHistory.Proofs.History.Absorbed
import ChannelHistory.Proofs.History.Floor
import ChannelHistory.Proofs.History.Adding
import ChannelHistory.Proofs.Files.Directories
import ChannelHistory.Proofs.Storage.Places
import ChannelHistory.Proofs.Storage.Operations
import ChannelHistory.Proofs.History.Isolation
import ChannelHistory.Proofs.Storage.FileMap
import ChannelHistory.Proofs.Storage.Corruption
import ChannelHistory.Proofs.Storage.Interruption
import ChannelHistory.Proofs.History.Opening
import ChannelHistory.Proofs.Channel.Escaping
import ChannelHistory.Proofs.Storage.Listing
import ChannelHistory.Proofs.Record.Schema
import ChannelHistory.Proofs.Storage.Siblings
import ChannelHistory.Proofs.Record.Made
import ChannelHistory.Proofs.Storage.Labels
import ChannelHistory.Proofs.Storage.Spelling
import ChannelHistory.Proofs.Storage.Nameable
import ChannelHistory.Proofs.History.Sorting
