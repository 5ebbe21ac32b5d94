import Reticulum.Announce.RoundTrip
import Reticulum.Backbone.Hub
import Reticulum.Blackhole.LocalEntries
import Reticulum.Channel.Bookkeeping
import Reticulum.Channel.BufferedWriter
import Reticulum.Destination.Ratchets
import Reticulum.Discovery.Version
import Reticulum.Identity.KnownDestinations
import Reticulum.Interfaces.TcpConnection
import Reticulum.Librns.EventQueue
import Reticulum.Link.Encryption
import Reticulum.Link.HashmapRequests
import Reticulum.Link.IncomingBooks
import Reticulum.Link.Payload
import Reticulum.Link.Reassembly
import Reticulum.Link.RelayedProof
import Reticulum.Link.ResourceProof
import Reticulum.Link.SplitDrop
import Reticulum.Link.StateMachine
import Reticulum.Link.Watchdog
import Reticulum.Lxstamper.Stamp
import Reticulum.Pageserver.PathJail
import Reticulum.Protect.Tickets
import Reticulum.Rate.Announce
import Reticulum.Resource.Segments
import Reticulum.Rgosh.Authorisation
import Reticulum.Rgosh.Coalesce
import Reticulum.Rgosh.Escape
import Reticulum.Rnsutil.Capture
import Reticulum.Rnsutil.FileEncryption
import Reticulum.Rnsutil.Shell
import Reticulum.Transport.AnnounceQueue
import Reticulum.Transport.DiscoveryQueue
import Reticulum.Transport.HashList
import Reticulum.Transport.HopBound
import Reticulum.Transport.InboundQueues
import Reticulum.Transport.InboundWorkers
import Reticulum.Transport.LinkRequest
import Reticulum.Transport.Overhearing
import Reticulum.Transport.PathRequestTag
import Reticulum.Transport.PathSave
import Reticulum.Transport.ReceiptIndex
import Reticulum.Transport.ReverseProofs
