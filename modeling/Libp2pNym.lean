import Libp2pNym.Connection.Equiv.Close
import Libp2pNym.Connection.Equiv.Muxer
import Libp2pNym.Connection.Equiv.Orphan
import Libp2pNym.Connection.Equiv.Pair
import Libp2pNym.Connection.Equiv.Pending
import Libp2pNym.Connection.Equiv.Wake
import Libp2pNym.Message.Equiv.Language
import Libp2pNym.Mixnet.Equiv.Setup
import Libp2pNym.Network.Equiv.Handshake
import Libp2pNym.Network.Equiv.Stream
import Libp2pNym.Network.Equiv.Writers
import Libp2pNym.Stack.Equiv.Handshake
import Libp2pNym.Stack.Equiv.Stream
import Libp2pNym.Substream.Equiv.History
import Libp2pNym.Substream.Equiv.Read
import Libp2pNym.Transport.Equiv.Failure
import Libp2pNym.Transport.Equiv.Owner
