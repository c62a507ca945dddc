import ModernCppHw.Lib.Transition
import ModernCppHw.Socks5.ReactionProperties
import ModernCppHw.Socks5.Listening
import ModernCppHw.Socks5.Deciding
import ModernCppHw.Socks5.Lifetime
import ModernCppHw.Socks5.Outstanding
import ModernCppHw.Socks5.DestinationSocket
import ModernCppHw.Socks5.Isolation
import ModernCppHw.Socks5.HandshakeOutcome
import ModernCppHw.Socks5.Forwarding
import ModernCppHw.Socks5.Traffic
import ModernCppHw.Socks5.Progress
import ModernCppHw.Socks5.Halves
import ModernCppHw.Socks5.Relay
import ModernCppHw.Socks5.Events
import ModernCppHw.Socks5.Descriptors
import ModernCppHw.Socks5.Refusal
import ModernCppHw.Socks5.ConnectError
import ModernCppHw.Socks5.Process
import ModernCppHw.Socks5.Registration
import ModernCppHw.Socks5.Bounds
import ModernCppHw.Socks5.Granting
import ModernCppHw.Socks5.Plain
import ModernCppHw.Socks5.DialogueRefinement
import ModernCppHw.Socks5.Capacity
import ModernCppHw.Socks5.Backlog
import ModernCppHw.Socks5.Survival
import ModernCppHw.Socks5.Draining
import ModernCppHw.Socks5.Startup
import ModernCppHw.Serialization.Item
import ModernCppHw.Serialization.Buffer
import ModernCppHw.Serialization.BsonKeys
import ModernCppHw.Serialization.BsonOwnership
import ModernCppHw.Serialization.BsonSchema
import ModernCppHw.Serialization.BsonContents
import ModernCppHw.Serialization.BsonLifetimes
import ModernCppHw.Serialization.CborSchema
import ModernCppHw.Serialization.TestData
import ModernCppHw.Serialization.MsgPackSchema
import ModernCppHw.Serialization.Printing
import ModernCppHw.Serialization.Tests
