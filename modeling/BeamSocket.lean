import BeamSocket.Lib.Bytes
import BeamSocket.Mesh.Frame
import BeamSocket.Mesh.Hello
import BeamSocket.Mesh.Config
import BeamSocket.Mesh.Handshake
import BeamSocket.Lib.Run
import BeamSocket.Mesh.HandshakeNet
import BeamSocket.Mesh.Agreement
import BeamSocket.Lib.OrdSet
import BeamSocket.Mesh.Interest
import BeamSocket.Mesh.InterestRound
import BeamSocket.Mesh.InterestRestart
import BeamSocket.Mesh.InterestLinks
import BeamSocket.Mesh.Swim
import BeamSocket.Mesh.MembershipSync
import BeamSocket.Mesh.PushPull
import BeamSocket.Mesh.AntiEntropy
import BeamSocket.Core.Ids
import BeamSocket.Core.RelayBody
import BeamSocket.Core.Mailbox
import BeamSocket.Core.Registry
import BeamSocket.Core.Rooms
import BeamSocket.Core.Broadcast
import BeamSocket.Core.Engine
import BeamSocket.Core.EngineTasks
import BeamSocket.Core.ClusterNode
import BeamSocket.Core.ClusterBroadcast
import BeamSocket.Mesh.LinkRace
import BeamSocket.Mesh.Linkup
import BeamSocket.Core.ClusterLink
import BeamSocket.Lib.Numeral
import BeamSocket.Sdk.SocketId
import BeamSocket.Core.ClusterSend
import BeamSocket.Sdk.Targets
import BeamSocket.Core.Shards
import BeamSocket.Lib.Tasks
import BeamSocket.Core.RoomTasks
import BeamSocket.Core.RoomDiscipline
import BeamSocket.Core.RoomViews
import BeamSocket.Core.Connection
import BeamSocket.Core.GracefulClose
import BeamSocket.Core.CloseCode
import BeamSocket.Core.ForceClose
import BeamSocket.Core.ClientIp
import BeamSocket.Core.ForwardedFor
import BeamSocket.Core.Admission
import BeamSocket.Core.Authorizer
import BeamSocket.Core.AuthorizeAnswers
import BeamSocket.Core.IssuedIds
import BeamSocket.Core.MailboxRuns
import BeamSocket.Core.BroadcastLinear
import BeamSocket.Mesh.PeerStream
import BeamSocket.Mesh.Writer
import BeamSocket.Node.Flat
import BeamSocket.Node.Drain
import BeamSocket.Node.Bridge
import BeamSocket.Mesh.HonestSender
import BeamSocket.Mesh.Reader
import BeamSocket.Mesh.InterestCodec
import BeamSocket.Lib.Access
import BeamSocket.Mesh.Probe
import BeamSocket.Mesh.AppendOnly
import BeamSocket.Sdk.Headers
import BeamSocket.Sdk.Demux
import BeamSocket.Mesh.Detector
import BeamSocket.Mesh.Incarnations
import BeamSocket.Mesh.Refutation
import BeamSocket.Mesh.ProbePlane
import BeamSocket.Mesh.Addresses
import BeamSocket.Mesh.ProbeNumbers
import BeamSocket.Mesh.ProbeNet
import BeamSocket.Mesh.GossipBuffer
import BeamSocket.Lib.Rotation
import BeamSocket.Mesh.ProbeOrder
import BeamSocket.Core.Reports
import BeamSocket.Sdk.IdCodec
import BeamSocket.Core.Deployment
import BeamSocket.Core.RequestIds
import BeamSocket.Lib.InsertionMap
import BeamSocket.Sdk.Correlation
import BeamSocket.Sdk.Server
import BeamSocket.Sdk.Upgrades
import BeamSocket.Mesh.Rumours
import BeamSocket.Mesh.Completeness
import BeamSocket.Mesh.Channel
import BeamSocket.Core.Lifecycle
import BeamSocket.Lib.Service
import BeamSocket.Core.RegistryRefines
import BeamSocket.Core.Draining
import BeamSocket.Sdk.Inbound
