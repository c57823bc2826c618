import Spaceless.Logic.Table
import Spaceless.Logic.Action
import Spaceless.Logic.Machine
import Spaceless.Foundation.Exception
import Spaceless.ResourceServer.Error
import Spaceless.ResourceServer.LoginHistory
import Spaceless.ResourceServer.File
import Spaceless.ResourceServer.FilePath
import Spaceless.ResourceServer.Group
import Spaceless.ResourceServer.Role
import Spaceless.Foundation.Transaction
import Spaceless.Foundation.Worker
import Spaceless.Foundation.Binding
import Spaceless.Protocol.Message
import Spaceless.ResourceServer.Node
import Spaceless.ResourceServer.Server
import Spaceless.ResourceServer.Transaction
import Spaceless.Foundation.Postcondition
import Spaceless.ResourceServer.Change
import Spaceless.ResourceServer.FileTree
import Spaceless.ResourceServer.Forest
import Spaceless.ResourceServer.Permission
import Spaceless.ResourceServer.Placement
import Spaceless.Foundation.Outcome
import Spaceless.ResourceServer.SessionTable
import Spaceless.ResourceServer.Rollback
import Spaceless.Foundation.Emission
import Spaceless.ResourceServer.Transfer
import Spaceless.Logic.Content
import Spaceless.StorageNode.Error
import Spaceless.StorageNode.File
import Spaceless.StorageNode.Storage
import Spaceless.Logic.Rounding
import Spaceless.StorageNode.Session
import Spaceless.StorageNode.Transaction
import Spaceless.Foundation.Registration
import Spaceless.StorageNode.Reply
import Spaceless.System.Network
import Spaceless.System.Upload
import Spaceless.Crypto.Aes
import Spaceless.Foundation.Integer
import Spaceless.Foundation.PackageBuffer
import Spaceless.Foundation.Connection
import Spaceless.Foundation.Receive
import Spaceless.Foundation.Wire
import Spaceless.Foundation.Stream
import Spaceless.Logic.Refinement
import Spaceless.ResourceServer.Membership
import Spaceless.ResourceServer.SessionPath
import Spaceless.Logic.Chunk
import Spaceless.StorageNode.Call
import Spaceless.StorageNode.Stream
import Spaceless.StorageNode.Sharing
import Spaceless.StorageNode.Upload
import Spaceless.Client.File
import Spaceless.System.RoundTrip
import Spaceless.Foundation.Linkage
import Spaceless.Foundation.Turn
import Spaceless.Foundation.Timeout
import Spaceless.Foundation.Release
import Spaceless.Foundation.Phase
import Spaceless.ResourceServer.SessionLookup
import Spaceless.Logic.Hierarchy
import Spaceless.ResourceServer.Tree
import Spaceless.ResourceServer.Walk
import Spaceless.ResourceServer.PathOperation
import Spaceless.ResourceServer.Arrangement
import Spaceless.ResourceServer.Naming
import Spaceless.ResourceServer.Subtree
import Spaceless.ResourceServer.SessionTarget
import Spaceless.Foundation.Send
import Spaceless.Foundation.Secure
import Spaceless.Foundation.Answer
import Spaceless.ResourceServer.Answer
import Spaceless.ResourceServer.Silence
import Spaceless.Client.GetSession
import Spaceless.Client.PutSession
import Spaceless.Foundation.Timer
import Spaceless.Foundation.Schedule
import Spaceless.Foundation.Reentry
import Spaceless.Foundation.Service
import Spaceless.Foundation.Attribution
import Spaceless.ResourceServer.Heartbeat
import Spaceless.ResourceServer.RootUser
import Spaceless.ResourceServer.SessionHistory
import Spaceless.Logic.Json
import Spaceless.ResourceServer.Serialization
import Spaceless.Foundation.Opening
import Spaceless.Foundation.Passing
import Spaceless.Foundation.Order
import Spaceless.Foundation.Arrival
import Spaceless.Foundation.Custody
import Spaceless.ResourceServer.Relogin
import Spaceless.Logic.Load
import Spaceless.ResourceServer.Balance
import Spaceless.ResourceServer.StartUp
import Spaceless.Logic.Separator
import Spaceless.ResourceServer.Decomposition
import Spaceless.Logic.Precision
import Spaceless.StorageNode.Position
import Spaceless.System.FragmentCount
import Spaceless.StorageNode.Unopened
import Spaceless.Lights.BinaryFormat
import Spaceless.Lights.Storing
import Spaceless.Lights.Filling
import Spaceless.Lights.Restoring
import Spaceless.Lights.Agreement
import Spaceless.ResourceServer.PathFrame
import Spaceless.ResourceServer.PathCreation
import Spaceless.Foundation.Network
import Spaceless.Foundation.Ownership
import Spaceless.Crypto.AesBuffer
import Spaceless.Foundation.PreciseTime
import Spaceless.Crypto.AesString
import Spaceless.Crypto.AesStream
import Spaceless.Lights.Decimal
import Spaceless.Lights.FullHandler
import Spaceless.ResourceServer.Sweep
import Spaceless.ResourceServer.UseCounting
import Spaceless.Foundation.Receiver
import Spaceless.Foundation.Stages
import Spaceless.Foundation.Handshake
import Spaceless.Foundation.Establishment
import Spaceless.Foundation.Misframing
import Spaceless.Foundation.Lifecycle
import Spaceless.Foundation.Stopping
import Spaceless.Foundation.Origin
import Spaceless.ResourceServer.Requests
import Spaceless.ResourceServer.Forwarding
import Spaceless.StorageNode.Reading
import Spaceless.System.Download
import Spaceless.System.History
import Spaceless.StorageNode.Writing
import Spaceless.ResourceServer.Routing
import Spaceless.System.Provenance
import Spaceless.System.Naming
