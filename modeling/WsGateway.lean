import WsGateway.Library.Memory
import WsGateway.Library.Throwing
import WsGateway.Library.Runs
import WsGateway.Library.Fifo
import WsGateway.Library.Vectors
import WsGateway.Library.Tables
import WsGateway.Library.Batches
import WsGateway.Library.Flows
import WsGateway.Library.Ownership
import WsGateway.Base.Stream
import WsGateway.Network.EthIp
import WsGateway.Network.Dpdk
import WsGateway.Network.MasterService
import WsGateway.Network.Receive
import WsGateway.Network.Mbufs
import WsGateway.Network.Tcp.PacketView
import WsGateway.Network.Tcp.Client
import WsGateway.Network.Tls12.Model
import WsGateway.Network.Tls12.Client
import WsGateway.Network.Arp
import WsGateway.Network.Wss.Model
import WsGateway.Network.Wss.Client
import WsGateway.Gateway.Service
import WsGateway.Gateway.Worker
import WsGateway.Verify.Base.Queue
import WsGateway.Verify.Base.Search
import WsGateway.Verify.Base.Transaction
import WsGateway.Verify.Tcp.Views
import WsGateway.Verify.Tcp.Packet
import WsGateway.Verify.Tcp.Step
import WsGateway.Verify.Tcp.Receive
import WsGateway.Verify.Tcp.Accounting
import WsGateway.Verify.Tcp.Window
import WsGateway.Verify.Tcp.Frame
import WsGateway.Verify.Tcp.Acknowledge
import WsGateway.Verify.Tcp.Due
import WsGateway.Verify.Tcp.Tracking
import WsGateway.Verify.Tcp.TwoParties
import WsGateway.Verify.Tcp.Establish
import WsGateway.Verify.Dpdk.SendQueue
import WsGateway.Verify.Dpdk.Reta
import WsGateway.Verify.Dpdk.Receive
import WsGateway.Verify.Dpdk.Mbufs
import WsGateway.Verify.Dpdk.Contents
import WsGateway.Verify.Tcp.Offsets
import WsGateway.Verify.Tcp.Atomic
import WsGateway.Verify.Tcp.Options
import WsGateway.Verify.Arp.Responder
import WsGateway.Verify.Tls12.Calls
import WsGateway.Verify.Tls12.Runs
import WsGateway.Verify.Tls12.Delivery
import WsGateway.Verify.Tls12.Record
import WsGateway.Verify.Tls12.Termination
import WsGateway.Verify.Tls12.ClientHello
import WsGateway.Verify.Tls12.Keys
import WsGateway.Verify.Tls12.Segmentation
import WsGateway.Verify.Tls12.Handshake
import WsGateway.Verify.Tls12.RecordFraming
import WsGateway.Verify.Tls12.AppData
import WsGateway.Verify.Tls12.Numbers
import WsGateway.Verify.Tls12.Sending
import WsGateway.Verify.Tls12.DataFrames
import WsGateway.Verify.Tls12.Nonces
import WsGateway.Verify.Tls12.RoundTrip
import WsGateway.Verify.Tls12.Flush
import WsGateway.Verify.Tls12.Acceptance
import WsGateway.Verify.Wss.Framing
import WsGateway.Verify.Wss.Messages
import WsGateway.Verify.Wss.Extraction
import WsGateway.Verify.Wss.Upgrade
import WsGateway.Verify.Wss.Sequence
import WsGateway.Verify.Gateway.Calls
import WsGateway.Verify.Gateway.Opening
import WsGateway.Verify.Gateway.Draining
import WsGateway.Verify.Gateway.Foreign
import WsGateway.Verify.Gateway.Polling
import WsGateway.Verify.Gateway.EndToEnd
import WsGateway.Verify.Gateway.Upgrading
