import MediaTransport.Address.SharedPool
import MediaTransport.Audio.Depacketizer
import MediaTransport.Audio.Packetizer
import MediaTransport.Main
import MediaTransport.Payload.Payloader
import MediaTransport.Proofs.Audio.Loopback
import MediaTransport.Proofs.Rtsp.Framing
import MediaTransport.Proofs.Session.Lifecycle
import MediaTransport.Proofs.Payload.Pieces
import MediaTransport.Proofs.Payload.Conservation
import MediaTransport.Proofs.Sdp.WellFormed
import MediaTransport.Proofs.Sdp.RoundTrip
import MediaTransport.Proofs.Address.Pool
import MediaTransport.Proofs.Socket.Turns
import MediaTransport.Proofs.Socket.Deliveries
import MediaTransport.Proofs.Session.Pairing
import MediaTransport.Proofs.Audio.Receiver
import MediaTransport.Proofs.Payload.InlineCaps
import MediaTransport.Proofs.Session.Requests
import MediaTransport.Proofs.Session.Record
import MediaTransport.Proofs.Session.Language
import MediaTransport.Proofs.Session.Numbering
import MediaTransport.Proofs.Session.Reopening
import MediaTransport.Proofs.Socket.Cancellation
import MediaTransport.Proofs.Audio.Announcement
import MediaTransport.Proofs.Audio.Packetization
import MediaTransport.Proofs.Payload.Fragmentation
import MediaTransport.Proofs.Rtp.Positions
import MediaTransport.Proofs.Address.Calls
import MediaTransport.Proofs.Address.Interleavings
import MediaTransport.Proofs.Session.Interleaving
import MediaTransport.Proofs.Session.Playback
import MediaTransport.Proofs.Varint.Language
import MediaTransport.Proofs.Payload.Events
import MediaTransport.Proofs.Sdp.Sections
import MediaTransport.Proofs.Rtsp.Grammar
import MediaTransport.Proofs.Rtsp.Outcomes
import MediaTransport.Proofs.Audio.Notices
import MediaTransport.Proofs.Payload.Clock
import MediaTransport.Proofs.Socket.ControlMessages
import MediaTransport.Proofs.Socket.Activation
import MediaTransport.Proofs.Rtsp.DeliveryGrammar
import MediaTransport.Proofs.Rtsp.StreamUri
import MediaTransport.Proofs.Rtsp.ReadBack
import MediaTransport.Proofs.Rtsp.Colons
import MediaTransport.Proofs.Audio.MapReading
import MediaTransport.Proofs.Audio.Configuration
import MediaTransport.Proofs.Audio.DueTimes
import MediaTransport.Proofs.Payload.Announcement
