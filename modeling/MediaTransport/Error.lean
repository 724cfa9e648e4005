import MediaTransport.Rtsp.Method
import MediaTransport.Session.Phase
import MediaTransport.Text.Quoted

/-!
# Errors

Every operation of the library fails with one of the causes below.  A cause
carries what its message needs and nothing else; the wording is in the
`message` functions.

* `Error.resolution`, `Error.socket` and `Error.io` come from the network.  A
  `socket` error is raised only when every alternative address has failed, and
  counts them.
* `Error.protocol` is a control message, a session description or a location
  that cannot be read, or an answer other than success.
* `Error.malformedPacket` and `Error.unsupportedFormat` come from the media
  formats.
* `Error.invalidConfig`, `Error.active`, `Error.notActive` and
  `Error.invalidTransition` refuse a call and change nothing.
-/

namespace MediaTransport

/-- A fault of the control protocol. -/
inductive ProtocolFault where
  /-- A message has no start line. -/
  | emptyMessage
  /-- A status line is not a version, a code and a reason. -/
  | invalidStatusLine
  /-- A header line has no colon. -/
  | invalidHeader
  /-- The declared body length is no number or is over the limit. -/
  | invalidContentLength
  /-- A response head does not end within the limit. -/
  | headTooLarge
  /-- A response head is not UTF-8. -/
  | invalidEncoding
  /-- A session description cannot be read at this line. -/
  | malformedDescription (line : String)
  /-- The location cannot be used. -/
  | invalidUrl (location : String)
  /-- The connection closed before the message was complete. -/
  | connectionClosed
  /-- The server answered a request with a code other than 200. -/
  | errorStatus (method : Rtsp.Method) (code : UInt16) (reason : String)
  deriving DecidableEq, Repr

/-- The wording of a protocol fault. -/
def ProtocolFault.message : ProtocolFault → String
  | .emptyMessage => "empty message"
  | .invalidStatusLine => "invalid status line"
  | .invalidHeader => "invalid header"
  | .invalidContentLength => "invalid content length"
  | .headTooLarge => "response head too large"
  | .invalidEncoding => "response head is not UTF-8"
  | .malformedDescription line => "malformed session description near " ++ Text.quoted line
  | .invalidUrl location => "invalid url " ++ Text.quoted location
  | .connectionClosed => "connection closed"
  | .errorStatus method code reason => s!"{method.word} answered with {code} {reason}"

/-- A fault of a received packet. -/
inductive PacketFault where
  /-- There are fewer bytes than the fixed header has. -/
  | shortHeader
  /-- The version is not 2. -/
  | version
  /-- The contributing sources are cut off. -/
  | contributors
  /-- The header of the extension is cut off. -/
  | extensionHeader
  /-- The extension is cut off. -/
  | extension
  /-- The padding is empty or longer than the payload. -/
  | padding
  /-- The payload is shorter than its sub-header. -/
  | shortSubHeader
  deriving DecidableEq, Repr

/-- The wording of a packet fault. -/
def PacketFault.message : PacketFault → String
  | .shortHeader => "shorter than fixed header"
  | .version => "unsupported RTP version"
  | .contributors => "truncated CSRC list"
  | .extensionHeader => "truncated extension header"
  | .extension => "truncated extension"
  | .padding => "invalid padding length"
  | .shortSubHeader => "shorter than payload sub-header"

/-- Why a setting or an address was refused. -/
inductive ConfigFault where
  /-- A payload type does not fit in seven bits. -/
  | payloadTypeRange (payloadType : UInt8)
  /-- A sample format has no rate or no channels. -/
  | emptyFormat (rate : UInt32) (channels : UInt16)
  /-- An entry of a payload-type map cannot be read. -/
  | payloadTypeEntry (entry : String)
  /-- A packet could not hold one sample frame. -/
  | noRoomForFrame (mtu : Nat) (channels : UInt16)
  /-- A packet could not hold any payload. -/
  | noRoomForPayload (mtu : Nat)
  /-- An address has no text. -/
  | emptyAddress
  /-- A host has no port after it. -/
  | missingPort (text : String)
  /-- The port after a host is no number of sixteen bits. -/
  | invalidPort (text : String)
  /-- The streams of a presentation need more channels than there are. -/
  | tooManyStreams
  /-- There is no local address to bind. -/
  | noLocalAddress
  /-- The caller's own channel refused, in its own words. -/
  | refused (reason : String)
  deriving DecidableEq, Repr

/-- The wording of a configuration fault. -/
def ConfigFault.message : ConfigFault → String
  | .payloadTypeRange payloadType => s!"payload type {payloadType} out of range"
  | .emptyFormat rate channels => s!"L16 format needs a rate and channels, got {rate}/{channels}"
  | .payloadTypeEntry entry => "invalid payload type entry " ++ Text.quoted entry
  | .noRoomForFrame mtu channels => s!"MTU {mtu} leaves no room for a {channels}-channel frame"
  | .noRoomForPayload mtu => s!"MTU {mtu} leaves no room for payload"
  | .emptyAddress => "empty address"
  | .missingPort text => "missing port in " ++ Text.quoted text
  | .invalidPort text => "invalid port in " ++ Text.quoted text
  | .tooManyStreams => "too many streams for interleaved channels"
  | .noLocalAddress => "no local address"
  | .refused reason => reason

/-- An operation that tries several addresses in turn. -/
inductive SocketOperation where
  /-- Binding a datagram socket. -/
  | bind
  /-- Sending a datagram. -/
  | send
  /-- Opening a connection. -/
  | connect
  deriving DecidableEq, Repr

/-- The word for a socket operation. -/
def SocketOperation.word : SocketOperation → String
  | .bind => "bind"
  | .send => "send"
  | .connect => "connect"

/-- A setting of a datagram source that holds while its sockets are open. -/
inductive SourceSetting where
  /-- The address both sockets bind. -/
  | localAddress
  /-- The port for media. -/
  | dataPort
  /-- The port for control messages. -/
  | controlPort
  deriving DecidableEq, Repr

/-- The words for a setting. -/
def SourceSetting.words : SourceSetting → String
  | .localAddress => "local address"
  | .dataPort => "data port"
  | .controlPort => "control port"

/-- The cause of a failed operation. -/
inductive Error where
  /-- The system refused an operation on a file or socket. -/
  | io (reason : String)
  /-- A host has no usable address. -/
  | resolution (address reason : String)
  /-- Every alternative failed; the reason is that of the last one. -/
  | socket (operation : SocketOperation) (attempts : Nat) (reason : String)
  /-- The control protocol was not followed. -/
  | protocol (fault : ProtocolFault)
  /-- A packet cannot be read. -/
  | malformedPacket (fault : PacketFault)
  /-- No payload type stands for the sample format. -/
  | unsupportedFormat (rate : UInt32) (channels : UInt16)
  /-- A setting was refused. -/
  | invalidConfig (fault : ConfigFault)
  /-- A setting cannot change while sockets are open. -/
  | active (setting : SourceSetting)
  /-- The operation needs open sockets or an open connection. -/
  | notActive
  /-- The transition does not start in the phase. -/
  | invalidTransition (phase : Session.Phase) (transition : Session.Transition)
  deriving DecidableEq, Repr

/-- The text that reports an error. -/
def Error.message : Error → String
  | .io reason => "I/O error: " ++ reason
  | .resolution address reason => s!"could not resolve {address}: {reason}"
  | .socket operation attempts reason =>
    s!"{operation.word} failed on all {attempts} alternatives: {reason}"
  | .protocol fault => "protocol error: " ++ fault.message
  | .malformedPacket fault => "malformed RTP packet: " ++ fault.message
  | .unsupportedFormat rate channels =>
    s!"no payload type for L16 {rate} Hz / {channels} channels"
  | .invalidConfig fault => "invalid configuration: " ++ fault.message
  | .active setting => s!"cannot change {setting.words} while active"
  | .notActive => "not active"
  | .invalidTransition phase transition =>
    s!"transition {transition.word} not allowed in phase {phase.word}"

end MediaTransport
