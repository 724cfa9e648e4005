import MediaTransport.Address.Endpoint
import MediaTransport.Audio.PayloadMap
import MediaTransport.CommandLine.Options

/-!
# Commands

The three commands of the program, with their arguments read.  `receive` listens
for datagrams, `send-l16` sends a file of samples, and `play` plays a
presentation.
-/

namespace MediaTransport.CommandLine

open Text Address Audio

/-- The arguments of `receive`. -/
structure Receive where
  /-- The address to bind. -/
  localAddress : Host
  /-- The port for media. -/
  dataPort : UInt16
  /-- The port for control messages. -/
  controlPort : UInt16
  /-- Whose datagrams are accepted. -/
  senders : List Host
  /-- Whether senders are reported. -/
  includeSender : Bool
  /-- The payload types by which data is decoded as audio. -/
  decode : Option PayloadMap

/-- The arguments of `send-l16`. -/
structure Send where
  /-- Where the packets go. -/
  destination : Endpoint
  /-- The format of the samples. -/
  format : Audio.Format
  /-- The size of the largest packet. -/
  mtu : Nat
  /-- The payload types that may be used. -/
  map : PayloadMap
  /-- The file with the samples. -/
  file : String

/-- The arguments of `play`. -/
structure Play where
  /-- The location of the presentation. -/
  location : String
  /-- How long it is played. -/
  seconds : Nat

/-- A command with its arguments. -/
inductive Command where
  /-- Listen for datagrams. -/
  | receive (r : Receive)
  /-- Send a file of samples. -/
  | send (s : Send)
  /-- Play a presentation. -/
  | play (p : Play)

/-- What the program is asked to do. -/
inductive Request where
  /-- Run a command. -/
  | run (c : Command)
  /-- Print a text of help. -/
  | help (text : String)
  /-- Nothing that it understands. -/
  | invalid

/-! ## Reading of values -/

/-- Reads a host. -/
def host? (text : String) : Option Host :=
  (Host.parse text.toList).toOption

/-- Reads a port. -/
def port? (text : String) : Option UInt16 :=
  readUInt16? text.toList

/-- Reads a payload-type map. -/
def map? (text : String) : Option PayloadMap :=
  (PayloadMap.parse text).toOption

/-- Reads a number of sixty-four bits. -/
def number? (text : String) : Option Nat :=
  (readUInt64? text.toList).map UInt64.toNat

/-! ## Reading of commands -/

/-- The form of `receive`. -/
def receiveGrammar : Grammar where
  valued := ["local", "data-port", "control-port", "allow", "l16"]
  repeatable := ["allow"]
  switches := ["include-sender"]

/-- Reads the arguments of `receive`.  At least one sender has to be allowed. -/
def Receive.ofArguments? (a : Arguments) : Option Receive := do
  let localAddress ← a.valueOr? "local" host? .unspecified
  let dataPort ← a.valueOr? "data-port" port? 5004
  let controlPort ← a.valueOr? "control-port" port? 5005
  let senders ← (a.all "allow").mapM host?
  let decode ← a.valueOr? "l16" (fun text => (map? text).map some) none
  if senders.isEmpty then none
  else
    let includeSender := a.switches.contains "include-sender"
    return { localAddress, dataPort, controlPort, senders, includeSender, decode }

/-- The form of `send-l16`. -/
def sendGrammar : Grammar where
  valued := ["dest", "rate", "channels", "mtu", "payload-types"]
  switches := ["little-endian"]
  positionals := 1

/-- Reads the arguments of `send-l16`. -/
def Send.ofArguments? (a : Arguments) : Option Send := do
  let destination ← (Endpoint.parse (← a.value? "dest")).toOption
  let rate ← a.valueOr? "rate" (fun text => readUInt32? text.toList) 44100
  let channels ← a.valueOr? "channels" port? 2
  let mtu ← a.valueOr? "mtu" number? 1400
  let map ← a.valueOr? "payload-types" map? .empty
  let [file] := a.positionals | none
  if file.isEmpty then none
  else
    let order : ByteOrder := if a.switches.contains "little-endian" then .little else .big
    return { destination, format := { rate, channels, order }, mtu, map, file }

/-- The form of `play`. -/
def playGrammar : Grammar where
  valued := ["seconds"]
  positionals := 1

/-- Reads the arguments of `play`. -/
def Play.ofArguments? (a : Arguments) : Option Play := do
  let seconds ← a.valueOr? "seconds" number? 10
  let [location] := a.positionals | none
  return { location, seconds }

/-! ## Help -/

/-- Lines of text. -/
def textOfLines (lines : List String) : String :=
  String.join (lines.map (· ++ "\n"))

/-- The help of the program. -/
def programHelp : String := textOfLines [
  "RTP/RTSP media transport tools",
  "",
  "Usage: medianet <COMMAND>",
  "",
  "Commands:",
  "  receive   Receive datagrams until Enter is pressed",
  "  send-l16  Send a raw 16-bit PCM file as L16 RTP",
  "  play      Play an RTSP presentation over interleaved TCP",
  "  help      Print this message or the help of the given subcommand(s)",
  "",
  "Options:",
  "  -h, --help  Print help"]

/-- The help of `receive`. -/
def receiveHelp : String := textOfLines [
  "Receive datagrams until Enter is pressed",
  "",
  "Usage: medianet receive [OPTIONS] --allow <ALLOW>",
  "",
  "Options:",
  "      --local <LOCAL>                Local address to bind [default: 0.0.0.0]",
  "      --data-port <DATA_PORT>        [default: 5004]",
  "      --control-port <CONTROL_PORT>  [default: 5005]",
  "      --allow <ALLOW>                Authorized sender (repeatable)",
  "      --include-sender               Report the sender address of each datagram",
  "      --l16 <L16>                    Decode data as L16 using these payload types"
    ++ " (e.g. \"96:48000/2\")",
  "  -h, --help                         Print help"]

/-- The help of `send-l16`. -/
def sendHelp : String := textOfLines [
  "Send a raw 16-bit PCM file as L16 RTP",
  "",
  "Usage: medianet send-l16 [OPTIONS] --dest <DEST> <FILE>",
  "",
  "Arguments:",
  "  <FILE>  ",
  "",
  "Options:",
  "      --dest <DEST>                    Destination host:port",
  "      --rate <RATE>                    [default: 44100]",
  "      --channels <CHANNELS>            [default: 2]",
  "      --little-endian                  Samples in the file are little-endian",
  "      --mtu <MTU>                      [default: 1400]",
  "      --payload-types <PAYLOAD_TYPES>  Dynamic payload types"
    ++ " (e.g. \"96:48000/2\") [default: ]",
  "  -h, --help                           Print help"]

/-- The help of `play`. -/
def playHelp : String := textOfLines [
  "Play an RTSP presentation over interleaved TCP",
  "",
  "Usage: medianet play [OPTIONS] <URL>",
  "",
  "Arguments:",
  "  <URL>  ",
  "",
  "Options:",
  "      --seconds <SECONDS>  [default: 10]",
  "  -h, --help               Print help"]

/-! ## Requests -/

/-- The request for a command of a given form. -/
def requestOf {α : Type} (g : Grammar) (help : String) (read : Arguments → Option α)
    (command : α → Command) (arguments : List String) : Request :=
  match g.read arguments with
  | .help => .help help
  | .invalid => .invalid
  | .given a =>
    match read a with
    | some x => .run (command x)
    | none => .invalid

/-- The help about a topic. -/
def helpOn : List String → Request
  | [] => .help programHelp
  | ["receive"] => .help receiveHelp
  | ["send-l16"] => .help sendHelp
  | ["play"] => .help playHelp
  | ["help"] => .help programHelp
  | _ => .invalid

/-- Reads the arguments of the program. -/
def Request.ofArguments : List String → Request
  | "receive" :: rest => requestOf receiveGrammar receiveHelp Receive.ofArguments? .receive rest
  | "send-l16" :: rest => requestOf sendGrammar sendHelp Send.ofArguments? .send rest
  | "play" :: rest => requestOf playGrammar playHelp Play.ofArguments? .play rest
  | "help" :: rest => helpOn rest
  | "--help" :: _ => .help programHelp
  | "-h" :: _ => .help programHelp
  | _ => .invalid

end MediaTransport.CommandLine
