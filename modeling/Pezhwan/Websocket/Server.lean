import Pezhwan.Atomic.Dict
import Pezhwan.Numeric.Base64

namespace Pezhwan.Websocket
open Atomic Numeric

def WS_GUID : String := "258EAFA5-E914-47DA-95CA-C5AB0DC85B11"
def OP_CONTINUATION : ℕ := 0x0
def OP_TEXT : ℕ := 0x1
def OP_BINARY : ℕ := 0x2
def OP_CLOSE : ℕ := 0x8
def OP_PING : ℕ := 0x9
def OP_PONG : ℕ := 0xa
def FIN : ℕ := 0x80

-- The SHA-1 digest of a text, and Buffer.toString('utf8').
structure Node where
  sha1 : String → Bytes
  utf8 : Bytes → String

structure PezhwanWebSocketOptions where
  maxPayload : Option ℕ

-- `socket` is the socket's place among those the server has seen, and `ι` the
-- identity context, which the server only carries.
structure WsClient (ι : Type) where
  id : String
  socket : ℕ
  identity : ι
  connectedAt : ℕ
  deriving DecidableEq, Repr

inductive Data where
  | text (content : String)
  | bytes (content : Bytes)
  deriving DecidableEq, Repr

-- A socket, with the client and the buffer its listeners hold.
structure Socket (ι : Type) where
  written : List Data
  destroyed : Bool
  listener : Option (WsClient ι × Bytes)
  deriving DecidableEq, Repr

inductive Emission (ι : Type) where
  | connection (client : WsClient ι)
  | message (client : WsClient ι) (text : String)
  | binary (client : WsClient ι) (payload : Bytes)
  | close (client : WsClient ι)
  deriving DecidableEq, Repr

structure Server (ι : Type) where
  clients : Dict String (WsClient ι)
  sockets : List (Socket ι)
  emitted : List (Emission ι)
  deriving DecidableEq

def Server.start : Server ι := ⟨.empty,[],[]⟩

def PezhwanWebSocketOptions.limit (options : PezhwanWebSocketOptions) : ℕ := options.maxPayload.getD (256 * 1024)

-- Number.prototype.toString(36)
def base36 (n : ℕ) : Char := if n < 10 then Char.ofNat (48 + n) else Char.ofNat (87 + n)

def digits36 : ℕ → ℕ → List Char
  | 0,_ => []
  | fuel + 1,n => if n < 36 then [base36 n] else digits36 fuel (n / 36) ++ [base36 (n % 36)]

def toString36 (n : ℕ) : String := String.ofList (digits36 (n.log2 + 1) n)

def accept (node : Node) (key : String) : String := String.ofList (Base64.encode (node.sha1 (key ++ WS_GUID)))

def clientId (node : Node) (key : String) (now : ℕ) : String := accept node key ++ "-" ++ toString36 now

namespace Server
variable {ι : Type}

def clientCount (server : Server ι) : ℕ := server.clients.size

def clientsList (server : Server ι) : List (WsClient ι) := server.clients.values

def emit (server : Server ι) (emission : Emission ι) : Server ι :=
  { server with emitted := server.emitted ++ [emission] }

def write (server : Server ι) (socket : ℕ) (data : Data) : Server ι :=
  { server with sockets := server.sockets.modify socket fun s => { s with written := s.written ++ [data] } }

def destroy (server : Server ι) (socket : ℕ) : Server ι :=
  { server with sockets := server.sockets.modify socket fun s => { s with destroyed := true } }

def header (opcode : ℕ) (payload : Bytes) : Bytes :=
  [UInt8.ofNat (FIN ||| opcode)] ++
    if payload.length < 126 then [UInt8.ofNat payload.length]
    else if payload.length < 65536 then [126,UInt8.ofNat (payload.length >>> 8),UInt8.ofNat payload.length]
    else
      [127,0,0,0,0,UInt8.ofNat (payload.length >>> 24),UInt8.ofNat (payload.length >>> 16),
        UInt8.ofNat (payload.length >>> 8),UInt8.ofNat payload.length]

def writeFrame (server : Server ι) (socket : ℕ) (opcode : ℕ) (payload : Bytes) : Server ι :=
  (server.write socket (.bytes (header opcode payload))).write socket (.bytes payload)

-- To every registered client, in the order of the registry.
def broadcast (server : Server ι) (data : Bytes) : Server ι :=
  server.clients.values.foldl (fun server client => server.writeFrame client.socket OP_TEXT data) server

def drop (server : Server ι) (client : WsClient ι) : Server ι :=
  if server.clients.get? client.id = none then server
  else ({ server with clients := server.clients.erase client.id }.emit (.close client)).destroy client.socket

def fail (server : Server ι) (client : WsClient ι) (code : ℕ) : Server ι :=
  (server.writeFrame client.socket OP_CLOSE [UInt8.ofNat (code >>> 8),UInt8.ofNat code]).drop client

def close (server : Server ι) : Server ι :=
  { server.clients.values.foldl (fun server client => (server.writeFrame client.socket OP_CLOSE [0x03,0xe8]).destroy client.socket)
      server with clients := .empty }

def handshake (node : Node) (key : String) : String :=
  "HTTP/1.1 101 Switching Protocols\r\n" ++ "Upgrade: websocket\r\n" ++ "Connection: Upgrade\r\n" ++
    "Sec-WebSocket-Accept: " ++ accept node key ++ "\r\n\r\n"

-- The two readings of the clock are `now`, for the id, and `connectedAt`.
def upgraded (node : Node) (server : Server ι) (key : String) (identity : ι) (now connectedAt : ℕ) : WsClient ι where
  id := clientId node key now
  socket := server.sockets.length
  identity
  connectedAt

def handleUpgrade (node : Node) (server : Server ι) (key : Option String) (identity : ι) (now connectedAt : ℕ) : Server ι :=
  if key.getD "" = "" then { server with sockets := server.sockets ++ [⟨[],true,none⟩] }
  else
    let client := server.upgraded node (key.getD "") identity now connectedAt
    Server.emit
      { server with
        sockets := server.sockets ++ [⟨[.text (handshake node (key.getD ""))],false,some (client,[])⟩]
        clients := server.clients.set client.id client }
      (.connection client)

end Server

-- What the first bytes of a frame say of its length.
inductive Length where
  | short
  | high
  | known (length offset : ℕ)
  deriving DecidableEq, Repr

def readLength (b1 : UInt8) (buffer : Bytes) : Length :=
  if (b1 &&& 0x7f).toNat = 126 then
    if buffer.length < 4 then .short else .known (numberOfBytes ((buffer.drop 2).take 2)) 4
  else if (b1 &&& 0x7f).toNat = 127 then
    if buffer.length < 10 then .short
    else if numberOfBytes ((buffer.drop 2).take 4) ≠ 0 then .high
    else .known (numberOfBytes ((buffer.drop 6).take 4)) 10
  else .known (b1 &&& 0x7f).toNat 2

def unmask (mask payload : Bytes) : Bytes := payload.mapIdx fun i byte => byte ^^^ mask.getD (i % 4) 0

inductive Turn where
  | wait
  | oversize
  | frame (opcode : ℕ) (payload rest : Bytes)
  deriving DecidableEq, Repr

def maskLen (b1 : UInt8) : ℕ := if b1 &&& 0x80 ≠ 0 then 4 else 0

def payload (b1 : UInt8) (buffer : Bytes) (length offset : ℕ) : Bytes :=
  if b1 &&& 0x80 ≠ 0 then unmask ((buffer.drop offset).take 4) ((buffer.drop (offset + 4)).take length)
  else (buffer.drop offset).take length

def readBody (maxPayload : ℕ) (b0 b1 : UInt8) (buffer : Bytes) : Length → Turn
  | .short => .wait
  | .high => .oversize
  | .known length offset =>
    if maxPayload < length then .oversize
    else if buffer.length < offset + maskLen b1 + length then .wait
    else .frame (b0 &&& 0x0f).toNat (payload b1 buffer length offset) (buffer.drop (offset + maskLen b1 + length))

def readFrame (maxPayload : ℕ) : Bytes → Turn
  | b0 :: b1 :: more => readBody maxPayload b0 b1 (b0 :: b1 :: more) (readLength b1 (b0 :: b1 :: more))
  | _ => .wait

namespace Server
variable {ι : Type}

-- Every frame takes bytes from the buffer, so its length bounds the turns.
def consumeFrames (node : Node) (maxPayload : ℕ) (client : WsClient ι) : ℕ → Server ι → Bytes → Server ι × Bytes
  | 0,server,buffer => (server,buffer)
  | fuel + 1,server,buffer =>
    match readFrame maxPayload buffer with
    | .wait => (server,buffer)
    | .oversize => (server.fail client 1009,[])
    | .frame opcode payload rest =>
      if opcode = OP_TEXT then consumeFrames node maxPayload client fuel (server.emit (.message client (node.utf8 payload))) rest
      else if opcode = OP_BINARY then consumeFrames node maxPayload client fuel (server.emit (.binary client payload)) rest
      else if opcode = OP_PING then
        consumeFrames node maxPayload client fuel (server.writeFrame client.socket OP_PONG payload) rest
      else if opcode = OP_CLOSE then (server.drop client,[])
      else if opcode = OP_CONTINUATION ∨ opcode = OP_PONG then consumeFrames node maxPayload client fuel server rest
      else (server.fail client 1002,[])

def keep (server : Server ι) (socket : ℕ) (buffer : Bytes) : Server ι :=
  { server with
    sockets := server.sockets.modify socket fun s => { s with listener := s.listener.map fun held => (held.1,buffer) } }

-- A destroyed socket has no more data events.
def data (node : Node) (maxPayload : ℕ) (server : Server ι) (socket : ℕ) (chunk : Bytes) : Server ι :=
  match server.sockets[socket]? with
  | some ⟨_,false,some (client,buffer)⟩ =>
    let done := consumeFrames node maxPayload client (buffer ++ chunk).length server (buffer ++ chunk)
    done.1.keep socket done.2
  | _ => server

-- The socket is gone when it reports an error or its close.
def gone (server : Server ι) (socket : ℕ) : Server ι :=
  match (server.sockets[socket]?).bind Socket.listener with
  | some (client,_) => (server.destroy socket).drop client
  | none => server.destroy socket

end Server

inductive Event (ι : Type) where
  | upgrade (key : Option String) (identity : ι) (now connectedAt : ℕ)
  | data (socket : ℕ) (chunk : Bytes)
  | error (socket : ℕ)
  | ended (socket : ℕ)
  | broadcast (data : Bytes)
  | close

def perform (node : Node) (options : PezhwanWebSocketOptions) (server : Server ι) : Event ι → Server ι
  | .upgrade key identity now connectedAt => server.handleUpgrade node key identity now connectedAt
  | .data socket chunk => server.data node options.limit socket chunk
  | .error socket | .ended socket => server.gone socket
  | .broadcast data => server.broadcast data
  | .close => server.close

def step (node : Node) (options : PezhwanWebSocketOptions) (server : Server ι) (event : Event ι) : Option (Server ι) :=
  some (perform node options server event)

-- With the digest for one key, and for texts in ASCII.
def sampleNode : Node where
  sha1 _ := [0xb3,0x7a,0x4f,0x2c,0xc0,0x62,0x4f,0x16,0x90,0xf6,0x46,0x06,0xcf,0x38,0x59,0x45,0xb2,0xbe,0xc4,0xea]
  utf8 bytes := String.ofList (bytes.map fun byte => Char.ofNat byte.toNat)

end Pezhwan.Websocket
