import Pezhwan.Websocket.Messages

-- The bytes between a client and the server: what was written as frames is what is
-- read, and it does not matter how the bytes are cut.
namespace Pezhwan.Websocket
open Numeric Atomic
variable {ι : Type} {node : Node} {maxPayload : ℕ}

-- A frame that carries something.
structure Sent (maxPayload : ℕ) where
  opcode : Opcode
  carries : opcode ∈ [Opcode.text,.binary,.ping,.pong]
  mask : Option (Fin 4 → UInt8)
  payload : Bytes
  within : payload.length ≤ maxPayload

-- As writeFrame writes it; a mask sets the high bit of the second byte.
def Sent.encode (sent : Sent maxPayload) : Bytes :=
  match sent.mask with
  | none => Server.header sent.opcode.code sent.payload ++ sent.payload
  | some key =>
    (Server.header sent.opcode.code sent.payload).modify 1 (· ||| 0x80) ++ (List.ofFn key ++ Frame.masking key sent.payload)

def widthOf (payload : Bytes) : Width :=
  if payload.length < 126 then .short else if payload.length < 65536 then .word else .long

local instance reserved_bits : NeZero 8 := ⟨by decide⟩

-- The frame as RFC 6455 has it.
def Sent.frame (sent : Sent maxPayload) (large : maxPayload < 2 ^ 32) : Frame where
  fin := true
  rsv := 0
  opcode := sent.opcode
  mask := sent.mask
  width := widthOf sent.payload
  payload := sent.payload
  fits := by
    have within := sent.within
    unfold widthOf
    split_ifs <;> simp only [Width.limit] <;> omega

-- The opcodes and payloads that come to the switch.
def switched (maxPayload : ℕ) (buffer : Bytes) : Streams.Turn UInt8 (ℕ × Bytes) Unit :=
  match readFrame maxPayload buffer with
  | .wait => .wait
  | .oversize => .stop ()
  | .frame opcode payload rest => .item (opcode,payload) rest

def Server.dispatch (node : Node) (client : WsClient ι) (server : Server ι) (opcode : ℕ) (payload : Bytes) : Server ι :=
  if opcode = OP_TEXT then server.emit (.message client (node.utf8 payload))
  else if opcode = OP_BINARY then server.emit (.binary client payload)
  else if opcode = OP_PING then server.writeFrame client.socket OP_PONG payload
  else server

theorem switched_stable (maxPayload : ℕ) : Streams.Stable (switched maxPayload) where
  empty := rfl
  shorter buffer value rest read := by
    unfold switched at read
    split at read
    · cases read
    · cases read
    · rename_i framed
      cases read
      exact readFrame_shorter framed
  item buffer more value rest read := by
    unfold switched at read
    split at read
    · cases read
    · cases read
    · rename_i framed
      cases read
      unfold switched
      rw [readFrame_append more framed]
  stop buffer more reason read := by
    unfold switched at read
    split at read
    · cases read
    · rename_i large
      unfold switched
      rw [readFrame_oversize more large]
    · cases read

theorem high_or (small : n < 128) : UInt8.ofNat n ||| 0x80 = UInt8.ofNat (128 + n) := by
  apply UInt8.toNat_inj.mp
  rw [UInt8.toNat_or,UInt8.toNat_ofNat',UInt8.toNat_ofNat',Nat.or_comm,Nat.mod_eq_of_lt (by omega),Nat.mod_eq_of_lt (by omega)]
  exact (@Nat.two_pow_add_eq_or_of_lt 7 n small 1).symm

theorem first_or (sent : Sent maxPayload) (large : maxPayload < 2 ^ 32) :
    UInt8.ofNat (FIN ||| sent.opcode.code) = (sent.frame large).first := by
  unfold Sent.frame Frame.first
  have carries := sent.carries
  simp only [List.mem_cons,List.not_mem_nil,or_false] at carries
  rcases carries with opcode | opcode | opcode | opcode <;> rw [opcode] <;> rfl

theorem shift_byte (n k : ℕ) : n >>> k = n / 2 ^ k := Nat.shiftRight_eq_div_pow n k

theorem bytes_two (n : ℕ) : [UInt8.ofNat (n >>> 8),UInt8.ofNat n] = bigEndian 2 n := by
  rw [shift_byte]
  rfl

theorem bytes_eight (small : n < 2 ^ 32) :
    [0,0,0,0,UInt8.ofNat (n >>> 24),UInt8.ofNat (n >>> 16),UInt8.ofNat (n >>> 8),UInt8.ofNat n] = bigEndian 8 n := by
  have high : n / 256 ^ 4 = 0 := Nat.div_eq_of_lt (by omega)
  have halves : bigEndian 8 n = bigEndian 4 (n / 256 ^ 4) ++ bigEndian 4 n := bigEndian_add 4 4 n
  have low : bigEndian 4 n = [UInt8.ofNat (n / 256 / 256 / 256),UInt8.ofNat (n / 256 / 256),UInt8.ofNat (n / 256),UInt8.ofNat n] := rfl
  have three : n / 256 / 256 / 256 = n / 2 ^ 24 := by omega
  have two : n / 256 / 256 = n / 2 ^ 16 := by omega
  rw [halves,high,low,shift_byte,shift_byte,shift_byte,three,two]
  rfl

theorem header_plain (sent : Sent maxPayload) (large : maxPayload < 2 ^ 32) :
    Server.header sent.opcode.code sent.payload =
      (sent.frame large).first :: UInt8.ofNat (sent.frame large).indicator :: (sent.frame large).extended := by
  have within := sent.within
  unfold Server.header
  rw [first_or sent large]
  unfold Frame.indicator Frame.extended Sent.frame widthOf
  dsimp only
  split_ifs
  · rfl
  · dsimp only
    rw [← bytes_two]
    rfl
  · dsimp only
    rw [← bytes_eight (by omega)]
    rfl

theorem header_masked (sent : Sent maxPayload) (large : maxPayload < 2 ^ 32) :
    (Server.header sent.opcode.code sent.payload).modify 1 (· ||| 0x80) =
      (sent.frame large).first :: UInt8.ofNat (128 + (sent.frame large).indicator) :: (sent.frame large).extended := by
  rw [header_plain sent large,← high_or (sent.frame large).indicator_lt]
  rfl

theorem encode_frame (sent : Sent maxPayload) (large : maxPayload < 2 ^ 32) : sent.encode = (sent.frame large).encode := by
  have masked := header_masked sent large
  have plain := header_plain sent large
  have carried : (sent.frame large).mask = sent.mask := rfl
  have same : (sent.frame large).payload = sent.payload := rfl
  unfold Sent.encode Frame.encode Frame.header Frame.body Frame.second
  rw [carried,same]
  cases sent.mask with
  | none =>
    dsimp only
    rw [plain]
    simp
  | some key =>
    dsimp only
    rw [masked]
    simp

theorem small_sent (sent : Sent maxPayload) (large : maxPayload < 2 ^ 32) : ¬(sent.frame large).oversize maxPayload := by
  have within := sent.within
  unfold Frame.oversize
  have same : (sent.frame large).payload = sent.payload := rfl
  rw [same]
  omega

theorem read_sent (sent : Sent maxPayload) (large : maxPayload < 2 ^ 32) (rest : Bytes) :
    readFrame maxPayload (sent.encode ++ rest) = .frame sent.opcode.code sent.payload rest := by
  rw [encode_frame sent large]
  exact (sent.frame large).read_encode (small_sent sent large) rest

theorem switched_sent (frames : List (Sent maxPayload)) (large : maxPayload < 2 ^ 32) :
    Streams.drain (switched maxPayload) (frames.flatMap Sent.encode) =
      (frames.map fun sent => (sent.opcode.code,sent.payload),.left []) := by
  induction frames with
  | nil => rfl
  | cons sent rest ih =>
    have read : switched maxPayload (sent.encode ++ rest.flatMap Sent.encode) =
        .item (sent.opcode.code,sent.payload) (rest.flatMap Sent.encode) := by
      unfold switched
      rw [read_sent sent large]
    rw [List.flatMap_cons,Streams.drain_item (switched_stable maxPayload) read,ih]
    rfl

namespace Server

theorem act_sent (node : Node) (client : WsClient ι) (server : Server ι) (sent : Sent maxPayload) :
    ∃ effect, act sent.opcode.code sent.payload = .ok effect ∧
      server.affect node client effect = server.dispatch node client sent.opcode.code sent.payload := by
  rw [act_code]
  have carries := sent.carries
  simp only [List.mem_cons,List.not_mem_nil,or_false] at carries
  rcases carries with opcode | opcode | opcode | opcode <;> rw [opcode] <;> exact ⟨_,rfl,rfl⟩

theorem consume_sent (node : Node) (client : WsClient ι) (server : Server ι) (frames : List (Sent maxPayload))
    (large : maxPayload < 2 ^ 32) (enough : (frames.flatMap Sent.encode).length ≤ fuel) :
    consumeFrames node maxPayload client fuel server (frames.flatMap Sent.encode) =
      (frames.foldl (fun server sent => server.dispatch node client sent.opcode.code sent.payload) server,[]) := by
  induction frames generalizing fuel server with
  | nil => cases fuel <;> rfl
  | cons sent rest ih =>
    have read := read_sent sent large (rest.flatMap Sent.encode)
    have shorter := readFrame_shorter read
    obtain ⟨effect,acted,affected⟩ := act_sent node client server sent
    rw [List.flatMap_cons] at enough ⊢
    cases fuel with
    | zero => omega
    | succ fuel =>
      rw [consume_act node client server read,acted]
      dsimp only
      rw [affected]
      exact ih _ (by omega)

end Server

-- Exactly the frames that were sent come to the switch, in their order, and no
-- byte is left.
theorem frames_round_trip (node : Node) (client : WsClient ι) (server : Server ι) (frames : List (Sent maxPayload))
    (large : maxPayload < 2 ^ 32) :
    let bytes := frames.flatMap Sent.encode
    Streams.drain (switched maxPayload) bytes = (frames.map fun sent => (sent.opcode.code,sent.payload),.left []) ∧
      server.consumeFrames node maxPayload client bytes.length bytes =
        (frames.foldl (fun server sent => server.dispatch node client sent.opcode.code sent.payload) server,[]) :=
  ⟨switched_sent frames large,Server.consume_sent node client server frames large (Nat.le_refl _)⟩

-- "Hello" as the server writes it, and a masked ping.
def greeting : List (Sent 262144) := [⟨.text,by decide,none,[0x48,0x65,0x6c,0x6c,0x6f],by decide⟩,⟨.ping,by decide,some sampleKey,[1,2],by decide⟩]

def greeted : WsClient Unit := sampleVisit.client sampleNode Server.start

theorem frames_round_trip_greeting :
    Streams.drain (switched 262144) (greeting.flatMap Sent.encode) = ([(1,[0x48,0x65,0x6c,0x6c,0x6f]),(9,[1,2])],.left []) ∧
      Server.start.consumeFrames sampleNode 262144 greeted (greeting.flatMap Sent.encode).length (greeting.flatMap Sent.encode) =
        (greeting.foldl (fun server sent => server.dispatch sampleNode greeted sent.opcode.code sent.payload) Server.start,[]) :=
  frames_round_trip sampleNode greeted Server.start greeting (by decide)

variable {buffer : Bytes}

-- What leaves the server, in order.
inductive Output (ι : Type) where
  | emitted (emission : Emission ι)
  | written (socket : ℕ) (data : Data)
  deriving DecidableEq, Repr

def frameOutputs (socket opcode : ℕ) (payload : Bytes) : List (Output ι) :=
  [.written socket (.bytes (Server.header opcode payload)),.written socket (.bytes payload)]

def Effect.outputs (node : Node) (client : WsClient ι) : Effect → List (Output ι)
  | .text payload => [.emitted (.message client (node.utf8 payload))]
  | .binary payload => [.emitted (.binary client payload)]
  | .pong payload => frameOutputs client.socket OP_PONG payload
  | .nothing => []

def Halt.outputs (client : WsClient ι) : Halt → List (Output ι)
  | .closed => [.emitted (.close client)]
  | .refused code =>
    frameOutputs client.socket OP_CLOSE [UInt8.ofNat (code >>> 8),UInt8.ofNat code] ++ [.emitted (.close client)]

def restOutputs (client : WsClient ι) : Streams.Rest UInt8 Halt → List (Output ι)
  | .left _ => []
  | .stopped reason => reason.outputs client

def outputs (node : Node) (client : WsClient ι) (done : List Effect × Streams.Rest UInt8 Halt) : List (Output ι) :=
  done.1.flatMap (Effect.outputs node client) ++ restOutputs client done.2

theorem readLength_near (b1 : UInt8) (buffer : Bytes) :
    match readLength b1 buffer with
    | .short => buffer.length < 10
    | .high => True
    | .known _ offset => offset ≤ 10 := by
  unfold readLength
  split_ifs <;> dsimp only <;> omega

theorem readBody_wait (waits : readBody maxPayload b0 b1 buffer header = .wait) :
    header = .short ∨ ∃ length offset, header = .known length offset ∧ length ≤ maxPayload ∧
      buffer.length < offset + maskLen b1 + length := by
  cases header with
  | short => exact .inl rfl
  | high => cases waits
  | known length offset =>
    unfold readBody at waits
    dsimp only at waits
    split at waits
    · cases waits
    · split at waits
      · exact .inr ⟨length,offset,rfl,by omega,by assumption⟩
      · cases waits

theorem maskLen_le (b1 : UInt8) : maskLen b1 ≤ 4 := by
  unfold maskLen
  split <;> omega

theorem wait_short (waits : readFrame maxPayload buffer = .wait) : buffer.length < maxPayload + 14 := by
  unfold readFrame at waits
  split at waits
  · rename_i b0 b1 more
    have near := readLength_near b1 (b0 :: b1 :: more)
    have masked := maskLen_le b1
    rcases readBody_wait waits with header | ⟨length,offset,header,within,cut⟩
    · rw [header] at near
      dsimp only at near
      omega
    · rw [header] at near
      dsimp only at near
      omega
  · rename_i few
    match buffer,few with
    | [],_ => exact Nat.succ_pos _
    | [b0],_ =>
      rw [List.length_singleton]
      omega
    | b0 :: b1 :: more,few => exact (few b0 b1 more rfl).elim

theorem turn_wait (waits : turn maxPayload buffer = .wait) : readFrame maxPayload buffer = .wait := by
  unfold turn at waits
  split at waits
  · assumption
  · cases waits
  · split at waits <;> cases waits

namespace Server

-- All that leaves the server while the chunks come in.
def transcript (node : Node) (maxPayload : ℕ) (client : WsClient ι) : Server ι → List Bytes → List (Output ι)
  | _,[] => []
  | server,chunk :: rest =>
    outputs node client (server.reads maxPayload client.socket chunk) ++
      transcript node maxPayload client (server.data node maxPayload client.socket chunk) rest

def retained (server : Server ι) (socket : ℕ) : Bytes :=
  (((server.sockets[socket]?).bind Socket.listener).map Prod.snd).getD []

def put (server : Server ι) : Output ι → Server ι
  | .emitted emission => server.emit emission
  | .written socket data => server.write socket data

-- What else a chunk changes: the buffer, or the client is gone.
def settle (client : WsClient ι) (server : Server ι) : Streams.Rest UInt8 Halt → Server ι
  | .left buffer => server.keep client.socket buffer
  | .stopped _ => ({ server with clients := server.clients.erase client.id }.destroy client.socket).keep client.socket []

variable {server : Server ι} {client : WsClient ι}

theorem affect_put (effect : Effect) : server.affect node client effect = (effect.outputs node client).foldl put server := by
  cases effect <;> rfl

theorem affects_put (effects : List Effect) :
    effects.foldl (affect node client) server = (effects.flatMap (Effect.outputs node client)).foldl put server := by
  induction effects generalizing server with
  | nil => rfl
  | cons effect rest ih => rw [List.foldl_cons,List.flatMap_cons,List.foldl_append,ih,affect_put]

theorem same_put (server : Server ι) (output : Output ι) : Same server (server.put output) := by
  cases output with
  | emitted emission => exact ⟨rfl,rfl⟩
  | written socket data => exact same_write server socket data

theorem halt_put (present : server.clients.get? client.id ≠ none) (reason : Halt) :
    (server.halt client reason).keep client.socket [] = settle client ((reason.outputs client).foldl put server) (.stopped reason) := by
  cases reason with
  | closed =>
    unfold halt drop
    rw [if_neg present]
    rfl
  | refused code =>
    have written : Same server (server.writeFrame client.socket OP_CLOSE [UInt8.ofNat (code >>> 8),UInt8.ofNat code]) :=
      same_writeFrame _ _ _ _
    have registered : (server.writeFrame client.socket OP_CLOSE [UInt8.ofNat (code >>> 8),UInt8.ofNat code]).clients.get? client.id ≠ none := by
      rw [written.clients]
      exact present
    unfold halt fail
    dsimp only
    unfold drop
    rw [if_neg registered]
    rfl

theorem data_put (holds : server.Holds client buffer) (chunk : Bytes) :
    server.data node maxPayload client.socket chunk =
      let done := Streams.drain (turn maxPayload) (buffer ++ chunk)
      settle client ((outputs node client done).foldl put server) done.2 := by
  obtain ⟨⟨written,placed⟩,present⟩ := holds
  have read : server.reads maxPayload client.socket chunk = Streams.drain (turn maxPayload) (buffer ++ chunk) := by
    unfold reads
    rw [placed]
  rw [data_eq placed,read]
  unfold outputs
  generalize Streams.drain (turn maxPayload) (buffer ++ chunk) = done
  dsimp only
  rw [List.foldl_append,← affects_put]
  have affected : Same server (done.1.foldl (affect node client) server) := same_foldl (same_affect node client) _ _
  cases done.2 with
  | left buffer => rfl
  | stopped reason =>
    refine halt_put ?_ reason
    rw [affected.clients]
    exact present

theorem modify_comm {α : Type} (l : List α) (i j : ℕ) {f g : α → α} (apart : ∀ a, f (g a) = g (f a)) :
    (l.modify i f).modify j g = (l.modify j g).modify i f := by
  refine List.ext_getElem? fun k => ?_
  simp only [List.getElem?_modify]
  cases l[k]? with
  | none => rfl
  | some a => by_cases one : i = k <;> by_cases two : j = k <;> simp [one,two,apart]

theorem keep_put (server : Server ι) (i : ℕ) (buffer : Bytes) (output : Output ι) :
    (server.keep i buffer).put output = (server.put output).keep i buffer := by
  cases output with
  | emitted emission => rfl
  | written socket data =>
    have apart := @modify_comm (Socket ι) server.sockets i socket
      (fun s => { s with listener := s.listener.map fun held => (held.1,buffer) })
      (fun s => { s with written := s.written ++ [data] }) fun _ => rfl
    exact congrArg (fun sockets => { server with sockets := sockets }) apart

theorem keep_puts (i : ℕ) (buffer : Bytes) (out : List (Output ι)) :
    out.foldl put (server.keep i buffer) = (out.foldl put server).keep i buffer := by
  induction out generalizing server with
  | nil => rfl
  | cons output rest ih => rw [List.foldl_cons,List.foldl_cons,keep_put,ih]

theorem keep_keep (server : Server ι) (i : ℕ) (one two : Bytes) : (server.keep i one).keep i two = server.keep i two := by
  unfold keep
  dsimp only
  rw [List.modify_modify_eq]
  congr 2
  funext socket
  cases socket with | mk written destroyed listener => cases listener <;> rfl

theorem settle_keep (server : Server ι) (rest : Streams.Rest UInt8 Halt) :
    settle client (server.keep client.socket buffer) rest = settle client server rest := by
  cases rest with
  | left more => exact keep_keep server client.socket buffer more
  | stopped reason =>
    have apart : ({ server.keep client.socket buffer with clients := server.clients.erase client.id }.destroy client.socket) =
        ({ server with clients := server.clients.erase client.id }.destroy client.socket).keep client.socket buffer := by
      unfold keep destroy
      exact congrArg (fun sockets => Server.mk (server.clients.erase client.id) sockets server.emitted)
        (modify_comm _ _ _ fun _ => rfl)
    exact (congrArg (fun server : Server ι => server.keep client.socket []) apart).trans (keep_keep _ _ _ _)

theorem keep_held (holds : server.Holds client buffer) : server.keep client.socket buffer = server := by
  obtain ⟨⟨written,placed⟩,_⟩ := holds
  have same : (server.sockets.modify client.socket fun s => { s with listener := s.listener.map fun held => (held.1,buffer) }) =
      server.sockets := by
    refine List.ext_getElem? fun k => ?_
    rw [List.getElem?_modify]
    by_cases here : client.socket = k
    · subst here
      rw [placed]
      simp
    · simp [here]
  unfold keep
  rw [same]

theorem holds_data (holds : server.Holds client buffer) (chunk : Bytes) :
    (∀ rest, (Streams.drain (turn maxPayload) (buffer ++ chunk)).2 = .left rest →
        (server.data node maxPayload client.socket chunk).Holds client rest) ∧
      ((Streams.drain (turn maxPayload) (buffer ++ chunk)).2.halted = true →
        (server.data node maxPayload client.socket chunk).gone? client.socket = true) := by
  have start : Tracks node server server client ([],.left buffer) :=
    ⟨(List.append_nil _).symm,fun other same => by cases same; exact holds,nofun⟩
  have after := @tracks_data ι node maxPayload server server client ([],.left buffer) start chunk
  exact ⟨after.left,after.stopped⟩

theorem gone_chunks (gone : server.gone? client.socket = true) (chunks : List Bytes) :
    chunks.foldl (fun server chunk => server.data node maxPayload client.socket chunk) server = server ∧
      transcript node maxPayload client server chunks = [] := by
  induction chunks with
  | nil => exact ⟨rfl,rfl⟩
  | cons chunk rest ih =>
    have none : server.reads maxPayload client.socket chunk = ([],.left []) := by
      unfold reads
      unfold gone? at gone
      split
      · rename_i found
        rw [found] at gone
        cases gone
      · rfl
    unfold transcript
    rw [List.foldl_cons,data_gone gone,none]
    exact ih

theorem chunks_put (holds : server.Holds client buffer) (chunks : List Bytes) :
    let done := Streams.feed (turn maxPayload) ([],.left buffer) chunks
    chunks.foldl (fun server chunk => server.data node maxPayload client.socket chunk) server =
        settle client ((outputs node client done).foldl put server) done.2 ∧
      transcript node maxPayload client server chunks = outputs node client done := by
  induction chunks generalizing server buffer with
  | nil => exact ⟨(keep_held holds).symm,rfl⟩
  | cons chunk rest ih =>
    obtain ⟨left,stopped⟩ := @holds_data ι node maxPayload buffer server client holds chunk
    have put_ := @data_put ι node maxPayload buffer server client holds chunk
    have read : server.reads maxPayload client.socket chunk = Streams.drain (turn maxPayload) (buffer ++ chunk) := by
      obtain ⟨⟨written,placed⟩,_⟩ := holds
      unfold reads
      rw [placed]
    have fed : Streams.feed (turn maxPayload) ([],.left buffer) (chunk :: rest) =
        Streams.feed (turn maxPayload) (Streams.drain (turn maxPayload) (buffer ++ chunk)) rest := rfl
    unfold transcript
    rw [List.foldl_cons,fed,read]
    revert left stopped put_
    generalize Streams.drain (turn maxPayload) (buffer ++ chunk) = more
    obtain ⟨effects,ended⟩ := more
    intro left stopped put_
    cases ended with
    | stopped reason =>
      rw [Streams.feed_stopped]
      obtain ⟨still,silent⟩ := @gone_chunks ι node maxPayload _ client (stopped rfl) rest
      rw [still,silent,List.append_nil]
      exact ⟨put_,rfl⟩
    | left buffer' =>
      have carried := @Streams.feed_prepend _ _ _ (turn maxPayload) effects ([],.left buffer') rest
      rw [List.append_nil] at carried
      obtain ⟨served,said⟩ := ih (left buffer' rfl)
      rw [carried,served,said,put_]
      unfold outputs
      dsimp only
      constructor
      · unfold settle restOutputs
        rw [List.append_nil,keep_puts,List.flatMap_append,List.append_assoc,← List.foldl_append]
        exact settle_keep _ _
      · unfold restOutputs
        rw [List.append_nil,List.flatMap_append,List.append_assoc]

theorem retained_keep (placed : (server.sockets[i]?).bind Socket.listener ≠ none) (buffer : Bytes) :
    (server.keep i buffer).retained i = buffer := by
  obtain ⟨pair,heard_⟩ := Option.ne_none_iff_exists'.mp placed
  obtain ⟨socket,found,listening⟩ := Option.bind_eq_some_iff.mp heard_
  unfold retained keep
  dsimp only
  rw [List.getElem?_modify,found]
  simp [listening]

theorem retained_settle (listening : (server.sockets[client.socket]?).bind Socket.listener ≠ none) (rest : Streams.Rest UInt8 Halt) :
    (settle client server rest).retained client.socket = match rest with | .left buffer => buffer | .stopped _ => [] := by
  cases rest with
  | left buffer => exact retained_keep listening buffer
  | stopped reason =>
    refine retained_keep ?_ []
    unfold destroy
    dsimp only
    rw [List.getElem?_modify]
    cases found : server.sockets[client.socket]? with
    | none => simp [found] at listening
    | some socket => simpa [found] using listening

theorem listening_puts (holds : server.Holds client buffer) (out : List (Output ι)) :
    ((out.foldl put server).sockets[client.socket]?).bind Socket.listener ≠ none := by
  obtain ⟨⟨written,placed⟩,_⟩ := holds
  have same : Same server (out.foldl put server) := same_foldl same_put out server
  have held : (out.foldl put server).outlines[client.socket]? = some (false,some client) := by
    rw [same.outlines]
    simp [outlines,placed,Socket.outline]
  unfold outlines at held
  rw [List.getElem?_map] at held
  obtain ⟨socket,found,outline⟩ := Option.map_eq_some_iff.mp held
  have listening : socket.listener.map Prod.fst = some client := congrArg Prod.snd outline
  rw [found]
  intro unheard
  have gone : socket.listener = none := unheard
  rw [gone] at listening
  cases listening

end Server

-- However a client's bytes are cut, the same leaves the server, in the same order,
-- and it ends in the same state; after each chunk less than a frame is kept.
theorem chunking_unobservable (node : Node) (options : PezhwanWebSocketOptions) (server : Server ι) (visit : Visit ι)
    (chunks : List Bytes) :
    let client := visit.client node server
    let joined := server.handleUpgrade node (some visit.key) visit.identity visit.now visit.connectedAt
    joined.transcript node options.limit client chunks = joined.transcript node options.limit client [chunks.flatten] ∧
      serve node options server visit chunks = serve node options server visit [chunks.flatten] ∧
      ∀ count, ((serve node options server visit (chunks.take count)).retained client.socket).length < options.limit + 14 := by
  intro client joined
  have holds : joined.Holds client [] := (Server.tracks_upgrade node server visit).left [] rfl
  have run : ∀ chunks, serve node options server visit chunks =
      chunks.foldl (fun server chunk => server.data node options.limit client.socket chunk) joined := by
    intro chunks
    unfold serve
    rw [List.foldl_cons,List.foldl_map]
    rfl
  have settled : ∀ chunks, Streams.feed (turn options.limit) ([],.left []) chunks =
      Streams.drain (turn options.limit) chunks.flatten := fun chunks => Streams.feed_flatten (turn_stable options.limit) rfl chunks
  have whole : Streams.feed (turn options.limit) ([],.left []) [chunks.flatten] =
      Streams.feed (turn options.limit) ([],.left []) chunks := by
    rw [settled,settled,List.flatten_singleton]
  obtain ⟨led,said⟩ := @Server.chunks_put ι node options.limit [] joined client holds chunks
  obtain ⟨led',said'⟩ := @Server.chunks_put ι node options.limit [] joined client holds [chunks.flatten]
  rw [whole] at led' said'
  refine ⟨said.trans said'.symm,?_,?_⟩
  · rw [run,run]
    exact led.trans led'.symm
  · intro count
    generalize chunks.take count = sent
    obtain ⟨reached,_⟩ := @Server.chunks_put ι node options.limit [] joined client holds sent
    rw [run,reached,settled,Server.retained_settle (Server.listening_puts holds _)]
    cases ended : (Streams.drain (turn options.limit) sent.flatten).2 with
    | left buffer => exact wait_short (turn_wait (Streams.drain_left (turn_stable options.limit) ended))
    | stopped reason => exact Nat.succ_pos _

end Pezhwan.Websocket
