import Pezhwan.Websocket.Server
import Pezhwan.Streams.Reader

namespace Pezhwan.Websocket
open Atomic Numeric

-- What the loop does with a frame, and why it ends.
inductive Effect where
  | text (payload : Bytes)
  | binary (payload : Bytes)
  | pong (payload : Bytes)
  | nothing
  deriving DecidableEq, Repr

inductive Halt where
  | closed
  | refused (code : ℕ)
  deriving DecidableEq, Repr

def act (opcode : ℕ) (payload : Bytes) : Except Halt Effect :=
  if opcode = OP_TEXT then .ok (.text payload)
  else if opcode = OP_BINARY then .ok (.binary payload)
  else if opcode = OP_PING then .ok (.pong payload)
  else if opcode = OP_CLOSE then .error .closed
  else if opcode = OP_CONTINUATION ∨ opcode = OP_PONG then .ok .nothing
  else .error (.refused 1002)

def turn (maxPayload : ℕ) (buffer : Bytes) : Streams.Turn UInt8 Effect Halt :=
  match readFrame maxPayload buffer with
  | .wait => .wait
  | .oversize => .stop (.refused 1009)
  | .frame opcode payload rest =>
    match act opcode payload with
    | .ok effect => .item effect rest
    | .error halt => .stop halt

theorem window_append {buffer : Bytes} (more : Bytes) (long : n + k ≤ buffer.length) :
    ((buffer ++ more).drop n).take k = (buffer.drop n).take k := by
  rw [List.drop_append_of_le_length (by omega),List.take_append_of_le_length (by rw [List.length_drop]; omega)]

theorem readLength_append {buffer : Bytes} (more : Bytes) (read : readLength b1 buffer ≠ .short) :
    readLength b1 (buffer ++ more) = readLength b1 buffer := by
  unfold readLength at read ⊢
  rw [List.length_append]
  split at read
  · rename_i word
    by_cases short : buffer.length < 4
    · simp [short] at read
    · rw [if_pos word,if_pos word,if_neg short,if_neg (by omega),window_append more (by omega)]
  · rename_i word
    split at read
    · rename_i long
      by_cases short : buffer.length < 10
      · simp [short] at read
      · rw [if_neg word,if_neg word,if_pos long,if_pos long,if_neg short,if_neg (by omega),window_append more (by omega),
          window_append more (by omega)]
    · rename_i long
      rw [if_neg word,if_neg word,if_neg long,if_neg long]

theorem readLength_offset {buffer : Bytes} (two : 2 ≤ buffer.length) (read : readLength b1 buffer = .known length offset) :
    2 ≤ offset ∧ offset ≤ buffer.length := by
  unfold readLength at read
  split at read
  · split at read
    · cases read
    · cases read
      omega
  · split at read
    · split at read
      · cases read
      · split at read
        · cases read
        · cases read
          omega
    · cases read
      omega

theorem payload_append {buffer : Bytes} (more : Bytes) (long : offset + maskLen b1 + length ≤ buffer.length) :
    payload b1 (buffer ++ more) length offset = payload b1 buffer length offset := by
  unfold payload
  unfold maskLen at long
  split
  · rename_i masked
    rw [if_pos masked] at long
    rw [window_append more (by omega),window_append more (by omega)]
  · rename_i plain
    rw [if_neg plain] at long
    rw [window_append more (by omega)]

theorem readBody_frame {buffer : Bytes} (read : readBody maxPayload b0 b1 buffer header = .frame opcode content rest) :
    ∃ length offset, header = .known length offset ∧ length ≤ maxPayload ∧ offset + maskLen b1 + length ≤ buffer.length ∧
      opcode = (b0 &&& 0x0f).toNat ∧ content = payload b1 buffer length offset ∧
      rest = buffer.drop (offset + maskLen b1 + length) := by
  cases header with
  | short => cases read
  | high => cases read
  | known length offset =>
    unfold readBody at read
    dsimp only at read
    split at read
    · cases read
    · split at read
      · cases read
      · cases read
        exact ⟨length,offset,rfl,by omega,by omega,rfl,rfl,rfl⟩

theorem readBody_oversize {buffer : Bytes} (read : readBody maxPayload b0 b1 buffer header = .oversize) :
    header = .high ∨ ∃ length offset, header = .known length offset ∧ maxPayload < length := by
  cases header with
  | short => cases read
  | high => exact .inl rfl
  | known length offset =>
    unfold readBody at read
    dsimp only at read
    split at read
    · rename_i large
      exact .inr ⟨length,offset,rfl,large⟩
    · split at read
      · cases read
      · cases read

theorem readFrame_two {buffer : Bytes} (read : readFrame maxPayload buffer ≠ .wait) :
    ∃ b0 b1 more, buffer = b0 :: b1 :: more ∧
      readFrame maxPayload buffer = readBody maxPayload b0 b1 buffer (readLength b1 buffer) := by
  unfold readFrame at read
  split at read
  · rename_i b0 b1 more
    exact ⟨b0,b1,more,rfl,rfl⟩
  · exact absurd rfl read

theorem readFrame_shorter {buffer : Bytes} (read : readFrame maxPayload buffer = .frame opcode content rest) :
    rest.length < buffer.length := by
  obtain ⟨b0,b1,more,whole,body⟩ := readFrame_two (by rw [read]; simp)
  obtain ⟨length,offset,header,_,long,_,_,left⟩ := readBody_frame (body.symm.trans read)
  obtain ⟨two,_⟩ := readLength_offset (by simp [whole]) header
  rw [left,List.length_drop]
  omega

theorem readFrame_append {buffer : Bytes} (more : Bytes) (read : readFrame maxPayload buffer = .frame opcode content rest) :
    readFrame maxPayload (buffer ++ more) = .frame opcode content (rest ++ more) := by
  obtain ⟨b0,b1,tail,whole,body⟩ := readFrame_two (by rw [read]; simp)
  obtain ⟨length,offset,header,fits,long,rfl,rfl,rfl⟩ := readBody_frame (body.symm.trans read)
  have header' := readLength_append more (by rw [header]; simp)
  rw [header] at header'
  have unfolded : readFrame maxPayload (buffer ++ more) =
      readBody maxPayload b0 b1 (buffer ++ more) (readLength b1 (buffer ++ more)) := by
    rw [whole]
    rfl
  rw [unfolded,header']
  unfold readBody
  dsimp only
  rw [if_neg (by omega),if_neg (by rw [List.length_append]; omega),payload_append more long,
    List.drop_append_of_le_length long]

theorem readFrame_oversize {buffer : Bytes} (more : Bytes) (read : readFrame maxPayload buffer = .oversize) :
    readFrame maxPayload (buffer ++ more) = .oversize := by
  obtain ⟨b0,b1,tail,whole,body⟩ := readFrame_two (by rw [read]; simp)
  have unfolded : readFrame maxPayload (buffer ++ more) =
      readBody maxPayload b0 b1 (buffer ++ more) (readLength b1 (buffer ++ more)) := by
    rw [whole]
    rfl
  rcases readBody_oversize (body.symm.trans read) with header | ⟨length,offset,header,large⟩
  · have header' := readLength_append more (by rw [header]; simp)
    rw [unfolded,header',header]
    rfl
  · have header' := readLength_append more (by rw [header]; simp)
    rw [unfolded,header',header]
    exact if_pos large

theorem turn_frame {buffer : Bytes} (read : readFrame maxPayload buffer = .frame opcode content rest) :
    turn maxPayload buffer =
      match act opcode content with
      | .ok effect => .item effect rest
      | .error halt => .stop halt := by
  unfold turn
  rw [read]

theorem turn_item {buffer : Bytes} (read : turn maxPayload buffer = .item effect rest) :
    ∃ opcode content, readFrame maxPayload buffer = .frame opcode content rest ∧ act opcode content = .ok effect := by
  unfold turn at read
  split at read
  · cases read
  · cases read
  · rename_i opcode content left framed
    split at read
    · rename_i effect acted
      cases read
      exact ⟨opcode,content,framed,acted⟩
    · cases read

theorem turn_stop {buffer : Bytes} (read : turn maxPayload buffer = .stop reason) :
    (readFrame maxPayload buffer = .oversize ∧ reason = .refused 1009) ∨
      ∃ opcode content rest, readFrame maxPayload buffer = .frame opcode content rest ∧ act opcode content = .error reason := by
  unfold turn at read
  split at read
  · cases read
  · rename_i large
    cases read
    exact .inl ⟨large,rfl⟩
  · rename_i opcode content left framed
    split at read
    · cases read
    · rename_i halt acted
      cases read
      exact .inr ⟨opcode,content,left,framed,acted⟩

theorem turn_stable (maxPayload : ℕ) : Streams.Stable (turn maxPayload) where
  empty := rfl
  shorter buffer effect rest read := by
    obtain ⟨opcode,content,framed,_⟩ := turn_item read
    exact readFrame_shorter framed
  item buffer more effect rest read := by
    obtain ⟨opcode,content,framed,acted⟩ := turn_item read
    rw [turn_frame (readFrame_append more framed),acted]
  stop buffer more reason read := by
    rcases turn_stop read with ⟨large,rfl⟩ | ⟨opcode,content,rest,framed,acted⟩
    · unfold turn
      rw [readFrame_oversize more large]
    · rw [turn_frame (readFrame_append more framed),acted]

namespace Server
variable {ι : Type}

def affect (node : Node) (client : WsClient ι) (server : Server ι) : Effect → Server ι
  | .text payload => server.emit (.message client (node.utf8 payload))
  | .binary payload => server.emit (.binary client payload)
  | .pong payload => server.writeFrame client.socket OP_PONG payload
  | .nothing => server

def halt (server : Server ι) (client : WsClient ι) : Halt → Server ι
  | .closed => server.drop client
  | .refused code => server.fail client code

def conclude (client : WsClient ι) (server : Server ι) : Streams.Rest UInt8 Halt → Server ι × Bytes
  | .left buffer => (server,buffer)
  | .stopped reason => (server.halt client reason,[])

theorem consume_act (node : Node) (client : WsClient ι) (server : Server ι) (read : readFrame maxPayload buffer = .frame opcode content rest) :
    consumeFrames node maxPayload client (fuel + 1) server buffer =
      match act opcode content with
      | .ok effect => consumeFrames node maxPayload client fuel (server.affect node client effect) rest
      | .error reason => (server.halt client reason,[]) := by
  conv_lhs => unfold consumeFrames
  unfold act
  rw [read]
  dsimp only
  split_ifs <;> rfl

-- The loop reads the buffer to its end or to a halt, and does what it reads.
theorem consume_eq (node : Node) (maxPayload : ℕ) (client : WsClient ι) (fuel : ℕ) (server : Server ι) (buffer : Bytes) :
    consumeFrames node maxPayload client fuel server buffer =
      conclude client ((Streams.turns (turn maxPayload) fuel buffer).1.foldl (affect node client) server)
        (Streams.turns (turn maxPayload) fuel buffer).2 := by
  induction fuel generalizing server buffer with
  | zero => rfl
  | succ fuel ih =>
    cases read : readFrame maxPayload buffer with
    | wait =>
      unfold consumeFrames Streams.turns turn
      rw [read]
      rfl
    | oversize =>
      unfold consumeFrames Streams.turns turn
      rw [read]
      rfl
    | frame opcode content rest =>
      rw [consume_act node client server read]
      unfold Streams.turns
      rw [turn_frame read]
      cases act opcode content with
      | ok effect => exact ih _ _
      | error reason => rfl

-- What the frames in the buffer come to once a chunk is in.
def reads (maxPayload : ℕ) (server : Server ι) (socket : ℕ) (chunk : Bytes) : List Effect × Streams.Rest UInt8 Halt :=
  match server.sockets[socket]? with
  | some ⟨_,false,some (_,buffer)⟩ => Streams.drain (turn maxPayload) (buffer ++ chunk)
  | _ => ([],.left [])

theorem data_eq (live : server.sockets[i]? = some ⟨written,false,some (client,buffer)⟩) :
    data node maxPayload server i chunk =
      let done := conclude client ((server.reads maxPayload i chunk).1.foldl (affect node client) server)
        (server.reads maxPayload i chunk).2
      done.1.keep i done.2 := by
  unfold data reads
  rw [live]
  dsimp only
  rw [consume_eq]
  rfl

end Server
end Pezhwan.Websocket

namespace Pezhwan.Websocket
open Atomic Numeric
variable {ι : Type} {server middle after : Server ι} {client : WsClient ι}

-- What of the sockets the registry depends on.
def Socket.outline (socket : Socket ι) : Bool × Option (WsClient ι) := (socket.destroyed,socket.listener.map Prod.fst)

namespace Server

def gone? (server : Server ι) (socket : ℕ) : Bool := ((server.sockets[socket]?).map Socket.destroyed).getD false

def outlines (server : Server ι) : List (Bool × Option (WsClient ι)) := server.sockets.map Socket.outline

-- Writing and emitting leave the registry and the sockets as they are.
structure Same (server after : Server ι) : Prop where
  clients : after.clients = server.clients
  outlines : after.outlines = server.outlines

theorem Same.refl (server : Server ι) : Same server server := ⟨rfl,rfl⟩

theorem Same.trans (one : Same server middle) (two : Same middle after) : Same server after :=
  ⟨two.clients.trans one.clients,two.outlines.trans one.outlines⟩

theorem outlines_modify (server : Server ι) (i : ℕ) (f : Socket ι → Socket ι)
    (g : Bool × Option (WsClient ι) → Bool × Option (WsClient ι)) (same : ∀ socket, (f socket).outline = g socket.outline) :
    (server.sockets.modify i f).map Socket.outline = server.outlines.modify i g := by
  unfold outlines
  refine List.ext_getElem? fun j => ?_
  simp only [List.getElem?_map,List.getElem?_modify]
  cases server.sockets[j]? with
  | none => rfl
  | some socket =>
    by_cases here : i = j
    · simp [here,same]
    · simp [here]

theorem same_modify (server : Server ι) (i : ℕ) (f : Socket ι → Socket ι) (same : ∀ socket, (f socket).outline = socket.outline) :
    Same server { server with sockets := server.sockets.modify i f } := by
  refine ⟨rfl,?_⟩
  refine (outlines_modify server i f id same).trans ?_
  exact List.modify_id i server.outlines

theorem same_write (server : Server ι) (i : ℕ) (data : Data) : Same server (server.write i data) :=
  same_modify server i _ fun _ => rfl

theorem same_writeFrame (server : Server ι) (i opcode : ℕ) (payload : Bytes) : Same server (server.writeFrame i opcode payload) :=
  (same_write _ _ _).trans (same_write _ _ _)

theorem same_keep (server : Server ι) (i : ℕ) (buffer : Bytes) : Same server (server.keep i buffer) :=
  same_modify server i _ fun socket => by cases socket with | mk written destroyed listener => cases listener <;> rfl

theorem same_foldl {act : Server ι → κ → Server ι} (each : ∀ server item, Same server (act server item)) (items : List κ)
    (server : Server ι) : Same server (items.foldl act server) := by
  induction items generalizing server with
  | nil => exact Same.refl server
  | cons item rest ih => exact (each server item).trans (ih _)

theorem same_affect (node : Node) (client : WsClient ι) (server : Server ι) (effect : Effect) :
    Same server (server.affect node client effect) := by
  cases effect with
  | text payload => exact ⟨rfl,rfl⟩
  | binary payload => exact ⟨rfl,rfl⟩
  | pong payload => exact same_writeFrame _ _ _ _
  | nothing => exact Same.refl server

-- A socket that is destroyed.
structure Killed (server after : Server ι) (i : ℕ) : Prop where
  outlines : after.outlines = server.outlines.modify i fun outline => (true,outline.2)
  clients : ∀ key client, after.clients.get? key = some client → server.clients.get? key = some client

theorem Killed.gone (killed : Killed server after i) (placed : i < server.sockets.length) : after.gone? i = true := by
  have found : after.outlines[i]? = (server.outlines[i]?).map fun outline => (true,outline.2) := by
    rw [killed.outlines,List.getElem?_modify]
    simp
  unfold Server.outlines at found
  simp only [List.getElem?_map,List.getElem?_eq_getElem placed,Option.map_some] at found
  obtain ⟨socket,there,same⟩ := Option.map_eq_some_iff.mp found
  unfold gone?
  rw [there]
  exact congrArg Prod.fst same

theorem killed_destroy (server : Server ι) (i : ℕ) : Killed server (server.destroy i) i :=
  ⟨outlines_modify server i _ _ fun _ => rfl,fun _ _ found => found⟩

theorem drop_killed (kept : server.clients.get? client.id ≠ none) :
    Killed server (server.drop client) client.socket ∧ (server.drop client).clients = server.clients.erase client.id := by
  unfold drop
  rw [if_neg kept]
  refine ⟨⟨outlines_modify server client.socket _ _ fun _ => rfl,?_⟩,rfl⟩
  intro key other found
  have erased : (server.clients.erase client.id).get? key = some other := found
  rw [Dict.get?_erase] at erased
  split at erased
  · cases erased
  · exact erased

theorem Same.killed (same : Same server middle) (killed : Killed middle after i) : Killed server after i := by
  refine ⟨?_,?_⟩
  · rw [← same.outlines]
    exact killed.outlines
  · rw [← same.clients]
    exact killed.clients

theorem Killed.same (killed : Killed server middle i) (same : Same middle after) : Killed server after i := by
  refine ⟨?_,?_⟩
  · rw [same.outlines]
    exact killed.outlines
  · rw [same.clients]
    exact killed.clients

theorem halt_killed (present : server.clients.get? client.id ≠ none) (reason : Halt) :
    Killed server (server.halt client reason) client.socket ∧
      (server.halt client reason).clients = server.clients.erase client.id := by
  cases reason with
  | closed => exact drop_killed present
  | refused code =>
    have written : Same server (server.writeFrame client.socket OP_CLOSE [UInt8.ofNat (code >>> 8),UInt8.ofNat code]) :=
      same_writeFrame _ _ _ _
    have present' := present
    rw [← written.clients] at present'
    obtain ⟨killed,clients⟩ := drop_killed present'
    refine ⟨written.killed killed,?_⟩
    unfold halt fail
    rw [clients,written.clients]

end Server
end Pezhwan.Websocket
