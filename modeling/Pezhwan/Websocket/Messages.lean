import Pezhwan.Websocket.Frames
import Pezhwan.Websocket.Reading
import Mathlib.Data.Fintype.Basic
import Mathlib.Tactic.FinCases

namespace Pezhwan.Websocket
open Numeric
variable {ι : Type} {node : Node} {maxPayload : ℕ}

-- A message as the events carry it.
inductive Message where
  | text (content : String)
  | binary (content : Bytes)
  deriving DecidableEq, Repr

inductive Kind where
  | text
  | binary
  deriving DecidableEq, Repr

def Kind.message (utf8 : Bytes → String) : Kind → Bytes → Message
  | .text,payload => .text (utf8 payload)
  | .binary,payload => .binary payload

-- The complete messages of a stream of frames (RFC 6455, section 5.4). What has
-- come of a fragmented one is pending while control frames pass.
def messages (utf8 : Bytes → String) : Option (Kind × Bytes) → List Frame → List Message
  | _,[] => []
  | pending,frame :: rest =>
    match frame.opcode with
    | .text =>
      if frame.fin then Kind.message utf8 .text frame.payload :: messages utf8 none rest
      else messages utf8 (some (.text,frame.payload)) rest
    | .binary =>
      if frame.fin then Kind.message utf8 .binary frame.payload :: messages utf8 none rest
      else messages utf8 (some (.binary,frame.payload)) rest
    | .continuation =>
      match pending with
      | none => messages utf8 none rest
      | some (kind,data) =>
        if frame.fin then kind.message utf8 (data ++ frame.payload) :: messages utf8 none rest
        else messages utf8 (some (kind,data ++ frame.payload)) rest
    | .ping | .pong => messages utf8 pending rest
    | .close | .reserved _ _ => []

-- A frame that a client may send.
structure Frame.Valid (maxPayload : ℕ) (frame : Frame) : Prop where
  masked : frame.mask.isSome
  rsv : frame.rsv = 0
  width : frame.width = if frame.payload.length < 126 then .short else if frame.payload.length < 2 ^ 16 then .word else .long
  within : frame.payload.length ≤ maxPayload
  positive : frame.payload.length < 2 ^ 63

-- The frames a client may send, with the size of what is pending of a message.
def Conforming (maxPayload : ℕ) : Option ℕ → List Frame → Prop
  | _,[] => True
  | pending,frame :: rest =>
    frame.Valid maxPayload ∧
      match frame.opcode with
      | .text | .binary =>
        pending = none ∧ if frame.fin then Conforming maxPayload none rest else Conforming maxPayload (some frame.payload.length) rest
      | .continuation =>
        match pending with
        | none => False
        | some size =>
          size + frame.payload.length ≤ maxPayload ∧
            if frame.fin then Conforming maxPayload none rest else Conforming maxPayload (some (size + frame.payload.length)) rest
      | .ping | .pong => frame.fin ∧ frame.payload.length ≤ 125 ∧ Conforming maxPayload pending rest
      | .close => frame.fin ∧ frame.payload.length ≤ 125 ∧ rest = []
      | .reserved _ _ => False

-- The first bytes of a frame that has not come whole.
structure Part where
  frame : Frame
  cut : ℕ
  short : cut < frame.encode.length

def Part.bytes (part : Part) : Bytes := part.frame.encode.take part.cut

def wire (frames : List Frame) (part : Option Part) : Bytes := frames.flatMap Frame.encode ++ (part.map Part.bytes).getD []

structure Stream (maxPayload : ℕ) where
  frames : List Frame
  part : Option Part
  conforming : Conforming maxPayload none (frames ++ (part.map Part.frame).toList)

-- The bytes as they come in.
structure Chunks (bytes : Bytes) where
  chunks : List Bytes
  whole : chunks.flatten = bytes

structure Visit (ι : Type) where
  key : String
  keyed : key ≠ ""
  identity : ι
  now : ℕ
  connectedAt : ℕ

def Visit.client (visit : Visit ι) (node : Node) (server : Server ι) : WsClient ι :=
  server.upgraded node visit.key visit.identity visit.now visit.connectedAt

def Emission.said : Emission ι → Option (WsClient ι × Message)
  | .message client content => some (client,.text content)
  | .binary client content => some (client,.binary content)
  | .connection _ | .close _ => none

def Server.said (server : Server ι) : List (WsClient ι × Message) := server.emitted.filterMap Emission.said

-- A client comes and sends.
def serve (node : Node) (options : PezhwanWebSocketOptions) (server : Server ι) (visit : Visit ι) (chunks : List Bytes) : Server ι :=
  (Event.upgrade (some visit.key) visit.identity visit.now visit.connectedAt :: chunks.map (Event.data server.sockets.length)).foldl
    (perform node options) server

-- Every message is complete, and its first fragment reads as all of it; from a
-- frame of four gigabytes on, no message may be complete.
def Whole (utf8 : Bytes → String) : Option (Bytes × Kind × Bytes) → List Frame → Prop
  | pending,[] => pending = none
  | pending,frame :: rest =>
    if 2 ^ 32 ≤ frame.payload.length then
      messages utf8 (pending.map Prod.snd) (frame :: rest) = (pending.map fun p => p.2.1.message utf8 p.1).toList
    else
      match frame.opcode with
      | .text => if frame.fin then Whole utf8 none rest else Whole utf8 (some (frame.payload,.text,frame.payload)) rest
      | .binary => if frame.fin then Whole utf8 none rest else Whole utf8 (some (frame.payload,.binary,frame.payload)) rest
      | .continuation =>
        match pending with
        | none => Whole utf8 none rest
        | some (first,kind,data) =>
          if frame.fin then kind.message utf8 first = kind.message utf8 (data ++ frame.payload) ∧ Whole utf8 none rest
          else Whole utf8 (some (first,kind,data ++ frame.payload)) rest
      | .ping | .pong => Whole utf8 pending rest
      | .close | .reserved _ _ => pending = none

-- Any frames at all, one of them without a mask.
structure Exposed where
  before : List Frame
  unmasked : Frame
  plain : unmasked.mask = none
  others : List Frame
  part : Option Part

def Exposed.frames (stream : Exposed) : List Frame := stream.before ++ stream.unmasked :: stream.others

-- The server ends the connection over a frame, or does nothing for it that shows.
def Frame.Ends (maxPayload : ℕ) (frame : Frame) : Prop :=
  frame.oversize maxPayload ∨ match frame.opcode with | .close | .reserved _ _ => True | _ => False

def Frame.Silent (frame : Frame) : Prop := match frame.opcode with | .continuation | .ping | .pong => True | _ => False

def Part.Ends (maxPayload : ℕ) (part : Part) : Prop := part.frame.oversize maxPayload ∧ part.frame.header.length ≤ part.cut

-- The first frame that is not passed over in silence is one that ends it.
def Quits (maxPayload : ℕ) (part : Option Part) : List Frame → Prop
  | [] => ∃ last ∈ part, last.Ends maxPayload
  | frame :: rest => frame.Ends maxPayload ∨ frame.Silent ∧ Quits maxPayload part rest

theorem act_code (opcode : Opcode) (payload : Bytes) :
    act opcode.code payload =
      match opcode with
      | .text => .ok (.text payload)
      | .binary => .ok (.binary payload)
      | .ping => .ok (.pong payload)
      | .continuation | .pong => .ok .nothing
      | .close => .error .closed
      | .reserved _ _ => .error (.refused 1002) := by
  cases opcode with
  | reserved control place => cases control <;> fin_cases place <;> rfl
  | _ => rfl

theorem drain_oversize {frame : Frame} (large : frame.oversize maxPayload) (rest : Bytes) :
    Streams.drain (turn maxPayload) (frame.encode ++ rest) = ([],.stopped (.refused 1009)) := by
  refine Streams.drain_stop (turn_stable maxPayload) ?_
  unfold Frame.encode turn
  rw [List.append_assoc,frame.read_oversize large]

theorem drain_ok {frame : Frame} (small : ¬frame.oversize maxPayload) (acted : act frame.opcode.code frame.payload = .ok effect)
    (rest : Bytes) :
    Streams.drain (turn maxPayload) (frame.encode ++ rest) =
      (effect :: (Streams.drain (turn maxPayload) rest).1,(Streams.drain (turn maxPayload) rest).2) := by
  refine Streams.drain_item (turn_stable maxPayload) ?_
  rw [turn_frame (frame.read_encode small rest),acted]

theorem drain_error {frame : Frame} (small : ¬frame.oversize maxPayload) (acted : act frame.opcode.code frame.payload = .error reason)
    (rest : Bytes) : Streams.drain (turn maxPayload) (frame.encode ++ rest) = ([],.stopped reason) := by
  refine Streams.drain_stop (turn_stable maxPayload) ?_
  rw [turn_frame (frame.read_encode small rest),acted]

theorem drain_part (maxPayload : ℕ) (part : Option Part) :
    (Streams.drain (turn maxPayload) ((part.map Part.bytes).getD [])).1 = [] ∧
      ((Streams.drain (turn maxPayload) ((part.map Part.bytes).getD [])).2.halted = true ↔ ∃ last ∈ part, last.Ends maxPayload) := by
  cases part with
  | none => exact ⟨rfl,by simp [Streams.drain,Streams.turns,Streams.Rest.halted]⟩
  | some part =>
    obtain ⟨frame,cut,short⟩ := part
    have waits : readFrame maxPayload (frame.encode.take cut) = .wait →
        Streams.drain (turn maxPayload) (frame.encode.take cut) = ([],.left (frame.encode.take cut)) := by
      intro waiting
      refine Streams.drain_wait ?_
      unfold turn
      rw [waiting]
    simp only [Option.map_some,Option.getD_some,Part.bytes,Part.Ends,Option.mem_def,Option.some.injEq,exists_eq_left']
    by_cases large : frame.oversize maxPayload
    · by_cases headed : frame.header.length ≤ cut
      · have shown : frame.encode.take cut = frame.header ++ frame.body.take (cut - frame.header.length) := by
          unfold Frame.encode
          rw [List.take_append,List.take_of_length_le headed]
        have stops : Streams.drain (turn maxPayload) (frame.encode.take cut) = ([],.stopped (.refused 1009)) := by
          refine Streams.drain_stop (turn_stable maxPayload) ?_
          rw [shown]
          unfold turn
          rw [frame.read_oversize large]
        rw [stops]
        exact ⟨rfl,iff_of_true rfl ⟨large,headed⟩⟩
      · rw [waits (frame.read_headless (by omega))]
        exact ⟨rfl,iff_of_false nofun fun both => headed both.2⟩
    · rw [waits (frame.read_part large short)]
      exact ⟨rfl,iff_of_false nofun fun both => large both.1⟩

def Effect.message (utf8 : Bytes → String) : Effect → Option Message
  | .text payload => some (Kind.message utf8 .text payload)
  | .binary payload => some (Kind.message utf8 .binary payload)
  | .pong _ | .nothing => none

def heard (node : Node) (maxPayload : ℕ) (bytes : Bytes) : List Message :=
  (Streams.drain (turn maxPayload) bytes).1.filterMap (Effect.message node.utf8)

theorem heard_ok {frame : Frame} (small : ¬frame.oversize maxPayload) (acted : act frame.opcode.code frame.payload = .ok effect)
    (rest : Bytes) :
    heard node maxPayload (frame.encode ++ rest) = (effect.message node.utf8).toList ++ heard node maxPayload rest := by
  unfold heard
  rw [drain_ok small acted]
  cases message : effect.message node.utf8 with
  | none => simp [message]
  | some shown => simp [message]

theorem heard_error {frame : Frame} (small : ¬frame.oversize maxPayload) (acted : act frame.opcode.code frame.payload = .error reason)
    (rest : Bytes) : heard node maxPayload (frame.encode ++ rest) = [] := by
  unfold heard
  rw [drain_error small acted]
  rfl

theorem heard_oversize {frame : Frame} (large : frame.oversize maxPayload) (rest : Bytes) :
    heard node maxPayload (frame.encode ++ rest) = [] := by
  unfold heard
  rw [drain_oversize large]
  rfl

theorem wire_cons (frame : Frame) (rest : List Frame) (part : Option Part) :
    wire (frame :: rest) part = frame.encode ++ wire rest part := by
  simp [wire]

theorem heard_part (node : Node) (maxPayload : ℕ) (part : Option Part) : heard node maxPayload (wire [] part) = [] := by
  unfold heard wire
  rw [List.flatMap_nil,List.nil_append,(drain_part maxPayload part).1]
  rfl

theorem small_of {frame : Frame} (valid : frame.Valid maxPayload) (fits : ¬2 ^ 32 ≤ frame.payload.length) : ¬frame.oversize maxPayload := by
  intro large
  rcases large with beyond | huge
  · exact Nat.not_lt.mpr valid.within beyond
  · exact fits huge

-- What the server has already shown of a pending message.
def shown (utf8 : Bytes → String) (pending : Option (Bytes × Kind × Bytes)) : List Message :=
  (pending.map fun p => p.2.1.message utf8 p.1).toList

-- The rest of a stream is shown as it should be.
def Shows (node : Node) (maxPayload : ℕ) (part : Option Part) (rest : List Frame) : Prop :=
  ∀ pending : Option (Bytes × Kind × Bytes),
    Conforming maxPayload (pending.map fun p => p.2.2.length) (rest ++ (part.map Part.frame).toList) →
      (shown node.utf8 pending ++ heard node maxPayload (wire rest part) = messages node.utf8 (pending.map Prod.snd) rest ↔
        Whole node.utf8 pending rest)

theorem shows_start {frame : Frame} (rest : List Frame) (shows : Shows node maxPayload part rest) (kind : Kind)
    (small : ¬frame.oversize maxPayload) (acted : act frame.opcode.code frame.payload = .ok effect)
    (message : effect.message node.utf8 = some (kind.message node.utf8 frame.payload))
    (legal : if frame.fin then Conforming maxPayload none (rest ++ (part.map Part.frame).toList)
      else Conforming maxPayload (some frame.payload.length) (rest ++ (part.map Part.frame).toList)) :
    heard node maxPayload (frame.encode ++ wire rest part) =
        (if frame.fin then kind.message node.utf8 frame.payload :: messages node.utf8 none rest
          else messages node.utf8 (some (kind,frame.payload)) rest) ↔
      if frame.fin then Whole node.utf8 none rest else Whole node.utf8 (some (frame.payload,kind,frame.payload)) rest := by
  rw [heard_ok small acted,message]
  split at legal
  · rename_i last
    rw [if_pos last,if_pos last,← shows none legal]
    simp [shown]
  · rename_i more
    rw [if_neg more,if_neg more,← shows (some (frame.payload,kind,frame.payload)) legal]
    simp [shown]

theorem shows_silent {frame : Frame} (rest : List Frame) (shows : Shows node maxPayload part rest)
    (pending : Option (Bytes × Kind × Bytes)) (small : ¬frame.oversize maxPayload)
    (acted : act frame.opcode.code frame.payload = .ok effect) (message : effect.message node.utf8 = none)
    (legal : Conforming maxPayload (pending.map fun p => p.2.2.length) (rest ++ (part.map Part.frame).toList)) :
    shown node.utf8 pending ++ heard node maxPayload (frame.encode ++ wire rest part) = messages node.utf8 (pending.map Prod.snd) rest ↔
      Whole node.utf8 pending rest := by
  rw [heard_ok small acted,message]
  exact shows pending legal

theorem shows_continuation {frame : Frame} (rest : List Frame) (shows : Shows node maxPayload part rest)
    (begun : Bytes × Kind × Bytes) (small : ¬frame.oversize maxPayload)
    (acted : act frame.opcode.code frame.payload = .ok effect) (message : effect.message node.utf8 = none)
    (legal : if frame.fin then Conforming maxPayload none (rest ++ (part.map Part.frame).toList)
      else Conforming maxPayload (some (begun.2.2.length + frame.payload.length)) (rest ++ (part.map Part.frame).toList)) :
    shown node.utf8 (some begun) ++ heard node maxPayload (frame.encode ++ wire rest part) =
        (if frame.fin then begun.2.1.message node.utf8 (begun.2.2 ++ frame.payload) :: messages node.utf8 none rest
          else messages node.utf8 (some (begun.2.1,begun.2.2 ++ frame.payload)) rest) ↔
      if frame.fin then
        begun.2.1.message node.utf8 begun.1 = begun.2.1.message node.utf8 (begun.2.2 ++ frame.payload) ∧ Whole node.utf8 none rest
      else Whole node.utf8 (some (begun.1,begun.2.1,begun.2.2 ++ frame.payload)) rest := by
  rw [heard_ok small acted,message]
  split at legal
  · rename_i last
    rw [if_pos last,if_pos last,← shows none legal]
    simp [shown]
  · rename_i more
    have legal' : Conforming maxPayload ((some (begun.1,begun.2.1,begun.2.2 ++ frame.payload)).map fun p => p.2.2.length)
        (rest ++ (part.map Part.frame).toList) := by
      rw [Option.map_some,List.length_append]
      exact legal
    rw [if_neg more,if_neg more,← shows _ legal']
    simp [shown]

theorem shows_end (utf8 : Bytes → String) (pending : Option (Bytes × Kind × Bytes)) : shown utf8 pending = [] ↔ pending = none := by
  cases pending with
  | none => simp [shown]
  | some begun => simp [shown]

theorem shows_all (node : Node) (maxPayload : ℕ) (part : Option Part) (frames : List Frame) : Shows node maxPayload part frames := by
  induction frames with
  | nil =>
    intro pending _
    rw [heard_part,List.append_nil]
    exact shows_end node.utf8 pending
  | cons frame rest ih =>
    intro pending conforming
    obtain ⟨valid,legal⟩ := conforming
    rw [wire_cons]
    unfold Whole
    by_cases huge : 2 ^ 32 ≤ frame.payload.length
    · rw [if_pos huge,heard_oversize (.inr huge),List.append_nil]
      exact eq_comm
    · have small := small_of valid huge
      have acted := act_code frame.opcode frame.payload
      rw [if_neg huge]
      unfold messages
      cases opcode : frame.opcode with
      | text | binary =>
        simp only [opcode] at legal acted
        rw [← opcode] at acted
        obtain ⟨fresh,legal⟩ := legal
        cases Option.map_eq_none_iff.mp fresh
        exact shows_start rest ih _ small acted rfl legal
      | continuation =>
        simp only [opcode] at legal acted
        rw [← opcode] at acted
        cases pending with
        | none => exact legal.elim
        | some begun => exact shows_continuation rest ih begun small acted rfl legal.2
      | ping | pong =>
        simp only [opcode] at legal acted
        rw [← opcode] at acted
        exact shows_silent rest ih pending small acted rfl legal.2.2
      | close =>
        simp only [opcode] at acted
        rw [← opcode] at acted
        rw [heard_error small acted,List.append_nil]
        exact shows_end node.utf8 pending
      | reserved control place =>
        simp only [opcode] at legal

-- The server along a connection.
namespace Server
variable {server first : Server ι} {client : WsClient ι}

theorem said_emit (server : Server ι) (emission : Emission ι) :
    (server.emit emission).said = server.said ++ emission.said.toList := by
  unfold said emit
  rw [List.filterMap_append]
  cases shown : emission.said with
  | none => simp [shown]
  | some message => simp [shown]

theorem said_drop (server : Server ι) (client : WsClient ι) : (server.drop client).said = server.said := by
  unfold drop
  split
  · rfl
  · exact (said_emit { server with clients := server.clients.erase client.id } (.close client)).trans (List.append_nil _)

theorem said_halt (server : Server ι) (client : WsClient ι) (reason : Halt) : (server.halt client reason).said = server.said := by
  cases reason with
  | closed => exact said_drop server client
  | refused code => exact said_drop _ client

theorem said_affect (node : Node) (client : WsClient ι) (effects : List Effect) (server : Server ι) :
    (effects.foldl (affect node client) server).said =
      server.said ++ (effects.filterMap (Effect.message node.utf8)).map fun message => (client,message) := by
  induction effects generalizing server with
  | nil => simp
  | cons effect rest ih =>
    rw [List.foldl_cons,ih]
    cases effect with
    | text payload => simp [affect,said_emit,Emission.said,Effect.message,Kind.message]
    | binary payload => simp [affect,said_emit,Emission.said,Effect.message,Kind.message]
    | pong payload => rfl
    | nothing => rfl

-- A socket with its client and its buffer.
def Holds (server : Server ι) (client : WsClient ι) (buffer : Bytes) : Prop :=
  (∃ written, server.sockets[client.socket]? = some ⟨written,false,some (client,buffer)⟩) ∧ server.clients.get? client.id ≠ none

theorem holds_keep (held : server.outlines[client.socket]? = some (false,some client)) (present : server.clients.get? client.id ≠ none)
    (buffer : Bytes) : Holds (server.keep client.socket buffer) client buffer := by
  refine ⟨?_,present⟩
  unfold outlines at held
  rw [List.getElem?_map] at held
  obtain ⟨socket,placed,same⟩ := Option.map_eq_some_iff.mp held
  obtain ⟨written,destroyed,listener⟩ := socket
  simp only [Socket.outline,Prod.mk.injEq] at same
  obtain ⟨there,listening⟩ := same
  obtain ⟨pair,heard_,mine⟩ := Option.map_eq_some_iff.mp listening
  refine ⟨written,?_⟩
  unfold keep
  rw [List.getElem?_modify,placed]
  simp [there,heard_,mine]

-- What the server has done with what came from a client.
structure Tracks (node : Node) (first server : Server ι) (client : WsClient ι) (done : List Effect × Streams.Rest UInt8 Halt) : Prop where
  said : server.said = first.said ++ (done.1.filterMap (Effect.message node.utf8)).map fun message => (client,message)
  left : ∀ buffer, done.2 = .left buffer → server.Holds client buffer
  stopped : done.2.halted = true → server.gone? client.socket = true

theorem data_gone (gone : server.gone? i = true) : server.data node maxPayload i chunk = server := by
  unfold data
  split
  · rename_i found
    unfold gone? at gone
    rw [found] at gone
    cases gone
  · rfl

theorem tracks_data {done : List Effect × Streams.Rest UInt8 Halt} (tracks : Tracks node first server client done) (chunk : Bytes) :
    Tracks node first (server.data node maxPayload client.socket chunk) client (Streams.resume (turn maxPayload) chunk done) := by
  obtain ⟨effects,rest⟩ := done
  cases rest with
  | stopped reason =>
    rw [data_gone (tracks.stopped rfl)]
    exact ⟨tracks.said,nofun,tracks.stopped⟩
  | left buffer =>
    obtain ⟨⟨written,placed⟩,present⟩ := tracks.left buffer rfl
    have read : server.reads maxPayload client.socket chunk = Streams.drain (turn maxPayload) (buffer ++ chunk) := by
      unfold reads
      rw [placed]
    have held : server.outlines[client.socket]? = some (false,some client) := by simp [outlines,placed,Socket.outline]
    rw [data_eq placed,read]
    unfold Streams.resume
    dsimp only
    generalize Streams.drain (turn maxPayload) (buffer ++ chunk) = more
    have affected : Same server (more.1.foldl (affect node client) server) := same_foldl (same_affect node client) _ _
    have said := said_affect node client more.1 server
    rw [tracks.said,List.append_assoc,← List.map_append,← List.filterMap_append] at said
    have present' : (more.1.foldl (affect node client) server).clients.get? client.id ≠ none := by
      rw [affected.clients]
      exact present
    cases ended : more.2 with
    | left buffer =>
      refine ⟨said,?_,nofun⟩
      intro other same
      cases same
      exact holds_keep (by rw [affected.outlines]; exact held) present' buffer
    | stopped reason =>
      refine ⟨(said_halt _ client reason).trans said,nofun,?_⟩
      intro _
      have placed' : client.socket < server.sockets.length := by
        by_contra beyond
        rw [List.getElem?_eq_none (by omega)] at placed
        cases placed
      exact (affected.killed ((halt_killed present' reason).1.same (same_keep _ _ []))).gone placed'

theorem tracks_chunks {done : List Effect × Streams.Rest UInt8 Halt} (maxPayload : ℕ) (tracks : Tracks node first server client done)
    (chunks : List Bytes) :
    Tracks node first (chunks.foldl (fun server chunk => server.data node maxPayload client.socket chunk) server) client
      (Streams.feed (turn maxPayload) done chunks) := by
  induction chunks generalizing server done with
  | nil => exact tracks
  | cons chunk rest ih => exact ih (tracks_data tracks chunk)

theorem tracks_upgrade (node : Node) (server : Server ι) (visit : Visit ι) :
    Tracks node server (server.handleUpgrade node (some visit.key) visit.identity visit.now visit.connectedAt) (visit.client node server)
      ([],.left []) := by
  have accepted : server.handleUpgrade node (some visit.key) visit.identity visit.now visit.connectedAt =
      Server.emit
        { server with
          sockets := server.sockets ++ [⟨[.text (handshake node visit.key)],false,some (visit.client node server,[])⟩]
          clients := server.clients.set (visit.client node server).id (visit.client node server) }
        (.connection (visit.client node server)) := if_neg visit.keyed
  rw [accepted]
  refine ⟨?_,?_,nofun⟩
  · rw [said_emit]
    simp [said,Emission.said]
  · intro buffer same
    cases same
    refine ⟨⟨[.text (handshake node visit.key)],?_⟩,?_⟩
    · exact List.getElem?_concat_length
    · exact fun absent => by simp [emit] at absent

end Server

theorem tracks_serve (node : Node) (options : PezhwanWebSocketOptions) (server : Server ι) (visit : Visit ι) (chunks : List Bytes) :
    Server.Tracks node server (serve node options server visit chunks) (visit.client node server)
      (Streams.drain (turn options.limit) chunks.flatten) := by
  have tracked := Server.tracks_chunks options.limit (Server.tracks_upgrade node server visit) chunks
  rw [Streams.feed_flatten (turn_stable options.limit) rfl] at tracked
  unfold serve
  rw [List.foldl_cons,List.foldl_map]
  exact tracked

theorem said_serve (node : Node) (options : PezhwanWebSocketOptions) (server : Server ι) (visit : Visit ι) (chunks : List Bytes) :
    (serve node options server visit chunks).said =
      server.said ++ (heard node options.limit chunks.flatten).map fun message => (visit.client node server,message) :=
  (tracks_serve node options server visit chunks).said

theorem gone_serve (node : Node) (options : PezhwanWebSocketOptions) (server : Server ι) (visit : Visit ι) (chunks : List Bytes) :
    (serve node options server visit chunks).gone? server.sockets.length = true ↔
      (Streams.drain (turn options.limit) chunks.flatten).2.halted = true := by
  have tracked := tracks_serve node options server visit chunks
  cases ended : (Streams.drain (turn options.limit) chunks.flatten).2 with
  | left buffer =>
    obtain ⟨⟨written,placed⟩,_⟩ := tracked.left buffer ended
    have here : (serve node options server visit chunks).sockets[server.sockets.length]? =
        some ⟨written,false,some (visit.client node server,buffer)⟩ := placed
    refine iff_of_false ?_ nofun
    unfold Server.gone?
    rw [here]
    exact Bool.false_ne_true
  | stopped reason => exact iff_of_true (tracked.stopped (by rw [ended]; rfl)) rfl

theorem act_ends {frame : Frame} (utf8 : Bytes → String) (small : ¬frame.oversize maxPayload) :
    (frame.Ends maxPayload ∧ ∃ reason, act frame.opcode.code frame.payload = .error reason) ∨
      ¬frame.Ends maxPayload ∧ ∃ effect, act frame.opcode.code frame.payload = .ok effect ∧
        (frame.Silent ↔ effect.message utf8 = none) := by
  rw [act_code]
  unfold Frame.Ends Frame.Silent
  cases frame.opcode with
  | close => exact .inl ⟨.inr trivial,_,rfl⟩
  | reserved control place => exact .inl ⟨.inr trivial,_,rfl⟩
  | text => exact .inr ⟨by simpa using small,_,rfl,iff_of_false id nofun⟩
  | binary => exact .inr ⟨by simpa using small,_,rfl,iff_of_false id nofun⟩
  | continuation | ping | pong => exact .inr ⟨by simpa using small,_,rfl,iff_of_true trivial rfl⟩

theorem not_oversize {frame : Frame} (stays : ¬frame.Ends maxPayload) : ¬frame.oversize maxPayload := fun large => stays (.inl large)

theorem drain_ends {frame : Frame} (ends : frame.Ends maxPayload) (rest : Bytes) :
    ∃ reason, Streams.drain (turn maxPayload) (frame.encode ++ rest) = ([],.stopped reason) := by
  by_cases large : frame.oversize maxPayload
  · exact ⟨_,drain_oversize large rest⟩
  · rcases act_ends (fun _ => "") large with ⟨_,reason,acted⟩ | ⟨stays,_⟩
    · exact ⟨reason,drain_error large acted rest⟩
    · exact absurd ends stays

theorem drain_stays {frame : Frame} (utf8 : Bytes → String) (stays : ¬frame.Ends maxPayload) (rest : Bytes) :
    ∃ effect, (frame.Silent ↔ effect.message utf8 = none) ∧
      Streams.drain (turn maxPayload) (frame.encode ++ rest) =
        (effect :: (Streams.drain (turn maxPayload) rest).1,(Streams.drain (turn maxPayload) rest).2) := by
  rcases act_ends utf8 (not_oversize stays) with ⟨ends,_⟩ | ⟨_,effect,acted,silent⟩
  · exact absurd ends stays
  · exact ⟨effect,silent,drain_ok (not_oversize stays) acted rest⟩

theorem drain_frames (maxPayload : ℕ) (frames : List Frame) :
    ((∃ frame ∈ frames, frame.Ends maxPayload) ∧
        ∃ effects reason, Streams.drain (turn maxPayload) (frames.flatMap Frame.encode) = (effects,.stopped reason)) ∨
      (¬∃ frame ∈ frames, frame.Ends maxPayload) ∧
        ∃ effects, Streams.drain (turn maxPayload) (frames.flatMap Frame.encode) = (effects,.left []) := by
  induction frames with
  | nil => exact .inr ⟨by simp,[],rfl⟩
  | cons frame rest ih =>
    rw [List.flatMap_cons]
    by_cases ends : frame.Ends maxPayload
    · obtain ⟨reason,stopped⟩ := drain_ends ends (rest.flatMap Frame.encode)
      exact .inl ⟨⟨frame,by simp,ends⟩,[],reason,stopped⟩
    · obtain ⟨effect,_,read⟩ := drain_stays (fun _ => "") ends (rest.flatMap Frame.encode)
      rw [read]
      rcases ih with ⟨⟨later,listed,ended⟩,effects,reason,stopped⟩ | ⟨none,effects,left⟩
      · refine .inl ⟨⟨later,List.mem_cons_of_mem _ listed,ended⟩,effect :: effects,reason,?_⟩
        rw [stopped]
      · refine .inr ⟨?_,effect :: effects,?_⟩
        · simpa [ends] using none
        · rw [left]

theorem quits_iff (node : Node) (maxPayload : ℕ) (part : Option Part) (frames : List Frame) :
    ((Streams.drain (turn maxPayload) (wire frames part)).2.halted = true ∧ heard node maxPayload (wire frames part) = []) ↔
      Quits maxPayload part frames := by
  induction frames with
  | nil =>
    have last := (drain_part maxPayload part).2
    rw [heard_part]
    unfold Quits wire
    rw [List.flatMap_nil,List.nil_append]
    simpa using last
  | cons frame rest ih =>
    rw [wire_cons]
    unfold Quits
    by_cases ends : frame.Ends maxPayload
    · obtain ⟨reason,stopped⟩ := drain_ends ends (wire rest part)
      unfold heard
      rw [stopped]
      exact iff_of_true ⟨rfl,rfl⟩ (.inl ends)
    · obtain ⟨effect,silent,read⟩ := drain_stays node.utf8 ends (wire rest part)
      rw [← ih,silent]
      unfold heard
      rw [read]
      simp only [ends,false_or]
      constructor
      · intro both
        obtain ⟨halted,nothing⟩ := both
        have quiet : effect.message node.utf8 = none := by
          cases message : effect.message node.utf8 with
          | none => rfl
          | some shown => simp [message] at nothing
        exact ⟨quiet,halted,by simpa [quiet] using nothing⟩
      · intro both
        obtain ⟨quiet,halted,nothing⟩ := both
        exact ⟨halted,by simp [quiet,nothing]⟩

theorem exposed_iff (node : Node) (maxPayload : ℕ) (before rest : List Frame) (part : Option Part) :
    ((Streams.drain (turn maxPayload) (wire (before ++ rest) part)).2.halted = true ∧
        heard node maxPayload (wire (before ++ rest) part) = heard node maxPayload (wire before none)) ↔
      (∃ frame ∈ before, frame.Ends maxPayload) ∨ Quits maxPayload part rest := by
  have cut : Streams.drain (turn maxPayload) (wire (before ++ rest) part) =
      Streams.resume (turn maxPayload) (wire rest part) (Streams.drain (turn maxPayload) (before.flatMap Frame.encode)) := by
    rw [← Streams.drain_append (turn_stable maxPayload)]
    simp [wire]
  have whole : wire before none = before.flatMap Frame.encode := List.append_nil _
  unfold heard
  rw [cut,whole]
  rcases drain_frames maxPayload before with ⟨ends,effects,reason,stopped⟩ | ⟨stays,effects,left⟩
  · rw [stopped]
    exact iff_of_true ⟨rfl,rfl⟩ (.inl ends)
  · have quits := quits_iff node maxPayload part rest
    unfold heard at quits
    rw [left,← quits]
    unfold Streams.resume
    simp only [stays,false_or,List.nil_append,List.filterMap_append,List.append_right_eq_self]

-- Complete messages are what the server says exactly when no fragment makes a
-- difference; an unmasked frame ends the connection, and nothing is said of it or
-- after it, exactly when the first frame that shows ends it anyway.
theorem messages_as_defined_iff (node : Node) (options : PezhwanWebSocketOptions) (server : Server ι) (visit : Visit ι) :
    (∀ (stream : Stream options.limit) (bytes : Chunks (wire stream.frames stream.part)),
        (serve node options server visit bytes.chunks).said =
            server.said ++ (messages node.utf8 none stream.frames).map (fun message => (visit.client node server,message)) ↔
          Whole node.utf8 none stream.frames) ∧
      ∀ (stream : Exposed) (bytes : Chunks (wire stream.frames stream.part)),
        ((serve node options server visit bytes.chunks).gone? server.sockets.length = true ∧
            (serve node options server visit bytes.chunks).said =
              (serve node options server visit [wire stream.before none]).said) ↔
          (∃ frame ∈ stream.before, frame.Ends options.limit) ∨
            Quits options.limit stream.part (stream.unmasked :: stream.others) := by
  have apart : Function.Injective fun message : Message => (visit.client node server,message) := by
    intro one two same
    exact congrArg Prod.snd same
  constructor
  · intro stream bytes
    rw [said_serve,bytes.whole,List.append_right_inj,List.map_inj_right fun _ _ same => apart same]
    exact shows_all node options.limit stream.part stream.frames none stream.conforming
  · intro stream bytes
    rw [gone_serve,said_serve,said_serve,bytes.whole,List.append_right_inj,List.map_inj_right fun _ _ same => apart same,
      List.flatten_singleton]
    exact exposed_iff node options.limit stream.before (stream.unmasked :: stream.others) stream.part

def sampleKey : Fin 4 → UInt8 := fun i => [0x37,0xfa,0x21,0x3d].getD i.val 0

-- "Hello" in two fragments.
def fragments : Stream 262144 where
  frames := [⟨false,0,.text,some sampleKey,.short,[0x48,0x65,0x6c],by decide⟩,
    ⟨true,0,.continuation,some sampleKey,.short,[0x6c,0x6f],by decide⟩]
  part := none
  conforming := by
    refine ⟨⟨rfl,rfl,rfl,by decide,by decide⟩,rfl,⟨⟨rfl,rfl,rfl,by decide,by decide⟩,by decide,trivial⟩⟩

def sampleVisit : Visit Unit := ⟨"dGhlIHNhbXBsZSBub25jZQ==",by decide,(),1700000000000,1700000000000⟩

theorem fragment_is_message :
    ¬∀ (stream : Stream 262144) (bytes : Chunks (wire stream.frames stream.part)),
      (serve sampleNode ⟨none⟩ Server.start sampleVisit bytes.chunks).said =
        (messages sampleNode.utf8 none stream.frames).map fun message => (sampleVisit.client sampleNode Server.start,message) := by
  intro defined
  have said := defined fragments ⟨[wire fragments.frames fragments.part],List.flatten_singleton⟩
  revert said
  decide +kernel

end Pezhwan.Websocket
