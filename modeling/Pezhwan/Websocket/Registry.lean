import Pezhwan.Websocket.Reading
import Pezhwan.Atomic.Machine

namespace Pezhwan.Websocket
open Atomic Numeric
variable {ι : Type} {server after : Server ι} {client : WsClient ι}

-- The client of a socket that is still there.
def Socket.live (socket : Socket ι) : Option (WsClient ι) := if socket.destroyed then none else socket.listener.map Prod.fst

namespace Server

def live (server : Server ι) : List (WsClient ι) := server.sockets.filterMap Socket.live

end Server

-- The registry holds the clients whose sockets are there, each once.
def Registered (server : Server ι) : Prop := server.clientsList.Perm server.live

-- Who fails the protocol loses its socket.
def Refused (options : PezhwanWebSocketOptions) (server : Server ι) (event : Event ι) (after : Server ι) : Prop :=
  match event with
  | .upgrade key _ _ _ => key.getD "" = "" → after.gone? server.sockets.length = true
  | .data socket chunk => (server.reads options.limit socket chunk).2.halted = true → after.gone? socket = true
  | _ => True

def Event.takes (client : WsClient ι) : Event ι → Prop
  | .data socket _ | .error socket | .ended socket => client.socket = socket
  | .close => True
  | .upgrade _ _ _ _ | .broadcast _ => False

-- No other client leaves the registry.
def Spared (server : Server ι) (event : Event ι) (after : Server ι) : Prop :=
  ∀ client ∈ server.clientsList, client ∈ after.clientsList ∨ event.takes client

def Exact (options : PezhwanWebSocketOptions) (server : Server ι) (event : Event ι) (after : Server ι) : Prop :=
  Registered after ∧ Refused options server event after ∧ Spared server event after

-- An upgrade takes a free id, and a socket that ends has no other client's.
def Apart (node : Node) (server : Server ι) : Event ι → Prop
  | .upgrade key _ now _ => key.getD "" ≠ "" → server.clients.get? (clientId node (key.getD "") now) = none
  | .error socket | .ended socket =>
    ∀ held ∈ (server.sockets[socket]?).bind Socket.listener, ∀ client ∈ server.clients.get? held.1.id, client.socket = socket
  | .data _ _ | .broadcast _ | .close => True

namespace Server

def alive (server : Server ι) (client : WsClient ι) : Prop := server.outlines[client.socket]? = some (false,some client)

structure Proper (server : Server ι) : Prop where
  own : ∀ (i : ℕ) destroyed client, server.outlines[i]? = some (destroyed,some client) → client.socket = i
  keyed : ∀ key client, server.clients.get? key = some client → client.id = key

structure Kept (server : Server ι) : Prop extends server.Proper where
  exact : ∀ client, server.clients.get? client.id = some client ↔ server.alive client

theorem mem_live (proper : server.Proper) : client ∈ server.live ↔ server.alive client := by
  unfold live alive outlines
  rw [List.mem_filterMap]
  constructor
  · intro listed
    obtain ⟨socket,listed,shown⟩ := listed
    obtain ⟨i,found⟩ := List.getElem?_of_mem listed
    have outlined : server.outlines[i]? = some socket.outline := by simp [outlines,found]
    unfold Socket.live at shown
    split at shown
    · cases shown
    · rename_i there
      have same : socket.outline = (false,some client) := by simp [Socket.outline,shown,there]
      rw [same] at outlined
      rw [proper.own i _ _ outlined]
      exact outlined
  · intro found
    rw [List.getElem?_map] at found
    obtain ⟨socket,placed,same⟩ := Option.map_eq_some_iff.mp found
    refine ⟨socket,List.mem_of_getElem? placed,?_⟩
    simp only [Socket.outline,Prod.mk.injEq] at same
    simp [Socket.live,same]

theorem mem_clientsList (proper : server.Proper) : client ∈ server.clientsList ↔ server.clients.get? client.id = some client := by
  unfold clientsList
  rw [Dict.mem_values]
  constructor
  · intro registered
    obtain ⟨key,found⟩ := registered
    rw [proper.keyed key client found]
    exact found
  · intro found
    exact ⟨_,found⟩

theorem nodup_clientsList (proper : server.Proper) : server.clientsList.Nodup := by
  have keys : server.clientsList.map WsClient.id = server.clients.entries.map Prod.fst := by
    unfold clientsList Dict.values
    rw [List.map_map]
    refine List.map_congr_left ?_
    intro entry listed
    exact proper.keyed entry.1 entry.2 (Dict.get?_iff.mpr listed)
  refine List.Nodup.of_map WsClient.id ?_
  rw [keys]
  exact server.clients.distinct

theorem nodup_live (proper : server.Proper) : server.live.Nodup := by
  unfold live List.Nodup
  rw [List.pairwise_filterMap,List.pairwise_iff_getElem]
  intro i j first second before one oneLive two twoLive same
  have placed : ∀ (k : ℕ) (within : k < server.sockets.length) (c : WsClient ι), server.sockets[k].live = some c → c.socket = k := by
    intro k within c shown
    unfold Socket.live at shown
    split at shown
    · cases shown
    · rename_i there
      exact proper.own k false c (by simp [outlines,Socket.outline,List.getElem?_eq_getElem within,shown,there])
  have left := placed i first one oneLive
  have right := placed j second two twoLive
  rw [same] at left
  omega

theorem registered_iff (proper : server.Proper) : Registered server ↔ server.Kept := by
  unfold Registered
  rw [List.perm_ext_iff_of_nodup (nodup_clientsList proper) (nodup_live proper)]
  constructor
  · intro same
    refine ⟨proper,?_⟩
    intro client
    rw [← mem_clientsList proper,same,mem_live proper]
  · intro kept client
    rw [mem_clientsList proper,mem_live proper]
    exact kept.exact client

theorem Same.alive (same : Same server after) : after.alive client ↔ server.alive client := by
  unfold Server.alive
  rw [same.outlines]

theorem Same.proper (same : Same server after) (proper : server.Proper) : after.Proper := by
  refine ⟨?_,?_⟩
  · rw [same.outlines]
    exact proper.own
  · rw [same.clients]
    exact proper.keyed

theorem Same.kept (same : Same server after) (kept : server.Kept) : after.Kept := by
  refine ⟨same.proper kept.toProper,?_⟩
  intro client
  rw [same.clients,same.alive]
  exact kept.exact client

theorem Killed.alive (killed : Killed server after i) : after.alive client ↔ server.alive client ∧ client.socket ≠ i := by
  unfold Server.alive
  rw [killed.outlines,List.getElem?_modify]
  by_cases here : i = client.socket
  · simp [here]
  · simp [here,Ne.symm here]

theorem Killed.proper (killed : Killed server after i) (proper : server.Proper) : after.Proper := by
  refine ⟨?_,fun key client found => proper.keyed key client (killed.clients key client found)⟩
  intro j destroyed client found
  rw [killed.outlines,List.getElem?_modify] at found
  obtain ⟨outline,placed,same⟩ := Option.map_eq_some_iff.mp found
  refine proper.own j outline.1 client ?_
  rw [placed]
  split at same
  · cases outline
    simp only [Prod.mk.injEq] at same
    rw [same.2]
  · rw [same]

theorem alive_unique (one : server.alive client) (two : server.alive other) (same : client.socket = other.socket) :
    client = other := by
  unfold Server.alive at one two
  rw [same,two] at one
  cases one
  rfl

theorem Killed.kept (killed : Killed server after client.socket) (kept : server.Kept) (alive : server.alive client)
    (clients : after.clients = server.clients.erase client.id) : after.Kept := by
  refine ⟨killed.proper kept.toProper,?_⟩
  intro other
  rw [killed.alive,clients,Dict.get?_erase]
  by_cases same : other.id = client.id
  · rw [if_pos same]
    refine ⟨nofun,?_⟩
    intro both
    have one := (kept.exact other).mpr both.1
    have two := (kept.exact client).mpr alive
    rw [same,two] at one
    cases one
    exact absurd rfl both.2
  · rw [if_neg same,kept.exact other]
    constructor
    · intro there
      refine ⟨there,?_⟩
      intro placed
      exact same (congrArg WsClient.id (alive_unique there alive placed))
    · intro both
      exact both.1

theorem data_shape (kept : server.Kept) (node : Node) (maxPayload i : ℕ) (chunk : Bytes) :
    ((server.reads maxPayload i chunk).2.halted = false ∧ Same server (server.data node maxPayload i chunk)) ∨
      ∃ client, server.alive client ∧ client.socket = i ∧ Killed server (server.data node maxPayload i chunk) i ∧
        (server.data node maxPayload i chunk).clients = server.clients.erase client.id := by
  by_cases live : ∃ written client buffer, server.sockets[i]? = some ⟨written,false,some (client,buffer)⟩
  · obtain ⟨written,client,buffer,found⟩ := live
    have outlined : server.outlines[i]? = some (false,some client) := by simp [outlines,found,Socket.outline]
    have mine : client.socket = i := kept.own i _ _ outlined
    have alive : server.alive client := by
      unfold Server.alive
      rw [mine]
      exact outlined
    rw [data_eq found]
    have affected : Same server ((server.reads maxPayload i chunk).1.foldl (affect node client) server) :=
      same_foldl (same_affect node client) _ _
    cases (server.reads maxPayload i chunk).2 with
    | left rest => exact .inl ⟨rfl,affected.trans (same_keep _ _ _)⟩
    | stopped reason =>
      have present : ((server.reads maxPayload i chunk).1.foldl (affect node client) server).clients.get? client.id ≠ none := by
        rw [affected.clients,(kept.exact client).mpr alive]
        simp
      obtain ⟨killed,clients⟩ := halt_killed present reason
      rw [mine] at killed
      refine .inr ⟨client,alive,mine,affected.killed (killed.same (same_keep _ _ _)),?_⟩
      refine (same_keep _ i []).clients.trans (clients.trans ?_)
      rw [affected.clients]
  · have idle : server.data node maxPayload i chunk = server := by
      unfold data
      split
      · rename_i written client buffer found
        exact absurd ⟨written,client,buffer,found⟩ live
      · rfl
    refine .inl ⟨?_,?_⟩
    · unfold reads
      split
      · rename_i written client buffer found
        exact absurd ⟨written,client,buffer,found⟩ live
      · rfl
    · rw [idle]
      exact Same.refl server

theorem gone_listener (listener : (server.sockets[i]?).bind Socket.listener = some (client,buffer)) (mine : client.socket = i) :
    Killed server (server.gone i) i ∧
      (server.gone i).clients = if server.clients.get? client.id = none then server.clients else server.clients.erase client.id := by
  unfold gone
  rw [listener]
  dsimp only
  have first := killed_destroy server i
  split
  · rename_i absent
    have idle : (server.destroy i).drop client = server.destroy i := if_pos absent
    rw [idle]
    exact ⟨first,rfl⟩
  · rename_i present
    have present' : (server.destroy i).clients.get? client.id ≠ none := present
    obtain ⟨second,clients⟩ := drop_killed present'
    refine ⟨⟨?_,fun key client found => first.clients key client (second.clients key client found)⟩,clients⟩
    rw [second.outlines,first.outlines,mine]
    refine List.ext_getElem? fun j => ?_
    simp only [List.getElem?_modify]
    cases server.outlines[j]? with
    | none => rfl
    | some outline => by_cases here : i = j <;> simp [here]

theorem gone_idle (listener : (server.sockets[i]?).bind Socket.listener = none) :
    Killed server (server.gone i) i ∧ (server.gone i).clients = server.clients := by
  unfold gone
  rw [listener]
  exact ⟨killed_destroy server i,rfl⟩

theorem gone_killed (proper : server.Proper) (i : ℕ) : Killed server (server.gone i) i := by
  cases listener : (server.sockets[i]?).bind Socket.listener with
  | none => exact (gone_idle listener).1
  | some held =>
    obtain ⟨socket,placed,here⟩ := Option.bind_eq_some_iff.mp listener
    have mine : held.1.socket = i := proper.own i socket.destroyed held.1 (by simp [outlines,placed,Socket.outline,here])
    exact (gone_listener listener mine).1

theorem listener_alive (alive : server.alive client) :
    ∃ held, (server.sockets[client.socket]?).bind Socket.listener = some held ∧ held.1 = client := by
  unfold Server.alive outlines at alive
  rw [List.getElem?_map] at alive
  obtain ⟨socket,placed,same⟩ := Option.map_eq_some_iff.mp alive
  simp only [Socket.outline,Prod.mk.injEq] at same
  obtain ⟨held,listening,mine⟩ := Option.map_eq_some_iff.mp same.2
  exact ⟨held,by rw [placed]; exact listening,mine⟩

theorem gone_kept (kept : server.Kept) (i : ℕ) :
    (server.gone i).Kept ↔
      ∀ held ∈ (server.sockets[i]?).bind Socket.listener, ∀ client ∈ server.clients.get? held.1.id, client.socket = i := by
  have killed := gone_killed kept.toProper i
  cases listener : (server.sockets[i]?).bind Socket.listener with
  | none =>
    refine ⟨fun _ => nofun,fun _ => ⟨killed.proper kept.toProper,?_⟩⟩
    intro client
    rw [killed.alive,(gone_idle listener).2,kept.exact client]
    refine ⟨fun alive => ⟨alive,?_⟩,And.left⟩
    intro same
    obtain ⟨held,listening,_⟩ := listener_alive alive
    rw [same,listener] at listening
    cases listening
  | some held =>
    obtain ⟨client,buffer⟩ := held
    obtain ⟨socket,placed,here⟩ := Option.bind_eq_some_iff.mp listener
    have mine : client.socket = i := kept.own i socket.destroyed client (by simp [outlines,placed,Socket.outline,here])
    have clients := (gone_listener listener mine).2
    constructor
    · intro exact' held listed other registered
      cases listed
      by_contra elsewhere
      have same : other.id = client.id := kept.keyed _ _ registered
      have registered' := registered
      rw [← same] at registered'
      have alive := (kept.exact other).mp registered'
      have still := (exact'.exact other).mpr (killed.alive.mpr ⟨alive,elsewhere⟩)
      have present : server.clients.get? client.id ≠ none := by
        rw [registered]
        simp
      rw [clients,if_neg present,Dict.get?_erase,if_pos same] at still
      cases still
    · intro own
      have unique : ∀ other, server.alive other → other.socket = i → other = client := by
        intro other alive there
        obtain ⟨held,listening,same⟩ := listener_alive alive
        rw [there,listener] at listening
        cases listening
        exact same.symm
      cases registered : server.clients.get? client.id with
      | none =>
        refine ⟨killed.proper kept.toProper,?_⟩
        intro other
        rw [killed.alive,clients,if_pos registered,kept.exact other]
        refine ⟨fun alive => ⟨alive,?_⟩,And.left⟩
        intro there
        have absent := (kept.exact other).mpr alive
        rw [unique other alive there,registered] at absent
        cases absent
      | some other =>
        have there := own _ rfl other registered
        have same : other.id = client.id := kept.keyed _ _ registered
        have alive := (kept.exact other).mp (by rw [same]; exact registered)
        cases unique other alive there
        subst mine
        refine killed.kept kept alive ?_
        rw [clients,if_neg (by rw [registered]; simp)]

theorem data_kept (kept : server.Kept) (node : Node) (maxPayload i : ℕ) (chunk : Bytes) :
    (server.data node maxPayload i chunk).Kept := by
  rcases data_shape kept node maxPayload i chunk with ⟨_,same⟩ | ⟨client,alive,rfl,killed,clients⟩
  · exact same.kept kept
  · exact killed.kept kept alive clients

theorem outlines_upgrade (keyed : key.getD "" ≠ "") :
    (server.handleUpgrade node key identity now connectedAt).outlines =
      server.outlines ++ [(false,some (server.upgraded node (key.getD "") identity now connectedAt))] := by
  unfold handleUpgrade
  rw [if_neg keyed]
  simp [outlines,emit,Socket.outline]

theorem clients_upgrade (keyed : key.getD "" ≠ "") :
    (server.handleUpgrade node key identity now connectedAt).clients =
      server.clients.set (clientId node (key.getD "") now) (server.upgraded node (key.getD "") identity now connectedAt) := by
  unfold handleUpgrade
  rw [if_neg keyed]
  rfl

theorem outlines_refused (missing : key.getD "" = "") :
    (server.handleUpgrade node key identity now connectedAt).outlines = server.outlines ++ [(true,none)] := by
  unfold handleUpgrade
  rw [if_pos missing]
  simp [outlines,Socket.outline]

theorem clients_refused (missing : key.getD "" = "") :
    (server.handleUpgrade node key identity now connectedAt).clients = server.clients := by
  unfold handleUpgrade
  rw [if_pos missing]

theorem alive_append {outline : Bool × Option (WsClient ι)} (added : after.outlines = server.outlines ++ [outline]) :
    after.alive client ↔ server.alive client ∨ client.socket = server.sockets.length ∧ outline = (false,some client) := by
  unfold Server.alive
  rw [added,List.getElem?_append]
  have length : server.outlines.length = server.sockets.length := by simp [outlines]
  split
  · rename_i within
    constructor
    · exact .inl
    · intro either
      rcases either with there | ⟨last,_⟩
      · exact there
      · omega
  · rename_i beyond
    have none : server.outlines[client.socket]? = none := List.getElem?_eq_none (by omega)
    rw [none,List.getElem?_singleton]
    split
    · rename_i last
      simp only [Option.some.injEq,reduceCtorEq,false_or]
      constructor
      · intro same
        exact ⟨by omega,same⟩
      · intro both
        exact both.2
    · rename_i past
      simp only [reduceCtorEq,false_or,false_iff]
      intro both
      omega

theorem proper_append {outline : Bool × Option (WsClient ι)} (proper : server.Proper) (added : after.outlines = server.outlines ++ [outline])
    (mine : ∀ client, outline.2 = some client → client.socket = server.sockets.length)
    (keyed : ∀ key client, after.clients.get? key = some client → client.id = key) : after.Proper := by
  refine ⟨?_,keyed⟩
  intro i destroyed client found
  rw [added,List.getElem?_append] at found
  have length : server.outlines.length = server.sockets.length := by simp [outlines]
  split at found
  · exact proper.own i destroyed client found
  · rw [List.getElem?_singleton] at found
    split at found
    · cases found
      have last := mine client rfl
      omega
    · cases found

theorem upgrade_proper (proper : server.Proper) : (server.handleUpgrade node key identity now connectedAt).Proper := by
  by_cases missing : key.getD "" = ""
  · refine proper_append proper (outlines_refused missing) nofun ?_
    rw [clients_refused missing]
    exact proper.keyed
  · refine proper_append proper (outlines_upgrade missing) ?_ ?_
    · intro client same
      cases same
      rfl
    · rw [clients_upgrade missing]
      intro id client found
      rw [Dict.get?_set] at found
      split at found
      · rename_i same
        cases found
        exact same.symm
      · exact proper.keyed id client found

theorem upgrade_kept (kept : server.Kept) :
    (server.handleUpgrade node key identity now connectedAt).Kept ↔
      (key.getD "" ≠ "" → server.clients.get? (clientId node (key.getD "") now) = none) := by
  have proper : (server.handleUpgrade node key identity now connectedAt).Proper := upgrade_proper kept.toProper
  by_cases missing : key.getD "" = ""
  · refine ⟨fun _ keyed => absurd missing keyed,fun _ => ⟨proper,?_⟩⟩
    intro client
    rw [clients_refused missing,alive_append (outlines_refused missing),kept.exact client]
    simp
  · have alive : ∀ client, (server.handleUpgrade node key identity now connectedAt).alive client ↔
        server.alive client ∨ client = server.upgraded node (key.getD "") identity now connectedAt := by
      intro client
      rw [alive_append (outlines_upgrade missing)]
      refine or_congr Iff.rfl ⟨?_,?_⟩
      · intro both
        have same := congrArg Prod.snd both.2
        exact (Option.some.inj same).symm
      · intro same
        rw [same]
        exact ⟨rfl,rfl⟩
    constructor
    · intro exact' _
      cases registered : server.clients.get? (clientId node (key.getD "") now) with
      | none => rfl
      | some other =>
        have named := kept.keyed _ _ registered
        have there := (kept.exact other).mp (by rw [named]; exact registered)
        have still := (exact'.exact other).mpr ((alive other).mpr (.inl there))
        rw [clients_upgrade missing,Dict.get?_set,if_pos named] at still
        have placed : other.socket = server.sockets.length := by
          rw [← Option.some.inj still]
          rfl
        obtain ⟨held,listening,_⟩ := listener_alive there
        rw [placed,List.getElem?_eq_none (Nat.le_refl _)] at listening
        cases listening
    · intro free
      refine ⟨proper,?_⟩
      intro client
      rw [alive client,clients_upgrade missing,Dict.get?_set,← kept.exact client]
      split
      · rename_i same
        rw [same,free missing]
        simp [eq_comm]
      · rename_i other
        constructor
        · exact .inl
        · intro either
          rcases either with there | same
          · exact there
          · exact absurd (congrArg WsClient.id same) other

theorem same_broadcast (server : Server ι) (data : Bytes) : Same server (server.broadcast data) :=
  same_foldl (fun server (client : WsClient ι) => same_writeFrame server client.socket OP_TEXT data) _ _

theorem close_alive (clients : List (WsClient ι)) (server : Server ι) :
    (clients.foldl (fun server client => (server.writeFrame client.socket OP_CLOSE [0x03,0xe8]).destroy client.socket) server).alive
      other ↔ server.alive other ∧ ∀ client ∈ clients, other.socket ≠ client.socket := by
  induction clients generalizing server with
  | nil => simp
  | cons client rest ih =>
    rw [List.foldl_cons,ih,(killed_destroy _ client.socket).alive,(same_writeFrame _ _ _ _).alive]
    simp [and_assoc]

theorem close_proper (proper : server.Proper) : server.close.Proper := by
  have each : ∀ (clients : List (WsClient ι)) (server : Server ι), server.Proper →
      (clients.foldl (fun server client => (server.writeFrame client.socket OP_CLOSE [0x03,0xe8]).destroy client.socket)
        server).Proper := by
    intro clients
    induction clients with
    | nil => exact fun _ proper => proper
    | cons client rest ih =>
      intro server proper
      exact ih _ ((killed_destroy _ client.socket).proper ((same_writeFrame _ _ _ _).proper proper))
  exact ⟨(each _ server proper).own,nofun⟩

theorem close_kept (kept : server.Kept) : server.close.Kept := by
  refine ⟨close_proper kept.toProper,?_⟩
  intro client
  refine ⟨nofun,?_⟩
  intro alive
  obtain ⟨there,spared⟩ := (close_alive server.clients.values server).mp alive
  exact absurd rfl (spared client (Dict.mem_values.mpr ⟨_,(kept.exact client).mpr there⟩))

theorem perform_proper (kept : server.Kept) (event : Event ι) : (perform node options server event).Proper := by
  cases event with
  | upgrade key identity now connectedAt => exact upgrade_proper kept.toProper
  | data i chunk => exact (data_kept kept _ _ _ _).toProper
  | error i | ended i => exact (gone_killed kept.toProper i).proper kept.toProper
  | broadcast data => exact (same_broadcast server data).proper kept.toProper
  | close => exact close_proper kept.toProper

theorem perform_kept (kept : server.Kept) (event : Event ι) : (perform node options server event).Kept ↔ Apart node server event := by
  cases event with
  | upgrade key identity now connectedAt => exact upgrade_kept kept
  | data i chunk => exact iff_of_true (data_kept kept _ _ _ _) trivial
  | error i | ended i => exact gone_kept kept i
  | broadcast data => exact iff_of_true ((same_broadcast server data).kept kept) trivial
  | close => exact iff_of_true (close_kept kept) trivial

theorem alive_placed (alive : server.alive client) : client.socket < server.sockets.length := by
  obtain ⟨held,listening,_⟩ := listener_alive alive
  by_contra beyond
  rw [List.getElem?_eq_none (by omega)] at listening
  cases listening

theorem perform_refused (kept : server.Kept) (event : Event ι) : Refused options server event (perform node options server event) := by
  cases event with
  | upgrade key identity now connectedAt =>
    intro missing
    have refused : server.handleUpgrade node key identity now connectedAt =
        { server with sockets := server.sockets ++ [⟨[],true,none⟩] } := if_pos missing
    unfold perform
    dsimp only
    rw [refused]
    simp [gone?]
  | data i chunk =>
    intro halted
    rcases data_shape kept node options.limit i chunk with ⟨open_,_⟩ | ⟨client,alive,rfl,killed,_⟩
    · rw [open_] at halted
      cases halted
    · exact killed.gone (alive_placed alive)
  | error i | ended i | broadcast data | close => exact trivial

theorem perform_alive (kept : server.Kept) (event : Event ι) (alive : server.alive client) :
    (perform node options server event).alive client ∨ event.takes client := by
  cases event with
  | upgrade key identity now connectedAt =>
    by_cases missing : key.getD "" = ""
    · exact .inl ((alive_append (outlines_refused missing)).mpr (.inl alive))
    · exact .inl ((alive_append (outlines_upgrade missing)).mpr (.inl alive))
  | data i chunk =>
    rcases data_shape kept node options.limit i chunk with ⟨_,same⟩ | ⟨_,_,_,killed,_⟩
    · exact .inl (same.alive.mpr alive)
    · by_cases mine : client.socket = i
      · exact .inr mine
      · exact .inl (killed.alive.mpr ⟨alive,mine⟩)
  | error i | ended i =>
    by_cases mine : client.socket = i
    · exact .inr mine
    · exact .inl ((gone_killed kept.toProper i).alive.mpr ⟨alive,mine⟩)
  | broadcast data => exact .inl ((same_broadcast server data).alive.mpr alive)
  | close => exact .inr trivial

theorem perform_exact (kept : server.Kept) (event : Event ι) :
    Exact options server event (perform node options server event) ↔ Apart node server event := by
  have proper : (perform node options server event).Proper := perform_proper kept event
  constructor
  · intro exact'
    exact (perform_kept kept event).mp ((registered_iff proper).mp exact'.1)
  · intro apart
    have kept' : (perform node options server event).Kept := (perform_kept kept event).mpr apart
    refine ⟨(registered_iff proper).mpr kept',perform_refused kept event,?_⟩
    intro client listed
    rw [mem_clientsList kept.toProper,kept.exact] at listed
    rw [mem_clientsList proper,kept'.exact]
    exact perform_alive kept event listed

theorem start_kept : (start : Server ι).Kept where
  own := by simp [outlines,start]
  keyed := nofun
  exact := by simp [start,alive,outlines]

end Server

-- The registry is exact throughout a run whose upgrades take free ids and whose
-- sockets end while no other client has theirs.
theorem registry_exact_iff (node : Node) (options : PezhwanWebSocketOptions) (events : List (Event ι)) :
    Machine.Each (step node options) (Exact options) Server.start events ↔
      Machine.Each (step node options) (fun server event _ => Apart node server event) Server.start events := by
  refine Machine.each_iff Server.Kept Server.start_kept ?_
  intro server event after kept taken
  cases taken
  have same : Exact options server event (perform node options server event) ↔ Apart node server event :=
    Server.perform_exact kept event
  exact ⟨same,fun exact' => (Server.perform_kept kept event).mpr (same.mp exact')⟩

instance (server : Server ι) [DecidableEq ι] : Decidable (Registered server) :=
  inferInstanceAs (Decidable (List.Perm _ _))

-- Two sockets that come with one key in one millisecond: the second takes the
-- place of the first, whose end then takes the second out.
theorem registry_loses_client :
    ¬∀ events : List (Event Unit), Machine.Each (step sampleNode ⟨none⟩) (Exact ⟨none⟩) Server.start events := by
  intro exact'
  have run := exact' [.upgrade (some "dGhlIHNhbXBsZSBub25jZQ==") () 1700000000000 1700000000000,
    .upgrade (some "dGhlIHNhbXBsZSBub25jZQ==") () 1700000000000 1700000000000]
  have registered := Machine.Each.mono run fun _ _ after exact' => (exact'.1 : Registered after)
  revert registered
  decide +kernel

end Pezhwan.Websocket
