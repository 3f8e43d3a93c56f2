import WsGateway.Verify.Tcp.Tracking
import WsGateway.Verify.Gateway.Draining
import WsGateway.Verify.Gateway.Opening
import WsGateway.Verify.Tls12.Segmentation
import WsGateway.Verify.Wss.Sequence
import WsGateway.Verify.Wss.Upgrade

/-!
# Segments of other connections

The loop gives every IPv4 frame with a TCP segment to the client, whatever its
addresses and ports are. A segment of another connection goes unnoticed only if
every layer happens to have nothing to do for it: the TCP client drops it or finds
nothing new in it, it carries no payload, and nothing that was buffered before is
waiting to be taken. In such runs the frames of other connections can be left out.

`process_packet` moves the buffered bytes to the front of the TLS stream's buffer,
so states are compared with these bytes at the front (`Service.shifted`).
-/

namespace WsGateway.Network.Tcp.Client

open Library

/-- The segment has nothing for the client: it is old, or it is due and repeats what is known. -/
structure Ignores (c : Client) (p : PacketView) : Prop where
  valid : p.isValid = true
  no_rst : hasFlag p.header.flags .RST = false
  nothing_new : c.Old p ∨
    (¬ c.Old p ∧ (p.header.seq = c.ack ∨ c.ack = 0) ∧ p.header.ack = c.lastAckNumber ∧
      (peerRwnd p.header.window c.peerWindowScale = 0 ∨
        peerRwnd p.header.window c.peerWindowScale = c.sendWnd) ∧
      ¬ (c.state = .Connecting ∧ p.header.flags = .SYN_ACK))
  empty : p.payload.size = 0

variable {c : Client} {p : PacketView}

theorem seq_sub_self (n : SeqNumber) : n - n = (0 : UInt32) := UInt32.sub_self n.value

theorem acked_of_known (hack : p.header.ack = c.lastAckNumber)
    (hwindow : peerRwnd p.header.window c.peerWindowScale = 0 ∨
      peerRwnd p.header.window c.peerWindowScale = c.sendWnd) : c.acked p = c := by
  have hwnd : (c.windowed p).sendWnd = c.sendWnd := by
    unfold windowed
    rcases hwindow with h | h
    · rw [h]
      rfl
    · rw [h]
      exact ite_self _
  rw [acked, hwnd, hack, seq_sub_self, UInt32.sub_zero]

theorem Ignores.processPacket_eq (h : c.Ignores p) (dpdk : Dpdk) :
    processPacket dpdk p c = .ok () c := by
  rcases processPacket_cases dpdk p c with ⟨hacc, heq⟩ | ⟨hnot, hrej⟩
  · obtain hold | ⟨-, -, hack, hwindow, hsyn⟩ := h.nothing_new
    · exact absurd hold hacc.not_old
    · rw [heq, acked_of_known hack hwindow]
      exact deliver_nothing hsyn fun hdata => hdata.2 h.empty
  · obtain hold | ⟨hold, hseq, hack, -, -⟩ := h.nothing_new
    · exact processPacket_old dpdk h.valid h.no_rst hold
    · refine absurd ⟨h.valid, h.no_rst, hold, hseq, ?_, ?_⟩ hnot
      · rw [hack, SeqNumber.cmp_self]
        nofun
      · rw [hack, seq_sub_self]
        exact UInt32.zero_le

end WsGateway.Network.Tcp.Client

namespace WsGateway.Network.Tls12.Client

open Library

/-- The client with the bytes of its stream at the front of the buffer. -/
def shifted (c : Client) : Client := { c with stream := c.stream.shift }

variable {c : Client}

@[simp] theorem shifted_shifted (c : Client) : c.shifted.shifted = c.shifted := by
  rw [shifted, shifted, Stream.shift_shift]

theorem Waits.shifted (h : c.Waits) : c.shifted.Waits := by
  have hfirst : firstRecord c.stream.shift = firstRecord c.stream := by
    rw [firstRecord, Stream.content_shift, firstRecord]
  refine ⟨?_, ?_⟩
  · change ¬ (c.handshakeState = .ClientHelloToSend ∧ c.stream.shift.size = 0)
    rw [Stream.size_shift]
    exact h.hello
  · change RecordHeader.sizeof ≤ c.stream.shift.size →
      (firstRecord c.stream.shift).version = kTls12 ∧
        c.stream.shift.size < RecordHeader.sizeof + (firstRecord c.stream.shift).size
    rw [Stream.size_shift, hfirst]
    exact h.part

/-- The TCP client does not see where the bytes are, and after it they are at the front. -/
theorem processPacket_shifted (env : Env) (p : Tcp.PacketView) (c : Client) :
    processPacket env p c.shifted = processPacket env p c ∨
      ∃ e t, processPacket env p c = .error e { c with tcp := t } ∧
        processPacket env p c.shifted = .error e { c.shifted with tcp := t } := by
  rw [processPacket_eq]
  cases htcp : Tcp.Client.processPacket env.dpdk p c.tcp with
  | error e t =>
    refine Or.inr ⟨e, t, ?_, ?_⟩
    · exact bind_of_error (zoom_of_error htcp)
    · exact bind_of_error (zoom_of_error htcp)
  | ok _ t =>
    have hcall : onTcp (Tcp.Client.processPacket env.dpdk p) c = .ok () { c with tcp := t } :=
      zoom_of_ok htcp
    have hcall' : onTcp (Tcp.Client.processPacket env.dpdk p) c.shifted =
        .ok () { c.shifted with tcp := t } := zoom_of_ok htcp
    refine Or.inl ?_
    rw [bind_of_ok hcall, bind_of_ok hcall', pushChunk, bind_of_ok (modify_apply _ _),
      bind_of_ok (modify_apply _ _)]
    simp only [shifted, Stream.shift_shift]

/-- A segment without news only moves the bytes to the front. -/
theorem processPacket_ignored (env : Env) {p : Tcp.PacketView} (h : c.tcp.Ignores p) :
    processPacket env p c = .ok () c.shifted := by
  have hcall : onTcp (Tcp.Client.processPacket env.dpdk p) c = .ok () c :=
    zoom_of_ok (h.processPacket_eq env.dpdk)
  rw [processPacket_eq, bind_of_ok hcall, pushChunk, bind_of_ok (modify_apply _ _)]
  exact zoom_of_ok (Stream.pushBytes_nil _ h.empty)

end WsGateway.Network.Tls12.Client

namespace WsGateway.Network.Wss.Client

open Library

/-- `next_message` has nothing to do: nothing was received, and neither the request is due nor a
response or a frame complete. -/
def Waits (c : Client) : Prop :=
  c.tls.Waits ∧
    match c.tls.isHandshakeComplete, c.state with
    | true, .Init => False
    | true, .HttpHandshake =>
      ¬ (statusLine <:+: c.stream.content ∧ headerEnd <:+: c.stream.content)
    | true, .Connected => Incomplete c.stream.content
    | false, _ => Incomplete c.stream.content

variable {c : Client}

theorem Waits.nextMessage_eq (h : c.Waits) (env : Env) : nextMessage env c = .ok none c := by
  have hall : receiveAll env (c.tls.stream.size + 1) c = .ok () c := by
    have hcall : onTls (Tls12.Client.receive env.toEnv) c = .ok none c :=
      zoom_of_ok (h.1.receive_eq env.toEnv)
    rw [receiveAll, bind_of_ok hcall]
    rfl
  have htake : Incomplete c.stream.content → takeMessage c = .ok none c := by
    intro hinc
    rw [takeMessage, onStream, bind_of_ok (zoom_of_ok (extractPayload_incomplete hinc))]
    rfl
  have hbuf := h.2
  rw [nextMessage_bind hall]
  cases hdone : c.tls.isHandshakeComplete with
  | false =>
    rw [hdone] at hbuf
    rw [bind_of_ok (advanceState_unfinished env hdone)]
    exact htake hbuf
  | true =>
    rw [hdone] at hbuf
    cases hstate : c.state with
    | Init =>
      rw [hstate] at hbuf
      exact hbuf.elim
    | HttpHandshake =>
      rw [hstate] at hbuf
      have hadvance : advanceState env c = .ok false c := by
        rw [advanceState, bind_of_ok (get_apply c), if_pos hdone, hstate]
        dsimp only
        rw [bind_of_ok (acceptHandshake_false hstate hbuf)]
        rfl
      rw [bind_of_ok hadvance]
      rfl
    | Connected =>
      rw [hstate] at hbuf
      have hadvance : advanceState env c = .ok true c := by
        rw [advanceState, bind_of_ok (get_apply c), if_pos hdone, hstate]
        rfl
      rw [bind_of_ok hadvance]
      exact htake hbuf

end WsGateway.Network.Wss.Client

namespace WsGateway.Gateway.Service

open Library Network

/-- The service with the bytes of the TLS stream at the front of its buffer. -/
def shifted (s : Service) : Service :=
  { s with connection := { s.connection with tls := s.connection.tls.shifted } }

/-- The segment goes unnoticed: there is nothing in it for the TCP client, and nothing to do above
it. -/
structure Unnoticed (s : Service) (p : Tcp.PacketView) : Prop where
  tcp : s.tls.tcp.Ignores p
  connection : s.connection.Waits

variable {s t : Service}

@[simp] theorem shifted_shifted (s : Service) : s.shifted.shifted = s.shifted := by
  simp only [shifted, Tls12.Client.shifted_shifted]

/-- A call on the TLS client inside the service. -/
theorem onConnection_onTls {α : Type} (x : Prog Tls12.Client α) :
    onConnection (Wss.Client.onTls x) = zoom (fun s => s.connection.tls)
      (fun s t => { s with connection := { s.connection with tls := t } }) x :=
  zoom_zoom ..

theorem onConnection_processPacket_shifted (env : Wss.Env) (p : Tcp.PacketView) (s : Service) :
    onConnection (Wss.Client.processPacket env p) s.shifted =
        onConnection (Wss.Client.processPacket env p) s ∨
      ∃ e t t', onConnection (Wss.Client.processPacket env p) s = .error e t ∧
        onConnection (Wss.Client.processPacket env p) s.shifted = .error e t' ∧
        t.shifted = t'.shifted := by
  rw [Wss.Client.processPacket, onConnection_onTls]
  obtain h | ⟨e, t, h, h'⟩ := Tls12.Client.processPacket_shifted env.toEnv p s.tls
  · exact Or.inl (zoom_congr h fun _ => rfl)
  · refine Or.inr ⟨e, _, _, zoom_of_error h, zoom_of_error h', ?_⟩
    simp only [shifted, Tls12.Client.shifted, Stream.shift_shift]

/-- Where the buffered bytes are makes no difference to a segment. -/
theorem onSegment_shifted (env : Wss.Env) (p : Tcp.PacketView) (s : Service) :
    viewed shifted (onSegment env p s) = viewed shifted (onSegment env p s.shifted) := by
  obtain h | ⟨e, t, t', h, h', hview⟩ := onConnection_processPacket_shifted env p s
  · rw [onSegment, bind_apply, bind_apply, h]
  · rw [onSegment, bind_of_error h, bind_of_error h', viewed, viewed, hview]

theorem onDevice_shifted {α : Type} (x : Prog Device α) (s : Service) :
    viewed shifted (onDevice x s) = viewed shifted (onDevice x s.shifted) := by
  unfold onDevice Tls12.Client.onTcp Tcp.Client.onSender
  rw [onConnection_onTls, zoom_zoom, zoom_zoom]
  refine viewed_zoom x rfl fun d => ?_
  simp only [shifted, Tls12.Client.shifted, Stream.shift_shift]

theorem onFrame_shifted (env : Wss.Env) (frame : ByteView) (s : Service) :
    viewed shifted (onFrame env frame s) = viewed shifted (onFrame env frame s.shifted) := by
  unfold onFrame
  dsimp only
  split
  · rw [bind_of_ok (get_apply s), bind_of_ok (get_apply s.shifted)]
    exact onDevice_shifted _ s
  · split
    · rw [pure_apply, pure_apply, viewed, viewed, shifted_shifted]
    · split
      · rw [pure_apply, pure_apply, viewed, viewed, shifted_shifted]
      · exact onSegment_shifted env _ s

theorem onFrame_congr (env : Wss.Env) (frame : ByteView) (h : s.shifted = t.shifted) :
    viewed shifted (onFrame env frame s) = viewed shifted (onFrame env frame t) := by
  rw [onFrame_shifted env frame s, onFrame_shifted env frame t, h]

theorem Unnoticed.onSegment_eq {p : Tcp.PacketView} (h : s.Unnoticed p) (env : Wss.Env) :
    onSegment env p s = .ok () s.shifted := by
  have hcall : onConnection (Wss.Client.processPacket env p) s = .ok () s.shifted := by
    rw [Wss.Client.processPacket, onConnection_onTls]
    exact zoom_of_ok (Tls12.Client.processPacket_ignored env.toEnv h.tcp)
  have hwaits : s.shifted.connection.Waits := ⟨h.connection.1.shifted, h.connection.2⟩
  rw [onSegment, bind_of_ok hcall, bind_of_ok (get_apply _),
    drain_of_none (hwaits.nextMessage_eq env)]

/-! ## Two runs -/

/-- The segment comes from the peer of the connection. -/
def BelongsTo (connection : Connection) (p : Tcp.PacketView) : Prop :=
  p.ipPacketView.header.srcAddr = connection.session.dst.ip ∧
    p.ipPacketView.header.dstAddr = connection.session.src.ip ∧
    p.header.srcPort = connection.dstPort ∧ p.header.dstPort = connection.srcPort

instance (connection : Connection) (p : Tcp.PacketView) : Decidable (BelongsTo connection p) :=
  inferInstanceAs (Decidable (_ ∧ _ ∧ _ ∧ _))

/-- A valid TCP segment of another connection. -/
structure ForeignFrame (connection : Connection) where
  frame : ByteView
  segment : IsSegment frame
  valid : (segmentOf frame).isValid = true
  foreign : ¬ BelongsTo connection (segmentOf frame)

/-- A frame of the run, or one that was added to it. -/
inductive Arrival (connection : Connection) where
  | own (frame : ByteView)
  | foreign (f : ForeignFrame connection)

section Runs

variable {connection : Connection}

def Arrival.frame : Arrival connection → ByteView
  | .own frame => frame
  | .foreign f => f.frame

/-- The frames of the run without those that were added. -/
def ownFrames : List (Arrival connection) → List ByteView
  | [] => []
  | .own frame :: arrivals => frame :: ownFrames arrivals
  | .foreign _ :: arrivals => ownFrames arrivals

/-- Every segment that was added to the run goes unnoticed when it arrives. -/
def AllUnnoticed (env : Wss.Env) : Service → List (Arrival connection) → Prop
  | _, [] => True
  | s, .own frame :: arrivals =>
    ∀ s', onFrame env frame s = .ok () s' → AllUnnoticed env s' arrivals
  | s, .foreign f :: arrivals =>
    s.Unnoticed (segmentOf f.frame) ∧
      ∀ s', onFrame env f.frame s = .ok () s' → AllUnnoticed env s' arrivals

/-- Without the frames that go unnoticed the run is the same. -/
theorem runWorker_ownFrames (env : Wss.Env) (arrivals : List (Arrival connection))
    (hrun : AllUnnoticed env s arrivals) (h : s.shifted = t.shifted) :
    viewed shifted (runWorker env (arrivals.map Arrival.frame) s) =
      viewed shifted (runWorker env (ownFrames arrivals) t) := by
  induction arrivals generalizing s t with
  | nil => exact congrArg (EStateM.Result.ok ()) h
  | cons arrival arrivals ih =>
    cases arrival with
    | own frame =>
      -- the states of the two runs differ in the place of the buffered bytes at most
      rw [List.map_cons, ownFrames, runWorker, runWorker, Arrival.frame]
      refine viewed_bind (onFrame_congr env frame h) fun _ s' t' hs' hview => ?_
      exact ih (hrun s' hs') hview
    | foreign f =>
      have hstep : onFrame env f.frame s = .ok () s.shifted := by
        rw [onFrame_segment env f.segment]
        exact hrun.1.onSegment_eq env
      rw [List.map_cons, ownFrames, runWorker, Arrival.frame, bind_of_ok hstep]
      exact ih (hrun.2 _ hstep) ((shifted_shifted s).trans h)

end Runs

section Construct

variable (env : Wss.Env) (config : Wss.Config) (localHost : Host) (connection : Connection)
  (sender : Device) (isn : Tcp.SeqNumber) (ipId : UInt16)

/-- **Segments of other connections**: in every run of the loop in which each of them goes unnoticed
when it arrives, the outcome, the clients and the payloads are those of the run without them. -/
theorem foreign_frames_unnoticed (arrivals : List (Arrival connection))
    (hrun : ∀ s, onConnection (Wss.Client.construct env)
        (start config localHost connection sender isn ipId) = .ok () s →
      AllUnnoticed env s arrivals) :
    viewed shifted (main env (arrivals.map Arrival.frame)
        (start config localHost connection sender isn ipId)) =
      viewed shifted (main env (ownFrames arrivals)
        (start config localHost connection sender isn ipId)) := by
  rw [main, main]
  cases hr : onConnection (Wss.Client.construct env)
      (start config localHost connection sender isn ipId) with
  | error e s => rw [bind_of_error hr, bind_of_error hr]
  | ok _ s =>
    rw [bind_of_ok hr, bind_of_ok hr]
    exact runWorker_ownFrames env arrivals (hrun s hr) rfl

end Construct

/-! ### A reset from elsewhere -/

/-- A connection of two other hosts. -/
def otherConnection : Connection :=
  ⟨⟨⟨#v[2, 0, 0, 0, 0, 3], #v[10, 0, 0, 3]⟩, ⟨#v[2, 0, 0, 0, 0, 4], #v[10, 0, 0, 4]⟩⟩, 5000, 80⟩

def otherFrame (flags : Tcp.Flags) : ByteView :=
  (Tcp.PacketView.received otherConnection flags 0 9 []).ip.eth.rawBytes

/-- An acknowledgement of the other connection. -/
def otherAck : ForeignFrame Tcp.Client.sampleConnection :=
  ⟨otherFrame .ACK, ⟨by decide, by decide⟩, by decide, by decide⟩

/-- A reset of the other connection. -/
def otherRst : ForeignFrame Tcp.Client.sampleConnection :=
  ⟨otherFrame .RST, ⟨by decide, by decide⟩, by decide, by decide⟩

/-- The gateway after the SYN-ACK, when the acknowledgement arrives. -/
theorem otherAck_arrives :
    let s := after (main Wss.Client.sampleEnv [synAckFrame] sampleService)
    (segmentOf otherAck.frame).header.seq.cmp s.tls.tcp.ack = .lt ∧ s.tls.tcp.ack ≠ 0 ∧
      s.tls.handshakeState = .ServerHello ∧ s.tls.stream.size = 0 ∧
      s.connection.stream.size = 0 := by
  decide +kernel

/-- The acknowledgement is old for the client, which waits for the ServerHello. -/
theorem otherAck_unnoticed :
    viewed shifted (main Wss.Client.sampleEnv [synAckFrame, otherAck.frame] sampleService) =
      viewed shifted (main Wss.Client.sampleEnv [synAckFrame] sampleService) := by
  unfold sampleService
  refine foreign_frames_unnoticed Wss.Client.sampleEnv _ _ _ _ _ _
    [.own synAckFrame, .foreign otherAck] ?_
  intro s₀ h₀ s h
  have hs : s = after (main Wss.Client.sampleEnv [synAckFrame] sampleService) := by
    unfold sampleService
    rw [main, bind_of_ok h₀, runWorker, bind_of_ok h]
    rfl
  obtain ⟨hlt, hne, hstate, hsize, hwss⟩ := otherAck_arrives
  rw [← hs] at hlt hne hstate hsize hwss
  have htls : s.tls.Waits := ⟨by simp [hstate], fun hle => by
    rw [hsize] at hle
    exact absurd hle (by decide)⟩
  have hinc : Wss.Incomplete s.connection.stream.content := by
    rw [List.length_eq_zero_iff.mp (s.connection.stream.length_content.trans hwss)]
    exact Wss.incomplete_nil
  refine ⟨⟨⟨by decide, by decide, Or.inl ⟨hlt, hne⟩, by decide⟩, htls, ?_⟩, fun _ _ => trivial⟩
  have hdone : s.tls.isHandshakeComplete = false := by
    simp [Tls12.Client.isHandshakeComplete, hstate]
  rw [hdone]
  exact hinc

theorem tcp_state_of_viewed {r r' : EStateM.Result Error Service Unit}
    (h : viewed shifted r = viewed shifted r') :
    (after r).tls.tcp.state = (after r').tls.tcp.state := by
  have hview := congrArg after h
  rw [after_viewed, after_viewed] at hview
  have hstate : (after r).shifted.tls.tcp.state = (after r').shifted.tls.tcp.state := by rw [hview]
  exact hstate

/-- A reset between two other hosts ends the run before the SYN-ACK is taken. -/
theorem otherRst_ends_run :
    let arrivals := [Arrival.foreign otherRst, .own synAckFrame]
    (after (main Wss.Client.sampleEnv (arrivals.map Arrival.frame) sampleService)).tls.tcp.state =
        .Connecting ∧
      (after (main Wss.Client.sampleEnv (ownFrames arrivals) sampleService)).tls.tcp.state =
        .Connected ∧
      viewed shifted (main Wss.Client.sampleEnv (arrivals.map Arrival.frame) sampleService) ≠
        viewed shifted (main Wss.Client.sampleEnv (ownFrames arrivals) sampleService) := by
  intro arrivals
  have hstates : (after (main Wss.Client.sampleEnv (arrivals.map Arrival.frame)
        sampleService)).tls.tcp.state = .Connecting ∧
      (after (main Wss.Client.sampleEnv (ownFrames arrivals) sampleService)).tls.tcp.state =
        .Connected := by decide +kernel
  refine ⟨hstates.1, hstates.2, fun h => ?_⟩
  have hstate := tcp_state_of_viewed h
  rw [hstates.1, hstates.2] at hstate
  cases hstate

end WsGateway.Gateway.Service
