import Mathlib.Algebra.BigOperators.Group.List.Basic
import WsGateway.Verify.Gateway.Calls
import WsGateway.Verify.Tls12.Delivery
import WsGateway.Verify.Wss.Messages

/-!
# No TLS bytes before the connection is established

The TLS client sends its ClientHello as soon as it is asked for data with an
empty stream, whatever the state of the TCP client below it. While the TCP client
waits for the SYN-ACK, an empty segment that it accepts is therefore answered
with a ClientHello. In every run of the loop without such a segment, all payload
is sent in the connected state and numbered from the byte after the SYN on.
-/

namespace WsGateway.Network.Tcp

open Library

namespace Client

/-- The payload bytes of these packets. -/
def sentBytes (handed : List Handed) : Nat := (handed.map Handed.payloadLen).sum

/-- Payload is sent in the connected state only, and numbered from the initial sequence number on
without gap. -/
def Sound (isn : SeqNumber) : List Handed → Prop :=
  Throughout fun before h => h.payloadLen ≠ 0 → h.state = .Connected ∧
    h.frame.header.seq = isn + (1 : UInt32) + UInt32.ofNat (sentBytes before)

/-- A client that waits for the SYN-ACK and has sent no payload. -/
structure Waiting (isn : SeqNumber) (c : Client) : Prop where
  state : c.state = .Connecting
  ack : c.ack = 0
  seq : c.seq = isn
  empty : ∀ h ∈ c.handed, h.payloadLen = 0

/-- A connected client whose payload is numbered as it should be. -/
structure Flowing (isn : SeqNumber) (c : Client) : Prop where
  state : c.state = .Connected
  seq : c.seq = isn + (1 : UInt32) + UInt32.ofNat (sentBytes c.handed)
  sound : Sound isn c.handed

variable {c c' : Client} {p : PacketView} {isn : SeqNumber}

theorem sound_of_empty {handed : List Handed} (h : ∀ x ∈ handed, x.payloadLen = 0) :
    Sound isn handed :=
  Throughout.of_forall_mem fun x hx _ hne => absurd (h x hx) hne

theorem sentBytes_of_empty {handed : List Handed} (h : ∀ x ∈ handed, x.payloadLen = 0) :
    sentBytes handed = 0 :=
  List.sum_eq_zero (by simpa using h)

theorem SendStep.flowing (h : SendStep c c') (hc : Flowing isn c) : Flowing isn c' := by
  cases h with
  | device d => exact ⟨hc.state, hc.seq, hc.sound⟩
  | hand frame n hseq =>
    refine ⟨hc.state, ?_, hc.sound.concat fun _ => ⟨hc.state, hseq.trans hc.seq⟩⟩
    change c.seq + UInt32.ofNat n = _
    have hsum : sentBytes (c.handed ++ [⟨c.state, frame, n⟩]) = sentBytes c.handed + n := by
      simp [sentBytes]
    rw [hsum, hc.seq, SeqNumber.add_add, SeqNumber.add_add, SeqNumber.add_add, UInt32.ofNat_add]

theorem Sends.flowing (h : Sends c c') (hc : Flowing isn c) : Flowing isn c' :=
  h.invariant (fun _ _ => SendStep.flowing) hc

theorem Received.flowing (h : Received c p c') (hc : Flowing isn c) : Flowing isn c' := by
  cases h with
  | same hrej hsame => exact hsame ▸ hc
  | windowed hrej hwindow =>
    exact hwindow ▸ ⟨by simpa using hc.state, by simpa using hc.seq, by simpa using hc.sound⟩
  | delivered hacc hdel =>
    have hacked : Flowing isn (c.acked p) :=
      ⟨by simpa using hc.state, by simpa using hc.seq, by simpa using hc.sound⟩
    cases hdel with
    | established scale hstate hflags hsends hseq => simp [hc.state] at hstate
    | took hstate hpayload hsends =>
      exact hsends.flowing ⟨by simpa using hc.state, by simpa using hc.seq, by simpa using hc.sound⟩
    | nothing hsyn hdata hsame => exact hsame ▸ hacked

/-- What a segment makes of a client that waits for the SYN-ACK. -/
theorem Received.waiting (h : Received c p c') (hc : Waiting isn c) :
    Flowing isn c' ∨ (Waiting isn c' ∧ (c.Accepts p → p.header.flags ≠ .SYN_ACK)) := by
  cases h with
  | same hrej hsame => exact Or.inr ⟨hsame ▸ hc, fun hacc => absurd hacc hrej⟩
  | windowed hrej hwindow =>
    refine Or.inr ⟨hwindow ▸ ⟨?_, ?_, ?_, ?_⟩, fun hacc => absurd hacc hrej⟩
    · simpa using hc.state
    · simpa using hc.ack
    · simpa using hc.seq
    · simpa using hc.empty
  | delivered hacc hdel =>
    cases hdel with
    | established scale hstate hflags hsends hseq =>
      refine Or.inl (hsends.flowing ⟨rfl, ?_, ?_⟩)
      · change (c.acked p).seq + (1 : UInt32) = _ +
          UInt32.ofNat (sentBytes ((c.acked p).established p).handed)
        rw [established_handed, acked_handed, acked_seq, hc.seq, sentBytes_of_empty hc.empty]
        exact (SeqNumber.add_zero _).symm
      · change Sound isn ((c.acked p).established p).handed
        rw [established_handed, acked_handed]
        exact sound_of_empty hc.empty
    | took hstate hpayload hsends => simp [hc.state] at hstate
    | nothing hsyn hdata hsame =>
      refine Or.inr ⟨hsame ▸ ⟨?_, ?_, ?_, ?_⟩, fun _ hflags => hsyn ⟨?_, hflags⟩⟩
      · simpa using hc.state
      · simpa using hc.ack
      · simpa using hc.seq
      · simpa using hc.empty
      · simpa using hc.state

/-- A segment is never dropped silently while the client waits for the SYN-ACK. -/
theorem Waiting.accepts (hc : Waiting isn c) {dpdk : Dpdk}
    (h : processPacket dpdk p c = .ok () c') : c.Accepts p := by
  rcases processPacket_cases dpdk p c with ⟨hacc, -⟩ | ⟨-, hrej⟩
  · exact hacc
  · rw [h] at hrej
    cases hrej with
    | dropped hold => exact absurd hc.ack hold.2

/-- `connect` leaves a new client waiting, or throws with no payload sent. -/
theorem connect_waiting (dpdk : Dpdk) (connection : Connection) (sender : Device)
    (isn : SeqNumber) (ipId : UInt16) :
    Ends (connect dpdk) (new connection sender isn ipId) (fun _ t => Waiting isn t)
      (fun _ t => ∀ h ∈ t.handed, h.payloadLen = 0) := by
  refine Ends.seq ((onSender_ends _ _).mono (fun _ _ h => h) ?_) ?_
  · rintro _ _ ⟨d, rfl⟩
    nofun
  · rintro tx _ ⟨d, rfl⟩
    apply Ends.update
    refine Ends.seq ((getSendBuffer_ends dpdk .SYN true _).mono (fun _ _ h => h) ?_) ?_
    · rintro _ _ ⟨d, rfl⟩
      nofun
    · rintro packet _ ⟨-, d, rfl⟩
      refine Ends.seq ((send_ends dpdk packet 0 _).mono (fun _ _ h => h) ?_) ?_
      · rintro _ _ (rfl | ⟨d, rfl⟩)
        · nofun
        · intro h hmem
          obtain rfl := List.mem_singleton.mp hmem
          rfl
      · rintro _ _ ⟨d, rfl⟩
        refine ⟨rfl, rfl, SeqNumber.add_zero isn, ?_⟩
        intro h hmem
        obtain rfl := List.mem_singleton.mp hmem
        rfl

end Client

end WsGateway.Network.Tcp

namespace WsGateway.Network.Tls12.Client

open Library

open Tcp.Client (Waiting Flowing Sound)

variable {c : Client} {p : Tcp.PacketView} {isn : Tcp.SeqNumber}

/-- The first steps of a connection: the SYN-ACK is awaited, and the ClientHello is not sent. -/
structure Opening (isn : Tcp.SeqNumber) (c : Client) : Prop where
  tcp : Waiting isn c.tcp
  state : c.handshakeState = .ClientHelloToSend

/-- The segment finds the stream empty, leaves it empty and does not establish the connection. -/
structure Stray (c : Client) (p : Tcp.PacketView) : Prop where
  state : c.tcp.state = .Connecting
  stream : c.stream.size = 0
  accepts : c.tcp.Accepts p
  flags : p.header.flags ≠ .SYN_ACK
  payload : p.payload.size = 0

/-- What `process_packet` does to the TCP client, also when it throws. -/
theorem processPacket_received (env : Env) (p : Tcp.PacketView) (c : Client) :
    Tcp.Client.Received c.tcp p (after (processPacket env p c)).tcp ∧
      (after (processPacket env p c)).handshakeState = c.handshakeState := by
  have hcall : Moves (fun c t : Client => Tcp.Client.Received c.tcp p t.tcp ∧
      t.handshakeState = c.handshakeState) (onTcp (Tcp.Client.processPacket env.dpdk p)) :=
    Moves.member (Tcp.Client.processPacket_received env.dpdk p) fun _ _ h => ⟨h, rfl⟩
  have hpush : Moves (fun c t : Client => t.tcp = c.tcp ∧ t.handshakeState = c.handshakeState)
      (onStream (Stream.pushBytes p.payload)) :=
    Moves.member (S := fun _ _ => True) (fun _ => trivial) fun _ _ _ => ⟨rfl, rfl⟩
  refine Ends.after (P := fun t : Client => Tcp.Client.Received c.tcp p t.tcp ∧
    t.handshakeState = c.handshakeState) (Ends.seq (hcall.ends c) ?_)
  rintro _ t ⟨hreceived, hstate⟩
  apply Ends.update
  refine (hpush.ends _).mono ?_ ?_
  all_goals
    rintro _ t' ⟨htcp, hstate'⟩
    exact ⟨htcp ▸ hreceived, hstate'.trans hstate⟩

/-- The states between two segments. -/
def Orderly (isn : Tcp.SeqNumber) (c : Client) : Prop := Flowing isn c.tcp ∨ Opening isn c

theorem Orderly.sound (h : Orderly isn c) : Sound isn c.tcp.handed := by
  rcases h with h | h
  · exact h.sound
  · exact Tcp.Client.sound_of_empty h.tcp.empty

/-- A segment that is not stray ends the opening, or leaves bytes in the stream. -/
theorem processPacket_orderly (env : Env) (h : Orderly isn c) (hstray : ¬ c.Stray p) :
    Ends (processPacket env p) c
      (fun _ t => Flowing isn t.tcp ∨ (Opening isn t ∧ t.stream.size ≠ 0))
      (fun _ t => Orderly isn t) := by
  obtain ⟨hreceived, hstate⟩ := processPacket_received env p c
  unfold Ends
  cases hr : processPacket env p c with
  | error e t =>
    rw [hr] at hreceived hstate
    rcases h with h | h
    · exact Or.inl (hreceived.flowing h)
    · rcases hreceived.waiting h.tcp with hflow | ⟨hwait, -⟩
      · exact Or.inl hflow
      · exact Or.inr ⟨hwait, hstate.trans h.state⟩
  | ok u t =>
    rw [hr] at hreceived hstate
    rcases h with h | h
    · exact Or.inl (hreceived.flowing h)
    · rcases hreceived.waiting h.tcp with hflow | ⟨hwait, hflags⟩
      · exact Or.inl hflow
      · refine Or.inr ⟨⟨hwait, hstate.trans h.state⟩, ?_⟩
        obtain ⟨htcp, hcontent⟩ := processPacket_returns env hr
        have hacc := h.tcp.accepts htcp
        have hsize := congrArg List.length hcontent
        rw [List.length_append, Stream.length_content, Stream.length_content,
          ByteView.length_toList] at hsize
        intro hzero
        exact hstray ⟨h.tcp.state, by omega, hacc, hflags hacc, by omega⟩

end WsGateway.Network.Tls12.Client

namespace WsGateway.Gateway.Service

open Library Network

open Tcp.Client (Waiting Flowing Sound)

open Tls12.Client (Orderly Opening)

variable {isn : Tcp.SeqNumber} {s : Service}

/-- The inner loop sends nothing before the connection is established. -/
theorem drain_orderly (env : Wss.Env) (fuel : Nat)
    (h : Flowing isn s.tls.tcp ∨ (Opening isn s.tls ∧ s.tls.stream.size ≠ 0)) :
    Orderly isn (after (drain env fuel s)).tls := by
  rcases h with h | ⟨h, hsize⟩
  · have hmoves : Tls12.Client.Updates s.tls (after (drain env fuel s)).tls :=
      drain_moves (Wss.Client.nextMessage_moves env) fuel s
    exact Or.inl (hmoves.sends.flowing h)
  · have hsame : (after (drain env fuel s)).tls = s.tls :=
      drain_moves (Wss.Client.nextMessage_keepsIdle env) fuel s ⟨h.state, hsize⟩
    exact Or.inr (hsame ▸ h)

theorem onSegment_orderly (env : Wss.Env) {p : Tcp.PacketView} (h : Orderly isn s.tls)
    (hstray : ¬ s.tls.Stray p) : Orderly isn (after (onSegment env p s)).tls := by
  refine Ends.after (P := fun t : Service => Orderly isn t.tls) ?_
  refine Ends.seq (Q := fun _ t => Flowing isn t.tls.tcp ∨
    (Opening isn t.tls ∧ t.tls.stream.size ≠ 0)) ?_ ?_
  · apply Ends.member
    apply Ends.member
    exact Tls12.Client.processPacket_orderly env.toEnv h hstray
  · intro _ t ht
    apply Ends.read
    unfold Ends
    have hdrain := drain_orderly env (t.buffered + 1) ht
    cases hr : drain env (t.buffered + 1) t <;> rw [hr] at hdrain <;> exact hdrain

/-- A call on the device leaves the rest of the TCP client alone. -/
theorem onDevice_orderly {α : Type} (x : Prog Device α) (h : Orderly isn s.tls) :
    Orderly isn (after (onDevice x s)).tls := by
  refine Ends.after (P := fun t : Service => Orderly isn t.tls) ?_
  apply Ends.member
  apply Ends.member
  apply Ends.member
  refine (Tcp.Client.onSender_ends x _).mono ?_ ?_
  all_goals
    rintro _ _ ⟨d, rfl⟩
    rcases h with h | h
    · exact Or.inl ⟨h.state, h.seq, h.sound⟩
    · exact Or.inr ⟨⟨h.tcp.state, h.tcp.ack, h.tcp.seq, h.tcp.empty⟩, h.state⟩

/-- The loop takes this frame for a TCP segment. -/
def IsSegment (frame : ByteView) : Prop :=
  (EthernetPacketView.mk frame).header.type = EthernetType.Ipv4 ∧
    (IPPacketView.mk ⟨frame⟩).header.protocol = IpProtocol.Tcp

/-- The view of the frame as a TCP segment. -/
def segmentOf (frame : ByteView) : Tcp.PacketView := ⟨⟨⟨frame⟩⟩⟩

theorem onFrame_segment (env : Wss.Env) {frame : ByteView} (h : IsSegment frame) :
    onFrame env frame = onSegment env (segmentOf frame) := by
  unfold onFrame
  rw [if_neg (by rw [h.1]; decide), if_neg (by simp [h.1]), if_neg (by simp [h.2])]
  rfl

/-- **One frame**: unless it is a stray segment, nothing is sent before the connection is
established. -/
theorem onFrame_orderly (env : Wss.Env) {frame : ByteView} (h : Orderly isn s.tls)
    (hstray : IsSegment frame → ¬ s.tls.Stray (segmentOf frame)) :
    Orderly isn (after (onFrame env frame s)).tls := by
  by_cases hseg : IsSegment frame
  · rw [onFrame_segment env hseg]
    exact onSegment_orderly env h (hstray hseg)
  · unfold onFrame
    dsimp only
    split
    · rw [bind_of_ok (get_apply s)]
      exact onDevice_orderly _ h
    · split
      · exact h
      · rename_i htype
        split
        · exact h
        · rename_i hproto
          exact absurd ⟨by simpa using htype, by simpa using hproto⟩ hseg

/-- No segment of the run is stray when it arrives. -/
def Undisturbed (env : Wss.Env) : Service → List ByteView → Prop
  | _, [] => True
  | s, frame :: frames =>
    (IsSegment frame → ¬ s.tls.Stray (segmentOf frame)) ∧
      ∀ s', onFrame env frame s = .ok () s' → Undisturbed env s' frames

theorem runWorker_orderly (env : Wss.Env) (frames : List ByteView) (h : Orderly isn s.tls)
    (hrun : Undisturbed env s frames) : Orderly isn (after (runWorker env frames s)).tls := by
  induction frames generalizing s with
  | nil => exact h
  | cons frame frames ih =>
    have hframe := onFrame_orderly env h hrun.1
    rw [runWorker]
    cases hr : onFrame env frame s with
    | error e t =>
      rw [bind_of_error hr]
      rw [hr] at hframe
      exact hframe
    | ok u t =>
      rw [bind_of_ok hr]
      rw [hr] at hframe
      exact ih hframe (hrun.2 t hr)

section Construct

variable (env : Wss.Env) (config : Wss.Config) (localHost : Host) (connection : Connection)
  (sender : Device) (isn : Tcp.SeqNumber) (ipId : UInt16)

/-- The service before its loop. -/
abbrev start : Service := init config localHost (.new connection sender isn ipId)

/-- The constructors leave the client waiting for the SYN-ACK. -/
theorem construct_orderly :
    Ends (onConnection (Wss.Client.construct env))
      (start config localHost connection sender isn ipId) (fun _ t => Orderly isn t.tls)
      (fun _ t => Sound isn t.tls.tcp.handed) := by
  apply Ends.member
  apply Ends.member
  refine Ends.seq (((Tls12.Client.quiet_generateClientRandom env.ossl).ends _).mono
    (fun _ _ h => h) ?_) ?_
  · intro _ t ht
    refine Tcp.Client.sound_of_empty ?_
    change ∀ h ∈ t.tcp.handed, h.payloadLen = 0
    rw [ht.tcp]
    nofun
  · intro _ t ht
    apply Ends.member
    rw [ht.tcp]
    refine (Tcp.Client.connect_waiting env.dpdk connection sender isn ipId).mono ?_ ?_
    · exact fun _ _ h => Or.inr ⟨h, ht.state⟩
    · exact fun _ _ h => Tcp.Client.sound_of_empty h

/-- **No payload before the connection is established**: in every run of the loop in which no
segment is stray when it arrives, all payload is handed over in the connected state and carries the
number of its first byte, counted from the byte after the SYN. -/
theorem payload_sound (frames : List ByteView)
    (hrun : ∀ s, onConnection (Wss.Client.construct env)
        (start config localHost connection sender isn ipId) = .ok () s →
      Undisturbed env s frames) :
    Sound isn (after (main env frames
      (start config localHost connection sender isn ipId))).tls.tcp.handed := by
  have hconstruct := construct_orderly env config localHost connection sender isn ipId
  rw [main]
  cases hr : onConnection (Wss.Client.construct env)
      (start config localHost connection sender isn ipId) with
  | error e t =>
    rw [bind_of_error hr]
    exact hconstruct.error hr
  | ok u t =>
    rw [bind_of_ok hr]
    exact (runWorker_orderly env frames (hconstruct.ok hr) (hrun t hr)).sound

end Construct

/-! ### A stray acknowledgement -/

/-- A gateway that is about to connect with initial sequence number `7`. -/
def sampleService : Service :=
  start ⟨Wss.ascii "host", Wss.ascii "/"⟩ Tcp.Client.sampleConnection.session.src
    Tcp.Client.sampleConnection {} 7 0

def synAckFrame : ByteView := (Tcp.Client.synAck 0).ip.eth.rawBytes

/-- A bare acknowledgement that acknowledges nothing. -/
def strayAck : Tcp.PacketView := .received Tcp.Client.sampleConnection .ACK 0 7 []

theorem payload_sound_syn_ack :
    Sound 7 (after (main Wss.Client.sampleEnv [synAckFrame] sampleService)).tls.tcp.handed := by
  unfold sampleService
  refine payload_sound Wss.Client.sampleEnv _ _ _ _ _ _ [synAckFrame] fun s _ => ?_
  exact ⟨fun _ hstray => hstray.flags (by decide), fun _ _ => trivial⟩

/-- The ClientHello goes out before the SYN-ACK has come. -/
theorem stray_ack_answered :
    strayAck.isValid = true ∧ Tcp.hasFlag strayAck.header.flags .RST = false ∧
      ¬ Sound 7 (after (main Wss.Client.sampleEnv [strayAck.ip.eth.rawBytes]
        sampleService)).tls.tcp.handed := by
  refine ⟨by decide, by decide, fun hsound => ?_⟩
  have hany : (after (main Wss.Client.sampleEnv [strayAck.ip.eth.rawBytes]
      sampleService)).tls.tcp.handed.any
        (fun h => h.payloadLen != 0 && h.state == .Connecting) = true := by decide +kernel
  obtain ⟨h, hmem, hbad⟩ := List.any_eq_true.mp hany
  obtain ⟨before, hgood⟩ := hsound.exists_of_mem hmem
  simp only [Bool.and_eq_true, bne_iff_ne, beq_iff_eq] at hbad
  have hstate := (hgood hbad.1).1
  rw [hbad.2] at hstate
  cases hstate

end WsGateway.Gateway.Service
