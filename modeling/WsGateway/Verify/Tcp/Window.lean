import WsGateway.Verify.Tcp.Accounting

/-!
# The peer's window

The window field of a segment is shifted by the scale the SYN-ACK carried. The
scale is taken from the wire as it stands: the shift is exact in all states of a
run exactly if the SYN-ACK that connects the client offers none above `14`. What
is in flight after a successful `send` is covered by the last window the peer
advertised, where the client ignores a window of zero.
-/

namespace WsGateway.Network.Tcp

open Library

namespace Client

/-! ## The scale -/

theorem peerRwnd_toNat (window : UInt16) (scale : UInt8) :
    (peerRwnd window scale).toNat = window.toNat * 2 ^ (scale.toNat % 32) % 2 ^ 32 := by
  rw [peerRwnd, UInt32.toNat_shiftLeft, Nat.shiftLeft_eq, UInt16.toNat_toUInt32,
    UInt8.toNat_toUInt32]

/-- The scale is allowed, and with it the window arithmetic of `process_packet` is exact. -/
structure Scaled (c : Client) : Prop where
  allowed : c.peerWindowScale.toNat ≤ 14
  shift : c.peerWindowScale.toNat < 32
  rwnd : ∀ window : UInt16,
    (peerRwnd window c.peerWindowScale).toNat = window.toNat * 2 ^ c.peerWindowScale.toNat
  nonzero : ∀ window : UInt16, window ≠ 0 → peerRwnd window c.peerWindowScale ≠ 0

theorem scaled_iff {c : Client} : c.Scaled ↔ c.peerWindowScale.toNat ≤ 14 := by
  constructor
  · intro h
    exact h.allowed
  · intro h
    have hexact : ∀ window : UInt16,
        (peerRwnd window c.peerWindowScale).toNat = window.toNat * 2 ^ c.peerWindowScale.toNat := by
      intro window
      have hmul : window.toNat * 2 ^ c.peerWindowScale.toNat < 2 ^ 32 := by
        calc window.toNat * 2 ^ c.peerWindowScale.toNat
            ≤ window.toNat * 2 ^ 14 := Nat.mul_le_mul_left _ (Nat.pow_le_pow_right (by omega) h)
          _ < 2 ^ 16 * 2 ^ 16 := by
            have hwindow := window.toNat_lt
            omega
      rw [peerRwnd_toNat, Nat.mod_eq_of_lt (show c.peerWindowScale.toNat < 32 by omega),
        Nat.mod_eq_of_lt hmul]
    refine ⟨h, by omega, hexact, ?_⟩
    intro window hwindow hzero
    have hprod := hexact window
    rw [hzero] at hprod
    have hpos : 0 < window.toNat * 2 ^ c.peerWindowScale.toNat := by
      apply Nat.mul_pos
      · exact Nat.pos_of_ne_zero fun h0 => hwindow (UInt16.toNat_inj.mp h0)
      · exact Nat.two_pow_pos _
    rw [← hprod] at hpos
    exact absurd hpos (by decide)

/-- The segment is the SYN-ACK that connects the client. -/
def Connects (c : Client) (p : PacketView) : Prop :=
  c.state = .Connecting ∧ c.Accepts p ∧ p.header.flags = .SYN_ACK

/-- The call hands the client the SYN-ACK, and it offers too large a scale. -/
def Oversized (c : Client) : Call → Prop
  | .send .. => False
  | .receive p => c.Connects p ∧
      ∃ options scale, p.parseOptions = .ok options ∧ options.windowScale = some scale ∧
        14 < scale.toNat

section Scale

variable (dpdk : Dpdk) {c : Client}

theorem lt_negotiated_iff (hc : c.peerWindowScale.toNat ≤ 14) (p : PacketView) :
    14 < (c.negotiated p).toNat ↔
      ∃ options scale, p.parseOptions = .ok options ∧ options.windowScale = some scale ∧
        14 < scale.toNat := by
  unfold negotiated
  generalize p.parseOptions = parsed
  cases parsed with
  | error e =>
    simp only [scaleAfter, reduceCtorEq, false_and, exists_false, iff_false]
    omega
  | ok options =>
    simp only [scaleAfter, Except.ok.injEq]
    cases hscale : options.windowScale with
    | none =>
      constructor
      · intro h
        simp only [Option.getD_none] at h
        omega
      · rintro ⟨_, scale, rfl, hsome, -⟩
        simp [hscale] at hsome
    | some scale =>
      constructor
      · intro h
        exact ⟨options, scale, rfl, hscale, h⟩
      · rintro ⟨_, scale', rfl, hsome, hlt⟩
        simp only [hscale, Option.some.injEq] at hsome
        simpa [hsome] using hlt

/-- The scale changes only with the SYN-ACK that connects the client. -/
theorem callStep_scale (c : Client) (call : Call) :
    (callStep dpdk c call).peerWindowScale = c.peerWindowScale ∧
        (c.state = .Connected → (callStep dpdk c call).state = .Connected) ∧
        (∀ p, call = .receive p → ¬ c.Connects p) ∨
      ∃ p, call = .receive p ∧ c.Connects p ∧ (callStep dpdk c call).state = .Connected ∧
        (callStep dpdk c call).peerWindowScale = c.negotiated p := by
  cases call with
  | send flags includeOptions payload payloadLen =>
    have hsends : Sends c (callStep dpdk c (.send flags includeOptions payload payloadLen)) :=
      getSendBuffer_send_sends dpdk flags includeOptions
        (fun packet => ⟨packet.tcp.writePayload payload⟩) (fun h => h.writePayload payload)
        payloadLen c
    exact Or.inl ⟨hsends.frame.2.2.2.2.1, fun hstate => hsends.state_eq.trans hstate, nofun⟩
  | receive p =>
    change (receiveStep dpdk c p).peerWindowScale = _ ∧ _ ∨ _
    have hreceived : Received c p (receiveStep dpdk c p) := processPacket_received dpdk p c
    have hother : ∀ {t : Client}, t.peerWindowScale = c.peerWindowScale → t.state = c.state →
        ¬ c.Connects p →
        t.peerWindowScale = c.peerWindowScale ∧ (c.state = .Connected → t.state = .Connected) ∧
          ∀ q, Call.receive p = .receive q → ¬ c.Connects q := by
      intro t hscale hstate hno
      refine ⟨hscale, fun h => hstate.trans h, ?_⟩
      rintro q ⟨⟩
      exact hno
    cases hreceived with
    | same hrej hsame =>
      exact Or.inl (hother (by rw [hsame]) (by rw [hsame]) fun h => hrej h.2.1)
    | windowed hrej hwindow =>
      exact Or.inl (hother (by simp [hwindow]) (by simp [hwindow]) fun h => hrej h.2.1)
    | delivered hacc hdel =>
      cases hdel with
      | established scale hstate hflags hsends hseq hscale =>
        refine Or.inr ⟨p, rfl, ⟨by simpa using hstate, hacc, hflags⟩, hsends.state_eq, ?_⟩
        have hsame : (c.acked p).negotiated p = c.negotiated p := by
          rw [negotiated, negotiated, acked_peerWindowScale]
        exact hsends.frame.2.2.2.2.1.trans (hscale.trans hsame)
      | took hstate hpayload hsends =>
        refine Or.inl (hother ?_ ?_ ?_)
        · simpa using hsends.frame.2.2.2.2.1
        · simpa using hsends.state_eq
        · intro h
          simp [h.1] at hstate
      | nothing hsyn hdata hsame =>
        refine Or.inl (hother (by simp [hsame]) (by simp [hsame]) ?_)
        intro h
        exact hsyn ⟨by simpa using h.1, h.2.2⟩

/-- A connected client keeps its scale. -/
theorem run_scale_of_connected (calls : List Call) (hc : c.state = .Connected) :
    (calls.foldl (callStep dpdk) c).peerWindowScale = c.peerWindowScale := by
  induction calls generalizing c with
  | nil => rfl
  | cons call calls ih =>
    rcases callStep_scale dpdk c call with ⟨hscale, hstate, -⟩ | ⟨p, -, hconnects, -⟩
    · rw [List.foldl_cons, ih (hstate hc), hscale]
    · exact absurd (hc.symm.trans hconnects.1) (by decide)

theorem run_scale_iff (calls : List Call) (hc : c.peerWindowScale.toNat ≤ 14) :
    (calls.foldl (callStep dpdk) c).peerWindowScale.toNat ≤ 14 ↔
      Along (callStep dpdk) (fun c call => ¬ c.Oversized call) c calls := by
  induction calls generalizing c with
  | nil => simpa using hc
  | cons call calls ih =>
    rw [List.foldl_cons, Along.cons]
    rcases callStep_scale dpdk c call with ⟨hscale, -, hno⟩ | ⟨p, rfl, hconnects, hstate, hscale⟩
    · have hok : ¬ c.Oversized call := by
        cases call with
        | send => exact id
        | receive p => exact fun h => hno p rfl h.1
      rw [ih (hscale.symm ▸ hc)]
      exact (and_iff_right hok).symm
    · have hiff := lt_negotiated_iff hc p
      by_cases hbig : 14 < (c.negotiated p).toNat
      · -- The scale is taken over, and nothing changes it afterwards.
        rw [run_scale_of_connected dpdk calls hstate, hscale]
        constructor
        · intro hle
          omega
        · intro hrun
          exact absurd ⟨hconnects, hiff.mp hbig⟩ hrun.1
      · rw [ih (by rw [hscale]; omega)]
        exact (and_iff_right fun h => hbig (hiff.mpr h.2)).symm

/-- `connect` leaves the window alone. -/
theorem connect_window (c : Client) :
    (after (connect dpdk c)).peerWindowScale = c.peerWindowScale ∧
      (after (connect dpdk c)).sendWnd = c.sendWnd := by
  refine Ends.after (P := fun t : Client =>
    t.peerWindowScale = c.peerWindowScale ∧ t.sendWnd = c.sendWnd) ?_
  refine Ends.seq ((onSender_ends _ c).mono (fun _ _ h => h) ?_) ?_
  · rintro _ _ ⟨d, rfl⟩
    exact ⟨rfl, rfl⟩
  · rintro tx _ ⟨d, rfl⟩
    apply Ends.update
    refine Ends.seq ((getSendBuffer_ends dpdk .SYN true _).mono (fun _ _ h => h) ?_) ?_
    · rintro _ _ ⟨d, rfl⟩
      exact ⟨rfl, rfl⟩
    · rintro packet _ ⟨-, d, rfl⟩
      refine Ends.seq ((send_ends dpdk packet 0 _).mono (fun _ _ h => h) ?_) ?_
      · rintro _ _ (rfl | ⟨d, rfl⟩) <;> exact ⟨rfl, rfl⟩
      · rintro _ _ ⟨d, rfl⟩
        exact ⟨rfl, rfl⟩

/-- **Window scaling**: in the state after every run from `connect` on the window arithmetic is
exact, exactly if the SYN-ACK that connected the client offered no scale above `14`. -/
theorem scaled_iff_not_oversized (connection : Connection) (sender : Device) (isn : SeqNumber)
    (ipId : UInt16) (calls : List Call) :
    (runFrom dpdk (new connection sender isn ipId) calls).Scaled ↔
      Along (callStep dpdk) (fun c call => ¬ c.Oversized call)
        (after (connect dpdk (new connection sender isn ipId))) calls := by
  have hopen : (after (connect dpdk (new connection sender isn ipId))).peerWindowScale = 0 :=
    (connect_window dpdk _).1
  rw [scaled_iff]
  exact run_scale_iff dpdk calls (by rw [hopen]; decide)

end Scale

/-- A SYN-ACK with a window scale of `15`. -/
def largeScaleSynAck : PacketView :=
  .receivedWith sampleConnection .SYN_ACK 0 8 65535 [kWindowScaleOptionKind, 3, 15, 0] []

theorem large_scale_not_scaled :
    ¬ (runFrom sampleDpdk (new sampleConnection {} 7 0) [.receive largeScaleSynAck]).Scaled := by
  rw [scaled_iff]
  decide +kernel

/-! ## Flow control -/

/-- A packet obtained, filled with a payload and sent. -/
def sendCall (dpdk : Dpdk) (flags : Flags) (includeOptions : Bool) (payload : List UInt8)
    (payloadLen : Nat) : Prog Client Unit := do
  let packet ← getSendBuffer dpdk flags includeOptions
  send dpdk ⟨packet.tcp.writePayload payload⟩ payloadLen

/-- The window the call advertises, if it counts; else the one before. -/
def advertised (counts : UInt16 → Bool) (c : Client) (window : Nat) : Call → Nat
  | .send .. => window
  | .receive p =>
    if c.Accepts p ∧ counts p.header.window then
      p.header.window.toNat * 2 ^ c.peerWindowScale.toNat
    else window

/-- The last window advertised in a run that counts. -/
def lastWindow (dpdk : Dpdk) (counts : UInt16 → Bool) : Client → Nat → List Call → Nat
  | _, window, [] => window
  | c, window, call :: calls =>
    lastWindow dpdk counts (callStep dpdk c call) (advertised counts c window call) calls

/-- The segment is refused for its acknowledgement number, after its window was read. -/
def RefusedAck (c : Client) : Call → Prop
  | .send .. => False
  | .receive p => c.Reaches p ∧ ¬ c.Accepts p

section FlowControl

variable (dpdk : Dpdk) {c c' : Client}

theorem send_le_sendWnd {packet : SendBuffer} {n : Nat} (h : send dpdk packet n c = .ok () c') :
    c'.unacknowledgedBytes.toNat ≤ c.sendWnd.toNat := by
  obtain ⟨_, c₁, hget, h⟩ := bind_eq_ok h
  cases hget
  rw [require_bind] at h
  split at h
  · rename_i hroom
    have hroom := of_decide_eq_true hroom
    obtain ⟨_, c₂, hmod, h⟩ := bind_eq_ok h
    cases hmod
    obtain ⟨d, -, rfl⟩ := zoom_eq_ok h
    change (c.unacknowledgedBytes + UInt32.ofNat n).toNat ≤ c.sendWnd.toNat
    have hwnd := c.sendWnd.toNat_lt
    rw [UInt32.toNat_add, UInt32.toNat_ofNat']
    omega
  · cases h

theorem sendCall_le_sendWnd {flags : Flags} {includeOptions : Bool} {payload : List UInt8} {n : Nat}
    (h : sendCall dpdk flags includeOptions payload n c = .ok () c') :
    c'.unacknowledgedBytes.toNat ≤ c.sendWnd.toNat := by
  obtain ⟨packet, c₁, hbuffer, h⟩ := bind_eq_ok h
  obtain ⟨-, d, rfl⟩ := (getSendBuffer_ends dpdk flags includeOptions c).ok hbuffer
  exact send_le_sendWnd dpdk (c := { c with sender := d }) h

/-- The window update takes over what is advertised, in 32 bits, unless it is zero. -/
theorem windowed_sendWnd_le {window : Nat} (p : PacketView) (hc : c.sendWnd.toNat ≤ window) :
    (c.windowed p).sendWnd.toNat ≤
      if p.header.window ≠ 0 then p.header.window.toNat * 2 ^ c.peerWindowScale.toNat
      else window := by
  have hrwnd := peerRwnd_toNat p.header.window c.peerWindowScale
  have hwnd : (c.windowed p).sendWnd = if peerRwnd p.header.window c.peerWindowScale > 0 then
      peerRwnd p.header.window c.peerWindowScale else c.sendWnd := by
    cases c
    rfl
  rw [hwnd]
  by_cases hzero : p.header.window = 0
  · have h0 : ¬ peerRwnd p.header.window c.peerWindowScale > 0 := by
      intro hpos
      have hpos : (0 : UInt32).toNat < (peerRwnd p.header.window c.peerWindowScale).toNat := hpos
      rw [hrwnd, hzero] at hpos
      simp at hpos
    rw [if_neg h0, if_neg (by simpa using hzero)]
    exact hc
  · rw [if_pos hzero]
    have hexp : 2 ^ (c.peerWindowScale.toNat % 32) ≤ 2 ^ c.peerWindowScale.toNat :=
      Nat.pow_le_pow_right (by omega) (Nat.mod_le _ _)
    have hprod := Nat.mul_le_mul_left p.header.window.toNat hexp
    split
    · rw [hrwnd]
      exact (Nat.mod_le _ _).trans hprod
    · -- The product wraps to zero, so it is larger than every 32-bit window.
      rename_i hnot
      have hmod : p.header.window.toNat * 2 ^ (c.peerWindowScale.toNat % 32) % 2 ^ 32 = 0 := by
        rw [← hrwnd]
        have hle : ¬ (0 : UInt32).toNat < (peerRwnd p.header.window c.peerWindowScale).toNat := hnot
        have hzero' : (0 : UInt32).toNat = 0 := rfl
        omega
      have hpos : 0 < p.header.window.toNat * 2 ^ (c.peerWindowScale.toNat % 32) := by
        apply Nat.mul_pos
        · exact Nat.pos_of_ne_zero fun h0 => hzero (UInt16.toNat_inj.mp h0)
        · exact Nat.two_pow_pos _
      have hlarge := Nat.le_of_dvd hpos (Nat.dvd_of_mod_eq_zero hmod)
      have hlt := c.sendWnd.toNat_lt
      omega

/-- **One call** keeps the window in force below the one advertised. -/
theorem callStep_window {window : Nat} {call : Call} (hc : c.sendWnd.toNat ≤ window)
    (hcall : ¬ c.RefusedAck call) :
    (callStep dpdk c call).sendWnd.toNat ≤ advertised (· != 0) c window call := by
  cases call with
  | send flags includeOptions payload payloadLen =>
    have hsends : Sends c (callStep dpdk c (.send flags includeOptions payload payloadLen)) :=
      getSendBuffer_send_sends dpdk flags includeOptions
        (fun packet => ⟨packet.tcp.writePayload payload⟩) (fun h => h.writePayload payload)
        payloadLen c
    rw [hsends.frame.2.2.2.1]
    exact hc
  | receive p =>
    have hreceived : Received c p (callStep dpdk c (.receive p)) := processPacket_received dpdk p c
    generalize callStep dpdk c (.receive p) = t at *
    have hwindow := windowed_sendWnd_le p hc
    simp only [advertised]
    cases hreceived with
    | same hrej hsame =>
      rw [if_neg fun h => hrej h.1, hsame]
      exact hc
    | windowed hrej hwindow hreach => exact absurd ⟨hreach, hrej⟩ hcall
    | delivered hacc hdel =>
      have hsame : t.sendWnd = (c.windowed p).sendWnd := by
        cases hdel with
        | established scale hstate hflags hsends =>
          have h := hsends.frame.2.2.2.1
          simpa using h
        | took hstate hpayload hsends =>
          have h := hsends.frame.2.2.2.1
          simpa using h
        | nothing hsyn hdata hsame => simp [hsame]
      rw [hsame]
      simpa [hacc] using hwindow

theorem run_window (calls : List Call) {window : Nat} (hc : c.sendWnd.toNat ≤ window)
    (hrun : Along (callStep dpdk) (fun c call => ¬ c.RefusedAck call) c calls) :
    (calls.foldl (callStep dpdk) c).sendWnd.toNat ≤ lastWindow dpdk (· != 0) c window calls := by
  induction calls generalizing c window with
  | nil => exact hc
  | cons call calls ih => exact ih (callStep_window dpdk hc hrun.1) hrun.2

/-- **Flow control**: in every run from `connect` on in which no segment is refused for its
acknowledgement number, what is in flight after a successful `send` is at most the last window
advertised that is not zero, or the window before the first of them. -/
theorem unacknowledged_le_window (connection : Connection) (sender : Device) (isn : SeqNumber)
    (ipId : UInt16) (calls : List Call)
    (hrun : Along (callStep dpdk) (fun c call => ¬ c.RefusedAck call)
      (after (connect dpdk (new connection sender isn ipId))) calls)
    (flags : Flags) (includeOptions : Bool) (payload : List UInt8) (n : Nat)
    (hsend : sendCall dpdk flags includeOptions payload n
      (runFrom dpdk (new connection sender isn ipId) calls) = .ok () c') :
    c'.unacknowledgedBytes.toNat ≤ lastWindow dpdk (· != 0)
      (after (connect dpdk (new connection sender isn ipId))) kWindowSize.toNat calls := by
  have hopen : (after (connect dpdk (new connection sender isn ipId))).sendWnd = kWindowSize :=
    (connect_window dpdk _).2
  exact (sendCall_le_sendWnd dpdk hsend).trans
    (run_window dpdk calls (Nat.le_of_eq (congrArg UInt32.toNat hopen)) hrun)

end FlowControl

/-- A client right before its call of `connect`. -/
def unconnected : Client := new sampleConnection {} 7 0

theorem one_byte_covered :
    (after (sendCall sampleDpdk .PSH_ACK false [65] 1
      (runFrom sampleDpdk unconnected [.receive (synAck 0)]))).unacknowledgedBytes.toNat ≤
        lastWindow sampleDpdk (· != 0) (after (connect sampleDpdk unconnected)) kWindowSize.toNat
          [.receive (synAck 0)] := by
  have hsyn : (after (connect sampleDpdk unconnected)).Accepts (synAck 0) := by decide +kernel
  refine unacknowledged_le_window sampleDpdk sampleConnection {} 7 0 [.receive (synAck 0)]
    ⟨fun h => h.2 hsyn, trivial⟩ .PSH_ACK false [65] 1 (eq_ok_of_not_threw ?_)
  decide +kernel

/-- A SYN-ACK that advertises no window. -/
def zeroWindowSynAck : PacketView := .receivedWith sampleConnection .SYN_ACK 0 8 0 [] []

/-- A byte is sent into a window of zero. -/
theorem zero_window_not_covered :
    (runFrom sampleDpdk unconnected [.receive zeroWindowSynAck]).state = .Connected ∧
      threw (sendCall sampleDpdk .PSH_ACK false [65] 1
        (runFrom sampleDpdk unconnected [.receive zeroWindowSynAck])) = false ∧
      ¬ (after (sendCall sampleDpdk .PSH_ACK false [65] 1
        (runFrom sampleDpdk unconnected [.receive zeroWindowSynAck]))).unacknowledgedBytes.toNat ≤
          lastWindow sampleDpdk (fun _ => true) (after (connect sampleDpdk unconnected))
            kWindowSize.toNat [.receive zeroWindowSynAck] := by
  refine ⟨?_, ?_, ?_⟩ <;> decide +kernel

end Client

end WsGateway.Network.Tcp
