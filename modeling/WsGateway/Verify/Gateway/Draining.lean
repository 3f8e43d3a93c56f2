import WsGateway.Gateway.Service
import WsGateway.Verify.Wss.Extraction

/-!
# Draining the buffered frames

The inner loop of `run_worker` calls `next_message` until it returns nothing.
`Buffered` splits the buffered bytes into the frames that `peek_header` reads. The
loop hands over the data frames up to the first frame of another kind, takes that
one out as well, and ends: `next_message` returns nothing for it, too. So whatever
stands behind a control or continuation frame waits for the next packet.
-/

namespace WsGateway.Network.Wss

open Library

/-- The bytes hold these complete frames as `peek_header` reads them, and then `t`. -/
inductive Buffered : List UInt8 → List (FrameHeader × List UInt8) → List UInt8 → Prop
  | nil {bs : List UInt8} (h : Incomplete bs) : Buffered bs [] bs
  | cons {bs rest t payload : List UInt8} {header : FrameHeader}
      {fs : List (FrameHeader × List UInt8)} (h : Starts bs header payload rest)
      (tail : Buffered rest fs t) : Buffered bs ((header, payload) :: fs) t

section Bytes

variable {bs rest t payload : List UInt8} {header : FrameHeader}
  {fs : List (FrameHeader × List UInt8)}

theorem Buffered.incomplete_iff (h : Buffered bs fs t) : Incomplete bs ↔ fs = [] := by
  cases h with
  | nil h => exact ⟨fun _ => rfl, fun _ => h⟩
  | cons h tail => exact ⟨fun hinc => absurd hinc h.not_incomplete, fun hnil => by cases hnil⟩

/-- Encoded frames are buffered as they were encoded. -/
theorem buffered_encode {frames : List Frame} (hfs : ∀ f ∈ frames, f.payload.length ≠ 125)
    (ht : Incomplete t) (hlt : (frames.flatMap Frame.encode ++ t).length < 2 ^ 63) :
    Buffered (frames.flatMap Frame.encode ++ t) (frames.map fun f => (f.header, f.payload)) t := by
  induction frames with
  | nil => exact .nil ht
  | cons f frames ih =>
    rw [List.flatMap_cons, List.append_assoc] at hlt ⊢
    refine .cons (starts_encode (hfs f (List.mem_cons_self ..)) hlt) ?_
    apply ih (fun g hg => hfs g (List.mem_cons_of_mem _ hg))
    rw [List.length_append] at hlt
    omega

end Bytes

/-- The frame of this header gives a message. -/
def carriesData (f : FrameHeader × List UInt8) : Bool := f.1.isData

/-- Nothing but the last frame is of another kind than Text and Binary. -/
def ControlLast (fs : List (FrameHeader × List UInt8)) : Prop :=
  ∀ before f behind, fs = before ++ f :: behind → carriesData f = false → behind = []

theorem controlLast_iff (fs : List (FrameHeader × List UInt8)) :
    ControlLast fs ↔ (fs.dropWhile carriesData).tail = [] := by
  induction fs with
  | nil =>
    refine ⟨fun _ => rfl, ?_⟩
    rintro - before f behind heq
    cases before <;> cases heq
  | cons g fs ih =>
    cases hg : carriesData g with
    | true =>
      rw [List.dropWhile_cons_of_pos hg, ← ih]
      constructor
      · intro h before f behind heq
        exact h (g :: before) f behind (by rw [heq, List.cons_append])
      · intro h before f behind heq hf
        cases before with
        | nil =>
          cases heq
          rw [hg] at hf
          cases hf
        | cons g' before =>
          cases heq
          exact h before f behind rfl hf
    | false =>
      rw [List.dropWhile_cons_of_neg (by simp [hg]), List.tail_cons]
      constructor
      · intro h
        exact h [] g fs rfl hg
      · rintro rfl before f behind heq -
        cases before with
        | nil =>
          cases heq
          rfl
        | cons g' before =>
          rw [List.cons_append, List.cons.injEq] at heq
          simp at heq

/-- If nothing stands behind the first frame of another kind, no data frame does. -/
theorem takeWhile_eq_filter {fs : List (FrameHeader × List UInt8)}
    (h : (fs.dropWhile carriesData).tail = []) :
    fs.takeWhile carriesData = fs.filter carriesData := by
  induction fs with
  | nil => rfl
  | cons g fs ih =>
    cases hg : carriesData g with
    | true =>
      rw [List.dropWhile_cons_of_pos hg] at h
      rw [List.takeWhile_cons_of_pos hg, List.filter_cons_of_pos hg, ih h]
    | false =>
      rw [List.dropWhile_cons_of_neg (by simp [hg]), List.tail_cons] at h
      subst h
      simp [hg]

end WsGateway.Network.Wss

namespace WsGateway.Gateway.Service

open Library Network Wss

section Draining

variable {env : Wss.Env} {s s' : Service} {c₁ : Wss.Client} {t : List UInt8}
  {fs : List (FrameHeader × List UInt8)} {n : Nat}

/-- The loop is about to call `next_message` on these frames. -/
structure Holding (env : Wss.Env) (s : Service) (c₁ : Wss.Client)
    (fs : List (FrameHeader × List UInt8)) (t : List UInt8) : Prop where
  connected : s.connection.state = .Connected
  capacity : s.connection.stream.capacity < 2 ^ 63
  receives : Client.receiveAll env (s.connection.tls.stream.size + 1) s.connection = .ok () c₁
  waiting : Client.Waiting env c₁
  buffered : Buffered c₁.stream.content fs t

/-- The service after a call that took a frame out. -/
def takeOut (s : Service) (c₁ : Wss.Client) (stream : Stream) (payloads : List (List UInt8)) :
    Service :=
  { s with connection := { c₁ with stream := stream }, payloads := s.payloads ++ payloads }

theorem Holding.takeOut {header : FrameHeader} {payload : List UInt8} {stream : Stream}
    (h : Holding env s c₁ ((header, payload) :: fs) t) (hcap : stream.capacity = c₁.stream.capacity)
    (hbuf : Buffered stream.content fs t) (payloads : List (List UInt8)) :
    Holding env (s.takeOut c₁ stream payloads) { c₁ with stream := stream } fs t := by
  have hrefilled := Client.receiveAll_refilled h.receives
  refine ⟨hrefilled.state.trans h.connected, ?_, ?_, h.waiting, hbuf⟩
  · change stream.capacity < 2 ^ 63
    rw [hcap, hrefilled.capacity]
    exact h.capacity
  · exact Client.receiveAll_waiting (c := { c₁ with stream := stream }) h.waiting _

/-- One call on a holding service. -/
theorem nextMessage_holding (h : Holding env s c₁ fs t) :
    (fs = [] ∧ Client.nextMessage env s.connection = .ok none c₁) ∨
      ∃ header payload fs' stream, fs = (header, payload) :: fs' ∧
        stream.capacity = c₁.stream.capacity ∧ Buffered stream.content fs' t ∧
        Client.nextMessage env s.connection =
          if header.mask then .error (.runtimeError "mask") { c₁ with stream := stream }
          else if 10 < header.code.toNat then
            .error (.runtimeError "code") { c₁ with stream := stream }
          else .ok (if header.isData then some payload else none)
            { c₁ with stream := stream } := by
  have hrefilled := Client.receiveAll_refilled h.receives
  have hbuf := h.buffered
  generalize hbs : c₁.stream.content = bs at hbuf
  cases hbuf with
  | nil hinc =>
    exact Or.inl ⟨rfl, Client.nextMessage_incomplete h.connected h.receives (hbs ▸ hinc)⟩
  | @cons _ rest _ payload header fs hstarts tail =>
    have hcap : c₁.stream.capacity < 2 ^ 63 := by
      rw [hrefilled.capacity]
      exact h.capacity
    obtain ⟨stream, hrest, hcap', hnext⟩ :=
      Client.nextMessage_starts h.connected h.receives hcap (hbs ▸ hstarts)
    exact Or.inr ⟨header, payload, fs, stream, rfl, hcap', hrest ▸ tail, hnext⟩

theorem drain_of_none (h : Client.nextMessage env s.connection = .ok none c₁) :
    drain env (n + 1) s = .ok () { s with connection := c₁ } := by
  rw [drain, onConnection, bind_of_ok (zoom_of_ok h)]
  rfl

theorem drain_of_some {payload : List UInt8} {stream : Stream}
    (h : Client.nextMessage env s.connection = .ok (some payload) { c₁ with stream := stream }) :
    drain env (n + 1) s = drain env n (s.takeOut c₁ stream [payload]) := by
  rw [drain, onConnection, bind_of_ok (zoom_of_ok h)]
  rfl

theorem drain_of_error {e : Error} (h : Client.nextMessage env s.connection = .error e c₁) :
    drain env (n + 1) s = .error e { s with connection := c₁ } := by
  rw [drain, onConnection, bind_of_error (zoom_of_error h)]

/-- What the loop has done when it ends. -/
theorem drain_holding (h : Holding env s c₁ fs t) (hdrain : drain env n s = .ok () s') :
    s'.payloads = s.payloads ++ (fs.takeWhile carriesData).map Prod.snd ∧
      Buffered s'.connection.stream.content (fs.dropWhile carriesData).tail t := by
  -- the fuel decreases with every message, and the frames get fewer by the one taken out
  induction n generalizing s c₁ fs with
  | zero => cases hdrain
  | succ n ih =>
    obtain ⟨rfl, hnext⟩ | ⟨header, payload, fs, stream, rfl, hcap, hbuf, hnext⟩ :=
      nextMessage_holding h
    · rw [drain_of_none hnext] at hdrain
      cases hdrain
      exact ⟨(List.append_nil _).symm, h.buffered⟩
    · by_cases hmask : header.mask = true
      · rw [if_pos hmask] at hnext
        rw [drain_of_error hnext] at hdrain
        cases hdrain
      rw [if_neg hmask] at hnext
      by_cases hcode : 10 < header.code.toNat
      · rw [if_pos hcode] at hnext
        rw [drain_of_error hnext] at hdrain
        cases hdrain
      rw [if_neg hcode] at hnext
      cases hdata : carriesData (header, payload) with
      | true =>
        have hisData : header.isData = true := hdata
        rw [hisData] at hnext
        rw [drain_of_some hnext] at hdrain
        obtain ⟨hpayloads, hleft⟩ := ih (h.takeOut hcap hbuf [payload]) hdrain
        rw [List.takeWhile_cons_of_pos hdata, List.dropWhile_cons_of_pos hdata]
        refine ⟨?_, hleft⟩
        rw [hpayloads]
        simp [Service.takeOut]
      | false =>
        have hisData : header.isData = false := hdata
        rw [hisData] at hnext
        rw [drain_of_none hnext] at hdrain
        cases hdrain
        rw [List.takeWhile_cons_of_neg (by simp [hdata]),
          List.dropWhile_cons_of_neg (by simp [hdata])]
        exact ⟨(List.append_nil _).symm, hbuf⟩

/-- The loop ends if no frame makes it throw. -/
theorem drain_ends (h : Holding env s c₁ fs t)
    (hvalid : ∀ f ∈ fs, f.1.mask = false ∧ f.1.code.toNat ≤ 10) (hn : fs.length < n) :
    ∃ s', drain env n s = .ok () s' := by
  induction n generalizing s c₁ fs with
  | zero => omega
  | succ n ih =>
    obtain ⟨rfl, hnext⟩ | ⟨header, payload, fs, stream, rfl, hcap, hbuf, hnext⟩ :=
      nextMessage_holding h
    · exact ⟨_, drain_of_none hnext⟩
    · obtain ⟨hmask, hcode⟩ := hvalid _ (List.mem_cons_self ..)
      have hmask' : ¬ header.mask = true := by simpa using hmask
      have hcode' : ¬ 10 < header.code.toNat := Nat.not_lt.mpr hcode
      rw [if_neg hmask', if_neg hcode'] at hnext
      cases hdata : header.isData with
      | true =>
        rw [hdata] at hnext
        rw [drain_of_some hnext]
        exact ih (h.takeOut hcap hbuf [payload])
          (fun f hf => hvalid f (List.mem_cons_of_mem _ hf)) (by simpa using hn)
      | false =>
        rw [hdata] at hnext
        exact ⟨_, drain_of_none hnext⟩

end Draining

/-- **Draining**: the loop ends on frames that do not make it throw, and when it ends no complete
frame is left, and the payloads of all data frames were handed over in order, exactly if no frame
stands behind a control or continuation frame. -/
theorem drained_iff_controlLast (env : Wss.Env) (s : Service) (c₁ : Wss.Client)
    (fs : List (FrameHeader × List UInt8)) (t : List UInt8) (h : Holding env s c₁ fs t) :
    (∀ n s', drain env n s = .ok () s' →
      ((Incomplete s'.connection.stream.content ∧
          s'.payloads = s.payloads ++ (fs.filter carriesData).map Prod.snd) ↔ ControlLast fs)) ∧
    ((∀ f ∈ fs, f.1.mask = false ∧ f.1.code.toNat ≤ 10) →
      ∀ n, fs.length < n → ∃ s', drain env n s = .ok () s') := by
  refine ⟨fun n s' hdrain => ?_, fun hvalid n hn => drain_ends h hvalid hn⟩
  obtain ⟨hpayloads, hleft⟩ := drain_holding h hdrain
  rw [hleft.incomplete_iff, controlLast_iff, and_iff_left_iff_imp]
  intro hlast
  rw [hpayloads, takeWhile_eq_filter hlast]

/-- A service whose connection has these bytes in its stream. -/
def connectedService (bytes : List UInt8) : Service :=
  ⟨Client.connectedClient bytes, Tcp.Client.sampleConnection.session.src, []⟩

def emptyPing : Frame := ⟨true, false, false, false, .Ping, by decide, []⟩

theorem connectedService_holding (frames : List Frame)
    (hfs : ∀ f ∈ frames, f.payload.length ≠ 125) (hlt : (frames.flatMap Frame.encode).length ≤ 200000) :
    Holding Client.sampleEnv (connectedService (frames.flatMap Frame.encode))
      (Client.connectedClient (frames.flatMap Frame.encode))
      (frames.map fun f => (f.header, f.payload)) [] := by
  have hwait : Client.Waiting Client.sampleEnv
      (Client.connectedClient (frames.flatMap Frame.encode)) := rfl
  refine ⟨rfl, ?_, Client.receiveAll_waiting hwait _, hwait, ?_⟩
  · change (filledStream _).capacity < 2 ^ 63
    rw [capacity_filledStream]
    decide
  · have hbuf := @buffered_encode [] frames hfs incomplete_nil (by rw [List.append_nil]; omega)
    rw [List.append_nil] at hbuf
    change Buffered (filledStream _).content _ _
    rw [content_filledStream hlt]
    exact hbuf

theorem drained_text_ping :
    ∃ s', drain Client.sampleEnv 3
        (connectedService ([zeroFrame 1, emptyPing].flatMap Frame.encode)) = .ok () s' ∧
      Incomplete s'.connection.stream.content ∧ s'.payloads = [[0]] := by
  have hholding := connectedService_holding [zeroFrame 1, emptyPing] (by decide) (by decide)
  obtain ⟨hall, hends⟩ := drained_iff_controlLast _ _ _ _ _ hholding
  obtain ⟨s', hs'⟩ := hends (by decide) 3 (by decide)
  have hlast : ControlLast ([zeroFrame 1, emptyPing].map fun f => (f.header, f.payload)) := by
    rw [controlLast_iff]
    rfl
  exact ⟨s', hs', (hall 3 s' hs').mpr hlast⟩

/-- A text message behind a ping is still in the stream when the loop has ended. -/
theorem ping_text_left :
    ∃ s', drain Client.sampleEnv 3
        (connectedService ([emptyPing, zeroFrame 1].flatMap Frame.encode)) = .ok () s' ∧
      s'.connection.stream.content = (zeroFrame 1).encode ∧
      ¬ Incomplete s'.connection.stream.content ∧ s'.payloads = [] :=
  ⟨_, rfl, by decide +kernel, by decide +kernel, by decide +kernel⟩

end WsGateway.Gateway.Service
