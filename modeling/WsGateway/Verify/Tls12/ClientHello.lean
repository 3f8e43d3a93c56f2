import WsGateway.Library.Vectors
import WsGateway.Verify.Tls12.Delivery
import Mathlib.Data.List.Perm.Basic

/-!
# The ClientHello against its grammar

`readClientHello` reads a ClientHello record as RFC 5246 lays it out, and
`Extension.wellFormed` checks the inner lists of the extensions the client sends.
Every length that `send_client_hello` fills in is right, for every host name. The
list of signature algorithms has no length filled in: `kSHA256RSAExtension` leaves
its `size` at zero where `kCurve25519GroupExtension` sets its own, so the two bytes
of the only algorithm stand behind an empty list.
-/

namespace WsGateway.Network.Tls12

open Library Reader

/-! ## The grammar -/

structure Extension where
  extensionType : Nat
  data : List UInt8
  deriving DecidableEq, Repr

namespace Extension

def read : Reader Extension := fun bs => do
  let (extensionType, bs) ← fixed 2 bs
  let (data, bs) ← vector 2 bs
  return (⟨beNat extensionType, data⟩, bs)

def encode (e : Extension) : List UInt8 :=
  beBytes 2 e.extensionType ++ (beBytes 2 e.data.length ++ e.data)

/-- A `ServerName` of type `host_name`. -/
def readHostName : Reader (List UInt8) := fun bs => do
  let (nameType, bs) ← fixed 1 bs
  if nameType = [0] then vector 2 bs else none

/-- The host names of a `server_name` extension. -/
def hostNames (e : Extension) : Option (List (List UInt8)) := do
  let list ← whole (vector 2) e.data
  elements readHostName list

/-- A non-empty list of two-byte values. -/
def isPairList (data : List UInt8) : Bool :=
  match whole (vector 2) data with
  | some list => 2 ≤ list.length && list.length % 2 == 0
  | none => false

/-- The inner lengths of the extensions that the client sends; others are opaque. -/
def wellFormed (e : Extension) : Bool :=
  if e.extensionType = 0x0000 then e.hostNames.isSome
  else if e.extensionType = 0x000A ∨ e.extensionType = 0x000D then isPairList e.data
  else if e.extensionType = 0x0017 then e.data.isEmpty
  else if e.extensionType = 0xFF01 then (whole (vector 1) e.data).isSome
  else true

end Extension

/-- The extensions of a ClientHello that fills its record. -/
def readClientHello (bytes : List UInt8) : Option (List Extension) := do
  let (start, bs) ← fixed 3 bytes
  if start ≠ [0x16, 3, 3] then none
  let fragment ← whole (vector 2) bs
  let (handshakeType, bs) ← fixed 1 fragment
  if handshakeType ≠ [1] then none
  let body ← whole (vector 3) bs
  let (version, bs) ← fixed 2 body
  if version ≠ [3, 3] then none
  let (_, bs) ← fixed 32 bs
  let (sessionId, bs) ← vector 1 bs
  if 32 < sessionId.length then none
  let (cipherSuites, bs) ← vector 2 bs
  if cipherSuites.length < 2 ∨ cipherSuites.length % 2 = 1 then none
  let (compressionMethods, bs) ← vector 1 bs
  if compressionMethods = [] then none
  let extensions ← whole (vector 2) bs
  elements Extension.read extensions

/-- A ClientHello that parses completely and names this host. -/
def wellFormedFor (sniHostname bytes : List UInt8) : Bool :=
  match readClientHello bytes with
  | some extensions => extensions.all Extension.wellFormed &&
      extensions.any fun e => e.extensionType == 0x0000 && e.hostNames == some [sniHostname]
  | none => false

/-! ## The extensions -/

theorem Extension.reads {e : Extension} (htype : e.extensionType < 2 ^ 16)
    (hdata : e.data.length < 2 ^ 16) : Reads Extension.read e.encode e := by
  intro t
  have hfixed := reads_fixed (beBytes 2 e.extensionType)
    ((beBytes 2 e.data.length ++ e.data) ++ t)
  rw [length_beBytes] at hfixed
  have hvector := reads_vector 2 e.data hdata t
  simp only [Extension.read, Extension.encode, List.append_assoc] at hfixed hvector ⊢
  simp [hfixed, hvector, beNat_beBytes_of_lt (show e.extensionType < 256 ^ 2 from htype)]

/-- The `server_name` extension of a host name. -/
def sniExtension (sniHostname : List UInt8) : Extension where
  extensionType := 0x0000
  data := beBytes 2 (3 + sniHostname.length) ++ ([0] ++ beBytes 2 sniHostname.length ++ sniHostname)

/-- What the tuple `kDefaultExtensions` holds. -/
def defaultExtensions : List Extension :=
  [⟨0x000A, [0, 2, 0, 0x1D]⟩, ⟨0x0017, []⟩, ⟨0xFF01, [0]⟩, ⟨0x000D, [0, 0, 4, 1]⟩]

theorem kDefaultExtensions_eq : kDefaultExtensions = defaultExtensions.map Extension.encode := by
  decide

theorem encode_sniExtension (sniHostname : List UInt8) :
    (sniExtension sniHostname).encode = makeSniExtensions sniHostname.length ++ sniHostname := by
  have hsub : 9 - 4 + sniHostname.length - 2 = 3 + sniHostname.length := by omega
  have hlen : (sniExtension sniHostname).data.length = 9 - 4 + sniHostname.length := by
    simp [sniExtension]
    omega
  rw [Extension.encode, hlen, makeSniExtensions, hsub]
  simp [sniExtension]

/-- The tuple in any layout is the encoding of some order of its elements. -/
theorem exists_order {extensions : List (List UInt8)} (h : extensions.Perm kDefaultExtensions) :
    ∃ order : List Extension, order.Perm defaultExtensions ∧
      extensions = order.map Extension.encode := by
  rw [kDefaultExtensions_eq] at h
  have hcomp : Relation.Comp (· = List.map Extension.encode ·) List.Perm extensions
      defaultExtensions := by
    rw [List.eq_map_comp_perm]
    exact h
  obtain ⟨order, heq, hperm⟩ := hcomp
  exact ⟨order, hperm, heq⟩

theorem hostNames_sniExtension {sniHostname : List UInt8} (h : sniHostname.length + 81 < 2 ^ 16) :
    (sniExtension sniHostname).hostNames = some [sniHostname] := by
  have hlist : whole (vector 2) (sniExtension sniHostname).data =
      some ([0] ++ beBytes 2 sniHostname.length ++ sniHostname) := by
    have hlen : ([0] ++ beBytes 2 sniHostname.length ++ sniHostname).length =
        3 + sniHostname.length := by
      simp
      omega
    have hwhole := whole_vector 2 ([0] ++ beBytes 2 sniHostname.length ++ sniHostname)
      (by rw [hlen]; omega)
    rw [hlen] at hwhole
    exact hwhole
  have hname : Reads Extension.readHostName ([0] ++ beBytes 2 sniHostname.length ++ sniHostname)
      sniHostname := by
    intro t
    have hvector := reads_vector 2 sniHostname (by omega) t
    simp only [List.append_assoc] at hvector
    simp [Extension.readHostName, fixed, hvector]
  have hall : elements Extension.readHostName
      ([sniHostname].flatMap fun name => [0] ++ beBytes 2 name.length ++ name) =
        some [sniHostname] := by
    apply elements_of_reads
    intro name hmem
    rw [List.mem_singleton] at hmem
    subst hmem
    exact ⟨hname, by simp⟩
  simp only [Extension.hostNames, hlist, Option.bind_eq_bind, Option.bind_some]
  simpa using hall

/-! ## The message -/

section Message

variable {extensions : List (List UInt8)} {order : List Extension} {sniHostname : List UInt8}

theorem length_defaultExtensions (h : order.Perm defaultExtensions) :
    (order.map Extension.encode).flatten.length = 25 := by
  have hperm := (h.map Extension.encode).flatten.length_eq
  rw [hperm]
  rfl

/-- The handshake message without its header. -/
def helloBody (clientRandom : Vector UInt8 32) (exts : List UInt8) : List UInt8 :=
  [3, 3] ++ (clientRandom.toList ++ ((beBytes 1 0 ++ []) ++ ((beBytes 2 2 ++ beBytes 2 kCipherSuite) ++
    ((beBytes 1 1 ++ [0]) ++ (beBytes 2 exts.length ++ exts)))))

/-- The payload of the record. -/
def helloFragment (clientRandom : Vector UInt8 32) (exts : List UInt8) : List UInt8 :=
  [1] ++ (beBytes 3 (helloBody clientRandom exts).length ++ helloBody clientRandom exts)

theorem length_helloBody (clientRandom : Vector UInt8 32) (exts : List UInt8) :
    (helloBody clientRandom exts).length = exts.length + 43 := by
  simp [helloBody]
  omega

theorem length_helloFragment (clientRandom : Vector UInt8 32) (exts : List UInt8) :
    (helloFragment clientRandom exts).length = exts.length + 47 := by
  simp [helloFragment, length_helloBody]
  omega

/-- The sizes that are patched in are those of the message and of the record. -/
theorem clientHelloBytes_eq (clientRandom : Vector UInt8 32) {exts : List UInt8}
    (hexts : makeSniExtensions sniHostname.length ++ sniHostname ++ extensions.flatten = exts)
    (hfit : exts.length + 47 < 2 ^ 16) :
    clientHelloBytes extensions clientRandom sniHostname =
      [0x16, 3, 3] ++ (beBytes 2 (helloFragment clientRandom exts).length ++
        helloFragment clientRandom exts) := by
  have hrecord : (kClientHelloMessageSize + exts.length - RecordHeader.sizeof) % 2 ^ 16 =
      exts.length + 47 := by
    rw [Nat.mod_eq_of_lt (by simp only [kClientHelloMessageSize, RecordHeader.sizeof]; omega)]
    simp only [kClientHelloMessageSize, RecordHeader.sizeof]
    omega
  have hbody : sizeSub (exts.length + 47) 4 = exts.length + 43 := by
    rw [sizeSub_of_le (by omega) (by omega)]
    omega
  unfold clientHelloBytes
  simp only [hexts, hrecord, hbody]
  rw [length_helloFragment, helloFragment, length_helloBody]
  simp [helloBody, RecordHeader.bytes, HandshakeHeader.bytes, ContentType.Handshake, kTls12,
    HandshakeType.ClientHello, beBytes]

theorem readClientHello_eq (clientRandom : Vector UInt8 32) {exts : List UInt8}
    (hfit : exts.length + 47 < 2 ^ 16) :
    readClientHello ([0x16, 3, 3] ++ (beBytes 2 (helloFragment clientRandom exts).length ++
      helloFragment clientRandom exts)) = elements Extension.read exts := by
  have hrecord := whole_vector 2 (helloFragment clientRandom exts)
    (by rw [length_helloFragment]; omega)
  have hmessage := whole_vector 3 (helloBody clientRandom exts)
    (by rw [length_helloBody]; omega)
  have hrandom := reads_fixed clientRandom.toList
  have hsession : Reads (vector 1) (beBytes 1 0 ++ []) [] := reads_vector 1 [] (by decide)
  have hsuites : Reads (vector 2) (beBytes 2 2 ++ beBytes 2 kCipherSuite)
      (beBytes 2 kCipherSuite) := reads_vector 2 (beBytes 2 kCipherSuite) (by decide)
  have hcompression : Reads (vector 1) (beBytes 1 1 ++ [0]) [0] :=
    reads_vector 1 [0] (by decide)
  have hexts := whole_vector 2 exts (by omega)
  have hstart : ∀ t, fixed 3 ([0x16, 3, 3] ++ t) = some ([0x16, 3, 3], t) :=
    reads_fixed [0x16, 3, 3]
  have htype : ∀ t, fixed 1 ([1] ++ t) = some ([1], t) := reads_fixed [1]
  have hversion : ∀ t, fixed 2 ([3, 3] ++ t) = some ([3, 3], t) := reads_fixed [3, 3]
  rw [Vector.length_toList] at hrandom
  rw [readClientHello, hstart, Option.bind_eq_bind, Option.bind_some]
  dsimp only
  rw [if_neg (by simp), hrecord, Option.bind_eq_bind, Option.bind_some, helloFragment, htype,
    Option.bind_some]
  dsimp only
  rw [if_neg (by simp), hmessage, Option.bind_some, helloBody, hversion, Option.bind_some]
  dsimp only
  rw [if_neg (by simp), hrandom, Option.bind_some]
  dsimp only
  rw [hsession, Option.bind_some]
  dsimp only
  rw [if_neg (by simp), hsuites, Option.bind_some]
  dsimp only
  rw [if_neg (by simp), hcompression, Option.bind_some]
  dsimp only
  rw [if_neg (by simp), hexts, Option.bind_some]

/-- Each length of the message covers what it should, so the extensions are read back. -/
theorem readClientHello_clientHelloBytes (clientRandom : Vector UInt8 32)
    (hperm : order.Perm defaultExtensions) (hfit : sniHostname.length + 81 < 2 ^ 16) :
    readClientHello (clientHelloBytes (order.map Extension.encode) clientRandom sniHostname) =
      some (sniExtension sniHostname :: order) := by
  have hexts : makeSniExtensions sniHostname.length ++ sniHostname ++
      (order.map Extension.encode).flatten =
        (sniExtension sniHostname :: order).flatMap Extension.encode := by
    rw [List.flatMap_cons, encode_sniExtension, List.flatMap_def]
  have hlen : ((sniExtension sniHostname :: order).flatMap Extension.encode).length =
      sniHostname.length + 34 := by
    rw [← hexts, List.length_append, length_defaultExtensions hperm]
    simp [makeSniExtensions]
    omega
  rw [clientHelloBytes_eq clientRandom hexts (by omega), readClientHello_eq _ (by omega)]
  apply elements_of_reads
  intro e he
  refine ⟨?_, by simp [Extension.encode, beBytes]⟩
  rcases List.mem_cons.mp he with rfl | he
  · apply Extension.reads (by simp [sniExtension])
    simp [sniExtension]
    omega
  · have hall : ∀ e ∈ defaultExtensions, e.extensionType < 2 ^ 16 ∧ e.data.length < 2 ^ 16 := by
      decide
    obtain ⟨htype, hdata⟩ := hall e (hperm.mem_iff.mp he)
    exact Extension.reads htype hdata

/-- Of all extensions only the signature algorithms are ill-formed. -/
theorem wellFormed_iff_of_mem (hperm : order.Perm defaultExtensions)
    (hfit : sniHostname.length + 81 < 2 ^ 16) {e : Extension}
    (he : e ∈ sniExtension sniHostname :: order) :
    e.wellFormed = true ↔ e.extensionType ≠ 0x000D := by
  rcases List.mem_cons.mp he with rfl | he
  · have hnames := hostNames_sniExtension hfit
    simp [Extension.wellFormed, sniExtension] at hnames ⊢
    simp [hnames]
  · have hall : ∀ e ∈ defaultExtensions, e.wellFormed = true ↔ e.extensionType ≠ 0x000D := by
      decide
    exact hall e (hperm.mem_iff.mp he)

end Message

namespace Client

theorem generateClientRandom_eq_ok {ossl : OpenSsl} {c c' : Client}
    (h : generateClientRandom ossl c = .ok () c') : ∃ random, ossl.randBytes c.drawn = some random ∧
      c' = { c with drawn := c.drawn + 1, clientRandom := random } := by
  rw [generateClientRandom, bind_of_ok (get_apply c), bind_of_ok (modify_apply _ c)] at h
  cases hrandom : ossl.randBytes c.drawn with
  | none =>
    rw [hrandom] at h
    cases h
  | some random =>
    rw [hrandom] at h
    cases h
    exact ⟨random, rfl, rfl⟩

/-- A `send_client_hello` that returns has hashed and sent the message. -/
theorem sendClientHello_eq_ok {env : Env} {c c' : Client} (h : sendClientHello env c = .ok () c') :
    ∃ random packet t t', env.ossl.randBytes c.drawn = some random ∧
      Tcp.Client.getSendBuffer env.dpdk .PSH_ACK false c.tcp = .ok packet t ∧
      Tcp.Client.send env.dpdk ⟨packet.tcp.writePayload
          (clientHelloBytes kDefaultExtensions.reverse random c.sniHostname)⟩
        (clientHelloBytes kDefaultExtensions.reverse random c.sniHostname).length t = .ok () t' ∧
      c' = { c with
        tcp := t'
        drawn := c.drawn + 1
        clientRandom := random
        handshakeHash := c.handshakeHash ++
          (clientHelloBytes kDefaultExtensions.reverse random c.sniHostname).drop 5 } := by
  obtain ⟨packet, c₁, hpacket, h⟩ := bind_eq_ok h
  obtain ⟨t, htcp, rfl⟩ := zoom_eq_ok hpacket
  obtain ⟨_, c₂, hgenerate, h⟩ := bind_eq_ok h
  obtain ⟨random, hrandom, rfl⟩ := generateClientRandom_eq_ok hgenerate
  obtain ⟨_, _, hws, h⟩ := bind_eq_ok h
  obtain ⟨-, rfl⟩ := ofExcept_eq_ok hws
  rw [bind_of_ok (get_apply _)] at h
  obtain ⟨_, _, hws, h⟩ := bind_eq_ok h
  obtain ⟨-, rfl⟩ := ofExcept_eq_ok hws
  obtain ⟨_, _, hws, h⟩ := bind_eq_ok h
  obtain ⟨-, rfl⟩ := ofExcept_eq_ok hws
  obtain ⟨_, _, hws, h⟩ := bind_eq_ok h
  obtain ⟨-, rfl⟩ := ofExcept_eq_ok hws
  dsimp only at h
  refine ⟨random, packet, t, ?_⟩
  generalize clientHelloBytes kDefaultExtensions.reverse random c.sniHostname = hello at h ⊢
  rw [hashUpdate, bind_of_ok (modify_apply _ _), sendPayload, onTcp] at h
  obtain ⟨t', hsend, rfl⟩ := zoom_eq_ok h
  exact ⟨t', hrandom, htcp, hsend, rfl⟩

end Client

/-- No host name, random and layout of the tuple give a well-formed ClientHello. -/
theorem clientHello_not_wellFormed (extensions : List (List UInt8))
    (clientRandom : Vector UInt8 32) (sniHostname : List UInt8)
    (hperm : extensions.Perm kDefaultExtensions) (hfit : sniHostname.length + 81 < 2 ^ 16) :
    wellFormedFor sniHostname (clientHelloBytes extensions clientRandom sniHostname) = false := by
  obtain ⟨order, horder, rfl⟩ := exists_order hperm
  have hmem : (⟨0x000D, [0, 0, 4, 1]⟩ : Extension) ∈ sniExtension sniHostname :: order := by
    apply List.mem_cons_of_mem
    rw [horder.mem_iff]
    decide
  have hbad : ¬ (sniExtension sniHostname :: order).all Extension.wellFormed = true := by
    intro hall
    have hsig := List.all_eq_true.mp hall _ hmem
    exact (wellFormed_iff_of_mem horder hfit hmem).mp hsig rfl
  rw [wellFormedFor, readClientHello_clientHelloBytes clientRandom horder hfit]
  simp [hbad]

/-- A client for the host `a.b` that may send. -/
def namedClient : Client := .init [97, 46, 98] Client.freshClient.tcp

theorem clientHello_three_byte_host :
    wellFormedFor [97, 46, 98]
      (clientHelloBytes kDefaultExtensions (.replicate 32 0) [97, 46, 98]) = false :=
  clientHello_not_wellFormed kDefaultExtensions _ _ (.refl _) (by decide)

/-- The bytes `send_client_hello` hashes for this client are the message of an ill-formed
ClientHello. -/
theorem clientHello_signature_algorithms_empty :
    ∃ c', Client.sendClientHello Client.sampleEnv namedClient = .ok () c' ∧
      c'.handshakeHash =
        (clientHelloBytes kDefaultExtensions.reverse c'.clientRandom [97, 46, 98]).drop 5 ∧
      wellFormedFor [97, 46, 98]
        (clientHelloBytes kDefaultExtensions.reverse c'.clientRandom [97, 46, 98]) = false := by
  have hsent : threw (Client.sendClientHello Client.sampleEnv namedClient) = false ∧
      (after (Client.sendClientHello Client.sampleEnv namedClient)).handshakeHash =
        (clientHelloBytes kDefaultExtensions.reverse (after (Client.sendClientHello
          Client.sampleEnv namedClient)).clientRandom [97, 46, 98]).drop 5 ∧
      wellFormedFor [97, 46, 98] (clientHelloBytes kDefaultExtensions.reverse (after
        (Client.sendClientHello Client.sampleEnv namedClient)).clientRandom [97, 46, 98]) =
          false := by decide +kernel
  exact ⟨_, Library.eq_ok_of_not_threw hsent.1, hsent.2.1, hsent.2.2⟩

end WsGateway.Network.Tls12
