import WsGateway.Verify.Base.Search
import WsGateway.Verify.Tls12.Keys
import WsGateway.Verify.Wss.Messages

/-!
# The upgrade

`accept_handshake` looks for the status line and for the end of the header
anywhere in the buffer, so it accepts any response that has both texts in it,
whatever its own status is.
-/

namespace WsGateway.Network.Wss

open Library

/-! ## Searching -/

/-- The first position at which the pattern stands in the text. -/
def FirstAt (pattern text : List UInt8) (i : Nat) : Prop :=
  pattern <+: text.drop i ∧ ∀ j < i, ¬ pattern <+: text.drop j

section Search

variable {pattern : List UInt8}

theorem search_found {s : Stream} (hascii : Stream.IsAscii pattern) (hne : pattern ≠ [])
    (h : pattern <:+: s.content) :
    ∃ i, s.search pattern = some i ∧ FirstAt pattern s.content i := by
  obtain ⟨t, hstarts, hends⟩ := List.infix_iff_prefix_suffix.mp h
  rw [List.suffix_iff_eq_drop.mp hends] at hstarts
  have hlt := Stream.stdSearch_lt hascii hne hstarts
  rw [Stream.length_content] at hlt
  have hsearch := Stream.search_eq_some.mpr ⟨rfl, hlt⟩
  exact ⟨_, hsearch, (Stream.search_some hsearch).2⟩

theorem search_missing {s : Stream} (h : ¬ pattern <:+: s.content) : s.search pattern = none := by
  refine Option.eq_none_iff_forall_ne_some.mpr fun i hi => h ?_
  obtain ⟨-, hstarts, -⟩ := Stream.search_some hi
  exact hstarts.isInfix.trans (List.drop_suffix i s.content).isInfix

end Search

/-! ## The response -/

namespace Client

def statusLine : List UInt8 := ascii "HTTP/1.1 101"

def headerEnd : List UInt8 := ascii "\r\n\r\n"

/-- `accept_handshake` is true exactly on a complete 101 response, and leaves what follows its
header. -/
def Recognises (c : Client) : Prop :=
  (statusLine <+: c.stream.content ∧ headerEnd <:+: c.stream.content →
      ∃ i c', FirstAt headerEnd c.stream.content i ∧ acceptHandshake c = .ok true c' ∧
        c'.stream.content = c.stream.content.drop (i + 4)) ∧
    (¬ (statusLine <+: c.stream.content ∧ headerEnd <:+: c.stream.content) →
      acceptHandshake c = .ok false c)

section Accept

variable {c : Client}

theorem FirstAt.le {pattern text : List UInt8} {i : Nat} (h : FirstAt pattern text i)
    (hne : pattern ≠ []) : i + pattern.length ≤ text.length := by
  have hlen := h.1.length_le
  have hpos : 0 < pattern.length := List.length_pos_iff.mpr hne
  rw [List.length_drop] at hlen
  omega

/-- What is accepted has both texts in it. -/
theorem acceptHandshake_true (hstate : c.state = .HttpHandshake)
    (hstatus : statusLine <:+: c.stream.content) (hend : headerEnd <:+: c.stream.content) :
    ∃ i s, FirstAt headerEnd c.stream.content i ∧ s.content = c.stream.content.drop (i + 4) ∧
      s.capacity = c.stream.capacity ∧ acceptHandshake c = .ok true { c with stream := s } := by
  obtain ⟨k, hk, -⟩ := search_found (by decide) (by decide) hstatus
  obtain ⟨i, hi, hfirst⟩ := search_found (by decide) (by decide) hend
  have hle : i + 4 ≤ c.stream.size := by
    have hle := FirstAt.le hfirst (by decide)
    rw [Stream.length_content] at hle
    exact hle
  refine ⟨i, c.stream.advance (i + 4) hle, hfirst, c.stream.content_advance hle, by simp, ?_⟩
  have hpop : onStream (Stream.pop (i + 4)) c = .ok (some (c.stream.content.take (i + 4)))
      { c with stream := c.stream.advance (i + 4) hle } := zoom_of_ok (c.stream.pop_of_le hle)
  unfold statusLine at hk
  unfold headerEnd at hi
  rw [acceptHandshake, bind_of_ok (get_apply c), require_bind, if_pos (by simpa using hstate), hk]
  dsimp only
  rw [hi]
  dsimp only
  rw [bind_of_ok hpop]
  rfl

theorem acceptHandshake_false (hstate : c.state = .HttpHandshake)
    (h : ¬ (statusLine <:+: c.stream.content ∧ headerEnd <:+: c.stream.content)) :
    acceptHandshake c = .ok false c := by
  rw [acceptHandshake, bind_of_ok (get_apply c), require_bind, if_pos (by simpa using hstate)]
  by_cases hstatus : statusLine <:+: c.stream.content
  · obtain ⟨k, hk, -⟩ := search_found (by decide) (by decide) hstatus
    have hnone := @search_missing headerEnd c.stream fun hend => h ⟨hstatus, hend⟩
    unfold statusLine at hk
    unfold headerEnd at hnone
    rw [hk]
    dsimp only
    rw [hnone]
    rfl
  · have hnone := @search_missing statusLine c.stream hstatus
    unfold statusLine at hnone
    rw [hnone]
    rfl

/-- **The response**: `accept_handshake` recognises a 101 response exactly if the buffer does not
have the status line somewhere else, with a header end. -/
theorem recognises_iff (c : Client) (hstate : c.state = .HttpHandshake) :
    Recognises c ↔
      (statusLine <:+: c.stream.content → headerEnd <:+: c.stream.content →
        statusLine <+: c.stream.content) := by
  constructor
  · rintro ⟨-, hrejects⟩ hstatus hend
    by_contra hno
    obtain ⟨i, s, -, -, -, htrue⟩ := acceptHandshake_true hstate hstatus hend
    have hfalse := hrejects fun h => hno h.1
    rw [htrue] at hfalse
    cases hfalse
  · intro hstart
    constructor
    · rintro ⟨hstatus, hend⟩
      obtain ⟨i, s, hfirst, hs, -, htrue⟩ := acceptHandshake_true hstate hstatus.isInfix hend
      exact ⟨i, _, hfirst, htrue, hs⟩
    · intro hno
      exact acceptHandshake_false hstate fun h => hno ⟨hstart h.1 h.2, h.2⟩

end Accept

/-- A client that waits for the response and has received these bytes. -/
def requestingClient (bytes : List UInt8) : Client where
  tls := Tls12.Client.handshakenClient
  stream := filledStream bytes
  state := .HttpHandshake
  config := ⟨[], []⟩

theorem recognises_switching : Recognises (requestingClient (ascii "HTTP/1.1 101 \r\n\r\n")) :=
  (recognises_iff _ rfl).mpr fun _ _ => by
    change statusLine <+: (filledStream _).content
    rw [content_filledStream (by decide +kernel)]
    decide +kernel

/-- A response with another status is accepted for a text in its header. -/
theorem not_found_accepted :
    ∃ c', acceptHandshake (requestingClient
        (ascii "HTTP/1.1 404 Not Found\r\nX: HTTP/1.1 101\r\n\r\n")) = .ok true c' ∧
      ¬ statusLine <+: (requestingClient
        (ascii "HTTP/1.1 404 Not Found\r\nX: HTTP/1.1 101\r\n\r\n")).stream.content := by
  have hcontent : (requestingClient
      (ascii "HTTP/1.1 404 Not Found\r\nX: HTTP/1.1 101\r\n\r\n")).stream.content =
      ascii "HTTP/1.1 404 Not Found\r\nX: HTTP/1.1 101\r\n\r\n" :=
    content_filledStream (by decide +kernel)
  obtain ⟨i, s, -, -, -, htrue⟩ := @acceptHandshake_true (requestingClient
    (ascii "HTTP/1.1 404 Not Found\r\nX: HTTP/1.1 101\r\n\r\n")) rfl
    (by rw [hcontent]; decide +kernel) (by rw [hcontent]; decide +kernel)
  exact ⟨_, htrue, by rw [hcontent]; decide +kernel⟩

end Client

end WsGateway.Network.Wss
