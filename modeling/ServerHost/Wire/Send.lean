import ServerHost.Transport.WebSocket
import ServerHost.Wire.Frame

/-!
# Sending a message

`protocol::send` over a `WebSocket`, with and without binary frames negotiated, and
what the slots at the other end make of the payload.  The session of iiNetwork is a
parameter: it takes a payload, or names an error.
-/

namespace ServerHost

/-- `QString::fromUtf8`, of a text that is UTF-8. -/
def fromUtf8 (bytes : Bytes) : String := (String.fromUTF8? ⟨bytes.toArray⟩).getD ""

namespace Wire

/-! ## Sending -/

/-- A message of the WebSocket protocol. -/
inductive Payload where
  | text (text : String)
  | binary (frame : Bytes)

/-- Its size in bytes. -/
def Payload.size : Payload → ℕ
  | .text characters => characters.toUTF8.data.toList.length
  | .binary bytes => bytes.length

/-- A socket, as `send` finds it: its property `iish.binary` and its `bytesToWrite`. -/
structure Outlet where
  socket : WebSocket
  binary : Bool
  queued : ℕ

/-- What iiNetwork answers: the error with which the session refuses a payload. -/
structure Network where
  refusal : Payload → Option String
  world : WebSocket.World

/-- The socket after a call, and the payload the session took when the call succeeded. -/
structure Sent where
  socket : WebSocket
  payload : Option Payload

section
variable (network : Network) (outlet : Outlet)

/-- The sending functions of `WebSocket`, which differ in the kind of payload only. -/
def transmit (payload : Payload) : Sent :=
  if ¬ outlet.socket.session ∨ outlet.socket.state ≠ .connected then ⟨outlet.socket, none⟩
  else
    let failure :=
      if outlet.queued + payload.size > 4 * 1024 * 1024 then
        some "WebSocket output capacity exceeded"
      else network.refusal payload
    ⟨outlet.socket.send network.world failure, if failure.isSome then none else some payload⟩

/-- `sendTextMessage`. -/
def sendTextMessage (text : String) : Sent := transmit network outlet (.text text)

/-- `sendBinaryMessage`. -/
def sendBinaryMessage (frame : Bytes) : Sent := transmit network outlet (.binary frame)

/-- `send`. -/
def send (double : ℚ → List Char) (message : JsonObject) : Sent :=
  if outlet.socket.state ≠ .connected then ⟨outlet.socket, none⟩
  else
    let frame := if outlet.binary then BinaryFrame.encode double message else []
    if frame ≠ [] then
      if outlet.queued > 4 * wireLimit then ⟨outlet.socket.close network.world, none⟩
      else sendBinaryMessage network outlet frame
    else
      let bytes := toJson double message
      if bytes.length > wireLimit ∨ outlet.queued > 4 * wireLimit then
        ⟨outlet.socket.close network.world, none⟩
      else sendTextMessage network outlet (fromUtf8 bytes)

end

section
variable (fromJson : Bytes → Option JsonObject)

/-! ## Receiving -/

/-- `parse`. -/
def parse (text : String) : JsonObject := (fromJson text.toUTF8.data.toList).getD ⟨[]⟩

/-- What the slots of `textMessageReceived` and `binaryMessageReceived` obtain. -/
def receive : Payload → JsonObject
  | .text text => parse fromJson text
  | .binary frame => BinaryFrame.decode fromJson frame

end

/-! ## Both ways -/

theorem fromUtf8_utf8 (text : List Char) : fromUtf8 (utf8 text) = String.ofList text := by
  have hbytes : (⟨(utf8 text).toArray⟩ : ByteArray) = (String.ofList text).toUTF8 := rfl
  have hvalid : (String.ofList text).toUTF8.IsValidUTF8 := (String.ofList text).isValidUTF8
  rw [fromUtf8, hbytes, String.fromUTF8?, dif_pos hvalid]
  rfl

/-- The texts that are printed for a message: its own and those of its headers. -/
def printed (message : JsonObject) : List JsonObject :=
  message :: (List.range BinaryFrame.paths.length).map (BinaryFrame.header · message)

/-- The payload with which a message leaves, when it is not too large. -/
def payload (double : ℚ → List Char) (binary : Bool) (message : JsonObject) : Payload :=
  if binary ∧ BinaryFrame.encode double message ≠ [] then
    .binary (BinaryFrame.encode double message)
  else .text (String.ofList (message.json.write double))

/-- There is room for what may be sent. -/
def Room (double : ℚ → List Char) (queued : ℕ) (message : JsonObject) : Prop :=
  ∀ binary, (payload double binary message).size ≤ wireLimit →
    queued + (payload double binary message).size ≤ 4 * wireLimit

/-- The session takes every payload within its limit, `message_bytes`. -/
def Network.Takes (network : Network) : Prop :=
  ∀ payload : Payload, payload.size ≤ wireLimit → network.refusal payload = none

section
variable {double : ℚ → List Char} {network : Network} {socket : WebSocket} {queued : ℕ}
  {message : JsonObject}

/-- A payload is taken when the socket is connected and it is not too large. -/
theorem transmit_payload {binary : Bool} {own : Payload} (hsocket : socket.session = true)
    (hstate : socket.state = .connected) (htakes : network.Takes) (hsize : own.size ≤ wireLimit)
    (hroom : queued + own.size ≤ 4 * wireLimit) :
    (transmit network ⟨socket, binary, queued⟩ own).payload = some own := by
  have hlimit : ¬ queued + own.size > 4 * 1024 * 1024 := not_lt.2 hroom
  simp [transmit, hsocket, hstate, hlimit, htakes own hsize]

/-- **What `send` hands to the session.** -/
theorem send_payload (binary : Bool) (htakes : network.Takes) (hroom : Room double queued message)
    (h : message.Normal) : (send network ⟨socket, binary, queued⟩ double message).payload =
      if socket.session = true ∧ socket.state = .connected ∧
          (toJson double message).length ≤ wireLimit then some (payload double binary message)
      else none := by
  unfold send
  by_cases hstate : socket.state = .connected
  swap
  · simp [hstate]
  by_cases hsession : socket.session = true
  swap
  -- Without a session `transmit` hands nothing over, whatever it is given.
  · have hnone : ∀ own, (transmit network ⟨socket, binary, queued⟩ own).payload = none := by
      intro own
      simp [transmit, hsession]
    have hright : ¬ (socket.session = true ∧ socket.state = .connected ∧
        (toJson double message).length ≤ wireLimit) := fun hall => hsession hall.1
    rw [if_neg (not_not.2 hstate), if_neg hright]
    dsimp only
    generalize (if binary then BinaryFrame.encode double message else []) = frame
    split_ifs
    · rfl
    · exact hnone _
    · rfl
    · exact hnone _
  rw [if_neg (not_not.2 hstate)]
  -- Where the queue has room for the payload, its bound of four limits is not passed.
  have hqueue : (payload double binary message).size ≤ wireLimit → ¬ queued > 4 * wireLimit := by
    intro hsize
    have := hroom binary hsize
    omega
  by_cases hframe : binary = true ∧ BinaryFrame.encode double message ≠ []
  · -- A frame is below its own limits, and so is the text.
    have hpayload : payload double binary message =
        .binary (BinaryFrame.encode double message) := if_pos hframe
    have hsize : (payload double binary message).size ≤ wireLimit := by
      rw [hpayload]
      exact (BinaryFrame.encode_length hframe.2).trans (by decide)
    have hroom := hroom binary hsize
    have htext := BinaryFrame.toJson_length_le h hframe.2
    dsimp only
    rw [if_pos hframe.1, if_pos hframe.2, if_neg (hqueue hsize), if_pos ⟨hsession, hstate, htext⟩]
    rw [hpayload] at hsize hroom ⊢
    exact transmit_payload hsession hstate htakes hsize hroom
  · have hpayload : payload double binary message =
        .text (String.ofList (message.json.write double)) := if_neg hframe
    have hnone : (if binary then BinaryFrame.encode double message else []) = [] := by
      cases binary with
      | true => simpa using hframe
      | false => rfl
    dsimp only
    rw [hnone, if_neg (not_not.2 rfl)]
    by_cases htext : (toJson double message).length ≤ wireLimit
    · have hsize : (payload double binary message).size ≤ wireLimit := by
        rw [hpayload]
        exact htext
      have hroom := hroom binary hsize
      rw [if_neg (not_or.2 ⟨not_lt.2 htext, hqueue hsize⟩), if_pos ⟨hsession, hstate, htext⟩]
      rw [hpayload] at hsize hroom ⊢
      rw [toJson, fromUtf8_utf8]
      exact transmit_payload hsession hstate htakes hsize hroom
    · rw [if_pos (.inl (not_le.1 htext)), if_neg fun hall => htext hall.2.2]

/-- The other end obtains the message, whichever way it went. -/
theorem receive_payload {fromJson : Bytes → Option JsonObject} (binary : Bool) (h : message.Normal)
    (hlossless : ∀ object ∈ printed message, fromJson (toJson double object) = some object) :
    receive fromJson (payload double binary message) = message := by
  unfold payload
  split
  · next hframe =>
      refine BinaryFrame.decode_encode h (fun number hnumber => ?_) hframe.2
      refine hlossless _ (List.mem_cons_of_mem _ (List.mem_map_of_mem ?_))
      exact List.mem_range.2 hnumber
  · have hown : fromJson (toJson double message) = some message :=
      hlossless message List.mem_cons_self
    change (fromJson (toJson double message)).getD ⟨[]⟩ = message
    rw [hown]
    rfl

/-- **Binary framing is transparent.**  A frame decodes to its message and is small; a
message is sent with binary negotiated exactly when it is sent without, which is when the
socket is connected and the text of the message is within the limit, and the other end
obtains that message. -/
theorem send_transparent {fromJson : Bytes → Option JsonObject} (h : message.Normal)
    (hlossless : ∀ object ∈ printed message, fromJson (toJson double object) = some object)
    (htakes : network.Takes) (hroom : Room double queued message) :
    (BinaryFrame.encode double message = [] ∨
      BinaryFrame.decode fromJson (BinaryFrame.encode double message) = message ∧
      (BinaryFrame.encode double message).length ≤ 8 + 64 * 1024 + 256 * 1024) ∧
    ((send network ⟨socket, true, queued⟩ double message).payload.isSome ↔
      (send network ⟨socket, false, queued⟩ double message).payload.isSome) ∧
    (∀ binary, (send network ⟨socket, binary, queued⟩ double message).payload.isSome ↔
      socket.session = true ∧ socket.state = .connected ∧
        (toJson double message).length ≤ wireLimit) ∧
    ∀ binary, ∀ sent ∈ (send network ⟨socket, binary, queued⟩ double message).payload,
      receive fromJson sent = message := by
  refine ⟨?_, ?_, fun binary => ?_, fun binary sent hsent => ?_⟩
  · rw [or_iff_not_imp_left]
    intro hne
    refine ⟨BinaryFrame.decode_encode h (fun number hnumber => ?_) hne,
      BinaryFrame.encode_length hne⟩
    refine hlossless _ (List.mem_cons_of_mem _ (List.mem_map_of_mem ?_))
    exact List.mem_range.2 hnumber
  · rw [send_payload true htakes hroom h, send_payload false htakes hroom h]
    split <;> rfl
  · rw [send_payload binary htakes hroom h]
    split
    · next hall => exact iff_of_true rfl hall
    · next hall => exact iff_of_false Bool.false_ne_true hall
  · rw [send_payload binary htakes hroom h] at hsent
    split at hsent
    · rw [← Option.some.inj hsent]
      exact receive_payload binary h hlossless
    · cases hsent

end

/-- A message with one byte of file data. -/
def chunk : JsonObject := ⟨[("result", .object [("data", .string "AA==")])]⟩

/-- How small whole numbers are printed. -/
def digits (value : ℚ) : List Char := (number value.num).toList

/-- A reader of the texts that are printed for this message. -/
def readBack (bytes : Bytes) : Option JsonObject :=
  (printed chunk).find? fun object => toJson digits object = bytes

/-- A session that takes every payload. -/
def Network.sample : Network := ⟨fun _ => none, ⟨false, none, none, .ok []⟩⟩

/-- A socket in the middle of its life. -/
def openSocket : WebSocket := { session := true, state := .connected }

theorem send_transparent_chunk :
    (BinaryFrame.encode digits chunk).length = 43 ∧
    (∀ binary, (send .sample ⟨openSocket, binary, 0⟩ digits chunk).payload.isSome) ∧
    (BinaryFrame.encode digits chunk = [] ∨
      BinaryFrame.decode readBack (BinaryFrame.encode digits chunk) = chunk ∧
      (BinaryFrame.encode digits chunk).length ≤ 8 + 64 * 1024 + 256 * 1024) ∧
    ((send .sample ⟨openSocket, true, 0⟩ digits chunk).payload.isSome ↔
      (send .sample ⟨openSocket, false, 0⟩ digits chunk).payload.isSome) ∧
    (∀ binary, (send .sample ⟨openSocket, binary, 0⟩ digits chunk).payload.isSome ↔
      openSocket.session = true ∧ openSocket.state = .connected ∧
        (toJson digits chunk).length ≤ wireLimit) ∧
    ∀ binary, ∀ sent ∈ (send .sample ⟨openSocket, binary, 0⟩ digits chunk).payload,
      receive readBack sent = chunk := by
  refine ⟨by decide +kernel, by decide +kernel, send_transparent ?_ ?_ (fun _ _ => rfl) ?_⟩
  · have hdata : (Json.object [("data", .string "AA==")]).Normal :=
      .object (List.pairwise_singleton ..) fun field hfield => by
        rw [List.mem_singleton.1 hfield]
        exact .string _
    exact .object (List.pairwise_singleton ..) fun field hfield => by
      rw [List.mem_singleton.1 hfield]
      exact hdata
  · -- The four texts are different, so a text has one reading.
    have hdistinct : ((printed chunk).map (toJson digits)).Nodup := by decide +kernel
    intro object hobject
    obtain ⟨found, hfound⟩ : ∃ found, readBack (toJson digits object) = some found :=
      Option.isSome_iff_exists.1 (List.find?_isSome.2 ⟨object, hobject, decide_eq_true rfl⟩)
    have hmatch : decide (toJson digits found = toJson digits object) = true :=
      List.find?_some (p := fun found => decide (toJson digits found = toJson digits object)) hfound
    have hsame := of_decide_eq_true hmatch
    rw [hfound, List.inj_on_of_nodup_map hdistinct (List.mem_of_find?_eq_some hfound) hobject hsame]
  · intro binary hsize
    have hsmall : ∀ binary, (payload digits binary chunk).size ≤ 4 * wireLimit := by decide +kernel
    rw [Nat.zero_add]
    exact hsmall binary

end Wire

end ServerHost
