import ServerHost.Relay.Directory

/-!
# The descriptor of a host

A registration limits the name and the metadata it reads with `toString` and `toObject`,
and stores the two values as they came.  The local URLs and the fingerprint are stored
as they were read, so the limits hold of them.

## Strategy

The values that are stored are read back one field at a time.  The URLs are those that
the loop over `localUrls` keeps (`localUrls_limited`); the name and the metadata are the
values of the message (`descriptorOf_name`, `descriptorOf_metadata`), so they obey the
limits exactly when they have the type that was checked (`limited_iff`).
-/

namespace ServerHost

namespace RelayServer

variable (platform : Platform)

/-! ## The limits -/

/-- A URL that a host may publish. -/
structure LocalUrl (fingerprint : String) (url : Url) : Prop where
  parsed : ∃ source, url = platform.url source
  valid : url.valid = true
  numeric : (platform.address url.host).isSome = true
  safe : (url.scheme = "wss" ∧ hexToken fingerprint = true) ∨
    (url.scheme = "ws" ∧ loopback platform url.host = true)

/-- The limits of a registration, of the descriptor it leaves. -/
structure LimitedDescriptor (descriptor : JsonObject) : Prop where
  name : ∃ text, descriptor.value "name" = .string text ∧ size text ≤ 128
  metadata : ∃ fields, descriptor.value "metadata" = .object fields ∧
    platform.jsonSize ⟨fields⟩ ≤ 8192
  localUrls : ∃ urls : List Url,
    descriptor.value "localUrls" = .array (urls.map fun url => .string url.text) ∧
      urls.length ≤ 16 ∧
      ∀ url ∈ urls, LocalUrl platform (descriptor.value "fingerprint").toString url

/-- The descriptors in a message, with the sessions they are of. -/
def Outgoing.published : Outgoing → List (Socket × JsonObject)
  | peers entries => entries
  | connect host _ _ descriptor _ => [(host, descriptor)]
  | _ => []

/-- What was sent in between says `descriptor` of `socket`, or nothing. -/
def Publishes (socket : Socket) (descriptor : JsonObject) (first second : RelayServer) : Prop :=
  ∃ news, second.log = news ++ first.log ∧ ∀ entry ∈ news, ∀ other message,
    entry.event = .sent other message → ∀ listed ∈ message.published,
      listed.1 = socket → listed.2 = descriptor

variable {platform}
variable {relay first second third : RelayServer} {socket : Socket} {descriptor : JsonObject}
variable {full : Socket → Outgoing → Bool}

/-! ## The fields that are stored -/

/-- The loop over `localUrls` keeps at most sixteen safe URLs. -/
theorem localUrls_limited (platform : Platform) (fingerprint : String) (values : List Json) :
    ∃ urls : List Url, localUrls platform fingerprint values = urls.map Url.text ∧
      urls.length ≤ 16 ∧ ∀ url ∈ urls, LocalUrl platform fingerprint url := by
  refine values.foldlRecOn _ (motive := fun texts => ∃ urls : List Url,
    texts = urls.map Url.text ∧ urls.length ≤ 16 ∧ ∀ url ∈ urls, LocalUrl platform fingerprint url)
    ⟨[], rfl, by simp, by simp⟩ ?_
  rintro texts ⟨urls, rfl, hlength, hsafe⟩ value -
  dsimp only
  split
  · next hkept =>
      simp only [Bool.and_eq_true, Bool.or_eq_true, decide_eq_true_eq, List.length_map] at hkept
      obtain ⟨⟨⟨hroom, hendpoint⟩, hnumeric⟩, hpinned⟩ := hkept
      simp only [endpoint, Bool.and_eq_true, Bool.or_eq_true, decide_eq_true_eq] at hendpoint
      obtain ⟨⟨⟨⟨⟨⟨hvalid, -⟩, -⟩, -⟩, -⟩, -⟩, hscheme⟩ := hendpoint
      refine ⟨urls ++ [platform.url value.toString], by simp, by simp; omega, ?_⟩
      intro url hurl
      rcases List.mem_append.1 hurl with hold | hnew
      · exact hsafe url hold
      · obtain rfl := List.mem_singleton.1 hnew
        refine ⟨⟨_, rfl⟩, hvalid, hnumeric, ?_⟩
        -- A URL that is not ws got here with a fingerprint.
        rcases hscheme with hwss | hws
        · refine .inl ⟨hwss, hpinned.resolve_left ?_⟩
          rw [hwss]
          decide
        · exact .inr hws
  · exact ⟨urls, rfl, hlength, hsafe⟩

section
variable {id service : String} {message : JsonObject}
  (hhost : (message.value "host").toBool = true)
include hhost

theorem descriptorOf_name :
    (descriptorOf platform id service message).value "name" = message.value "name" := by
  rw [descriptorOf, if_pos hhost]
  cases message.value "name" <;> cases message.value "metadata" <;> rfl

theorem descriptorOf_metadata :
    (descriptorOf platform id service message).value "metadata" = message.value "metadata" := by
  rw [descriptorOf, if_pos hhost]
  cases message.value "name" <;> cases message.value "metadata" <;> rfl

theorem descriptorOf_localUrls :
    (descriptorOf platform id service message).value "localUrls" =
      .array ((localUrls platform (message.value "fingerprint").toString
        (message.value "localUrls").toArray).map .string) := by
  rw [descriptorOf, if_pos hhost]
  cases message.value "name" <;> cases message.value "metadata" <;> rfl

theorem descriptorOf_fingerprint :
    (descriptorOf platform id service message).value "fingerprint" =
      .string (message.value "fingerprint").toString := by
  rw [descriptorOf, if_pos hhost]
  cases message.value "name" <;> cases message.value "metadata" <;> rfl

theorem descriptorOf_isEmpty : (descriptorOf platform id service message).isEmpty = false := by
  rw [descriptorOf, if_pos hhost]
  rfl

/-- The descriptor is limited when the values have the types that were checked. -/
theorem limited_iff (hname : size (message.value "name").toString ≤ 128)
    (hmetadata : platform.jsonSize (message.value "metadata").toObject ≤ 8192) :
    LimitedDescriptor platform (descriptorOf platform id service message) ↔
      (message.value "name").isString = true ∧ (message.value "metadata").isObject = true := by
  constructor
  · intro h
    obtain ⟨text, htext, -⟩ := h.name
    obtain ⟨fields, hfields, -⟩ := h.metadata
    rw [descriptorOf_name hhost] at htext
    rw [descriptorOf_metadata hhost] at hfields
    rw [htext, hfields]
    exact ⟨rfl, rfl⟩
  · rintro ⟨hstring, hobject⟩
    refine ⟨⟨(message.value "name").toString, ?_, hname⟩, ?_, ?_⟩
    · rw [descriptorOf_name hhost]
      exact Json.eq_string_of_isString hstring
    · rw [descriptorOf_metadata hhost]
      cases hvalue : message.value "metadata" with
      | object fields =>
          rw [hvalue] at hmetadata
          exact ⟨fields, rfl, hmetadata⟩
      | _ =>
          rw [hvalue] at hobject
          cases hobject
    -- the URLs and the fingerprint are brought into their limits, whatever is sent
    · obtain ⟨urls, hurls, hlength, hsafe⟩ := localUrls_limited platform
        (message.value "fingerprint").toString (message.value "localUrls").toArray
      refine ⟨urls, ?_, hlength, ?_⟩
      · rw [descriptorOf_localUrls hhost, hurls, List.map_map]
        rfl
      · rw [descriptorOf_fingerprint hhost]
        exact hsafe

end

/-! ## What is sent about it -/

theorem Publishes.refl : Publishes socket descriptor relay relay := ⟨[], rfl, by simp⟩

theorem Publishes.trans (h : Publishes socket descriptor first second)
    (h' : Publishes socket descriptor second third) : Publishes socket descriptor first third := by
  obtain ⟨news, hlog, hnews⟩ := h
  obtain ⟨later, hlog', hlater⟩ := h'
  refine ⟨later ++ news, by rw [hlog', hlog, List.append_assoc], fun entry hentry => ?_⟩
  rcases List.mem_append.1 hentry with hmem | hmem
  · exact hlater entry hmem
  · exact hnews entry hmem

theorem Publishes.transmit {other : Socket} {message : Outgoing}
    (h : ∀ listed ∈ message.published, listed.1 = socket → listed.2 = descriptor) :
    Publishes socket descriptor relay (RelayServer.transmit full other message relay) := by
  unfold RelayServer.transmit
  by_cases hgone : other ∈ relay.closing ∨ other ∈ relay.deleted
  · rw [if_pos hgone]
    exact .refl
  rw [if_neg hgone]
  by_cases hfull : full other message = true
  · rw [if_pos hfull]
    refine ⟨[⟨relay.now, .closed other⟩], rfl, ?_⟩
    simp
  · rw [if_neg hfull]
    refine ⟨[⟨relay.now, .sent other message⟩], rfl, ?_⟩
    intro entry hentry own sent hsent
    obtain rfl := List.mem_singleton.1 hentry
    cases hsent
    exact h

/-- The directory lists the descriptors that are stored. -/
theorem directory_publishes (hstored : (relay.session socket).descriptor = descriptor)
    (other : Socket) :
    Publishes socket descriptor relay (relay.directory (RelayServer.transmit full) other) := by
  rw [directory_eq]
  by_cases hout : ¬ relay.active other = true ∨ (relay.session other).id = ""
  · rw [if_pos hout]
    exact .refl
  · rw [if_neg hout]
    refine .transmit fun listed hlisted howner => ?_
    obtain ⟨entry, hentry, rfl⟩ := List.mem_map.1 hlisted
    have hlookup := Table.lookup_of_mem_entries (List.mem_of_mem_filter hentry)
    rw [← hstored, ← howner, session_of_lookup hlookup]

theorem changed_publishes (hstored : (relay.session socket).descriptor = descriptor) :
    Publishes socket descriptor relay (relay.changed (RelayServer.transmit full)) := by
  have hboth : Publishes socket descriptor relay (relay.changed (RelayServer.transmit full)) ∧
      (relay.changed (RelayServer.transmit full)).sessions = relay.sessions := by
    refine relay.sessions.keys.foldlRecOn _ (motive := fun current =>
      Publishes socket descriptor relay current ∧ current.sessions = relay.sessions)
      ⟨.refl, rfl⟩ ?_
    rintro current ⟨hpublishes, hsessions⟩ other -
    refine ⟨hpublishes.trans (directory_publishes ?_ other), ?_⟩
    · rw [RelayServer.session, hsessions]
      exact hstored
    · rw [directory_sessions, hsessions]
  exact hboth.1

/-- A registration that is stored went through every guard of `message`. -/
theorem message_registers (full : Socket → Outgoing → Bool) {message : JsonObject}
    (h : relay.registers platform socket message = true) :
    (∃ state, relay.sessions.lookup socket = some state) ∧
    relay.message platform (RelayServer.transmit full) socket message =
      relay.registerMessage platform (RelayServer.transmit full) socket message := by
  simp only [registers, Bool.and_eq_true, decide_eq_true_eq] at h
  have hactive : relay.active socket = true := h.1.1.1.1.1.1.1.1
  have htype : messageType message = "register" := h.1.1.1.1.1.1.1.2
  obtain ⟨state, hstate, -⟩ := active_iff.1 hactive
  refine ⟨⟨state, hstate⟩, ?_⟩
  unfold RelayServer.message
  dsimp only
  rw [if_neg (not_not.2 (Table.mem_of_lookup hstate)), htype, if_neg (by decide),
    if_neg (not_not.2 hactive), if_pos rfl]

/-! ## What is stored and sent -/

/-- **What a registration stores and publishes.**  The descriptor of an accepted host
obeys the limits if and only if its name is a string and its metadata an object. -/
theorem register_limited_iff {message : JsonObject}
    (h : relay.registers platform socket message = true)
    (hhost : (message.value "host").toBool = true) (full : Socket → Outgoing → Bool) :
    ∃ session, (relay.message platform (transmit full) socket message).sessions.lookup socket =
        some session ∧
      Publishes socket session.descriptor relay
        (relay.message platform (transmit full) socket message) ∧
      (LimitedDescriptor platform session.descriptor ↔
        (message.value "name").isString = true ∧ (message.value "metadata").isObject = true) := by
  obtain ⟨⟨state, hstate⟩, hmessage⟩ := message_registers full h
  -- after the registration only the directory goes out, which stores nothing
  have hstored : ∀ current : RelayServer, current.sessions =
      Table.modify socket (Session.registered platform message) relay.sessions →
      current.sessions.lookup socket = some (state.registered platform message) := by
    intro current hsessions
    rw [hsessions, Table.lookup_modify, if_pos rfl, hstate, Option.map_some]
  refine ⟨state.registered platform message, ?_, ?_, ?_⟩
  · rw [hmessage]
    exact hstored _ (registerMessage_stores full h).2
  · rw [hmessage, registerMessage_eq h, if_neg]
    · have hrecorded : Publishes socket (state.registered platform message).descriptor relay
          (relay.recorded platform socket message) := by
        refine ⟨[⟨relay.now, .registered socket (message.value "peerId").toString
          (message.value "service").toString⟩], rfl, ?_⟩
        simp
      have hanswered : Publishes socket (state.registered platform message).descriptor
          (relay.recorded platform socket message)
          (RelayServer.transmit full socket .registered (relay.recorded platform socket message)) :=
        .transmit fun listed hlisted => absurd hlisted List.not_mem_nil
      refine hrecorded.trans (hanswered.trans ?_)
      refine changed_publishes (congrArg Session.descriptor (session_of_lookup (hstored _ ?_)))
      rw [transmit_sessions]
      rfl
    · rw [Session.registered, descriptorOf_isEmpty hhost]
      simp
  · simp only [registers, Bool.and_eq_true, decide_eq_true_eq] at h
    exact limited_iff hhost h.1.1.1.1.2 h.1.1.1.2

/-- The registration of a host with this name and these metadata. -/
def entry (name metadata : Json) : JsonObject :=
  .ofList [("type", .string "register"), ("peerId", .string "h"), ("service", .string "s"),
    ("host", .bool true), ("name", name), ("metadata", metadata)]

/-- An honest host. -/
theorem register_limited_honest : ∃ session,
    (joined.message .sample (transmit fun _ _ => false) 0
      (entry (.string "n") (.object []))).sessions.lookup 0 = some session ∧
    Publishes 0 session.descriptor joined
      (joined.message .sample (transmit fun _ _ => false) 0 (entry (.string "n") (.object []))) ∧
    LimitedDescriptor .sample session.descriptor := by
  have hregisters : joined.registers .sample 0 (entry (.string "n") (.object [])) = true := by
    decide +kernel
  have hhost : ((entry (.string "n") (.object [])).value "host").toBool = true := rfl
  obtain ⟨session, hlookup, hpublishes, hlimited⟩ :=
    register_limited_iff hregisters hhost fun _ _ => false
  exact ⟨session, hlookup, hpublishes, hlimited.2 ⟨rfl, rfl⟩⟩

/-- A list for a name and a text for metadata are stored, and sent to the other member. -/
theorem not_limited_register : ∃ descriptor : JsonObject,
    (∃ trace, (machine .sample).Run Feasible trace joined) ∧
    joined.registers .sample 0 (entry (.array []) (.string "m")) = true ∧
    ((joined.message .sample (transmit fun _ _ => false) 0
      (entry (.array []) (.string "m"))).session 0).descriptor = descriptor ∧
    ⟨0, .sent 1 (.peers [(0, descriptor)])⟩ ∈ (joined.message .sample (transmit fun _ _ => false) 0
      (entry (.array []) (.string "m"))).log ∧
    ¬ LimitedDescriptor .sample descriptor := by
  have hstart : (machine .sample).Run Feasible [] { now := 0 } := .start ⟨0, rfl⟩
  have hhost : ((entry (.array []) (.string "m")).value "host").toBool = true := rfl
  refine ⟨descriptorOf .sample "h" "s" (entry (.array []) (.string "m")),
    hstart.extend joining ⟨trivial, trivial, trivial, trivial, trivial, trivial, trivial, trivial⟩,
    by decide +kernel, rfl, .tail _ (.head _), fun hlimited => ?_⟩
  obtain ⟨text, htext, -⟩ := hlimited.name
  rw [descriptorOf_name hhost] at htext
  cases htext

end RelayServer

end ServerHost
