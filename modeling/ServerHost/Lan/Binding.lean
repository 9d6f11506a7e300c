import ServerHost.Lan.Link
import ServerHost.Wire.Envelopes

/-!
# What a proof and a code are bound to

An account proof signs the bytes of a role, a line feed and the context of a pairing; the
code that two people compare is cut from the digest of a text.  Neither can be read in two
ways.  The context is JSON, in which no line feed is left, so the role ends at the last
one; and three of the four fields of the text have sixty-four characters, so that the
colons of the fourth do no harm.
-/

namespace ServerHost

/-! ## The bytes of a text -/

theorem byteArray_toList_loop (bytes : ByteArray) (index : ℕ) (seen : List UInt8) :
    ByteArray.toList.loop bytes index seen = seen.reverse ++ bytes.data.toList.drop index := by
  induction hleft : bytes.size - index generalizing index seen with
  | zero =>
      have hend : bytes.data.toList.drop index = [] := by
        apply List.drop_eq_nil_of_le
        rw [Array.length_toList, ByteArray.size_data]
        omega
      rw [ByteArray.toList.loop, if_neg (by omega), hend, List.append_nil]
  | succ left ih =>
      have hlt : index < bytes.data.toList.length := by
        rw [Array.length_toList, ByteArray.size_data]
        omega
      have hget : bytes.get! index = bytes.data.toList[index] := getElem!_pos bytes.data index hlt
      rw [ByteArray.toList.loop, if_pos (by omega), ih (index + 1) _ (by omega),
        List.drop_eq_getElem_cons hlt, hget, List.reverse_cons, List.append_assoc,
        List.singleton_append]

theorem toUtf8_injective : Function.Injective toUtf8 := by
  intro first second h
  have hbytes : first.toUTF8.toList = second.toUTF8.toList :=
    List.map_injective_iff.2 (fun _ _ => UInt8.toNat_inj.1) h
  have hdata : ∀ bytes : ByteArray, bytes.toList = bytes.data.toList := by
    intro bytes
    rw [ByteArray.toList, byteArray_toList_loop]
    rfl
  rw [hdata, hdata] at hbytes
  exact String.toByteArray_inj.1 (ByteArray.ext (Array.toList_inj.1 hbytes))

/-- Texts are the same when they are the same up to the last separator and behind it. -/
theorem append_last_inj {α : Type*} {sep : α} {before after before' after' : List α}
    (hafter : sep ∉ after) (hafter' : sep ∉ after')
    (h : before ++ sep :: after = before' ++ sep :: after') :
    before = before' ∧ after = after' := by
  rcases List.append_eq_append_iff.1 h with ⟨middle, rfl, hmiddle⟩ | ⟨middle, rfl, hmiddle⟩
  · cases middle with
    | nil => exact ⟨(List.append_nil _).symm, (List.cons.inj hmiddle).2⟩
    | cons c rest =>
        rw [(List.cons.inj hmiddle).2] at hafter
        exact absurd (List.mem_append_right _ List.mem_cons_self) hafter
  · cases middle with
    | nil => exact ⟨List.append_nil _, (List.cons.inj hmiddle).2.symm⟩
    | cons c rest =>
        rw [(List.cons.inj hmiddle).2] at hafter'
        exact absurd (List.mem_append_right _ List.mem_cons_self) hafter'

namespace LanLink

variable {platform : Platform} {double : ℚ → List Char}

/-! ## The text that is signed -/

/-- The text that `verification` hashes. -/
def verificationText (link : LanLink) (peerId nonce : String) : String :=
  link.fingerprint ++ ":" ++ link.code ++ ":" ++ peerId ++ ":" ++ nonce

/-- How `verification` shows a digest. -/
def shown (sha256 : String) : String :=
  let digest := (sha256.toList.take 12).map Char.toUpper
  String.ofList (digest.take 4 ++ '-' :: (digest.drop 4).take 4 ++ '-' :: (digest.drop 8).take 4)

/-- A code depends on the digest of that text alone. -/
theorem verification_eq (platform : Platform) (link : LanLink) (peerId nonce : String) :
    link.verification platform peerId nonce =
      shown (platform.sha256 (toUtf8 (link.verificationText peerId nonce))) := rfl

/-- The signed bytes of a role in a context. -/
def signedBytes (platform : Platform) (role : String) (link : LanLink) (peer nonce : String) :
    List ℕ :=
  toUtf8 (role ++ "\n" ++ link.authenticationContext platform peer nonce)

/-- **Signed bytes bind the role and the whole context.** -/
theorem signedBytes_inj (hprints : platform.Prints double) {role role' : String}
    {link link' : LanLink} {peer peer' nonce nonce' : String}
    (h : signedBytes platform role link peer nonce =
      signedBytes platform role' link' peer' nonce') :
    role = role' ∧ link.hostId = link'.hostId ∧ peer = peer' ∧
      link.fingerprint = link'.fingerprint ∧ link.code = link'.code ∧ nonce = nonce' := by
  have hcontext : ∀ (link : LanLink) (peer nonce : String),
      (link.authenticationContext platform peer nonce).toList =
        (strings [link.hostId, peer, link.fingerprint, link.code, nonce]).write double := by
    intro link peer nonce
    rw [authenticationContext, hprints, String.toList_ofList]
    rfl
  have htext := congrArg String.toList (toUtf8_injective h)
  have hfeed : "\n".toList = ['\n'] := rfl
  rw [String.toList_append, String.toList_append, String.toList_append, String.toList_append, hfeed,
    hcontext, hcontext, List.append_assoc, List.append_assoc, List.singleton_append,
    List.singleton_append] at htext
  obtain ⟨hrole, hwritten⟩ :=
    append_last_inj (newline_notMem_strings _) (newline_notMem_strings _) htext
  have hitems := write_strings_inj hwritten
  simp only [List.cons.injEq, and_true] at hitems
  exact ⟨String.toList_inj.1 hrole, hitems⟩

/-- **The text of a code binds its four fields**, colons in the peer's name or not. -/
theorem verificationText_inj {link link' : LanLink} {peer peer' nonce nonce' : String}
    (hfingerprint : hexToken link.fingerprint = true)
    (hfingerprint' : hexToken link'.fingerprint = true)
    (hcode : hexToken link.code = true) (hcode' : hexToken link'.code = true)
    (hnonce : hexToken nonce = true) (hnonce' : hexToken nonce' = true)
    (h : link.verificationText peer nonce = link'.verificationText peer' nonce') :
    link.fingerprint = link'.fingerprint ∧ link.code = link'.code ∧ peer = peer' ∧
      nonce = nonce' := by
  have htext := congrArg String.toList h
  have hcolon : ":".toList = [':'] := rfl
  simp only [verificationText, String.toList_append, hcolon, List.append_assoc,
    List.singleton_append] at htext
  -- the first two fields and the last one have a known length
  obtain ⟨hfirst, hrest⟩ := List.append_inj htext
    ((hexToken_chars hfingerprint).1.trans (hexToken_chars hfingerprint').1.symm)
  obtain ⟨hsecond, hrest⟩ := List.append_inj (List.cons.inj hrest).2
    ((hexToken_chars hcode).1.trans (hexToken_chars hcode').1.symm)
  obtain ⟨hpeer, hlast⟩ := List.append_inj' (List.cons.inj hrest).2 (by
    rw [List.length_cons, List.length_cons, (hexToken_chars hnonce).1, (hexToken_chars hnonce').1])
  exact ⟨String.toList_inj.1 hfirst, String.toList_inj.1 hsecond, String.toList_inj.1 hpeer,
    String.toList_inj.1 (List.cons.inj hlast).2⟩

/-! ## What the text binds -/

/-- **Proofs and codes bind their whole context**: equal signed bytes have the role and
every field of the context in common, and equal hashed texts all their fields. -/
theorem binds_context (hprints : platform.Prints double) :
    (∀ (role role' : String) (link link' : LanLink) (peer peer' nonce nonce' : String),
      signedBytes platform role link peer nonce =
          signedBytes platform role' link' peer' nonce' →
        role = role' ∧ link.hostId = link'.hostId ∧ peer = peer' ∧
          link.fingerprint = link'.fingerprint ∧ link.code = link'.code ∧ nonce = nonce') ∧
    (∀ (link : LanLink) (peer nonce : String), link.verification platform peer nonce =
      shown (platform.sha256 (toUtf8 (link.verificationText peer nonce)))) ∧
    ∀ (link link' : LanLink) (peer peer' nonce nonce' : String),
      hexToken link.fingerprint = true → hexToken link'.fingerprint = true →
      hexToken link.code = true → hexToken link'.code = true →
      identifier peer = true → identifier peer' = true →
      hexToken nonce = true → hexToken nonce' = true →
      toUtf8 (link.verificationText peer nonce) = toUtf8 (link'.verificationText peer' nonce') →
        link.fingerprint = link'.fingerprint ∧ link.code = link'.code ∧ peer = peer' ∧
          nonce = nonce' := by
  refine ⟨fun role role' link link' peer peer' nonce nonce' h => signedBytes_inj hprints h,
    verification_eq platform, ?_⟩
  intro link link' peer peer' nonce nonce' hfingerprint hfingerprint' hcode hcode' _ _ hnonce
    hnonce' h
  exact verificationText_inj hfingerprint hfingerprint' hcode hcode' hnonce hnonce'
    (toUtf8_injective h)

def sampleLink : LanLink where
  hostId := "h"
  fingerprint := String.ofList (List.replicate 64 'f')
  code := String.ofList (List.replicate 64 '0')

/-- The proof of a client is no proof of a host, and a colon makes another peer. -/
theorem binds_context_padded :
    signedBytes .padded "client" sampleLink "p" sampleLink.code ≠
      signedBytes .padded "host" sampleLink "p" sampleLink.code ∧
    toUtf8 (sampleLink.verificationText "p:q" sampleLink.code) ≠
      toUtf8 (sampleLink.verificationText "p" sampleLink.code) := by
  have hprints : Platform.padded.Prints fun _ => ['0'] := fun _ => rfl
  obtain ⟨hproofs, -, hcodes⟩ := binds_context hprints
  have hfingerprint : hexToken sampleLink.fingerprint = true := by decide
  have hcode : hexToken sampleLink.code = true := by decide
  refine ⟨fun h => ?_, fun h => ?_⟩
  · exact absurd (hproofs _ _ _ _ _ _ _ _ h).1 (by decide)
  · have hsame := hcodes _ _ _ _ _ _ hfingerprint hfingerprint hcode hcode (by decide) (by decide)
      hcode hcode h
    exact absurd hsame.2.2.1 (by decide)

end LanLink

end ServerHost
