import Mathlib.Tactic.Linarith
import ServerHost.Transfer.Perform

/-!
# A download is all or nothing

`writeData` is the only callback that touches the output, and it touches the counter and
the hash in the same breath.  So they agree with the temporary file until an error is
noted (`Kept`), and an error that was noted stays.  The commit comes last, after every
check, so the destination holds what was accepted or what was there before.
-/

namespace ServerHost

namespace Transfer

open Storage

variable (r : TransferRequest) (destination : Option Bytes)

/-- The counter, the hash and the temporary file agree on what was accepted. -/
structure Kept (io : Io) : Prop where
  uploading : io.uploading = false
  maximum : io.maximum = r.maximumBytes
  bytes : io.bytes = io.accepted.length
  small : io.bytes ≤ qint64Max
  limited : r.maximumBytes ≠ 0 → io.bytes ≤ r.maximumBytes
  hash : io.hash = io.accepted
  temporary : io.error = "" → io.output.temporary = io.accepted
  destination : io.output.destination = destination

/-- The counter did not overflow. -/
def Exact (io : Io) : Prop := io.bytes = io.accepted.length ∧ io.bytes ≤ qint64Max

/-- The destination is replaced by all that was accepted, or not at all. -/
structure AllOrNothing (platform : Platform) (world : World) (result : TransferResult) (io : Io) :
    Prop where
  all : result.ok = true → io.output.destination = some io.accepted ∧
    result.bytes = io.accepted.length ∧
    (r.maximumBytes ≠ 0 → result.bytes ≤ r.maximumBytes) ∧
    result.sha256 = hexHash platform io.accepted ∧
    (r.expectedSha256 ≠ "" → result.sha256 = toLower r.expectedSha256) ∧
    (isHttp r = true → ¬ (300 ≤ world.response ∧ world.response < 400))
  nothing : result.ok = false → io.output.destination = destination
  exact : ∀ callbacks : List Callback,
    Exact (callbacks.foldl callback (begin r destination world))

variable {r destination} {platform : Platform} {io : Io}

/-! ## The counters -/

theorem qint64_of_range {value : ℤ} (hlow : -(2 ^ 63) ≤ value) (hhigh : value ≤ qint64Max) :
    qint64 value = value := by
  refine Int.bmod_eq_of_le ?_ ?_
  · exact hlow
  · unfold qint64Max at hhigh
    omega

/-- A product that passes the guard is a `qint64`. -/
theorem product_of_guard {size count : ℕ} (h : oversized size count = false) :
    qint64 (sizeProduct size count) = (size * count : ℕ) ∧
      ((size * count : ℕ) : ℤ) ≤ qint64Max := by
  have hle : size * count ≤ 2 ^ 63 - 1 := by
    by_cases hzero : size = 0
    · simp [hzero]
    · have hcount : count ≤ (2 ^ 63 - 1) / size := by simpa [oversized, hzero] using h
      calc size * count ≤ size * ((2 ^ 63 - 1) / size) := Nat.mul_le_mul_left size hcount
        _ ≤ 2 ^ 63 - 1 := Nat.mul_div_le ..
  have hmax : ((size * count : ℕ) : ℤ) ≤ qint64Max := by
    unfold qint64Max
    omega
  refine ⟨?_, hmax⟩
  rw [sizeProduct, Nat.mod_eq_of_lt (by omega)]
  exact qint64_of_range (by omega) hmax

/-! ## What one callback keeps -/

theorem Kept.writeData (h : Kept r destination io) (hmaximum : 0 ≤ r.maximumBytes)
    (hmaximumRange : r.maximumBytes ≤ qint64Max) (chunk : Chunk) (answer : ℤ) :
    Kept r destination (Transfer.writeData chunk answer io).2 := by
  have hpositive : 0 ≤ io.bytes := by
    rw [h.bytes]
    exact Int.natCast_nonneg _
  unfold Transfer.writeData
  -- The guard `count > SIZE_MAX / size` keeps the product from wrapping round.
  cases hguard : oversized chunk.size chunk.count with
  | true =>
      rw [if_pos rfl]
      exact h
  | false =>
      obtain ⟨hproduct, hlarge⟩ := product_of_guard hguard
      rw [← chunk.length] at hproduct
      have hsmall := h.small
      have hleft : qint64 (qint64Max - io.bytes) = qint64Max - io.bytes :=
        qint64_of_range (by unfold qint64Max at *; omega) (by omega)
      have hroom : qint64 (io.maximum - io.bytes) = r.maximumBytes - io.bytes := by
        rw [h.maximum]
        exact qint64_of_range (by unfold qint64Max at *; omega) (by omega)
      have huploading : ¬ io.uploading = true := by simp [h.uploading]
      rw [if_neg Bool.false_ne_true]
      generalize qint64 (sizeProduct chunk.size chunk.count) = n at hproduct ⊢
      dsimp only
      rw [if_neg huploading]
      by_cases hcancelled : io.cancelled = true
      · rw [if_pos hcancelled]
        exact h
      rw [if_neg hcancelled]
      -- Neither difference wraps, so the limits say what they seem to say.
      by_cases hlimit : n > qint64 (qint64Max - io.bytes) ∨
          (io.maximum ≠ 0 ∧ n > qint64 (io.maximum - io.bytes))
      · rw [if_pos hlimit]
        -- An abort sets the error, and the file is not committed then.
        exact { h with temporary := fun herror => absurd herror (by simp) }
      rw [if_neg hlimit]
      by_cases hanswer : answer ≠ n
      · rw [if_pos hanswer]
        exact { h with temporary := fun herror => absurd herror (by simp) }
      rw [if_neg hanswer]
      rw [hleft, hroom, h.maximum] at hlimit
      push Not at hlimit hanswer
      have hsum : qint64 (io.bytes + n) = io.bytes + n := qint64_of_range (by omega) (by omega)
      refine
        { uploading := h.uploading
          maximum := h.maximum
          bytes := ?_
          small := ?_
          limited := fun hset => ?_
          hash := congrArg (· ++ chunk.data) h.hash
          temporary := fun herror => ?_
          destination := h.destination }
      · exact hsum.trans (by rw [h.bytes, hproduct, List.length_append, Nat.cast_add])
      · exact hsum.trans_le (by omega)
      · have hfits := hlimit.2 hset
        exact hsum.trans_le (by omega)
      · change io.output.temporary ++ chunk.data.take answer.toNat = io.accepted ++ chunk.data
        rw [hanswer, hproduct, Int.toNat_natCast, List.take_length, h.temporary herror]

/-- libcurl is told that the whole chunk was taken exactly when it was accepted. -/
theorem writeData_returns {chunk : Chunk} {answer : ℤ} (hdownload : io.uploading = false) :
    (Transfer.writeData chunk answer io = (sizeProduct chunk.size chunk.count,
        (Transfer.writeData chunk answer io).2) ∧
      (Transfer.writeData chunk answer io).2.accepted = io.accepted ++ chunk.data) ∨
    (Transfer.writeData chunk answer io = (0, (Transfer.writeData chunk answer io).2) ∧
      (Transfer.writeData chunk answer io).2.accepted = io.accepted) := by
  simp only [Transfer.writeData, hdownload, Bool.false_eq_true, if_false]
  split_ifs with hguard hcancelled hlimit hanswer
  · exact .inr ⟨rfl, rfl⟩
  · exact .inr ⟨rfl, rfl⟩
  · exact .inr ⟨rfl, rfl⟩
  · exact .inr ⟨rfl, rfl⟩
  · exact .inl ⟨rfl, rfl⟩

theorem Kept.callback (h : Kept r destination io) (hmaximum : 0 ≤ r.maximumBytes)
    (hmaximumRange : r.maximumBytes ≤ qint64Max) (event : Callback) :
    Kept r destination (Transfer.callback io event) := by
  cases event with
  | write chunk answer => exact h.writeData hmaximum hmaximumRange chunk answer
  | read size count answer =>
      rw [Transfer.callback, h.uploading]
      exact h
  | seek offset fromStart sought =>
      rw [Transfer.callback, h.uploading]
      exact h
  | progress dlTotal dlNow ulTotal ulNow elapsed =>
      unfold Transfer.callback progressData
      dsimp only
      generalize (if io.uploading = true then ulTotal else dlTotal) = total
      by_cases hcancelled : io.cancelled = true
      · rw [if_pos hcancelled]
        exact h
      rw [if_neg hcancelled]
      by_cases hlimit : io.maximum ≠ 0 ∧ total > io.maximum
      · rw [if_pos hlimit]
        exact { h with temporary := fun herror => absurd herror (by simp) }
      rw [if_neg hlimit]
      by_cases helapsed : elapsed ≥ 100
      · rw [if_pos helapsed]
        exact { h with }
      · rw [if_neg helapsed]
        exact h
  | cancel => exact { h with }

/-! ## Whole transfers -/

section
variable (hmaximum : 0 ≤ r.maximumBytes) (hmaximumRange : r.maximumBytes ≤ qint64Max)
include hmaximum hmaximumRange

theorem Kept.callbacks (h : Kept r destination io) (list : List Callback) :
    Kept r destination (list.foldl Transfer.callback io) := by
  induction list generalizing io with
  | nil => exact h
  | cons event rest ih => exact ih (h.callback hmaximum hmaximumRange event)

theorem Kept.loop (h : Kept r destination io) {rounds : List Round} {after : Io}
    (hloop : Transfer.loop rounds io = some after) : Kept r destination after := by
  induction rounds generalizing io with
  | nil =>
      unfold Transfer.loop at hloop
      split at hloop
      · cases hloop
        exact h
      · cases hloop
  | cons round rest ih =>
      have hperformed := h.callbacks hmaximum hmaximumRange round.performing
      have hpolled := hperformed.callbacks hmaximum hmaximumRange round.polling
      unfold Transfer.loop at hloop
      split at hloop
      · cases hloop
        exact h
      dsimp only at hloop
      split at hloop
      · cases hloop
        exact hperformed
      split at hloop
      · cases hloop
        exact hpolled
      · exact ih hpolled hloop

theorem Kept.transfer (h : Kept r destination io) {world : World} {code : CurlCode} {after : Io}
    (htransfer : Transfer.transfer world io = some (code, after)) : Kept r destination after := by
  unfold Transfer.transfer at htransfer
  split at htransfer
  · obtain ⟨final, hloop, heq⟩ := Option.map_eq_some_iff.1 htransfer
    have hfinal := h.loop hmaximum hmaximumRange hloop
    cases heq
    exact { hfinal with }
  · cases htransfer
    exact { h with }

end

/-- What passes every check before the commit. -/
theorem resultError_nil {code : CurlCode} {response : ℤ}
    (h : resultError platform r code response io = "") : io.error = "" ∧
    (isHttp r = true → ¬ (300 ≤ response ∧ response < 400)) ∧
    (r.expectedSha256 ≠ "" → hexHash platform io.hash = toLower r.expectedSha256) := by
  unfold resultError at h
  obtain ⟨-, h⟩ := accepted_ite (by decide) h
  split at h
  · next herror => exact absurd h herror
  next herror =>
  obtain ⟨-, h⟩ := accepted_ite (by decide) h
  obtain ⟨-, h⟩ := accepted_ite (by decide) h
  obtain ⟨-, h⟩ := accepted_ite (by decide) h
  obtain ⟨hredirect, h⟩ := accepted_ite (by decide) h
  obtain ⟨hchecksum, -⟩ := accepted_ite (by decide) h
  push Not at herror hchecksum
  exact ⟨herror, fun hhttp hrange => hredirect ⟨hhttp, hrange⟩, hchecksum⟩

/-- The commit is the only step that changes the destination, and comes after every check. -/
theorem Kept.conclude (h : Kept r destination io) (world : World) (code : CurlCode)
    (hexact : ∀ callbacks : List Callback,
      Exact (callbacks.foldl Transfer.callback (begin r destination world))) :
    AllOrNothing r destination platform world (Transfer.conclude platform r world code io).1
      (Transfer.conclude platform r world code io).2 := by
  unfold Transfer.conclude
  dsimp only
  have huploading : ¬ io.uploading = true := by simp [h.uploading]
  by_cases herror : resultError platform r code world.response io ≠ ""
  · rw [if_pos herror]
    exact ⟨fun hok => absurd hok (by simp), fun _ => h.destination, hexact⟩
  rw [if_neg herror, if_pos huploading]
  obtain ⟨hnone, hstatus, hchecksum⟩ := resultError_nil (not_not.1 herror)
  cases hcommitted : world.committed with
  | false => exact ⟨fun hok => absurd hok (by simp), fun _ => h.destination, hexact⟩
  | true =>
      refine ⟨fun _ => ?_, fun hok => absurd hok (by simp), hexact⟩
      refine ⟨congrArg some (h.temporary hnone), h.bytes, h.limited, ?_, hchecksum, hstatus⟩
      exact congrArg (hexHash platform) h.hash

theorem validate_maximum {disk : Disk} {curl : Curl} (h : validate platform disk curl r = "") :
    0 ≤ r.maximumBytes := by
  unfold validate at h
  dsimp only at h
  obtain ⟨-, h⟩ := accepted_ite (by decide) h
  obtain ⟨-, h⟩ := accepted_ite (by decide) h
  obtain ⟨-, h⟩ := accepted_ite (by decide) h
  split at h
  · exact absurd h (by decide)
  obtain ⟨-, h⟩ := accepted_ite (by decide) h
  split at h
  · next hmisplaced => exact absurd h hmisplaced
  obtain ⟨-, h⟩ := accepted_ite (by decide) h
  obtain ⟨hlimits, -⟩ := accepted_ite (by decide) h
  push Not at hlimits
  exact hlimits.2.2

/-- **A download is all or nothing.**  Whatever is written, called back, cancelled and
reported, a result that is ok means that the destination is all that was accepted, within
the limits and with the checksum; any other result leaves it as it was; and the counter
never overflows. -/
theorem perform_all_or_nothing {disk : Disk} {curl : Curl} {world : World} {result : TransferResult}
    (hvalid : validate platform disk curl r = "") (hoperation : r.operation ≠ .upload)
    (hresult : perform platform r destination world = some (result, io)) :
    AllOrNothing r destination platform world result io := by
  have hmaximum := validate_maximum hvalid
  have hrange : r.maximumBytes ≤ qint64Max := Int.le_sub_one_of_lt r.maximumRange.2
  have hbegin : Kept r destination (begin r destination world) :=
    { uploading := by simp [begin, hoperation]
      maximum := rfl
      bytes := rfl
      small := by simp [begin, qint64Max]
      limited := fun _ => hmaximum
      hash := rfl
      temporary := fun _ => rfl
      destination := rfl }
  have hexact : ∀ callbacks : List Callback,
      Exact (callbacks.foldl Transfer.callback (begin r destination world)) := by
    intro callbacks
    have hkept := hbegin.callbacks hmaximum hrange callbacks
    exact ⟨hkept.bytes, hkept.small⟩
  -- What fails before the transfer never touches the destination.
  have hearly : ∀ {early : TransferResult} {io : Io}, early.ok = false → Kept r destination io →
      AllOrNothing r destination platform world early io := by
    intro early io hok hkept
    exact ⟨fun hyes => by simp [hok] at hyes, fun _ => hkept.destination, hexact⟩
  have hdownload : ¬ (begin r destination world).uploading = true := by simp [begin, hoperation]
  unfold perform prepare at hresult
  rw [if_neg hdownload] at hresult
  cases hopened : world.opened with
  | false =>
      rw [hopened] at hresult
      cases hresult
      exact hearly rfl hbegin
  | true =>
      rw [hopened, if_neg (by simp)] at hresult
      dsimp only at hresult
      split at hresult
      · cases hresult
        exact hearly rfl hbegin
      · obtain ⟨⟨code, final⟩, htransfer, heq⟩ := Option.map_eq_some_iff.1 hresult
        have hfinal := hbegin.transfer hmaximum hrange htransfer
        have hconcluded : AllOrNothing r destination platform world
            (Transfer.conclude platform r world code final).1
            (Transfer.conclude platform r world code final).2 := hfinal.conclude world code hexact
        rw [heq] at hconcluded
        exact hconcluded

/-- A download over HTTPS, of at most four bytes. -/
def fetch : TransferRequest where
  url := {
    valid := true, scheme := "https", host := "h", port := -1, text := "https://h"
    encodedSize := 9 }
  localPath := "/f"
  maximumBytes := 4

/-- libcurl hands two bytes over, and reports success. -/
def delivered : World where
  cancelled := false
  opened := true
  inputSize := 0
  hashing := []
  rewound := true
  initialized := true
  setup := .ok
  added := true
  rounds := [⟨[.write ⟨1, 2, [7, 8], rfl⟩ 2], true, false, [], true⟩]
  messages := [.ok]
  cancelledLate := (false, false)
  response := 200
  httpVersion := "1.1"
  committed := true

/-- The two bytes replace the file. -/
theorem perform_all_or_nothing_fetch : ∃ result io,
    perform .sample fetch (some [1]) delivered = some (result, io) ∧
    AllOrNothing fetch (some [1]) .sample delivered result io ∧ result.ok = true ∧
      io.output.destination = some [7, 8] := by
  have hvalid : validate .sample .sample ⟨true, ["https"], true, false, false⟩ fetch = "" := by
    decide +kernel
  exact ⟨_, _, rfl, perform_all_or_nothing hvalid (by decide) rfl, by decide +kernel,
    by decide +kernel⟩

end Transfer

end ServerHost
