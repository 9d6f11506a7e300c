import ServerHost.Transfer.Request

/-!
# What reaches the headers of a transfer

libcurl writes the bearer token, and with AWS signatures the provider scope and the
access key, into the `Authorization` header as they are.  `validate` looks at each of
them in its own way: the token byte by byte, the scope by a pattern whose end also
stands before a last line feed, and the user name for a zero only.
-/

namespace ServerHost

namespace Transfer

/-- A text that cannot end a header line. -/
def SingleLine (text : List Char) : Prop := '\r' ∉ text ∧ '\n' ∉ text ∧ '\x00' ∉ text

/-- Nothing that goes into the headers as it is can end a header line. -/
structure Clean (r : TransferRequest) : Prop where
  bearer : 13 ∉ r.bearerToken ∧ 10 ∉ r.bearerToken ∧ 0 ∉ r.bearerToken
  scope : r.awsSigV4 ≠ "" → SingleLine r.awsSigV4.toList
  key : r.awsSigV4 ≠ "" → SingleLine r.username.toList

section
variable {platform : Platform} {disk : Storage.Disk} {curl : Curl} {r : TransferRequest}

/-- The last checks of `validate`, which an accepted request has passed. -/
theorem validate_credentials (h : validate platform disk curl r = "") :
    ('\x00' ∉ r.username.toList ∧ 0 ∉ r.bearerToken ∧ 13 ∉ r.bearerToken ∧ 10 ∉ r.bearerToken) ∧
      (r.awsSigV4 ≠ "" → validSigV4 r.awsSigV4 = true) := by
  unfold validate at h
  dsimp only at h
  obtain ⟨-, h⟩ := Storage.accepted_ite (by decide) h
  obtain ⟨-, h⟩ := Storage.accepted_ite (by decide) h
  obtain ⟨-, h⟩ := Storage.accepted_ite (by decide) h
  cases hfound : curl.available.find? fun p => p.scheme = r.url.scheme with
  | none =>
      rw [hfound] at h
      have hrefused : "unsupported_protocol" = "" := h
      exact absurd hrefused (by decide)
  | some p =>
  rw [hfound] at h
  obtain ⟨-, h⟩ := Storage.accepted_ite (by decide) h
  by_cases hmisplaced : validateUrl platform r p ≠ ""
  · rw [if_pos hmisplaced] at h
    exact absurd h hmisplaced
  rw [if_neg hmisplaced] at h
  obtain ⟨-, h⟩ := Storage.accepted_ite (by decide) h
  obtain ⟨-, h⟩ := Storage.accepted_ite (by decide) h
  obtain ⟨-, h⟩ := Storage.accepted_ite (by decide) h
  obtain ⟨-, h⟩ := Storage.accepted_ite (by decide) h
  obtain ⟨hcredentials, h⟩ := Storage.accepted_ite (by decide) h
  obtain ⟨-, h⟩ := Storage.accepted_ite (by decide) h
  obtain ⟨hscope, -⟩ := Storage.accepted_ite (by decide) h
  simp only [not_or] at hcredentials
  obtain ⟨husername, -, -, hzero, hreturn, hfeed⟩ := hcredentials
  refine ⟨⟨husername, hzero, hreturn, hfeed⟩, fun hne => ?_⟩
  by_contra hvalid
  exact hscope ⟨hne, .inr hvalid⟩

/-- **When an accepted request cannot inject a header line**: exactly when it carries no AWS
scope, or the scope does not end in a line feed and the user name has no line break. -/
theorem clean_iff (h : validate platform disk curl r = "") : Clean r ↔
    r.awsSigV4 = "" ∨ (r.awsSigV4.toList.getLast? ≠ some '\n' ∧
      '\r' ∉ r.username.toList ∧ '\n' ∉ r.username.toList) := by
  obtain ⟨⟨husername, hzero, hreturn, hfeed⟩, hpattern⟩ := validate_credentials h
  constructor
  · intro hclean
    by_cases hnone : r.awsSigV4 = ""
    · exact .inl hnone
    · obtain ⟨-, hscope, -⟩ := hclean.scope hnone
      obtain ⟨hkeyReturn, hkeyFeed, -⟩ := hclean.key hnone
      refine .inr ⟨fun hlast => hscope ?_, hkeyReturn, hkeyFeed⟩
      exact (validSigV4_chars (hpattern hnone)).2.2.2 hlast
  · rintro (hnone | ⟨hlast, hkeyReturn, hkeyFeed⟩)
    · exact ⟨⟨hreturn, hfeed, hzero⟩, fun hne => absurd hnone hne, fun hne => absurd hnone hne⟩
    · refine ⟨⟨hreturn, hfeed, hzero⟩, fun hne => ?_, fun _ => ⟨hkeyReturn, hkeyFeed, husername⟩⟩
      obtain ⟨hscopeReturn, hscopeZero, hscopeFeed⟩ := validSigV4_chars (hpattern hne)
      exact ⟨hscopeReturn, fun hmem => hlast (hscopeFeed.1 hmem), hscopeZero⟩

end

/-! ## A region with a line break -/

/-- A download that is signed for AWS with this scope and access key. -/
def signed (awsSigV4 username : String) : TransferRequest where
  url := { valid := true, scheme := "https", host := "h", port := -1, text := "https://h/",
           encodedSize := 10 }
  localPath := "/srv/file"
  username := username
  awsSigV4 := awsSigV4

/-- **The defect**: a scope that ends in a line feed, and a user name that carries a header
line, are accepted. -/
theorem not_clean_signed :
    validate .sample .sample ⟨true, ["https"], true, false, false⟩
        (signed "aws:amz:us:s3\n" "key\r\nX-Injected: 1") = "" ∧
      ¬ Clean (signed "aws:amz:us:s3\n" "key\r\nX-Injected: 1") := by
  refine ⟨by decide +kernel, fun h => ?_⟩
  have hscope : (signed "aws:amz:us:s3\n" "key\r\nX-Injected: 1").awsSigV4 ≠ "" := by decide
  exact (h.scope hscope).2.1 (by decide)

theorem clean_iff_signed : Clean (signed "aws:amz:us:s3" "key") := by
  have hvalid : validate .sample .sample ⟨true, ["https"], true, false, false⟩
      (signed "aws:amz:us:s3" "key") = "" := by decide +kernel
  exact (clean_iff hvalid).2 (.inr (by decide))

end Transfer

end ServerHost
