import TexecomBridge.Http.Route

/-!
# What a request can get

Whatever the prefix, the store, the request and the connection, the handler answers every request
that it claims, and sends nothing but the listing and stored captures. Of the bytes of the store the
answer shows only those of the capture that is asked for.
-/

namespace TexecomBridge
namespace CaptureHttpHandler

/-- What may be answered to a GET for `url`. The listing has one row for each stored capture, in the
order of their names. Only a capture that is stored under the very name that is asked for is sent,
and no byte that is not its own, in chunks that are not empty but for the one that ends them. -/
inductive Answers (h : CaptureHttpHandler) (p : HttpPlatform) (url : List UInt8) : Response → Prop
  | redirect (hurl : url = h.pathPrefix) : Answers h p url (.redirect (h.pathPrefix ++ ascii "/"))
  | listing (hurl : url = h.pathPrefix ++ ascii "/") (rows : List RamCaptureSnapshot)
    (hrows : rows.Perm h.capture.listCaptures)
    (hsorted : (rows.map (·.name)).Pairwise (· ≤ ·)) :
    Answers h p url (.send 200 (ascii "text/html; charset=utf-8") (cString
      (listingHead h.capture ++ listingTable p.millis rows ++ ascii "</body></html>")))
  | capture (cap : RamCapture) (hcap : cap ∈ h.capture.store.captures) (hsafe : SafeName cap.name)
    (hurl : url = h.pathPrefix ++ ascii "/" ++ cap.name) (len disposition : List UInt8)
    (chunks : List (List UInt8)) (hchunks : chunks.flatten <+: cap.bytes)
    (hsize : ∀ chunk ∈ chunks, chunk ≠ [] ∧ chunk.length ≤ kStreamChunkBytes) :
    Answers h p url
      (.stream (ascii "200 OK") (contentType cap.name) len disposition (chunks ++ [[]]))
  | notFound (hnone : ∀ cap ∈ h.capture.store.captures, SafeName cap.name →
      url ≠ h.pathPrefix ++ ascii "/" ++ cap.name) : Answers h p url notFound

/-- What a GET for `url` can tell of a handler: its prefix, names, sizes and times of the captures,
the two totals, and the bytes of the capture that is named, if one is. -/
structure SeenAlike (url : List UInt8) (h h' : CaptureHttpHandler) : Prop where
  pathPrefix : h'.pathPrefix = h.pathPrefix
  listed : h'.capture.listCaptures = h.capture.listCaptures
  used : h'.capture.store.totalBytesUsed = h.capture.store.totalBytesUsed
  budget : h'.capture.maxTotalBytes = h.capture.maxTotalBytes
  named : ∀ name, url = h.pathPrefix ++ ascii "/" ++ name →
    h'.capture.getCaptureBytes name = h.capture.getCaptureBytes name

/-- The calls are given the first of the bytes, in chunks of limited size, and then nothing. -/
lemma exists_sendChunks_eq (p : HttpPlatform) (i : ℕ) (src : List UInt8) :
    ∃ chunks, sendChunks p i src = chunks ++ [[]] ∧ chunks.flatten <+: src ∧
      ∀ chunk ∈ chunks, chunk ≠ [] ∧ chunk.length ≤ kStreamChunkBytes := by
  have hfirst : ∀ {src : List UInt8}, src ≠ [] → src.take kStreamChunkBytes ≠ [] ∧
      (src.take kStreamChunkBytes).length ≤ kStreamChunkBytes := by
    intro src hne
    constructor
    · rw [ne_eq, List.take_eq_nil_iff, not_or]
      exact ⟨by decide, hne⟩
    · rw [List.length_take]
      exact min_le_left _ _
  induction i, src using sendChunks.induct p with
  | case1 i =>
    refine ⟨[], ?_, List.nil_prefix, by simp⟩
    simp [sendChunks]
  | case2 i src hne hi ih =>
    obtain ⟨chunks, hcalls, hpre, hsize⟩ := ih
    refine ⟨src.take kStreamChunkBytes :: chunks, ?_, ?_,
      List.forall_mem_cons.mpr ⟨hfirst hne, hsize⟩⟩
    · rw [sendChunks, if_neg hne, if_pos hi, hcalls, List.cons_append]
    · conv_rhs => rw [← List.take_append_drop kStreamChunkBytes src]
      exact (List.prefix_append_right_inj _).mpr hpre
  | case3 i src hne hi =>
    refine ⟨[src.take kStreamChunkBytes], ?_, ?_, List.forall_mem_singleton.mpr (hfirst hne)⟩
    · rw [sendChunks, if_neg hne, if_neg hi]
      rfl
    · simpa using List.take_prefix kStreamChunkBytes src

variable (h : CaptureHttpHandler) (p : HttpPlatform)

lemma answers_sendListing :
    Answers h p (h.pathPrefix ++ ascii "/") (h.sendListing p) := by
  have hperm : (sortedEntries h.capture).Perm h.capture.listCaptures := List.mergeSort_perm _ _
  exact .listing rfl _ hperm (sortedEntries_le h.capture)

/-- The first capture of the name is sent, as far as the connection goes. -/
lemma answers_sendFile {tail : List UInt8} (hsafe : isSafeCaptureFilename tail = true) :
    Answers h p (h.pathPrefix ++ ascii "/" ++ tail) (h.sendFile p tail) := by
  unfold sendFile
  cases hbytes : h.capture.getCaptureBytes tail with
  | none =>
    refine .notFound fun cap hcap _ hurl => ?_
    rw [Capture.getCaptureBytes, Option.map_eq_none_iff, List.find?_eq_none] at hbytes
    exact hbytes cap hcap (decide_eq_true (List.append_cancel_left hurl).symm)
  | some bytes =>
    obtain ⟨cap, hfind, rfl⟩ := Option.map_eq_some_iff.mp hbytes
    obtain rfl : cap.name = tail := by simpa using List.find?_some hfind
    obtain ⟨chunks, hcalls, hpre, hsize⟩ := exists_sendChunks_eq p 0 cap.bytes
    simp only [hcalls]
    exact .capture cap (List.mem_of_find?_eq_some hfind) ((isSafeCaptureFilename_iff _).mp hsafe)
      rfl _ _ _ hpre hsize

lemma answers_tail (tail : List UInt8) : ∃ r,
    h.handleRequest p ⟨.get, h.pathPrefix ++ ascii "/" ++ tail⟩ = some r ∧
      Answers h p (h.pathPrefix ++ ascii "/" ++ tail) r := by
  rw [handleRequest_tail]
  refine ⟨_, rfl, ?_⟩
  split_ifs with hnone hsafe
  · rw [hnone, List.append_nil]
    exact answers_sendListing h p
  · exact answers_sendFile h p hsafe
  · refine .notFound fun cap _ hname hurl => ?_
    rw [List.append_cancel_left hurl, (isSafeCaptureFilename_iff _).mpr hname] at hsafe
    exact hsafe rfl

/-- Handlers that a URL below the prefix cannot tell apart give it the same answer. -/
lemma SeenAlike.handleRequest_tail {h h' : CaptureHttpHandler} {tail : List UInt8}
    (halike : SeenAlike (h.pathPrefix ++ ascii "/" ++ tail) h h') :
    h'.handleRequest p ⟨.get, h.pathPrefix ++ ascii "/" ++ tail⟩
      = h.handleRequest p ⟨.get, h.pathPrefix ++ ascii "/" ++ tail⟩ := by
  have hlisting : h'.sendListing p = h.sendListing p := by
    simp only [sendListing, sortedEntries, listingHead, halike.listed, halike.used, halike.budget]
  have hfile : h'.sendFile p tail = h.sendFile p tail := by
    simp only [sendFile, halike.named tail rfl]
  have hsame := CaptureHttpHandler.handleRequest_tail h' p tail
  rw [halike.pathPrefix, hlisting, hfile] at hsame
  rw [hsame, CaptureHttpHandler.handleRequest_tail h p tail]

/-- The handler claims only GET requests for the prefix and what is below it, and answers every
request it claims: a redirect for the prefix, the listing of the store for the prefix with a slash,
the first bytes of a stored capture for its name if that is safe, and not found otherwise. Any other
handler that looks the same from outside, and has the same bytes in the capture that is asked for,
gives the same answer. This holds in any state, for any prefix, wherever the connection breaks. -/
theorem claimed_is_answered {request : Request} (hclaimed : h.canHandle request = true) :
    request.method = .get ∧ ∃ r, h.handleRequest p request = some r ∧
      Answers h p request.url r ∧
      ∀ h', SeenAlike request.url h h' → h'.handleRequest p request = some r := by
  obtain ⟨method, url⟩ := request
  cases method with
  | other => cases hclaimed
  | get =>
    refine ⟨rfl, ?_⟩
    rcases (canHandle_get_iff h url).mp hclaimed with rfl | ⟨tail, rfl⟩
    · refine ⟨_, handleRequest_base h p, .redirect rfl, fun h' halike => ?_⟩
      rw [← halike.pathPrefix]
      exact handleRequest_base h' p
    · obtain ⟨r, hr, hanswers⟩ := answers_tail h p tail
      exact ⟨r, hr, hanswers, fun h' halike => (halike.handleRequest_tail p).trans hr⟩

/-- A name that is not stored, and a connection that takes nothing. -/
theorem claimed_is_answered_favicon :
    let h := registerCaptureHttpHandler Capture.init
    let p : HttpPlatform := ⟨0, fun _ => false⟩
    let request : Request := ⟨.get, ascii "/captures/favicon.ico"⟩
    h.handleRequest p request = some notFound ∧ Answers h p request.url notFound := by
  intro h p request
  have hclaimed : h.canHandle request = true := by decide +kernel
  have hnone : h.handleRequest p request = some notFound := by decide +kernel
  obtain ⟨-, r, hr, hanswers, -⟩ := claimed_is_answered h p hclaimed
  obtain rfl : notFound = r := Option.some.inj (hnone.symm.trans hr)
  exact ⟨hnone, hanswers⟩

end CaptureHttpHandler
end TexecomBridge
