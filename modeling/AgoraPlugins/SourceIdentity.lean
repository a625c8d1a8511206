import AgoraPlugins.CanonicalJson
import AgoraPlugins.Redaction

/-!
# Source identities

A checkpoint is for one input, and keeps a fingerprint of it. The fingerprint is of the attributes
of the source, among them the URLs that it connects to, from which the password is taken first:
with another password the input is the same.

The password is found where `urlparse` finds one, in front of the hosts, and only if the port can
be read. It is not found in the query, where clients take one as well, nor in front of several
hosts with ports.
-/

open Url

/-- **`SourceIdentity`**, of an input that is no file. -/
structure SourceIdentity where
  uri : String
  sizeBytes : ℕ
  modifiedTimeNs : ℕ
  deriving DecidableEq

/-- **`fingerprint_source_identity`**. The attributes are given in the order of their keys, and so
are the members of objects in them, which is what `sort_keys` is for. -/
def fingerprintSourceIdentity (sha256 : String → String) (kind : String)
    (attributes : List (String × Json)) : SourceIdentity :=
  ⟨kind ++ "://identity/" ++ sha256 (Json.dumpsCompact (.obj attributes)), 0, 0⟩

/-- **`redact_url_password`**. -/
def redactUrlPassword (url : String) : String :=
  match urlsplit url.toList with
  | none => url
  | some parsed =>
    match parsed.password, parsed.port with
    | some _, some port =>
      let netloc := parsed.username.getD [] ++ [':', '*', '*', '*', '@'] ++ parsed.hostname.getD []
        ++ numberText port
      String.ofList (SplitResult.geturl { parsed with netloc })
    | _, _ => url

/-- What is compared is the text of the attributes. -/
theorem fingerprint_eq_iff {sha256 : String → String} (hsha : Function.Injective sha256)
    {kind : String} {attributes attributes' : List (String × Json)} :
    fingerprintSourceIdentity sha256 kind attributes
        = fingerprintSourceIdentity sha256 kind attributes'
      ↔ Json.compactMembers attributes = Json.compactMembers attributes' := by
  constructor
  · intro h
    have huri := congrArg (fun identity => identity.uri.toList) h
    simp only [fingerprintSourceIdentity, String.toList_append, List.append_cancel_left_eq] at huri
    have htext := congrArg String.toList (hsha (String.toList_inj.1 huri))
    simpa [Json.dumpsCompact, Json.compact] using htext
  · intro h
    unfold fingerprintSourceIdentity Json.dumpsCompact
    rw [Json.compact, Json.compact, h]

/-! ## The Redis stream source -/

/-- **`RedisStreamSource`**, as far as its identity goes. -/
structure RedisStreamSource where
  url : String
  stream : String
  group : String
  redisCluster : Bool
  sentinelServiceName : Option String
  sentinelUrls : List String

namespace RedisStreamSource

/-- **`checkpoint_source_identity`**. -/
def checkpointSourceIdentity (sha256 : String → String) (source : RedisStreamSource) :
    SourceIdentity :=
  fingerprintSourceIdentity sha256 "redis-stream" [
    ("group", .str source.group),
    ("redis_cluster", .bool source.redisCluster),
    ("sentinel_service_name", source.sentinelServiceName.elim .null .str),
    ("sentinel_urls", .arr (((source.sentinelUrls.map redactUrlPassword).mergeSort).map .str)),
    ("stream", .str source.stream),
    ("url", .str (redactUrlPassword source.url))]

/-- Where a source has a URL: its own, or one of those of its sentinels. -/
inductive UrlField where
  | url
  | sentinel (before after : List String)

/-- The source with a URL there. -/
def withUrl (source : RedisStreamSource) : UrlField → String → RedisStreamSource
  | .url, url => { source with url }
  | .sentinel before after, url => { source with sentinelUrls := before ++ url :: after }

theorem eq_of_perm_cons {a b : String} {l : List String} (h : (a :: l).Perm (b :: l)) : a = b := by
  by_contra hne
  have hcount := h.count_eq a
  rw [List.count_cons_self, List.count_cons_of_ne (Ne.symm hne)] at hcount
  omega

/-- **Of a URL, its redaction is in the identity**, and nothing else. -/
theorem checkpointSourceIdentity_eq_iff {sha256 : String → String}
    (hsha : Function.Injective sha256) (source : RedisStreamSource) (field : UrlField)
    (x y : String) :
    (source.withUrl field x).checkpointSourceIdentity sha256
        = (source.withUrl field y).checkpointSourceIdentity sha256
      ↔ redactUrlPassword x = redactUrlPassword y := by
  unfold checkpointSourceIdentity
  rw [fingerprint_eq_iff hsha]
  cases field with
  | url =>
    constructor
    · intro h
      simp only [withUrl, Json.compactMembers, Json.compact, List.append_assoc,
        List.append_cancel_left_eq, List.cons.injEq, true_and] at h
      have hstring : Json.asciiString (redactUrlPassword x) ++ []
          = Json.asciiString (redactUrlPassword y) ++ [] := by simpa using h
      exact (Json.asciiString_append_inj hstring).1
    · intro h
      simp only [withUrl, h]
  | sentinel before after =>
    constructor
    · intro h
      simp only [withUrl, Json.compactMembers, Json.compact, List.append_assoc, List.cons_append,
        List.append_cancel_left_eq, List.cons.injEq, true_and] at h
      have hsorted := (Json.compactItems_str_inj _ _ _ _ h).1
      have hperm : ((before ++ x :: after).map redactUrlPassword).Perm
          ((before ++ y :: after).map redactUrlPassword) := by
        refine (List.mergeSort_perm _ (fun a b => decide (a ≤ b))).symm.trans ?_
        rw [hsorted]
        exact List.mergeSort_perm _ _
      rw [List.map_append, List.map_append, List.map_cons, List.map_cons] at hperm
      exact eq_of_perm_cons
        (List.perm_middle.symm.trans (hperm.trans List.perm_middle))
    · intro h
      simp only [withUrl, List.map_append, List.map_cons, h]

end RedisStreamSource

/-! ## Passwords in URLs -/

namespace ConnectionUrl

variable {u v : ConnectionUrl}

/-- **A URL is masked** if it has a password and its port is read. -/
theorem redactUrlPassword_of_masked (hp : u.password.isSome) (h : u.PortReadable) :
    redactUrlPassword (String.ofList u.text) = String.ofList (u.masked u.hostsShown) := by
  obtain ⟨hsplit, hhost, hport⟩ := urlsplit_of_portReadable h
  obtain ⟨password, hpassword⟩ := Option.isSome_iff_exists.1 hp
  have hgetD : u.splitResult.hostname.getD [] = lowerHost u.hostChars := by
    rw [hhost]
    split_ifs with hnil
    · rw [hnil]
      rfl
    · rfl
  unfold redactUrlPassword
  rw [String.toList_ofList, hsplit]
  dsimp only
  rw [u.password_splitResult, hpassword, Option.map_some, hport]
  dsimp only
  rw [u.username_splitResult, hgetD]
  refine congrArg String.ofList ((u.geturl_splitResult _).trans ?_)
  unfold masked maskedNetloc hostsShown
  simp only [List.append_assoc, List.cons_append, List.nil_append]

/-- **A URL stays as it is** if it has no password or its port is not read. -/
theorem redactUrlPassword_of_not (h : ¬ (u.password.isSome ∧ u.PortReadable)) :
    redactUrlPassword (String.ofList u.text) = String.ofList u.text := by
  unfold redactUrlPassword
  rw [String.toList_ofList]
  by_cases hread : u.PortReadable
  · have hnone : u.password = none := Option.not_isSome_iff_eq_none.1 (fun hp => h ⟨hp, hread⟩)
    rw [(urlsplit_of_portReadable hread).1]
    dsimp only
    rw [u.password_splitResult, hnone]
    rfl
  · rcases urlsplit_of_not_portReadable hread with hsplit | ⟨hsplit, hport⟩
    · rw [hsplit]
    · rw [hsplit]
      dsimp only
      rw [hport]
      cases u.splitResult.password <;> rfl

end ConnectionUrl

/-- **`redact_url_password` is a redaction of URLs.** -/
def urlRedaction : Redaction where
  redact := redactUrlPassword
  Takes _ := True
  HasPassword u := u.password.isSome
  shown := ConnectionUrl.hostsShown
  redact_of_masked _ := ConnectionUrl.redactUrlPassword_of_masked
  redact_of_not _ := ConnectionUrl.redactUrlPassword_of_not
  isSome := id
  hasPassword_of_stars h := by
    rw [← Option.isSome_map (f := Spelling.chars), h]
    rfl
  shown_isShown := ConnectionUrl.shown_hostsShown
  shown_congr := ConnectionUrl.hostsShown_congr
  hostsShown_of_shown _ _ h := h
  shown_of_runsOn := ConnectionUrl.RunsOn.hostsShown_eq
  portReadable_of_shown := ConnectionUrl.portReadable_of_hostsShown
