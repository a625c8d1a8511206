import AgoraPlugins.Postgres.KeywordDsn

/-!
# The identity of the PostgreSQL source

The source connects by a DSN in either form, which `redact_postgres_dsn` takes the passwords out of
before it is logged, and before it becomes a part of the identity of the source. For both forms it
is shown when a password is kept out (`PostgresDsn.KeptOut`), and when what a DSN names is kept in.
-/

open Url

/-! ## DSNs of both forms -/

/-- **A DSN**: a URI, or settings. -/
inductive PostgresDsn where
  | uri (u : ConnectionUrl) (isUri : u.IsUri)
  | keyword (d : KeywordDsn)

namespace PostgresDsn

def text : PostgresDsn → String
  | .uri u _ => String.ofList u.text
  | .keyword d => String.ofList d.text

/-- **Two DSNs differ only in the password.** -/
def Differs : PostgresDsn → PostgresDsn → Prop
  | .uri u _, .uri v _ => uriRedaction.Differs u v
  | .keyword d, .keyword e => d.Differs e
  | _, _ => False

def IsUri : PostgresDsn → Prop
  | .uri _ _ => True
  | .keyword _ => False

/-- **The password is kept out**: of a URI, if it stands in front of the hosts and the port is read;
of settings, if the pattern takes it to its end. -/
def KeptOut : PostgresDsn → PostgresDsn → Prop
  | .uri u _, .uri v _ => u = v ∨ u.query = v.query ∧ u.PortReadable
  | .keyword d, .keyword e => d.Aligned ∧ e.Aligned
  | _, _ => False

theorem redact_uriRedaction : uriRedaction.redact = redactPostgresDsn := rfl

theorem redactPostgresDsn_uri {u v : ConnectionUrl} (hu : u.IsUri) (hv : v.IsUri)
    (h : uriRedaction.Differs u v) :
    redactPostgresDsn (text (.uri u hu)) = redactPostgresDsn (text (.uri v hv))
      ↔ KeptOut (.uri u hu) (.uri v hv) := by
  rw [← redact_uriRedaction]
  exact uriRedaction.redact_eq_iff_of_differs hu hv h

/-- **When the redacted DSN says nothing about the password.** -/
theorem redactPostgresDsn_of_differs {d e : PostgresDsn} (h : d.Differs e) :
    (d.KeptOut e → redactPostgresDsn d.text = redactPostgresDsn e.text)
      ∧ (d.IsUri → redactPostgresDsn d.text = redactPostgresDsn e.text → d.KeptOut e) := by
  cases d with
  | uri u hu =>
    cases e with
    | uri v hv =>
      have hiff := redactPostgresDsn_uri hu hv h
      exact ⟨hiff.2, fun _ => hiff.1⟩
    | keyword e => exact h.elim
  | keyword d =>
    cases e with
    | uri v hv => exact h.elim
    | keyword e =>
      exact ⟨fun hkept => KeywordDsn.redact_eq_of_differs hkept.1 hkept.2 h,
        fun huri => huri.elim⟩

end PostgresDsn

/-! ## The source -/

/-- **The input of a `PostgresSource`**, which its identity is of. The DSN is the one that its
configuration resolves to. -/
structure PostgresInput where
  dsn : String
  query : String
  baseParams : List (String × Json)
  checkpointField : Option String
  checkpointParam : Option String
  checkpointFields : List String
  checkpointParams : List (String × String)
  readRouting : String

namespace PostgresInput

/-- **`checkpoint_source_identity`**. -/
def checkpointSourceIdentity (sha256 : String → String) (source : PostgresInput) :
    SourceIdentity :=
  fingerprintSourceIdentity sha256 "postgres" [
    ("base_params", .obj source.baseParams),
    ("checkpoint_field", source.checkpointField.elim .null .str),
    ("checkpoint_fields", .arr (source.checkpointFields.map .str)),
    ("checkpoint_param", source.checkpointParam.elim .null .str),
    ("checkpoint_params", .obj (source.checkpointParams.map (fun p => (p.1, .str p.2)))),
    ("connection", .str (redactPostgresDsn source.dsn)),
    ("query", .str source.query),
    ("read_routing", .str source.readRouting)]

/-- The source with another DSN. -/
def withDsn (source : PostgresInput) (dsn : String) : PostgresInput := { source with dsn }

/-- **Of the DSN, its redaction is in the identity**, and nothing else. -/
theorem identity_withDsn_eq_iff {sha256 : String → String} (hsha : Function.Injective sha256)
    (source : PostgresInput) (x y : String) :
    (source.withDsn x).checkpointSourceIdentity sha256
        = (source.withDsn y).checkpointSourceIdentity sha256
      ↔ redactPostgresDsn x = redactPostgresDsn y := by
  unfold checkpointSourceIdentity
  rw [fingerprint_eq_iff hsha]
  constructor
  · intro h
    simp only [withDsn, Json.compactMembers, Json.compact, List.append_assoc, List.cons_append,
      List.append_cancel_left_eq, List.cons.injEq, true_and] at h
    exact (Json.asciiString_append_inj h).1
  · intro h
    simp only [withDsn, h]

end PostgresInput

/-! ## What identities tell apart -/

namespace Redaction

variable (R : Redaction) {N A : Type} (named : Location → N)

/-- **An identity is of what a URL names**: URLs that differ only in the password have the same, and
those that name different things have different ones. -/
def Identifies (identity : String → A) (u v : ConnectionUrl) : Prop :=
  (R.Differs u v → identity (String.ofList u.text) = identity (String.ofList v.text))
    ∧ (named u.location ≠ named v.location →
      identity (String.ofList u.text) ≠ identity (String.ofList v.text))

/-- **The password stands in front of hosts whose port is read**, if the URLs differ in it, and no
address runs on into a port, if they name different things. -/
def Tells (u v : ConnectionUrl) : Prop :=
  (R.Differs u v → u = v ∨ u.query = v.query ∧ u.PortReadable)
    ∧ (named u.location ≠ named v.location →
      ¬ (R.HasPassword u ∧ R.HasPassword v ∧ u.Confused v))

variable {R}

theorem identifies_iff {identity : String → A}
    (h : ∀ x y, identity x = identity y ↔ R.redact x = R.redact y) {u v : ConnectionUrl}
    (tu : R.Takes u) (tv : R.Takes v) : R.Identifies named identity u v ↔ R.Tells named u v := by
  unfold Identifies
  simp only [ne_eq, h]
  exact keeps_iff named tu tv

end Redaction

/-- **When the identities of sources are those of what they name.** What clients take locations and
settings to name are parameters. -/
theorem checkpointSourceIdentities_iff {sha256 : String → String}
    (hsha : Function.Injective sha256) {N M : Type} (named : Location → N)
    (namedBy : List (List Char × List Char) → M) :
    (∀ (source : RedisStreamSource) (field : RedisStreamSource.UrlField) (u v : ConnectionUrl),
      urlRedaction.Identifies named
          (fun url => (source.withUrl field url).checkpointSourceIdentity sha256) u v
        ↔ urlRedaction.Tells named u v)
      ∧ (∀ (source : PostgresInput) (u v : ConnectionUrl), u.IsUri → v.IsUri →
        (uriRedaction.Identifies named
            (fun dsn => (source.withDsn dsn).checkpointSourceIdentity sha256) u v
          ↔ uriRedaction.Tells named u v))
      ∧ (∀ (source : PostgresInput) (d e : KeywordDsn),
        (d.Aligned → e.Aligned → d.Differs e →
          (source.withDsn (String.ofList d.text)).checkpointSourceIdentity sha256
            = (source.withDsn (String.ofList e.text)).checkpointSourceIdentity sha256)
        ∧ (d.Handled → e.Handled → namedBy d.location ≠ namedBy e.location →
          (source.withDsn (String.ofList d.text)).checkpointSourceIdentity sha256
            ≠ (source.withDsn (String.ofList e.text)).checkpointSourceIdentity sha256))
      ∧ ∀ (source : PostgresInput) (u : ConnectionUrl) (d : KeywordDsn), u.IsUri → d.Handled →
        (source.withDsn (String.ofList u.text)).checkpointSourceIdentity sha256
          ≠ (source.withDsn (String.ofList d.text)).checkpointSourceIdentity sha256 := by
  refine ⟨fun source field u v => ?_, fun source u v hu hv => ?_, fun source d e => ⟨?_, ?_⟩, ?_⟩
  · exact Redaction.identifies_iff named
      (source.checkpointSourceIdentity_eq_iff hsha field) trivial trivial
  · exact Redaction.identifies_iff named (source.identity_withDsn_eq_iff hsha) hu hv
  · intro hd he h
    rw [source.identity_withDsn_eq_iff hsha]
    exact KeywordDsn.redact_eq_of_differs hd he h
  · intro hd he hne heq
    rw [source.identity_withDsn_eq_iff hsha] at heq
    exact hne (congrArg namedBy (KeywordDsn.location_of_redact hd he heq))
  · intro source u d hu hd heq
    rw [source.identity_withDsn_eq_iff hsha] at heq
    exact KeywordDsn.uri_ne hu hd heq

/-! ## URIs of two kinds -/

namespace PostgresDsn

/-- `postgresql://app:…@a:5432,b:5432/db`. -/
def severalHosts (password : Spelling isPasswordChar) : ConnectionUrl where
  scheme := ⟨['p', 'o', 's', 't', 'g', 'r', 'e', 's', 'q', 'l'], by decide, by decide⟩
  credentials := some ⟨⟨['a', 'p', 'p'], by decide⟩, some password⟩
  host := ⟨.name ⟨['a'], by decide⟩, some ⟨['5', '4', '3', '2'], by decide, by decide, by decide⟩⟩
  more :=
    [⟨.name ⟨['b'], by decide⟩, some ⟨['5', '4', '3', '2'], by decide, by decide, by decide⟩⟩]
  path := some ⟨['d', 'b'], by decide⟩
  query := none

/-- `postgresql://db/app?password=…`. -/
def passwordInQuery (query : Spelling isQueryChar) : ConnectionUrl where
  scheme := ⟨['p', 'o', 's', 't', 'g', 'r', 'e', 's', 'q', 'l'], by decide, by decide⟩
  credentials := none
  host := ⟨.name ⟨['d', 'b'], by decide⟩, none⟩
  more := []
  path := some ⟨['a', 'p', 'p'], by decide⟩
  query := some query

/-- `postgresql://app:…@db/app`. -/
def oneHost (password : Spelling isPasswordChar) : ConnectionUrl where
  scheme := ⟨['p', 'o', 's', 't', 'g', 'r', 'e', 's', 'q', 'l'], by decide, by decide⟩
  credentials := some ⟨⟨['a', 'p', 'p'], by decide⟩, some password⟩
  host := ⟨.name ⟨['d', 'b'], by decide⟩, none⟩
  more := []
  path := some ⟨['a', 'p', 'p'], by decide⟩
  query := none

def passwordOne : Spelling isPasswordChar := ⟨['o', 'n', 'e'], by decide⟩

def passwordTwo : Spelling isPasswordChar := ⟨['t', 'w', 'o'], by decide⟩

end PostgresDsn

namespace PostgresDsn

theorem isUri_oneHost (password : Spelling isPasswordChar) : (oneHost password).IsUri := by
  refine ⟨.inl rfl, fun h hmem heq => ?_⟩
  obtain rfl := List.mem_singleton.1 hmem
  cases heq

theorem differs_oneHost :
    uriRedaction.Differs (oneHost passwordOne) (oneHost passwordTwo) :=
  .inl ⟨⟨_, passwordOne, passwordTwo, rfl, rfl⟩, ⟨passwordOne, rfl, List.cons_ne_nil _ _⟩,
    ⟨passwordTwo, rfl, List.cons_ne_nil _ _⟩⟩

/-- With one host, the password is kept out. -/
theorem redactPostgresDsn_oneHost :
    redactPostgresDsn (text (.uri (oneHost passwordOne) (isUri_oneHost _)))
      = redactPostgresDsn (text (.uri (oneHost passwordTwo) (isUri_oneHost _))) :=
  (redactPostgresDsn_of_differs
    (d := .uri (oneHost passwordOne) (isUri_oneHost _))
    (e := .uri (oneHost passwordTwo) (isUri_oneHost _)) differs_oneHost).1
    (.inr ⟨rfl, .inl rfl⟩)

/-- **The password in a query is not.** -/
theorem not_redactPostgresDsn_passwordInQuery : ¬ ∀ d e : PostgresDsn, d.Differs e →
    redactPostgresDsn d.text = redactPostgresDsn e.text := by
  intro h
  have huri : ∀ query, (passwordInQuery query).IsUri := by
    refine fun query => ⟨.inl rfl, fun h hmem heq => ?_⟩
    obtain rfl := List.mem_singleton.1 hmem
    cases heq
  let one : Spelling isQueryChar :=
    ⟨['p', 'a', 's', 's', 'w', 'o', 'r', 'd', '=', 'o', 'n', 'e'], by decide⟩
  let two : Spelling isQueryChar :=
    ⟨['p', 'a', 's', 's', 'w', 'o', 'r', 'd', '=', 't', 'w', 'o'], by decide⟩
  have hdiffers : uriRedaction.Differs (passwordInQuery one) (passwordInQuery two) :=
    .inr ⟨one, two, [], ['o', 'n', 'e'], ['t', 'w', 'o'], [], rfl, rfl, rfl, rfl, .inl rfl,
      .inl rfl, by decide, by decide⟩
  have hsame := h (.uri _ (huri one)) (.uri _ (huri two)) hdiffers
  have hquery : (passwordInQuery one).query ≠ (passwordInQuery two).query := by
    intro heq
    have hchars := congrArg (Option.map Spelling.chars) heq
    exact absurd hchars (by decide)
  rcases (redactPostgresDsn_uri (huri one) (huri two) hdiffers).1 hsame
    with heq | ⟨heq, _⟩
  · exact hquery (congrArg ConnectionUrl.query heq)
  · exact hquery heq

end PostgresDsn

namespace PostgresInput

/-- A source of one number. -/
def selectOne : PostgresInput := ⟨"", "select 1", [], none, none, [], [], "dsn"⟩

/-- With one host, the identity does not change with the password. -/
theorem identities_oneHost : uriRedaction.Identifies id
    (fun dsn => (selectOne.withDsn dsn).checkpointSourceIdentity id)
    (PostgresDsn.oneHost PostgresDsn.passwordOne)
    (PostgresDsn.oneHost PostgresDsn.passwordTwo) :=
  ((checkpointSourceIdentities_iff Function.injective_id id
      (id : List (List Char × List Char) → List (List Char × List Char))).2.1 selectOne _ _
    (PostgresDsn.isUri_oneHost _) (PostgresDsn.isUri_oneHost _)).2
    ⟨fun _ => .inr ⟨rfl, .inl rfl⟩, fun hne => absurd rfl hne⟩

/-- **With several hosts, it does.** -/
theorem not_identifies_severalHosts : ¬ ∀ (sha256 : String → String),
    Function.Injective sha256 → ∀ (source : PostgresInput) (u v : ConnectionUrl), u.IsUri →
    v.IsUri → uriRedaction.Identifies id
      (fun dsn => (source.withDsn dsn).checkpointSourceIdentity sha256) u v := by
  intro h
  have huri : ∀ password, (PostgresDsn.severalHosts password).IsUri := by
    refine fun password => ⟨.inl rfl, fun h hmem => ?_⟩
    have hport : h.number = some 5432 := by
      rcases List.mem_cons.1 hmem with rfl | hmem
      · rfl
      · obtain rfl := List.mem_singleton.1 hmem
        rfl
    rw [hport]
    decide
  have hdiffers : uriRedaction.Differs (PostgresDsn.severalHosts PostgresDsn.passwordOne)
      (PostgresDsn.severalHosts PostgresDsn.passwordTwo) :=
    .inl ⟨⟨_, PostgresDsn.passwordOne, PostgresDsn.passwordTwo, rfl, rfl⟩,
      ⟨PostgresDsn.passwordOne, rfl, List.cons_ne_nil _ _⟩,
      ⟨PostgresDsn.passwordTwo, rfl, List.cons_ne_nil _ _⟩⟩
  have hsame := (h id Function.injective_id selectOne _ _ (huri PostgresDsn.passwordOne)
    (huri PostgresDsn.passwordTwo)).1 hdiffers
  have hredacted := (selectOne.identity_withDsn_eq_iff Function.injective_id _ _).1 hsame
  rcases (PostgresDsn.redactPostgresDsn_uri (huri _) (huri _) hdiffers).1 hredacted
    with heq | ⟨_, hread⟩
  · have hchars := congrArg (fun u => u.password.map Spelling.chars) heq
    exact absurd hchars (by decide)
  · rcases hread with hmore | ⟨_, hports⟩
    · exact absurd hmore (List.cons_ne_nil _ _)
    · have hport := hports _ List.mem_cons_self
      cases hport

end PostgresInput
