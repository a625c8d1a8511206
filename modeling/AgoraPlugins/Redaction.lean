import AgoraPlugins.MaskedUrl

/-!
# Redactions

A redaction is to keep a password out of a text and everything else in it. One of connection URLs
that masks the password where it stands in front of the hosts and the port can be read, and leaves
a URL as it is otherwise, is a `Redaction`; what it shows of hosts is its own. What such a one does
not keep out are passwords in the query, and those in front of hosts whose port is not read
(`Redaction.redact_eq_iff_of_differs`). What it does not keep in is where an address ends and its
port begins (`Redaction.location_of_redact`).
-/

open Url ConnectionUrl

/-- **A redaction of URLs.** -/
structure Redaction where
  redact : String → String
  /-- the URLs that it is for -/
  Takes : ConnectionUrl → Prop
  /-- whether there is a password to mask -/
  HasPassword : ConnectionUrl → Prop
  /-- what is shown of the hosts -/
  shown : ConnectionUrl → List Char
  redact_of_masked : ∀ {u}, Takes u → HasPassword u → u.PortReadable →
    redact (String.ofList u.text) = String.ofList (u.masked (shown u))
  redact_of_not : ∀ {u}, Takes u → ¬ (HasPassword u ∧ u.PortReadable) →
    redact (String.ofList u.text) = String.ofList u.text
  isSome : ∀ {u}, HasPassword u → u.password.isSome
  hasPassword_of_stars : ∀ {u}, u.password.map Spelling.chars = some ['*', '*', '*'] →
    HasPassword u
  shown_isShown : ∀ u, Shown (shown u)
  shown_congr : ∀ {u v : ConnectionUrl}, u.host = v.host → u.more = v.more → shown u = shown v
  hostsShown_of_shown : ∀ {u v : ConnectionUrl}, u.PortReadable → v.PortReadable →
    shown u = shown v → u.hostsShown = v.hostsShown
  shown_of_runsOn : ∀ {u v : ConnectionUrl}, u.RunsOn v → shown u = shown v
  portReadable_of_shown : ∀ {u v : ConnectionUrl}, u.PortReadable → v.hostsText = shown u →
    v.PortReadable

namespace Redaction

variable (R : Redaction) {u v : ConnectionUrl}

/-- **Two URLs differ only in the password.** -/
def Differs (u v : ConnectionUrl) : Prop :=
  (u.DiffersInUserinfo v ∧ R.HasPassword u ∧ R.HasPassword v) ∨ u.DiffersInQuery v

variable {R}

/-- A URL that is written like a masked one would be masked. -/
theorem handled_of_text_eq_masked (hu : u.PortReadable) (h : v.text = u.masked (R.shown u)) :
    R.HasPassword v ∧ v.PortReadable := by
  obtain ⟨hpassword, hhosts⟩ := of_text_eq_masked (R.shown_isShown u) h
  exact ⟨R.hasPassword_of_stars hpassword, R.portReadable_of_shown hu hhosts⟩

/-- **What is kept**: what a URL names, unless it has a password and is confused with another. -/
theorem location_of_redact (tu : R.Takes u) (tv : R.Takes v)
    (h : R.redact (String.ofList u.text) = R.redact (String.ofList v.text)) :
    u.location = v.location ∨ R.HasPassword u ∧ R.HasPassword v ∧ u.Confused v := by
  by_cases hu : R.HasPassword u ∧ u.PortReadable
  · rw [R.redact_of_masked tu hu.1 hu.2] at h
    by_cases hv : R.HasPassword v ∧ v.PortReadable
    · rw [R.redact_of_masked tv hv.1 hv.2] at h
      obtain ⟨hscheme, hgetD, hshown, hpath, hquery⟩ :=
        masked_inj (R.shown_isShown u) (R.shown_isShown v) (String.ofList_inj.1 h)
      have huser := user_of_getD (R.isSome hu.1) (R.isSome hv.1) hgetD
      rcases hosts_of_hostsShown hu.2 hv.2 (R.hostsShown_of_shown hu.2 hv.2 hshown)
        with hhosts | hruns
      · refine .inl ?_
        unfold location
        rw [hscheme, huser, hhosts, hpath, hquery]
      · exact .inr ⟨hu.1, hv.1, hscheme, huser, hpath, hquery, hruns⟩
    · rw [R.redact_of_not tv hv] at h
      exact absurd (handled_of_text_eq_masked hu.2 (String.ofList_inj.1 h).symm) hv
  · rw [R.redact_of_not tu hu] at h
    by_cases hv : R.HasPassword v ∧ v.PortReadable
    · rw [R.redact_of_masked tv hv.1 hv.2] at h
      exact absurd (handled_of_text_eq_masked hv.2 (String.ofList_inj.1 h)) hu
    · rw [R.redact_of_not tv hv] at h
      exact .inl (location_of_text (String.ofList_inj.1 h))

/-- URLs that are confused are redacted to one text. -/
theorem redact_of_confused (tu : R.Takes u) (tv : R.Takes v) (hu : R.HasPassword u)
    (hv : R.HasPassword v) (h : u.Confused v) :
    R.redact (String.ofList u.text) = R.redact (String.ofList v.text) := by
  obtain ⟨uread, vread⟩ := h.portReadable
  obtain ⟨hscheme, huser, hpath, hquery, hruns⟩ := h
  have hshown : R.shown u = R.shown v :=
    hruns.elim R.shown_of_runsOn (fun hruns => (R.shown_of_runsOn hruns).symm)
  rw [R.redact_of_masked tu hu uread, R.redact_of_masked tv hv vread, hshown,
    masked_congr hscheme huser hpath hquery]

/-- **What is kept out**: a password in front of the hosts, if the port is read. -/
theorem redact_eq_iff_of_differs (tu : R.Takes u) (tv : R.Takes v) (h : R.Differs u v) :
    R.redact (String.ofList u.text) = R.redact (String.ofList v.text)
      ↔ u = v ∨ u.query = v.query ∧ u.PortReadable := by
  rcases h with ⟨h, pu, pv⟩ | h
  · obtain ⟨_, hhost, hmore, _, hquery⟩ := h.hosts_eq
    have hread := portReadable_congr hhost hmore
    by_cases hu : u.PortReadable
    · rw [R.redact_of_masked tu pu hu, R.redact_of_masked tv pv (hread.1 hu),
        R.shown_congr hhost hmore, h.masked_eq]
      exact iff_of_true rfl (.inr ⟨hquery, hu⟩)
    · rw [R.redact_of_not tu (fun hboth => hu hboth.2),
        R.redact_of_not tv (fun hboth => hu (hread.2 hboth.2))]
      constructor
      · exact fun heq => .inl (h.eq_of_text (String.ofList_inj.1 heq))
      · rintro (rfl | ⟨_, hu'⟩)
        · rfl
        · exact absurd hu' hu
  · constructor
    · intro heq
      refine .inl (h.eq_of_queryChars ?_)
      by_contra hne
      rcases location_of_redact tu tv heq with hlocation | ⟨_, _, hconfused⟩
      · exact hne (congrArg Location.query hlocation)
      · exact hne hconfused.2.2.2.1
    · rintro (rfl | ⟨hquery, _⟩)
      · rfl
      · have hchars : u.queryChars = v.queryChars := by
          unfold queryChars
          rw [hquery]
        rw [h.eq_of_queryChars hchars]

/-- **A redaction, in both directions**: whether the URLs that differ only in the password become
one text, and those that name different things become two. What a client takes a location to name
is a parameter: parameters of the query may stand for parts of the URL, and ports that are left
out for others. -/
theorem keeps_iff {N : Type} (named : Location → N) (tu : R.Takes u) (tv : R.Takes v) :
    ((R.Differs u v → R.redact (String.ofList u.text) = R.redact (String.ofList v.text))
      ∧ (named u.location ≠ named v.location →
        R.redact (String.ofList u.text) ≠ R.redact (String.ofList v.text)))
      ↔ (R.Differs u v → u = v ∨ u.query = v.query ∧ u.PortReadable)
        ∧ (named u.location ≠ named v.location →
          ¬ (R.HasPassword u ∧ R.HasPassword v ∧ u.Confused v)) := by
  refine and_congr (forall_congr' (fun h => redact_eq_iff_of_differs tu tv h))
    (forall_congr' (fun hne => not_congr ⟨fun heq => ?_, fun h => ?_⟩))
  · exact (location_of_redact tu tv heq).resolve_left (fun h => hne (congrArg named h))
  · exact redact_of_confused tu tv h.1 h.2.1 h.2.2

end Redaction
