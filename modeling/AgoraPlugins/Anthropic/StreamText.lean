import AgoraPlugins.Anthropic.BatchResults

/-!
# Streamed text

`stream_text` opens a stream, hands out the text of its events as they arrive, and opens another
one when something fails and the retry policy says so. What it has handed out cannot be taken back,
so it makes no other attempt once it has: a failure later on is raised.

The attempts may stream different texts, and anything may fail: the throttle, the timeout and the
stream, where they are entered, where they are left and in between, the caller at each chunk, and
the pause before the next attempt. Whatever does, all that is handed out comes from one attempt, the
last one, in order and from its start (`AnthropicStream.streamText_spec`).
-/

open Effect

namespace AnthropicValue

/-- `getattr(value, name, None)`, for a name that a dict has no attribute of. -/
def getattr (value : AnthropicValue) (name : String) : AnthropicValue :=
  match value with
  | object _ _ attributes => (attributes.lookup name).getD none
  | none | str _ | dict _ _ _ => none

/-- **The text of an event**, if it has any: of its delta or else its own. -/
def eventText (event : AnthropicValue) : Option String :=
  let deltaText := (event.getattr "delta").getattr "text"
  match if deltaText.truthy then deltaText else event.getattr "text" with
  | str text => if text ≠ "" then some text else Option.none
  | none | dict _ _ _ | object _ _ _ => Option.none

end AnthropicValue

/-- What is entered for an attempt. -/
inductive StreamContext where
  | throttle
  | timeout
  | manager
  deriving DecidableEq

/-- **A stream of text**, and what it meets: the events of each attempt, and which exceptions are
suppressed where a context is left. -/
structure AnthropicStream where
  requestTimeout : Bool
  events : ℕ → List AnthropicValue
  suppresses : StreamContext → Exc → Bool
  shouldRetry : Exc → ℕ → Bool

/-- The variables of `stream_text`, what has been handed out in which attempt, and the replies it
will meet. -/
structure StreamTextState where
  yieldedChunk : Bool := false
  attempt : ℕ := 1
  yielded : List (ℕ × String) := []
  script : List Reply := []

abbrev StreamTextM (β : Type) := EStateM Exc StreamTextState β

namespace AnthropicStream

/-- What may raise takes the next reply. -/
def await : StreamTextM Unit := do
  zoom StreamTextState.script (fun s script => { s with script }) nextReply

variable (cfg : AnthropicStream)

/-- **`async with`.** What is raised where the context is left takes the place of what was raised in
it. -/
def within (context : StreamContext) (m : StreamTextM Unit) : StreamTextM Unit := do
  await
  let raised ← tryCatch
    (do
      m
      pure none)
    (fun e => pure (some e))
  await
  match raised with
  | none => pure ()
  | some e => if cfg.suppresses context e then pure () else throw e

/-- **The loop over the texts** of `_iter_stream_events`. -/
def yieldTexts (attempt : ℕ) : List AnthropicValue → StreamTextM Unit
  | [] => await
  | event :: events => do
    await
    match event.eventText with
    | none => yieldTexts attempt events
    | some text => do
      modify (fun s =>
        { s with yieldedChunk := true, yielded := s.yielded ++ [(attempt, text)] })
      await -- the caller
      yieldTexts attempt events

/-- A stream is opened and read. -/
def readStream (attempt : ℕ) : StreamTextM Unit := do
  await -- the call of `stream`
  cfg.within .manager (yieldTexts attempt (cfg.events attempt))

/-- One attempt. -/
def streamAttempt (attempt : ℕ) : StreamTextM Unit :=
  cfg.within .throttle
    (if cfg.requestTimeout then cfg.within .timeout (cfg.readStream attempt)
    else cfg.readStream attempt)

/-- `except Exception`, around an attempt: whether there is another one. -/
def onAttemptError (e : Exc) : StreamTextM Bool := do
  let s ← get
  if e.isException && !s.yieldedChunk && cfg.shouldRetry e s.attempt then do
    await -- the delay
    await -- the pause
    modify (fun s => { s with attempt := s.attempt + 1 })
    pure true
  else throw e

/-- The loop over the attempts, as far as the fuel goes; whether it has come to its end. -/
def attemptLoop : ℕ → StreamTextM Bool
  | 0 => pure false
  | fuel + 1 => do
    let again ← tryCatch
      (do
        let s ← get
        cfg.streamAttempt s.attempt
        pure false)
      cfg.onAttemptError
    if again then attemptLoop fuel else pure true

/-- **`stream_text`.** -/
def streamText (fuel : ℕ) : StreamTextM Bool := do
  modify (fun s => { s with yieldedChunk := false, attempt := 1 })
  cfg.attemptLoop fuel

/-- **The chunks of an attempt.** -/
def chunks (attempt : ℕ) : List String := (cfg.events attempt).filterMap AnthropicValue.eventText

/-! ## What a computation hands out -/

/-- **Some chunks have been handed out** in an attempt, and if there are any this is noted. -/
structure Extends (attempt : ℕ) (p : List String) (s t : StreamTextState) : Prop where
  attempt_eq : t.attempt = s.attempt
  yielded : t.yielded = s.yielded ++ p.map (fun text => (attempt, text))
  noted : t.yieldedChunk = (s.yieldedChunk || !p.isEmpty)

section Extends

variable {attempt : ℕ} {p q : List String} {s t u : StreamTextState}

theorem extends_nil (h : t.attempt = s.attempt) (hyielded : t.yielded = s.yielded)
    (hnoted : t.yieldedChunk = s.yieldedChunk) : Extends attempt [] s t where
  attempt_eq := h
  yielded := by rw [hyielded, List.map_nil, List.append_nil]
  noted := by rw [hnoted, List.isEmpty_nil, Bool.not_true, Bool.or_false]

theorem Extends.trans (h : Extends attempt p s t) (h' : Extends attempt q t u) :
    Extends attempt (p ++ q) s u where
  attempt_eq := h'.attempt_eq.trans h.attempt_eq
  yielded := by rw [h'.yielded, h.yielded, List.append_assoc, List.map_append]
  noted := by
    rw [h'.noted, h.noted, Bool.or_assoc]
    cases p with
    | nil => rfl
    | cons => rfl

/-- Nothing has been handed out if nothing is noted. -/
theorem Extends.eq_nil (h : Extends attempt p s t) (hnoted : t.yieldedChunk = false) :
    p = [] := by
  have hempty := h.noted.symm.trans hnoted
  rw [Bool.or_eq_false_iff, Bool.not_eq_false'] at hempty
  exact List.isEmpty_iff.1 hempty.2

end Extends

/-- **The first of some chunks are handed out**, whatever happens. -/
def Yields (attempt : ℕ) (chunks : List String) {β : Type} (m : StreamTextM β) : Prop :=
  ∀ s, Ensures m s (fun _ t => ∃ p, p <+: chunks ∧ Extends attempt p s t)

section Yields

variable {cfg} {attempt : ℕ} {texts : List String} {β γ : Type}

omit cfg in
theorem ensures_await {s : StreamTextState} {Q : Except Exc Unit → StreamTextState → Prop}
    (h : ∀ r script, Q r { s with script }) : Ensures await s Q := by
  unfold await
  rw [ensures_zoom]
  exact ensures_nextReply (fun script => h _ script) (fun e script => h _ script)

theorem yields_pure (b : β) : Yields attempt texts (pure b) :=
  fun _ => ⟨[], List.nil_prefix, extends_nil rfl rfl rfl⟩

theorem yields_throw (e : Exc) : Yields attempt texts (throw e : StreamTextM β) :=
  fun _ => ⟨[], List.nil_prefix, extends_nil rfl rfl rfl⟩

theorem yields_await : Yields attempt texts await :=
  fun _ => ensures_await (fun _ _ => ⟨[], List.nil_prefix, extends_nil rfl rfl rfl⟩)

/-- Nothing is handed out before. -/
theorem Yields.after {m : StreamTextM β} {f : β → StreamTextM γ} (hm : Yields attempt [] m)
    (hf : ∀ b, Yields attempt texts (f b)) : Yields attempt texts (m >>= f) := by
  intro s
  refine (hm s).bind (fun b t ht => ?_) (fun e t ht => ?_)
  · obtain ⟨p, hp, hst⟩ := ht
    obtain rfl := List.prefix_nil.1 hp
    refine (hf b t).mono (fun _ u hu => ?_)
    obtain ⟨q, hq, htu⟩ := hu
    exact ⟨q, hq, hst.trans htu⟩
  · obtain ⟨p, hp, hst⟩ := ht
    exact ⟨p, hp.trans List.nil_prefix, hst⟩

/-- Nothing is handed out afterwards. -/
theorem Yields.before {m : StreamTextM β} {f : β → StreamTextM γ} (hm : Yields attempt texts m)
    (hf : ∀ b, Yields attempt [] (f b)) : Yields attempt texts (m >>= f) := by
  intro s
  refine (hm s).bind (fun b t ht => ?_) (fun e t ht => ht)
  obtain ⟨p, hp, hst⟩ := ht
  refine (hf b t).mono (fun _ u hu => ?_)
  obtain ⟨q, hq, htu⟩ := hu
  obtain rfl := List.prefix_nil.1 hq
  exact ⟨p ++ [], (List.append_nil p).symm ▸ hp, hst.trans htu⟩

/-- **Entering and leaving a context** hands out nothing, whatever becomes of an exception. -/
theorem Yields.within {m : StreamTextM Unit} (hm : Yields attempt texts m)
    (context : StreamContext) : Yields attempt texts (cfg.within context m) := by
  refine yields_await.after (fun _ => Yields.before ?_ (fun raised => ?_))
  · intro s
    rw [ensures_tryCatch]
    refine ((hm.before (fun _ => yields_pure none)) s).mono (fun r t ht => ?_)
    cases r with
    | ok raised => exact ht
    | error e => exact ht
  · refine yields_await.after (fun _ => ?_)
    cases raised with
    | none => exact yields_pure _
    | some e =>
      dsimp only
      split
      · exact yields_pure _
      · exact yields_throw e

/-- **The texts of the events** are handed out. By induction on the events. -/
theorem yields_yieldTexts (events : List AnthropicValue) :
    Yields attempt (events.filterMap AnthropicValue.eventText) (yieldTexts attempt events) := by
  induction events with
  | nil => exact yields_await
  | cons event events ih =>
    refine yields_await.after (fun _ => ?_)
    cases htext : event.eventText with
    | none =>
      rw [List.filterMap_cons_none htext]
      exact ih
    | some text =>
      rw [List.filterMap_cons_some htext]
      dsimp only
      intro s
      rw [ensures_bind, ensures_modify]
      -- what comes after this chunk
      have hrest : Yields attempt (events.filterMap AnthropicValue.eventText) (do
          await
          yieldTexts attempt events) := yields_await.after (fun _ => ih)
      refine (hrest _).mono (fun _ t ht => ?_)
      obtain ⟨p, hp, hst⟩ := ht
      refine ⟨text :: p, List.cons_prefix_cons.2 ⟨rfl, hp⟩, hst.attempt_eq, ?_, ?_⟩
      · rw [hst.yielded, List.append_assoc]
        rfl
      · rw [hst.noted, Bool.true_or, List.isEmpty_cons, Bool.not_false, Bool.or_true]

theorem yields_streamAttempt : Yields attempt (cfg.chunks attempt) (cfg.streamAttempt attempt) := by
  have hread : Yields attempt (cfg.chunks attempt) (cfg.readStream attempt) :=
    yields_await.after (fun _ => (yields_yieldTexts (cfg.events attempt)).within .manager)
  unfold streamAttempt
  split
  · exact (hread.within .timeout).within .throttle
  · exact hread.within .throttle

end Yields

/-! ## Another attempt -/

section Attempts

variable {cfg}

/-- All that has been handed out since `s` comes from the attempt that was made last. -/
def FromLast (cfg : AnthropicStream) (s t : StreamTextState) : Prop :=
  ∃ p, p <+: cfg.chunks t.attempt
    ∧ t.yielded = s.yielded ++ p.map (fun text => (t.attempt, text))

/-- **After a failure** there is another attempt only if nothing has been handed out. -/
theorem ensures_onAttemptError (e : Exc) (s : StreamTextState) :
    Ensures (cfg.onAttemptError e) s (fun r t => t.yielded = s.yielded
      ∧ (t.attempt = s.attempt ∨ s.yieldedChunk = false)
      ∧ (r = .ok true → s.yieldedChunk = false)) := by
  unfold onAttemptError
  rw [ensures_bind, ensures_get]
  dsimp only
  split
  · rename_i hretry
    have hnot : s.yieldedChunk = false := by
      simp only [Bool.and_eq_true, Bool.not_eq_true'] at hretry
      exact hretry.1.2
    refine Ensures.bind (ensures_await (Q := fun _ t => ∃ script, t = { s with script })
      (fun _ script => ⟨script, rfl⟩)) ?_ ?_
    · rintro _ _ ⟨script, rfl⟩
      refine Ensures.bind (ensures_await (Q := fun _ t => ∃ script, t = { s with script })
        (fun _ script => ⟨script, rfl⟩)) ?_ ?_
      · rintro _ _ ⟨script, rfl⟩
        exact ⟨rfl, .inr hnot, fun _ => hnot⟩
      · rintro _ _ ⟨script, rfl⟩
        exact ⟨rfl, .inl rfl, fun _ => hnot⟩
    · rintro _ _ ⟨script, rfl⟩
      exact ⟨rfl, .inl rfl, fun _ => hnot⟩
  · exact ⟨rfl, .inl rfl, fun h => by cases h⟩

/-- **One attempt**, and what is done when it fails. -/
theorem ensures_attempt (s : StreamTextState) :
    Ensures (tryCatch
      (do
        let s ← get
        cfg.streamAttempt s.attempt
        pure false)
      cfg.onAttemptError) s
      (fun r t => FromLast cfg s t
        ∧ (r = .ok true → t.yielded = s.yielded)) := by
  rw [ensures_tryCatch, ensures_bind, ensures_get]
  dsimp only
  have hattempt : Yields s.attempt (cfg.chunks s.attempt) (cfg.streamAttempt s.attempt) :=
    yields_streamAttempt
  refine (hattempt s).bind (fun _ t ht => ?_) (fun e t ht => ?_)
  · obtain ⟨p, hp, hst⟩ := ht
    rw [← hst.attempt_eq] at hp
    refine ⟨⟨p, hp, ?_⟩, fun h => by cases h⟩
    rw [hst.yielded, hst.attempt_eq]
  · obtain ⟨p, hp, hst⟩ := ht
    refine (ensures_onAttemptError e t).mono (fun r u hu => ?_)
    obtain ⟨hyielded, hattempt, hretry⟩ := hu
    refine ⟨?_, fun hr => ?_⟩
    · rcases hattempt with hattempt | hnot
      · refine ⟨p, ?_, ?_⟩
        · rw [hattempt, hst.attempt_eq]
          exact hp
        · rw [hyielded, hst.yielded, hattempt, hst.attempt_eq]
      · refine ⟨[], List.nil_prefix, ?_⟩
        rw [hyielded, hst.yielded, hst.eq_nil hnot]
        rfl
    · rw [hyielded, hst.yielded, hst.eq_nil (hretry hr), List.map_nil, List.append_nil]

/-- **The attempts**, one after the other. By induction on the fuel. -/
theorem ensures_attemptLoop (fuel : ℕ) (s : StreamTextState) :
    Ensures (cfg.attemptLoop fuel) s (fun _ t => FromLast cfg s t) := by
  induction fuel generalizing s with
  | zero => exact ⟨[], List.nil_prefix, (List.append_nil _).symm⟩
  | succ fuel ih =>
    unfold attemptLoop
    refine (ensures_attempt s).bind (fun again t ht => ?_) (fun e t ht => ht.1)
    cases again with
    | false => exact ht.1
    | true =>
      -- nothing has been handed out so far
      have hyielded := ht.2 rfl
      refine (ih t).mono (fun _ u hu => ?_)
      obtain ⟨p, hp, hpu⟩ := hu
      exact ⟨p, hp, by rw [hpu, hyielded]⟩

end Attempts

/-- **The chunks handed out are the first of one attempt**, the last one, whatever fails. -/
theorem streamText_spec (cfg : AnthropicStream) (fuel : ℕ) (s : StreamTextState) :
    Ensures (cfg.streamText fuel) s (fun _ t => ∃ p, p <+: cfg.chunks t.attempt
      ∧ t.yielded = s.yielded ++ p.map (fun text => (t.attempt, text))) := by
  unfold streamText
  rw [ensures_bind, ensures_modify]
  exact ensures_attemptLoop fuel _

end AnthropicStream
