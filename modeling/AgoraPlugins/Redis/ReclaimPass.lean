import AgoraPlugins.Redis.StreamCheckpoint

/-!
# A pass through the pending entries

`XAUTOCLAIM` looks at so many pending entries from its cursor on, and answers where the next one is
to go on. A source that goes on there comes to every entry that is idle: the cursor is never beyond
one it has not been handed.

What comes in as the cursor is a text, or bytes if the client does not decode its replies, and
`parse_xautoclaim_response` takes a text only. With bytes the source begins at the beginning each
time, and if there are many entries there that are not idle, it never gets to those behind them.
-/

open Machine

namespace StreamSource

/-! ## What the client hands over -/

/-- **A value in a reply.** -/
inductive Value where
  | str (s : String)
  | bytes (bs : List UInt8)
  | list (vs : List Value)
  | tuple (vs : List Value)
  | other

/-- The cursor of a response: a text that is not empty, or the start. -/
def Value.toCursor : Value → String
  | .str s => if s = "" then "0-0" else s
  | _ => "0-0"

/-- The messages of a response. -/
def Value.toMessages : Value → List Value
  | .list messages => messages
  | _ => []

/-- **`parse_xautoclaim_response`**. -/
def parseXautoclaimResponse : Value → String × List Value
  | .list (nextCursor :: messages :: _) | .tuple (nextCursor :: messages :: _) =>
    (nextCursor.toCursor, messages.toMessages)
  | _ => ("0-0", [])

variable {Id : Type} [LinearOrder Id]

/-- How the server writes a cursor. -/
def cursorText (idText : Id → String) : WithBot Id → String
  | ⊥ => "0-0"
  | (id : Id) => idText id

/-- The cursor in a reply, as the client hands it over. -/
def cursorValue (idText : Id → String) (decodeResponses : Bool) (cursor : WithBot Id) : Value :=
  if decodeResponses then .str (cursorText idText cursor)
  else .bytes (cursorText idText cursor).toUTF8.data.toList

omit [LinearOrder Id] in
/-- **Of a cursor in bytes, nothing is left.** Older servers leave out the entries that are gone,
which come last. -/
theorem parseXautoclaimResponse_reply (idText : Id → String) (hne : ∀ id, idText id ≠ "")
    (cfg : Config) (cursor : WithBot Id) (messages deleted : List Value) :
    parseXautoclaimResponse
        (.list (cursorValue idText cfg.decodeResponses cursor :: .list messages :: deleted))
      = (cursorText idText (State.parsedCursor cfg cursor), messages) := by
  have htext : cursorText idText cursor ≠ "" := by
    cases cursor with
    | bot => exact (by decide : "0-0" ≠ "")
    | coe id => exact hne id
  unfold cursorValue State.parsedCursor
  cases cfg.decodeResponses with
  | true =>
    rw [if_pos rfl, if_pos rfl, parseXautoclaimResponse, Value.toCursor, if_neg htext]
    rfl
  | false =>
    rw [if_neg Bool.false_ne_true, if_neg Bool.false_ne_true]
    rfl

/-! ## The law -/

namespace State

variable (cfg : Config) (s : State Id)

/-- The cursor that the server returns in this step. -/
def returned : Event Id → Option (WithBot Id)
  | .answered =>
    match s.pc with
    | .reclaiming (some (_, cursor)) => some cursor
    | _ => none
  | _ => none

/-- **The cursor is passed on** as the server returned it; without a reply it stays. -/
def PassesOn (e : Event Id) (t : State Id) : Prop :=
  t.reclaimCursor = (s.returned e).getD s.reclaimCursor

/-- The server is at the end of the pending entries if it answers in this step. -/
def ReturnsStart (e : Event Id) : Prop := ∀ cursor ∈ s.returned e, cursor = ⊥

/-- **The kind of replies makes no difference** to this step. -/
def SameForBoth (e : Event Id) : Prop :=
  step { cfg with decodeResponses := true } s e = step { cfg with decodeResponses := false } s e

/-- The entry is pending, and has been for long enough. -/
def Idle (id : Id) : Prop :=
  ∃ e ∈ s.group.entries, ∃ d, e.id = id ∧ e.pending = some d
    ∧ d.time + cfg.reclaimIdleMs.getD 0 ≤ s.group.now

/-- The entry is in a reply to an `XAUTOCLAIM` that is under way. -/
def InReply (id : Id) : Prop := ∃ ids cursor, s.pc = .reclaiming (some (ids, cursor)) ∧ id ∈ ids

/-- **The entry is visited** in this step. -/
def Visits (e : Event Id) (id : Id) : Prop := e = .answered ∧ s.InReply id

end State

namespace State

/-- A cursor comes with a reply to an `XAUTOCLAIM`. -/
theorem returned_eq_some {s : State Id} {e : Event Id} {cursor : WithBot Id} :
    s.returned e = some cursor
      ↔ e = .answered ∧ ∃ ids, s.pc = .reclaiming (some (ids, cursor)) := by
  constructor
  · intro h
    cases e with
    | answered =>
      cases hpc : s.pc with
      | reclaiming reply =>
        rw [returned, hpc] at h
        cases reply with
        | none => cases h
        | some r =>
          obtain ⟨ids, _⟩ := r
          cases h
          exact ⟨rfl, ids, rfl⟩
      | _ =>
        rw [returned, hpc] at h
        cases h
    | _ => cases h
  · rintro ⟨rfl, ids, hpc⟩
    rw [returned, hpc]

end State

/-! ## What the server answers -/

namespace Group

/-- **An idle entry is claimed, or the cursor is not beyond it.** By induction on the entries that
are pending. -/
theorem mem_scan_or_le (now minIdle : ℕ) (pending : List (Id × ℕ))
    (attempts count : ℕ) (hsorted : (pending.map Prod.fst).Pairwise (· < ·)) {id : Id} {time : ℕ}
    (hmem : (id, time) ∈ pending) (hidle : time + minIdle ≤ now) :
    id ∈ (scan now minIdle attempts count pending).1
      ∨ (scan now minIdle attempts count pending).2 ≠ ⊥
        ∧ (scan now minIdle attempts count pending).2 ≤ id := by
  induction pending generalizing attempts count with
  | nil => cases hmem
  | cons entry rest ih =>
    obtain ⟨first, since⟩ := entry
    rw [List.map_cons, List.pairwise_cons] at hsorted
    have hle : first ≤ id := by
      rcases List.mem_cons.1 hmem with heq | hmem
      · rw [(Prod.mk.inj heq).1]
      · exact (hsorted.1 id (List.mem_map_of_mem (f := Prod.fst) hmem)).le
    cases attempts with
    | zero => exact .inr ⟨WithBot.coe_ne_bot, WithBot.coe_le_coe.2 hle⟩
    | succ attempts =>
      cases count with
      | zero => exact .inr ⟨WithBot.coe_ne_bot, WithBot.coe_le_coe.2 hle⟩
      | succ count =>
        rcases List.mem_cons.1 hmem with heq | hmem
        · obtain ⟨rfl, rfl⟩ := Prod.mk.inj heq
          rw [scan, if_pos hidle]
          exact .inl (List.mem_cons_self ..)
        · unfold scan
          split
          · exact (ih attempts count hsorted.2 hmem).imp_left (List.mem_cons_of_mem _)
          · exact ih attempts (count + 1) hsorted.2 hmem

/-- The cursor is beyond an entry that was looked at, or there is none left. -/
theorem scan_snd_cases (now minIdle : ℕ) (pending : List (Id × ℕ)) (attempts count : ℕ)
    (hattempts : 0 < attempts) (hcount : 0 < count)
    (hsorted : (pending.map Prod.fst).Pairwise (· < ·)) :
    (scan now minIdle attempts count pending).2 = ⊥
      ∨ ∃ p ∈ pending, ((p.1 : Id) : WithBot Id) < (scan now minIdle attempts count pending).2 := by
  have hmem : ∀ (pending : List (Id × ℕ)) (attempts count : ℕ),
      (scan now minIdle attempts count pending).2 = ⊥
        ∨ ∃ p ∈ pending, (scan now minIdle attempts count pending).2 = (p.1 : WithBot Id) := by
    intro pending
    induction pending with
    | nil => exact fun _ _ => .inl (by rw [scan])
    | cons entry rest ih =>
      intro attempts count
      cases attempts with
      | zero => exact .inr ⟨entry, List.mem_cons_self .., rfl⟩
      | succ attempts =>
        cases count with
        | zero => exact .inr ⟨entry, List.mem_cons_self .., rfl⟩
        | succ count =>
          unfold scan
          split
          · refine (ih attempts count).imp_right ?_
            rintro ⟨p, hp, heq⟩
            exact ⟨p, List.mem_cons_of_mem _ hp, heq⟩
          · refine (ih attempts (count + 1)).imp_right ?_
            rintro ⟨p, hp, heq⟩
            exact ⟨p, List.mem_cons_of_mem _ hp, heq⟩
  obtain ⟨attempts, rfl⟩ := Nat.exists_eq_add_of_lt hattempts
  obtain ⟨count, rfl⟩ := Nat.exists_eq_add_of_lt hcount
  cases pending with
  | nil => exact .inl (by rw [scan])
  | cons entry rest =>
    rw [List.map_cons, List.pairwise_cons] at hsorted
    have hrest : ∀ attempts count, (scan now minIdle attempts count rest).2 = ⊥
        ∨ ∃ p ∈ entry :: rest, ((p.1 : Id) : WithBot Id)
          < (scan now minIdle attempts count rest).2 := by
      intro attempts count
      refine (hmem rest attempts count).imp_right ?_
      rintro ⟨p, hp, heq⟩
      refine ⟨entry, List.mem_cons_self .., ?_⟩
      rw [heq, WithBot.coe_lt_coe]
      exact hsorted.1 p.1 (List.mem_map_of_mem hp)
    rw [Nat.zero_add, Nat.zero_add]
    unfold scan
    split
    · exact hrest attempts count
    · exact hrest attempts (count + 1)

end Group

namespace Group

variable (g : Group Id)

theorem le_of_mem_pendingFrom {cursor : WithBot Id} {p : Id × ℕ} (h : p ∈ g.pendingFrom cursor) :
    cursor ≤ (p.1 : WithBot Id) := by
  unfold pendingFrom at h
  obtain ⟨e, _, he⟩ := List.mem_filterMap.1 h
  split_ifs at he with hle
  obtain ⟨d, _, rfl⟩ := Option.map_eq_some_iff.1 he
  exact hle

end Group

namespace State

variable {cfg : Config} {s t : State Id}

/-- **What a reclaim answers** has an idle entry in it, or a cursor that is not beyond it. -/
theorem mem_claimable_or_le {id : Id} (hidle : s.Idle cfg id) {cursor : WithBot Id}
    (hle : cursor ≤ id) :
    id ∈ (s.claimable cfg cursor).1
      ∨ (s.claimable cfg cursor).2 ≠ ⊥ ∧ (s.claimable cfg cursor).2 ≤ id := by
  obtain ⟨e, he, d, rfl, hpending, htime⟩ := hidle
  have hmem : (e.id, d.time) ∈ s.group.pendingFrom cursor := by
    unfold Group.pendingFrom
    refine List.mem_filterMap.2 ⟨e, he, ?_⟩
    rw [if_pos hle, hpending, Option.map_some]
  exact Group.mem_scan_or_le _ _ _ _ _ (s.group.pairwise_pendingFrom cursor) hmem htime

/-- **A reclaim gets on**: its cursor is beyond the one it was asked from. -/
theorem lt_claimable (cfg : Config) (s : State Id) (cursor : WithBot Id) :
    (s.claimable cfg cursor).2 = ⊥ ∨ cursor < (s.claimable cfg cursor).2 := by
  have hcount := cfg.reclaimBatchSize_pos
  refine (Group.scan_snd_cases _ _ _ _ _ (by omega) hcount
    (s.group.pairwise_pendingFrom cursor)).imp_right (fun ⟨p, hp, hlt⟩ => ?_)
  exact (s.group.le_of_mem_pendingFrom hp).trans_lt hlt

@[simp] theorem reclaimCursor_read (s : State Id) : s.read.reclaimCursor = s.reclaimCursor := by
  rcases s.read_eq with h | h <;> rw [h] <;> rfl

@[simp] theorem reclaimCursor_loop (s : State Id) :
    (s.loop cfg).reclaimCursor = s.reclaimCursor := by
  obtain ⟨n, pc, heq, _⟩ := s.loop_eq cfg
  rw [heq]

/-- At the top of the loop no reply is under way. -/
theorem pc_loop_ne (s : State Id) (r : List Id × WithBot Id) :
    (s.loop cfg).pc ≠ .reclaiming (some r) := by
  have hread : ∀ u : State Id, u.read.pc ≠ .reclaiming (some r) := by
    intro u
    rcases u.read_eq with h | h <;> rw [h] <;> rintro ⟨⟩
  unfold State.loop
  split
  · exact hread _
  · split_ifs
    · rintro ⟨⟩
    · exact hread _
    · exact hread _

theorem pc_read_ne (s : State Id) (r : List Id × WithBot Id) :
    s.read.pc ≠ .reclaiming (some r) := by
  rcases s.read_eq with h | h <;> rw [h] <;> rintro ⟨⟩

end State

/-! ## What a step does with the cursor -/

/-- **What a step does**: the cursor is taken from a reply, and a reply is what the server answered
from the cursor. -/
structure State.Carries (cfg : Config) (s t : State Id) (e : Event Id) : Prop where
  cursor : t.reclaimCursor = ((s.returned e).map (State.parsedCursor cfg)).getD s.reclaimCursor
  reply : ∀ r, t.pc = .reclaiming (some r) → s.returned e = none
    ∧ (s.pc = .reclaiming (some r) ∨ s.pc = .reclaiming none ∧ r = s.claimable cfg s.reclaimCursor)

namespace State

variable {cfg : Config} {s t : State Id} {e : Event Id}

theorem Carries.of_pc (he : s.returned e = none) (hcursor : t.reclaimCursor = s.reclaimCursor)
    (hpc : ∀ r, t.pc ≠ .reclaiming (some r)) : s.Carries cfg t e :=
  ⟨by rw [he, hcursor]; rfl, fun r hr => absurd hr (hpc r)⟩

theorem Carries.of_frame (he : s.returned e = none) (hcursor : t.reclaimCursor = s.reclaimCursor)
    (hpc : t.pc = s.pc) : s.Carries cfg t e :=
  ⟨by rw [he, hcursor]; rfl, fun _ hr => ⟨he, .inl (hpc ▸ hr)⟩⟩

theorem Carries.loop {u : State Id} (he : s.returned e = none)
    (hcursor : u.reclaimCursor = s.reclaimCursor) : s.Carries cfg (u.loop cfg) e :=
  .of_pc he (by rw [reclaimCursor_loop, hcursor]) u.pc_loop_ne

end State

open State

variable {cfg : Config} {s t : State Id}

theorem carries_of_step {e : Event Id} (hs : step cfg s e = some t) : s.Carries cfg t e := by
  cases e with
  | stream resume =>
    simp only [step, State.stream] at hs
    split at hs
    · cases resume with
      | none =>
        cases hs
        exact Carries.loop rfl rfl
      | some id =>
        dsimp only at hs
        split at hs
        · cases hs
          exact Carries.of_pc rfl rfl (by rintro _ ⟨⟩)
        · cases hs
          exact Carries.loop rfl rfl
    · cases hs
  -- the reply of `XAUTOCLAIM` carries the cursor
  | executed =>
    simp only [step, State.execute] at hs
    split at hs
    · cases hs
      exact Carries.of_pc rfl rfl (by rintro _ ⟨⟩)
    · rename_i hpc
      cases hs
      refine ⟨rfl, fun r hr => ⟨rfl, .inr ⟨hpc, ?_⟩⟩⟩
      cases hr
      rfl
    · cases hs
  | executedAdrift i =>
    simp only [step, Option.map_eq_some_iff] at hs
    obtain ⟨call, _, rfl⟩ := hs
    cases call <;> exact Carries.of_frame rfl rfl rfl
  | answered =>
    simp only [step, State.answer] at hs
    split at hs
    · rename_i hpc
      cases hs
      exact Carries.loop (by rw [returned, hpc]) rfl
    · rename_i hpc
      cases hs
      exact Carries.of_pc (by rw [returned, hpc]) rfl (by rintro _ ⟨⟩)
    · rename_i hpc
      cases hs
      refine ⟨?_, fun r hr => absurd hr (pc_read_ne _ r)⟩
      rw [reclaimCursor_read, returned, hpc]
      rfl
    · rename_i hpc
      cases hs
      refine ⟨?_, by rintro _ ⟨⟩⟩
      rw [returned, hpc]
      rfl
    · cases hs
  | raised retryable =>
    obtain ⟨adrift, pc, client, rfl, _, _, _, hpc, _⟩ := fail_eq hs
    exact Carries.of_pc rfl rfl (fun r => hpc (some r))
  | recovered =>
    simp only [step, State.recover] at hs
    split at hs
    · cases hs
      exact Carries.of_pc rfl (reclaimCursor_read _) (pc_read_ne _)
    · cases hs
      exact Carries.loop rfl rfl
    · cases hs
  | notRecovered =>
    simp only [step, State.giveUp] at hs
    split at hs
    · cases hs
      exact Carries.of_pc rfl rfl (by rintro _ ⟨⟩)
    · cases hs
  | taken readable =>
    simp only [step, State.take] at hs
    split at hs
    · cases hs
      split_ifs <;> exact Carries.of_pc rfl rfl (by rintro _ ⟨⟩)
    · cases hs
  | exhausted =>
    simp only [step, State.exhaust] at hs
    split at hs
    · cases hs
      exact Carries.loop rfl rfl
    · cases hs
  | stopped =>
    simp only [step, State.stop] at hs
    split at hs
    · cases hs
      exact Carries.of_pc rfl rfl (by rintro _ ⟨⟩)
    · cases hs
  | added id =>
    simp only [step, Option.map_eq_some_iff] at hs
    obtain ⟨group, _, rfl⟩ := hs
    exact Carries.of_frame rfl rfl rfl
  | clientGone | clientBuilt | acknowledged | readElsewhere | claimedElsewhere | elapsed =>
    cases hs
    exact Carries.of_frame rfl rfl rfl

/-- **The cursor is passed on** if the client decodes it, or if it is the start. -/
theorem passesOn_iff {e : Event Id} (hs : step cfg s e = some t) :
    s.PassesOn e t ↔ cfg.decodeResponses = true ∨ s.ReturnsStart e := by
  unfold State.PassesOn State.ReturnsStart
  rw [(carries_of_step hs).cursor]
  cases s.returned e with
  | none => exact iff_of_true rfl (.inr (by rintro _ ⟨⟩))
  | some cursor =>
    rw [Option.map_some, Option.getD_some, Option.getD_some, State.parsedCursor]
    split_ifs with hdecode
    · exact iff_of_true rfl (.inl hdecode)
    · constructor
      · intro h
        refine .inr ?_
        rintro _ ⟨⟩
        exact h.symm
      · exact fun h => (h.resolve_left hdecode cursor rfl).symm

/-- A cursor is returned in a step that can happen. -/
theorem exists_step_of_returned {e : Event Id} {cursor : WithBot Id}
    (h : s.returned e = some cursor) (cfg : Config) : ∃ t, step cfg s e = some t := by
  obtain ⟨rfl, ids, hpc⟩ := returned_eq_some.1 h
  cases ids <;> exact ⟨_, by rw [step, State.answer.eq_def, hpc]⟩

/-- **Both kinds of replies** do the same in a step if the cursor is the start. -/
theorem sameForBoth_iff (cfg : Config) (s : State Id) (e : Event Id) :
    s.SameForBoth cfg e ↔ s.ReturnsStart e := by
  constructor
  · intro h cursor hcursor
    obtain ⟨t, ht⟩ := exists_step_of_returned hcursor { cfg with decodeResponses := true }
    have hdecoded : t.reclaimCursor = cursor := by
      rw [(carries_of_step ht).cursor, hcursor]
      rfl
    have hraw : t.reclaimCursor = ⊥ := by
      rw [(carries_of_step (h.symm.trans ht)).cursor, hcursor]
      rfl
    exact hdecoded.symm.trans hraw
  · intro h
    cases e with
    | answered =>
      show State.answer _ s s.pc = State.answer _ s s.pc
      cases hpc : s.pc with
      | reclaiming reply =>
        cases reply with
        | none => rfl
        | some r =>
          obtain ⟨ids, cursor⟩ := r
          obtain rfl : cursor = ⊥ := h cursor (returned_eq_some.2 ⟨rfl, ids, hpc⟩)
          cases ids <;> rfl
      | reading reply =>
        cases reply with
        | none => rfl
        | some ids => cases ids <;> rfl
      | _ => rfl
    | _ => rfl

/-! ## A pass -/

/-- **The entry is ahead**: of the cursor, and of the one in a reply that does not have it. -/
structure State.Ahead (s : State Id) (id : Id) : Prop where
  le : s.reclaimCursor ≤ id
  reply : ∀ r, s.pc = .reclaiming (some r) → id ∈ r.1 ∨ r.2 ≠ ⊥ ∧ r.2 ≤ id

/-- **An entry that is idle and not visited stays ahead**, and the server is not at the end. -/
theorem ahead_of_step {id : Id} {e : Event Id} (h : s.Ahead id)
    (hidle : s.Idle cfg id ∨ s.InReply id) (hvisits : ¬ s.Visits e id)
    (hs : step cfg s e = some t) : t.Ahead id ∧ s.returned e ≠ some ⊥ := by
  have hcarries := carries_of_step hs
  have hreturned : ∀ cursor, s.returned e = some cursor → cursor ≠ ⊥ ∧ cursor ≤ id := by
    intro cursor hcursor
    obtain ⟨rfl, ids, hpc⟩ := returned_eq_some.1 hcursor
    exact (h.reply _ hpc).resolve_left (fun hmem => hvisits ⟨rfl, ids, cursor, hpc, hmem⟩)
  refine ⟨⟨?_, fun r hr => ?_⟩, fun hstart => (hreturned ⊥ hstart).1 rfl⟩
  · rw [hcarries.cursor]
    cases hcursor : s.returned e with
    | none => exact h.le
    | some cursor =>
      rw [Option.map_some, Option.getD_some, State.parsedCursor]
      split_ifs
      · exact (hreturned cursor hcursor).2
      · exact bot_le
  · rcases (hcarries.reply r hr).2 with hpc | ⟨hpc, rfl⟩
    · exact h.reply r hpc
    · -- the server looks for it now, and it is in no reply yet
      refine mem_claimable_or_le (hidle.resolve_right ?_) h.le
      rintro ⟨ids, cursor, hsome, _⟩
      rw [hpc] at hsome
      cases hsome

/-- **A reply under way gets on** from the cursor it was asked from. -/
structure State.GetsOn (s : State Id) : Prop where
  lt : ∀ r, s.pc = .reclaiming (some r) → r.2 = ⊥ ∨ s.reclaimCursor < r.2

theorem getsOn_of_step {e : Event Id} (h : s.GetsOn) (hs : step cfg s e = some t) : t.GetsOn := by
  have hcarries := carries_of_step hs
  refine ⟨fun r hr => ?_⟩
  obtain ⟨hnone, hreply⟩ := hcarries.reply r hr
  have hcursor : t.reclaimCursor = s.reclaimCursor := by
    rw [hcarries.cursor, hnone]
    rfl
  rw [hcursor]
  rcases hreply with hpc | ⟨_, rfl⟩
  · exact h.lt r hpc
  · exact lt_claimable cfg s s.reclaimCursor

/-- **Every pass visits what is idle**: while an entry is idle and has not been visited, the server
is not at the end of the pending entries. -/
def PassVisits (cfg : Config) (s : State Id) (es : List (Event Id)) : Prop :=
  ∀ id, AllSteps (step cfg) (fun s e _ => (s.Idle cfg id ∨ s.InReply id) ∧ ¬ s.Visits e id) s es →
    AllSteps (step cfg) (fun s e _ => s.returned e ≠ some ⊥) s es

theorem passVisits (cfg : Config) {s : State Id} (hcursor : s.reclaimCursor = ⊥)
    (hpc : ∀ r, s.pc ≠ .reclaiming (some r)) (es : List (Event Id)) : PassVisits cfg s es :=
  fun id hg => allSteps_of_step (I := fun s => s.Ahead id)
    (fun _ _ _ h hg hs => ahead_of_step h hg.1 hg.2 hs)
    ⟨hcursor ▸ bot_le, fun r hr => absurd hr (hpc r)⟩ hg

/-- **The reclaim of a run.** It is the same for both kinds of replies, and passes on the cursors
that the server returns, just if these are the start each time; with replies that are decoded it
always passes them on. Each of them is beyond the one asked from, and a pass visits what is idle
for as long as it lasts. -/
theorem reclaim_passes_on_iff (cfg : Config) (group : Group Id) (es : List (Event Id)) :
    (AllSteps (step cfg) (fun s e t => s.PassesOn e t ∧ s.SameForBoth cfg e) (init group) es
        ↔ AllSteps (step cfg) (fun s e _ => s.ReturnsStart e) (init group) es)
      ∧ (AllSteps (step cfg) (fun s e t => s.PassesOn e t) (init group) es
        ↔ AllSteps (step cfg) (fun s e _ => cfg.decodeResponses = true ∨ s.ReturnsStart e)
          (init group) es)
      ∧ AllSteps (step cfg)
        (fun s e _ => ∀ cursor ∈ s.returned e, cursor = ⊥ ∨ s.reclaimCursor < cursor)
        (init group) es
      ∧ ∀ s : State Id, s.reclaimCursor = ⊥ → (∀ r, s.pc ≠ .reclaiming (some r)) →
        ∀ pass, PassVisits cfg s pass := by
  have htrue : ∀ (s : State Id) e t, True → step cfg s e = some t → True :=
    fun _ _ _ _ _ => trivial
  have hgetsOn : State.GetsOn (init group) := ⟨by rintro _ ⟨⟩⟩
  refine ⟨?_, ?_, ?_, fun s hcursor hpc pass => passVisits cfg hcursor hpc pass⟩
  · refine allSteps_congr (I := fun _ => True) htrue (fun s e t _ hs => ?_) trivial es
    rw [passesOn_iff hs, sameForBoth_iff]
    exact ⟨And.right, fun h => ⟨.inr h, h⟩⟩
  · exact allSteps_congr (I := fun _ => True) htrue (fun s e t _ hs => passesOn_iff hs) trivial es
  · refine allSteps_of_invariant (I := State.GetsOn) (fun s e t h hs => ?_) hgetsOn es
    refine ⟨getsOn_of_step h hs, fun cursor hcursor => ?_⟩
    obtain ⟨_, ids, hpc⟩ := returned_eq_some.1 hcursor
    exact h.lt _ hpc

/-- A client that does not decode its replies, and entries that are claimed one by one. -/
def Config.raw : Config :=
  { Config.sample with
    decodeResponses := false
    reclaimBatchSize := 1
    reclaimBatchSize_pos := by decide }

instance (s : State Id) (e : Event Id) (t : State Id) : Decidable (s.PassesOn e t) :=
  inferInstanceAs (Decidable (t.reclaimCursor = (s.returned e).getD s.reclaimCursor))

/-- **With bytes the source begins at the beginning again**: of two entries it claims the first,
and not from the second one on next. -/
theorem not_passesOn_raw :
    ¬ AllSteps (step Config.raw) (fun s e t => s.PassesOn e t) (init Group.setBack)
      [.stream none, .executed, .answered] := by
  decide

end StreamSource
