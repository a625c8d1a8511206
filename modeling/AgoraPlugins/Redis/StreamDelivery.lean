import Mathlib.Algebra.Order.BigOperators.Group.List
import Mathlib.Algebra.Order.Group.Nat
import Mathlib.Data.Finset.Card
import Mathlib.Logic.Relation
import AgoraPlugins.Redis.StreamCheckpoint

/-!
# Nothing assigned is left behind

An entry that the server has assigned to the consumer is pending for it from then on. If
the reply that hands it out comes in, the source takes it up. If not, the source has to
read it again, and only a reclaim does, which goes through everything that is pending:
`XREADGROUP` with `>` hands out nothing a second time.

What the source reads again is what it comes to as it goes on: its commands are executed
and answered, it takes up what it is handed, and time passes. So the law is about the
states from which it goes on, and says that from there it comes to every entry that is
pending for it.

The cursor is what brings a reclaim to an entry: each one begins where the last one
ended, and after the end at the beginning. A client that does not decode its replies
never has a cursor.
-/

open Machine

namespace StreamSource

variable {Id : Type} [LinearOrder Id] (cfg : Config)

/-! ## The law -/

/-- Nothing goes wrong, and nobody else does anything. -/
def Event.Smooth : Event Id → Prop
  | .executed | .answered | .recovered | .taken true | .exhausted | .clientBuilt
  | .elapsed _ => True
  | _ => False

/-- **The source goes on**, smoothly. -/
def Continues : State Id → State Id → Prop :=
  Relation.ReflTransGen (fun s t => ∃ e : Event Id, e.Smooth ∧ step cfg s e = some t)

namespace State

/-- The entry has been emitted, or dropped by the policy. -/
def Handled (s : State Id) (id : Id) : Prop := id ∈ s.emitted ∨ id ∈ s.dropped

/-- **Nothing is left behind**: a stream that is under way comes to every entry that has
been assigned to the consumer and is pending for it. -/
def LeavesNothing (s : State Id) : Prop :=
  s.pc ≠ .idle → s.pc ≠ .ended → ∀ id ∈ s.assigned, s.group.Mine id →
    ∃ t, Continues cfg s t ∧ t.Handled id

/-- What a command hands out if it is executed now. -/
def handsOut (s : State Id) : Call Id → List Id
  | .read => s.group.undelivered cfg.batchSize
  | .reclaim cursor => (s.claimable cfg cursor).1

/-- **No entry is handed out in vain**: a command whose caller goes on without its reply
has handed out nothing. -/
def LosesNoReply (s : State Id) : Event Id → Prop
  | .raised true => s.pc.inHand = []
  | .executedAdrift i => s.pc ≠ .ended → ∀ call ∈ s.adrift[i]?, s.handsOut cfg call = []
  | _ => True

end State

/-- The source reads what is pending for it again, and gets through it. -/
def Config.ReadsAgain : Prop := cfg.reclaimIdleMs ≠ none ∧ cfg.decodeResponses = true

/-! ## What a smooth step keeps -/

namespace Group

variable (g : Group Id)

/-- What was pending stays pending where no entry is acknowledged. -/
theorem pending_setPending {f : Entry Id → Option Delivery}
    (hf : ∀ e, e.pending.isSome = true → (f e).isSome = true) {id : Id} (h : g.Pending id) :
    (g.setPending f).Pending id := by
  obtain ⟨e, he, hid, hpending⟩ := h
  exact ⟨_, List.mem_map_of_mem he, hid, hf e hpending⟩

/-- In particular when it is given to somebody. -/
theorem pending_assign (mine : Bool) (ids : List Id) {id : Id} (h : g.Pending id) :
    (g.assign mine ids).Pending id := by
  refine g.pending_setPending (fun e he => ?_) h
  split
  next => rfl
  next => exact he

theorem pending_of_mine {id : Id} (h : g.Mine id) : g.Pending id := by
  obtain ⟨e, he, hid, hmine⟩ := h
  refine ⟨e, he, hid, ?_⟩
  cases hp : e.pending with
  | none =>
    rw [hp] at hmine
    cases hmine
  | some d => rfl

end Group

namespace State

/-- **What stays so** while the source goes on smoothly. -/
structure Keeps (s t : State Id) : Prop where
  ids : t.group.ids = s.group.ids
  lastDelivered : s.group.lastDelivered ≤ t.group.lastDelivered
  pending : ∀ id, s.group.Pending id → t.group.Pending id
  handled : ∀ id, s.Handled id → t.Handled id

theorem Keeps.refl (s : State Id) : s.Keeps s := ⟨rfl, le_rfl, fun _ h => h, fun _ h => h⟩

theorem Keeps.trans {s t u : State Id} (h : s.Keeps t) (h' : t.Keeps u) : s.Keeps u :=
  ⟨h'.ids.trans h.ids, h.lastDelivered.trans h'.lastDelivered,
    fun id hid => h'.pending id (h.pending id hid),
    fun id hid => h'.handled id (h.handled id hid)⟩

/-- The group and what has been handled are as they were. -/
theorem Keeps.of_eq {s t : State Id} (hentries : t.group.entries = s.group.entries)
    (hdelivered : t.group.lastDelivered = s.group.lastDelivered) (hemitted : t.emitted = s.emitted)
    (hdropped : t.dropped = s.dropped) : s.Keeps t := by
  refine ⟨?_, hdelivered.ge, fun id hid => ?_, fun id hid => ?_⟩
  · unfold Group.ids
    rw [hentries]
  · unfold Group.Pending
    rw [hentries]
    exact hid
  · unfold Handled
    rw [hemitted, hdropped]
    exact hid

theorem Keeps.read {s t : State Id} (h : s.Keeps t) : s.Keeps t.read := by
  refine h.trans ?_
  rcases t.read_eq with heq | heq <;> rw [heq] <;> exact Keeps.of_eq rfl rfl rfl rfl

theorem Keeps.loop {s t : State Id} (h : s.Keeps t) : s.Keeps (t.loop cfg) := by
  obtain ⟨n, pc, heq, _⟩ := t.loop_eq cfg
  rw [heq]
  exact h.trans (Keeps.of_eq rfl rfl rfl rfl)

/-- **A smooth step** loses nothing that is pending. -/
theorem keeps_of_smooth {s t : State Id} {e : Event Id} (he : e.Smooth)
    (hs : step cfg s e = some t) : s.Keeps t := by
  cases e with
  | executed =>
    have hs : s.execute cfg s.pc = some t := hs
    unfold State.execute at hs
    split at hs
    next =>
      cases hs
      exact ⟨s.group.ids_assign _ _, (s.group.le_lastDelivered_readGroup true _).1,
        fun id hid => s.group.pending_assign _ _ hid, fun _ h => h⟩
    next =>
      cases hs
      exact ⟨s.group.ids_assign _ _, le_rfl, fun id hid => s.group.pending_assign _ _ hid,
        fun _ h => h⟩
    next => cases hs
  | answered =>
    have hs : s.answer cfg s.pc = some t := hs
    unfold State.answer at hs
    split at hs
    next => exact Option.some.inj hs ▸ (Keeps.refl s).loop cfg
    next =>
      cases hs
      exact Keeps.of_eq rfl rfl rfl rfl
    next =>
      refine Option.some.inj hs ▸ Keeps.read ?_
      exact Keeps.of_eq rfl rfl rfl rfl
    next =>
      cases hs
      exact Keeps.of_eq rfl rfl rfl rfl
    next => cases hs
  | recovered =>
    have hs : s.recover cfg s.pc = some t := hs
    unfold State.recover at hs
    split at hs
    next =>
      refine Option.some.inj hs ▸ Keeps.read ?_
      exact Keeps.of_eq rfl rfl rfl rfl
    next =>
      refine Option.some.inj hs ▸ Keeps.loop cfg ?_
      exact Keeps.of_eq rfl rfl rfl rfl
    next => cases hs
  | taken readable =>
    cases readable with
    | false => cases he
    | true =>
      have hs : s.take cfg true s.pc = some t := hs
      unfold State.take at hs
      split at hs
      next =>
        cases hs
        exact ⟨rfl, le_rfl, fun _ h => h, fun _ h => h.imp_left (List.mem_append_left _)⟩
      next => cases hs
  | exhausted =>
    have hs : s.exhaust cfg s.pc = some t := hs
    unfold State.exhaust at hs
    split at hs
    next => exact Option.some.inj hs ▸ (Keeps.refl s).loop cfg
    next => cases hs
  | clientBuilt => exact Option.some.inj hs ▸ Keeps.of_eq rfl rfl rfl rfl
  | elapsed ms => exact Option.some.inj hs ▸ Keeps.of_eq rfl rfl rfl rfl
  | _ => cases he

/-- **Nor does a smooth run.** -/
theorem keeps_of_continues {s t : State Id} (h : Continues cfg s t) : s.Keeps t := by
  induction h with
  | refl => exact Keeps.refl s
  | tail _ hstep ih =>
    obtain ⟨e, he, hs⟩ := hstep
    exact ih.trans (keeps_of_smooth cfg he hs)

/-! ## Coming to the next reclaim -/

/-- The source comes to an `XAUTOCLAIM` from this cursor. -/
def ComesToReclaim (s : State Id) (cursor : WithBot Id) : Prop :=
  ∃ t, Continues cfg s t ∧ t.pc = .reclaiming none ∧ t.reclaimCursor = cursor

variable {cfg}

/-- What comes to a reclaim after a smooth run comes to it before. -/
theorem ComesToReclaim.of_continues {s t : State Id} {cursor : WithBot Id}
    (h : Continues cfg s t) (ht : t.ComesToReclaim cfg cursor) : s.ComesToReclaim cfg cursor := by
  obtain ⟨u, hu, hpc, hcursor⟩ := ht
  exact ⟨u, h.trans hu, hpc, hcursor⟩

theorem ComesToReclaim.of_step {s t : State Id} {cursor : WithBot Id} {e : Event Id}
    (he : e.Smooth) (hs : step cfg s e = some t) (ht : t.ComesToReclaim cfg cursor) :
    s.ComesToReclaim cfg cursor :=
  ht.of_continues (.single ⟨e, he, hs⟩)

variable (cfg) in
/-- **All entries in hand are taken up**, one after the other. -/
theorem exists_continues_takeAll {s : State Id} {batch : List Id} (hpc : s.pc = .yielding batch) :
    ∃ t, Continues cfg s t ∧ t.pc = .yielding [] ∧ t.client = s.client
      ∧ t.reclaimCursor = s.reclaimCursor
      ∧ t.consecutiveReclaimBatchCount = s.consecutiveReclaimBatchCount
      ∧ ∀ id ∈ batch, t.Handled id := by
  induction batch generalizing s with
  | nil => exact ⟨s, .refl, hpc, rfl, rfl, rfl, nofun⟩
  | cons id rest ih =>
    let next : State Id :=
      { s.withPc (.yielding rest) with lastMessageId := id, emitted := s.emitted ++ [id] }
    have hs : step cfg s (.taken true) = some next := by
      show s.take cfg true s.pc = some next
      rw [hpc]
      rfl
    have hpc' : next.pc = .yielding rest := rfl
    obtain ⟨t, ht, htpc, hclient, hcursor, hcount, hhandled⟩ := ih hpc'
    refine ⟨t, .head ⟨.taken true, trivial, hs⟩ ht, htpc, hclient, hcursor, hcount, ?_⟩
    intro id' hid'
    rcases List.mem_cons.1 hid' with rfl | hid'
    · have hnext : next.Handled id' :=
        .inl (List.mem_append_right _ (List.mem_singleton.2 rfl))
      exact (keeps_of_continues cfg ht).handled id' hnext
    · exact hhandled id' hid'

/-- At the top of the loop, with no reclaim in a row so far, the next command is one. -/
theorem loop_eq_reclaiming {s : State Id} (hcfg : cfg.reclaimIdleMs ≠ none)
    (hclient : s.client = true) (hcount : s.consecutiveReclaimBatchCount = 0) :
    s.loop cfg = s.withPc (.reclaiming none) := by
  have hmax : cfg.maxConsecutiveReclaimBatches.all
      (fun n => s.consecutiveReclaimBatchCount < n) = true := by
    cases hn : cfg.maxConsecutiveReclaimBatches with
    | none => rfl
    | some n =>
      have hpos : 0 < n := cfg.maxConsecutiveReclaimBatches_pos n (by rw [hn]; rfl)
      simpa [hcount] using hpos
  unfold State.loop
  split
  next hnone => exact absurd hnone hcfg
  next => rw [if_pos hmax, if_pos hclient]

/-- After a read there is a reclaim. -/
theorem comesToReclaim_of_reading {s : State Id} (hcfg : cfg.reclaimIdleMs ≠ none)
    (hpc : s.pc = .reading none) (hclient : s.client = true)
    (hcount : s.consecutiveReclaimBatchCount = 0) :
    s.ComesToReclaim cfg s.reclaimCursor := by
  let next : State Id := (s.executeRead cfg).withPc
    (.reading (some (s.group.undelivered cfg.batchSize)))
  have hs : step cfg s .executed = some next := by
    show s.execute cfg s.pc = some next
    rw [hpc]
    rfl
  refine ComesToReclaim.of_step (e := .executed) trivial hs ?_
  cases hids : s.group.undelivered cfg.batchSize with
  | nil =>
    have hanswer : step cfg next .answered = some (next.loop cfg) := by
      show next.answer cfg (.reading (some (s.group.undelivered cfg.batchSize))) = _
      rw [hids]
      rfl
    refine ComesToReclaim.of_step (e := .answered) trivial hanswer ?_
    rw [loop_eq_reclaiming (s := next) hcfg hclient hcount]
    exact ⟨_, .refl, rfl, rfl⟩
  | cons id rest =>
    have hanswer : step cfg next .answered = some (next.withPc (.yielding (id :: rest))) := by
      show next.answer cfg (.reading (some (s.group.undelivered cfg.batchSize))) = _
      rw [hids]
      rfl
    refine ComesToReclaim.of_step (e := .answered) trivial hanswer ?_
    obtain ⟨t, ht, htpc, htclient, htcursor, htcount, _⟩ :=
      exists_continues_takeAll cfg (s := next.withPc (.yielding (id :: rest))) rfl
    refine ComesToReclaim.of_continues ht ?_
    have hexhaust : step cfg t .exhausted = some (t.loop cfg) := by
      show t.exhaust cfg t.pc = _
      rw [htpc]
      rfl
    refine ComesToReclaim.of_step (e := .exhausted) trivial hexhaust ?_
    rw [loop_eq_reclaiming hcfg (htclient.trans hclient) (htcount.trans hcount)]
    exact ⟨_, .refl, rfl, htcursor⟩

/-- **The loop comes to a reclaim**, if the source reclaims at all. -/
theorem comesToReclaim_of_loop {s : State Id} (hcfg : cfg.reclaimIdleMs ≠ none)
    (hclient : s.client = true) : (s.loop cfg).ComesToReclaim cfg s.reclaimCursor := by
  have hread : ({ s with consecutiveReclaimBatchCount := 0 } : State Id).read.ComesToReclaim cfg
      s.reclaimCursor := by
    unfold State.read
    dsimp only
    rw [if_pos hclient]
    exact comesToReclaim_of_reading hcfg rfl hclient rfl
  unfold State.loop
  split
  next hnone => exact absurd hnone hcfg
  next =>
    split
    next => exact ⟨_, .refl, rfl, rfl⟩
    next => exact hread

/-- **The entries in hand are taken up, and then there is a reclaim.** -/
theorem exists_reclaiming_of_yielding {s : State Id} (hcfg : cfg.reclaimIdleMs ≠ none)
    {batch : List Id} (hpc : s.pc = .yielding batch) :
    ∃ t, Continues cfg s t ∧ t.pc = .reclaiming none ∧ t.reclaimCursor = s.reclaimCursor
      ∧ ∀ id ∈ batch, t.Handled id := by
  obtain ⟨t, ht, htpc, _, hcursor, _, hhandled⟩ := exists_continues_takeAll cfg hpc
  let next : State Id := { t with client := true }
  have hbuilt : step cfg t .clientBuilt = some next := rfl
  have hexhaust : step cfg next .exhausted = some (next.loop cfg) := by
    show next.exhaust cfg t.pc = _
    rw [htpc]
    rfl
  have hloop : (next.loop cfg).ComesToReclaim cfg t.reclaimCursor :=
    comesToReclaim_of_loop (s := next) hcfg rfl
  obtain ⟨u, hu, hupc, hucursor⟩ := ComesToReclaim.of_step (e := .clientBuilt) trivial hbuilt
    (ComesToReclaim.of_step (e := .exhausted) trivial hexhaust hloop)
  exact ⟨u, ht.trans hu, hupc, hucursor.trans hcursor,
    fun id hid => (keeps_of_continues cfg hu).handled id (hhandled id hid)⟩

end State

/-! ## A reclaim when everything is idle -/

namespace Group

omit [LinearOrder Id] in
/-- **Where nothing is too recent**, as many entries are claimed as may be, and the next
scan begins after them. -/
theorem scan_of_idle {now minIdle : ℕ} {pending : List (Id × ℕ)}
    (hidle : ∀ p ∈ pending, p.2 + minIdle ≤ now) {attempts count : ℕ} (hle : count ≤ attempts) :
    scan now minIdle attempts count pending
      = ((pending.map Prod.fst).take count,
        match (pending.map Prod.fst).drop count with
        | [] => ⊥
        | id :: _ => (id : WithBot Id)) := by
  induction pending generalizing attempts count with
  | nil => simp [scan]
  | cons entry rest ih =>
    obtain ⟨id, time⟩ := entry
    cases count with
    | zero => cases attempts <;> simp [scan]
    | succ count =>
      cases attempts with
      | zero => omega
      | succ attempts =>
        have hidle' : ∀ p ∈ rest, p.2 + minIdle ≤ now := fun p hp =>
          hidle p (List.mem_cons_of_mem _ hp)
        have htime : time + minIdle ≤ now := hidle (id, time) List.mem_cons_self
        unfold scan
        rw [if_pos htime, ih hidle' (Nat.le_of_succ_le_succ hle)]
        simp

omit [LinearOrder Id] in
/-- Pending entries have waited no longer than some time. -/
theorem exists_le_of_mem_pending (pending : List (Id × ℕ)) :
    ∃ m, ∀ p ∈ pending, p.2 ≤ m := by
  refine ⟨(pending.map Prod.snd).sum, fun p hp => ?_⟩
  exact List.le_sum_of_mem (List.mem_map_of_mem hp)

/-- The ids that are pending from the cursor on. -/
def pendingIds (g : Group Id) (cursor : WithBot Id) : List Id :=
  (g.pendingFrom cursor).map Prod.fst

/-- The ids from a cursor on that are pending. -/
theorem mem_pendingIds {g : Group Id} {cursor : WithBot Id} {id : Id} :
    id ∈ g.pendingIds cursor ↔ cursor ≤ id ∧ g.Pending id := by
  unfold pendingIds Pending
  rw [map_fst_pendingFrom, List.mem_map]
  constructor
  · rintro ⟨e, he, rfl⟩
    rw [List.mem_filter, Bool.and_eq_true, decide_eq_true_eq] at he
    exact ⟨he.2.1, e, he.1, rfl, he.2.2⟩
  · rintro ⟨hcursor, e, he, rfl, hpending⟩
    refine ⟨e, ?_, rfl⟩
    rw [List.mem_filter, Bool.and_eq_true, decide_eq_true_eq]
    exact ⟨he, hcursor, hpending⟩

theorem mem_ids_of_pending {g : Group Id} {id : Id} (h : g.Pending id) : id ∈ g.ids := by
  obtain ⟨e, he, rfl, _⟩ := h
  exact List.mem_map_of_mem he

end Group

variable {cfg}

namespace State

/-- Where a scan of idle entries leaves the cursor. -/
def cursorAfter (pending : List Id) (count : ℕ) : WithBot Id :=
  match pending.drop count with
  | [] => ⊥
  | id :: _ => id

/-- **One round.** The source waits until everything pending is idle, claims as many of
the entries as it may, and takes them up. -/
theorem exists_round {s : State Id} (hcfg : cfg.ReadsAgain) (hpc : s.pc = .reclaiming none) :
    ∃ t, Continues cfg s t ∧ t.pc = .reclaiming none
      ∧ t.reclaimCursor
        = cursorAfter (s.group.pendingIds s.reclaimCursor) cfg.reclaimBatchSize
      ∧ ∀ id ∈ (s.group.pendingIds s.reclaimCursor).take cfg.reclaimBatchSize, t.Handled id := by
  obtain ⟨m, hm⟩ := Group.exists_le_of_mem_pending (s.group.pendingFrom s.reclaimCursor)
  let minIdle : ℕ := cfg.reclaimIdleMs.getD 0
  let built : State Id := { s with client := true }
  let waited : State Id :=
    { built with group := { s.group with now := s.group.now + (m + minIdle) } }
  have hclaim : waited.claimable cfg s.reclaimCursor
      = ((s.group.pendingIds s.reclaimCursor).take cfg.reclaimBatchSize,
        cursorAfter (s.group.pendingIds s.reclaimCursor) cfg.reclaimBatchSize) := by
    refine Group.scan_of_idle (fun p hp => ?_) (Nat.le_mul_of_pos_left _ (by decide))
    have := hm p hp
    show p.2 + minIdle ≤ s.group.now + (m + minIdle)
    omega
  let executed : State Id := (waited.executeReclaim cfg s.reclaimCursor).withPc
    (.reclaiming (some (waited.claimable cfg s.reclaimCursor)))
  have hbuilt : step cfg s .clientBuilt = some built := rfl
  have hwaited : step cfg built (.elapsed (m + minIdle)) = some waited := rfl
  have hexecuted : step cfg waited .executed = some executed := by
    show waited.execute cfg s.pc = _
    rw [hpc]
    rfl
  have hcontinues : Continues cfg s executed :=
    ((Relation.ReflTransGen.single ⟨.clientBuilt, trivial, hbuilt⟩).tail
      ⟨.elapsed (m + minIdle), trivial, hwaited⟩).tail ⟨.executed, trivial, hexecuted⟩
  have hparsed : ∀ cursor : WithBot Id, parsedCursor cfg cursor = cursor :=
    fun cursor => if_pos hcfg.2
  cases hids : (s.group.pendingIds s.reclaimCursor).take cfg.reclaimBatchSize with
  | nil =>
    let next : State Id := { executed with
      reclaimCursor := cursorAfter (s.group.pendingIds s.reclaimCursor) cfg.reclaimBatchSize
      consecutiveReclaimBatchCount := 0 }
    have hanswer : step cfg executed .answered = some next.read := by
      show executed.answer cfg (.reclaiming (some (waited.claimable cfg s.reclaimCursor))) = _
      rw [hclaim, hids]
      unfold State.answer
      dsimp only
      rw [hparsed]
    have hread : next.read.ComesToReclaim cfg next.reclaimCursor :=
      comesToReclaim_of_reading hcfg.1 rfl rfl rfl
    obtain ⟨t, ht, htpc, htcursor⟩ :=
      ComesToReclaim.of_step (e := .answered) trivial hanswer hread
    exact ⟨t, hcontinues.trans ht, htpc, htcursor, nofun⟩
  | cons id rest =>
    let next : State Id := { executed.withPc (.yielding (id :: rest)) with
      reclaimCursor := cursorAfter (s.group.pendingIds s.reclaimCursor) cfg.reclaimBatchSize
      consecutiveReclaimBatchCount := executed.consecutiveReclaimBatchCount + 1 }
    have hanswer : step cfg executed .answered = some next := by
      show executed.answer cfg (.reclaiming (some (waited.claimable cfg s.reclaimCursor))) = _
      rw [hclaim, hids]
      unfold State.answer
      dsimp only
      rw [hparsed]
    have hnext : next.pc = .yielding (id :: rest) := rfl
    obtain ⟨t, ht, htpc, htcursor, hhandled⟩ := exists_reclaiming_of_yielding hcfg.1 hnext
    exact ⟨t, (hcontinues.tail ⟨.answered, trivial, hanswer⟩).trans ht, htpc, htcursor, hhandled⟩

/-- **A scan goes forward**: it gets to the end, or past an entry, and leaves nothing
between that it has not claimed. -/
theorem cursorAfter_cases {pending : List Id} (hsorted : pending.Pairwise (· < ·)) {count : ℕ}
    (hcount : 0 < count) :
    (cursorAfter pending count = ⊥ ∧ pending.take count = pending)
      ∨ ∃ id : Id, cursorAfter pending count = id ∧ (∃ p ∈ pending, p < id)
        ∧ ∀ x ∈ pending, x ∈ pending.take count ∨ id ≤ x := by
  cases hdrop : pending.drop count with
  | nil =>
    refine .inl ⟨by simp [cursorAfter, hdrop], ?_⟩
    have happend := List.take_append_drop count pending
    rwa [hdrop, List.append_nil] at happend
  | cons id rest =>
    have happend := List.take_append_drop count pending
    rw [hdrop] at happend
    rw [← happend, List.pairwise_append] at hsorted
    obtain ⟨_, hrest, hlt⟩ := hsorted
    have hne : pending.take count ≠ [] := by
      intro hnil
      rcases List.take_eq_nil_iff.1 hnil with hzero | hnil
      · omega
      · rw [hnil, List.drop_nil] at hdrop
        cases hdrop
    obtain ⟨p, hp⟩ := List.exists_mem_of_ne_nil _ hne
    refine .inr ⟨id, by simp [cursorAfter, hdrop], ⟨p, List.mem_of_mem_take hp, ?_⟩, ?_⟩
    · exact hlt p hp id List.mem_cons_self
    · intro x hx
      rw [← happend] at hx
      rcases List.mem_append.1 hx with hx | hx
      · exact .inl hx
      · rcases List.mem_cons.1 hx with rfl | hx
        · exact .inr le_rfl
        · exact .inr (List.rel_of_pairwise_cons hrest hx).le

/-- The entries from the cursor on, up to a bound. -/
def ahead (s : State Id) (cursor : WithBot Id) (bound : Id → Bool) : Finset Id :=
  s.group.ids.toFinset.filter (fun id => cursor ≤ (id : WithBot Id) ∧ bound id = true)

/-- There are fewer of them once the cursor is past one. -/
theorem card_ahead_lt {s t : State Id} (hids : t.group.ids = s.group.ids) {bound : Id → Bool}
    {cursor : WithBot Id} {p id : Id} (hp : p ∈ s.group.pendingIds cursor) (hlt : p < id)
    (hbound : bound p = true) : (t.ahead id bound).card < (s.ahead cursor bound).card := by
  obtain ⟨hle, hpending⟩ := Group.mem_pendingIds.1 hp
  have hlt' : (p : WithBot Id) < id := WithBot.coe_lt_coe.2 hlt
  refine Finset.card_lt_card ⟨fun i hi => ?_, fun hsub => ?_⟩
  · unfold ahead at hi ⊢
    rw [hids, Finset.mem_filter] at hi
    rw [Finset.mem_filter]
    exact ⟨hi.1, (hle.trans hlt'.le).trans hi.2.1, hi.2.2⟩
  · have hmem : p ∈ t.ahead id bound := by
      refine hsub ?_
      unfold ahead
      rw [Finset.mem_filter, List.mem_toFinset]
      exact ⟨Group.mem_ids_of_pending hpending, hle, hbound⟩
    unfold ahead at hmem
    rw [Finset.mem_filter] at hmem
    exact absurd hmem.2.1 (not_le_of_gt hlt')

/-- **The cursor comes to an entry that is ahead of it.** Every round claims the entry or
leaves fewer before it. -/
theorem exists_handled_of_le (hcfg : cfg.ReadsAgain) {x : Id} :
    ∀ (n : ℕ) (s : State Id), (s.ahead s.reclaimCursor (fun i => i ≤ x)).card = n →
      s.pc = .reclaiming none → s.reclaimCursor ≤ x → s.group.Pending x →
      ∃ t, Continues cfg s t ∧ t.Handled x := by
  intro n
  induction n using Nat.strong_induction_on with
  | _ n ih =>
    intro s hn hpc hle hpending
    obtain ⟨t, ht, htpc, htcursor, hhandled⟩ := exists_round hcfg hpc
    have hkeeps := keeps_of_continues cfg ht
    have hx : x ∈ s.group.pendingIds s.reclaimCursor := Group.mem_pendingIds.2 ⟨hle, hpending⟩
    rcases cursorAfter_cases (s.group.pairwise_pendingFrom s.reclaimCursor)
      cfg.reclaimBatchSize_pos with ⟨_, htake⟩ | ⟨id, hid, ⟨p, hp, hlt⟩, hrest⟩
    · refine ⟨t, ht, hhandled x ?_⟩
      unfold Group.pendingIds at hx ⊢
      rwa [htake]
    · rcases hrest x hx with hclaimed | hidx
      · exact ⟨t, ht, hhandled x hclaimed⟩
      · have hcursor : t.reclaimCursor = id := htcursor.trans hid
        have hcard : (t.ahead t.reclaimCursor (fun i => i ≤ x)).card < n := by
          rw [hcursor, ← hn]
          exact card_ahead_lt hkeeps.ids hp hlt (decide_eq_true (hlt.le.trans hidx))
        obtain ⟨u, hu, hhandled⟩ := ih _ hcard t rfl htpc
          (by rw [hcursor]; exact WithBot.coe_le_coe.2 hidx) (hkeeps.pending x hpending)
        exact ⟨u, ht.trans hu, hhandled⟩

/-- **The cursor comes to every pending entry**, once it has come to the end if the entry
is behind it. -/
theorem exists_handled_of_reclaiming (hcfg : cfg.ReadsAgain) {x : Id} :
    ∀ (n : ℕ) (s : State Id), (s.ahead s.reclaimCursor (fun _ => true)).card = n →
      s.pc = .reclaiming none → s.group.Pending x → ∃ t, Continues cfg s t ∧ t.Handled x := by
  intro n
  induction n using Nat.strong_induction_on with
  | _ n ih =>
    intro s hn hpc hpending
    obtain ⟨t, ht, htpc, htcursor, _⟩ := exists_round hcfg hpc
    have hkeeps := keeps_of_continues cfg ht
    rcases cursorAfter_cases (s.group.pairwise_pendingFrom s.reclaimCursor)
      cfg.reclaimBatchSize_pos with ⟨hbot, _⟩ | ⟨id, hid, ⟨p, hp, hlt⟩, _⟩
    · have hle : t.reclaimCursor ≤ x := by
        rw [htcursor]
        exact hbot.le.trans bot_le
      obtain ⟨u, hu, hhandled⟩ :=
        exists_handled_of_le hcfg _ t rfl htpc hle (hkeeps.pending x hpending)
      exact ⟨u, ht.trans hu, hhandled⟩
    · have hcard : (t.ahead t.reclaimCursor (fun _ => true)).card < n := by
        rw [htcursor.trans hid, ← hn]
        exact card_ahead_lt hkeeps.ids hp hlt rfl
      obtain ⟨u, hu, hhandled⟩ := ih _ hcard t rfl htpc (hkeeps.pending x hpending)
      exact ⟨u, ht.trans hu, hhandled⟩

/-- **A stream that goes on comes to a reclaim.** -/
theorem exists_comesToReclaim {s : State Id} (hcfg : cfg.ReadsAgain) (hidle : s.pc ≠ .idle)
    (hended : s.pc ≠ .ended) : ∃ cursor, s.ComesToReclaim cfg cursor := by
  -- a client is built first, if there is none
  let built : State Id := { s with client := true }
  have hbuilt : step cfg s .clientBuilt = some built := rfl
  suffices h : ∃ cursor, built.ComesToReclaim cfg cursor by
    obtain ⟨cursor, h⟩ := h
    exact ⟨cursor, ComesToReclaim.of_step (e := .clientBuilt) trivial hbuilt h⟩
  have hanswered : ∀ u : State Id, u.client = true → ∀ reply, u.pc = .reading (some reply) →
      ∃ cursor, u.ComesToReclaim cfg cursor := by
    intro u hclient reply hpc
    cases reply with
    | nil =>
      have hs : step cfg u .answered = some (u.loop cfg) := by
        show u.answer cfg u.pc = _
        rw [hpc]
        rfl
      exact ⟨_, ComesToReclaim.of_step (e := .answered) trivial hs
        (comesToReclaim_of_loop hcfg.1 hclient)⟩
    | cons id rest =>
      have hs : step cfg u .answered = some (u.withPc (.yielding (id :: rest))) := by
        show u.answer cfg u.pc = _
        rw [hpc]
        rfl
      have hnext : (u.withPc (.yielding (id :: rest))).pc = .yielding (id :: rest) := rfl
      obtain ⟨t, ht, htpc, _⟩ := exists_reclaiming_of_yielding hcfg.1 hnext
      exact ⟨_, ComesToReclaim.of_step (e := .answered) trivial hs ⟨t, ht, htpc, rfl⟩⟩
  -- from wherever the stream is, as far as the next turn of the loop
  cases hpc : s.pc with
  | idle => exact absurd hpc hidle
  | ended => exact absurd hpc hended
  | yielding batch =>
    obtain ⟨t, ht, htpc, _⟩ := exists_reclaiming_of_yielding (s := built) hcfg.1 hpc
    exact ⟨_, t, ht, htpc, rfl⟩
  | recovering reclaim =>
    cases reclaim with
    | true =>
      have hs : step cfg built .recovered
          = some ({ built with consecutiveReclaimBatchCount := 0 } : State Id).read := by
        show built.recover cfg s.pc = _
        rw [hpc]
        rfl
      exact ⟨_, ComesToReclaim.of_step (e := .recovered) trivial hs
        (comesToReclaim_of_reading hcfg.1 rfl rfl rfl)⟩
    | false =>
      have hs : step cfg built .recovered = some (built.loop cfg) := by
        show built.recover cfg s.pc = _
        rw [hpc]
        rfl
      exact ⟨_, ComesToReclaim.of_step (e := .recovered) trivial hs
        (comesToReclaim_of_loop hcfg.1 rfl)⟩
  | reading reply =>
    cases reply with
    | some reply => exact hanswered built rfl reply hpc
    | none =>
      let next : State Id := (built.executeRead cfg).withPc
        (.reading (some (built.group.undelivered cfg.batchSize)))
      have hs : step cfg built .executed = some next := by
        show built.execute cfg s.pc = some next
        rw [hpc]
        rfl
      obtain ⟨cursor, h⟩ := hanswered next rfl _ rfl
      exact ⟨cursor, ComesToReclaim.of_step (e := .executed) trivial hs h⟩
  | reclaiming reply =>
    cases reply with
    | none => exact ⟨_, built, .refl, hpc, rfl⟩
    | some reply =>
      obtain ⟨ids, cursor⟩ := reply
      cases ids with
      | nil =>
        have hs : step cfg built .answered = some ({ built with
            reclaimCursor := parsedCursor cfg cursor
            consecutiveReclaimBatchCount := 0 } : State Id).read := by
          show built.answer cfg s.pc = _
          rw [hpc]
          rfl
        exact ⟨_, ComesToReclaim.of_step (e := .answered) trivial hs
          (comesToReclaim_of_reading hcfg.1 rfl rfl rfl)⟩
      | cons id rest =>
        let next : State Id := { built.withPc (.yielding (id :: rest)) with
          reclaimCursor := parsedCursor cfg cursor
          consecutiveReclaimBatchCount := built.consecutiveReclaimBatchCount + 1 }
        have hs : step cfg built .answered = some next := by
          show built.answer cfg s.pc = _
          rw [hpc]
          rfl
        have hnext : next.pc = .yielding (id :: rest) := rfl
        obtain ⟨t, ht, htpc, _⟩ := exists_reclaiming_of_yielding hcfg.1 hnext
        exact ⟨_, ComesToReclaim.of_step (e := .answered) trivial hs ⟨t, ht, htpc, rfl⟩⟩

/-- **A source that reads again comes to everything that is pending.** -/
theorem exists_handled_of_pending (hcfg : cfg.ReadsAgain) {s : State Id} (hidle : s.pc ≠ .idle)
    (hended : s.pc ≠ .ended) {x : Id} (hx : s.group.Pending x) :
    ∃ t, Continues cfg s t ∧ t.Handled x := by
  obtain ⟨cursor, t, ht, htpc, _⟩ := exists_comesToReclaim hcfg hidle hended
  obtain ⟨u, hu, hhandled⟩ := exists_handled_of_reclaiming hcfg _ t rfl htpc
    ((keeps_of_continues cfg ht).pending x hx)
  exact ⟨u, ht.trans hu, hhandled⟩

/-- **What is in hand is taken up.** -/
theorem exists_handled_of_inHand (cfg : Config) {s : State Id} {x : Id} (hx : x ∈ s.pc.inHand) :
    ∃ t, Continues cfg s t ∧ t.Handled x := by
  have hyield : ∀ u : State Id, u.pc = .yielding s.pc.inHand →
      (∃ e : Event Id, e.Smooth ∧ step cfg s e = some u) → ∃ t, Continues cfg s t ∧ t.Handled x := by
    intro u hpc hs
    obtain ⟨t, ht, _, _, _, _, hhandled⟩ := exists_continues_takeAll cfg hpc
    exact ⟨t, .head hs ht, hhandled x hx⟩
  cases hpc : s.pc with
  | idle => rw [hpc] at hx; cases hx
  | ended => rw [hpc] at hx; cases hx
  | recovering reclaim => rw [hpc] at hx; cases hx
  | yielding batch =>
    obtain ⟨t, ht, _, _, _, _, hhandled⟩ := exists_continues_takeAll cfg hpc
    rw [hpc] at hx
    exact ⟨t, ht, hhandled x hx⟩
  | reading reply =>
    rw [hpc] at hx
    cases reply with
    | none => cases hx
    | some reply =>
      cases reply with
      | nil => cases hx
      | cons id rest =>
        refine hyield (s.withPc (.yielding (id :: rest))) ?_ ⟨.answered, trivial, ?_⟩
        · rw [hpc]
          rfl
        · show s.answer cfg s.pc = _
          rw [hpc]
          rfl
  | reclaiming reply =>
    rw [hpc] at hx
    cases reply with
    | none => cases hx
    | some reply =>
      obtain ⟨ids, cursor⟩ := reply
      cases ids with
      | nil => cases hx
      | cons id rest =>
        refine hyield { s.withPc (.yielding (id :: rest)) with
          reclaimCursor := parsedCursor cfg cursor
          consecutiveReclaimBatchCount := s.consecutiveReclaimBatchCount + 1 } ?_
          ⟨.answered, trivial, ?_⟩
        · rw [hpc]
          rfl
        · show s.answer cfg s.pc = _
          rw [hpc]
          rfl

end State

/-! ## Without a second reading -/

/-- This source has what it was given, and what it had. -/
theorem Group.mine_of_mine_assign {g : Group Id} {ids : List Id} {id : Id}
    (h : (g.assign true ids).Mine id) : id ∈ ids ∨ g.Mine id := by
  obtain ⟨e, he, hid, hmine⟩ := h
  obtain ⟨e', he', rfl⟩ := List.mem_map.1 he
  dsimp only at hid hmine
  split at hmine
  next hmem => exact .inl (hid ▸ hmem)
  next => exact .inr ⟨e', he', hid, hmine⟩

namespace State

/-- **The invariant**: an entry that has been assigned and is pending has been handled, or
is in hand. -/
def InSight (s : State Id) : Prop :=
  s.pc ≠ .ended → ∀ id ∈ s.assigned, s.group.Mine id → s.Handled id ∨ id ∈ s.pc.inHand

theorem inSight_init (group : Group Id) : (init group).InSight := fun _ _ hid => nomatch hid

theorem InSight.quiet {s t : State Id} (h : s.InSight) (hq : s.Quiet t) : t.InSight := by
  intro hpc id hid hmine
  obtain ⟨hpc', hinHand⟩ := hq.inHand hpc
  rw [hq.assigned] at hid
  unfold Handled
  rw [hinHand, hq.emitted, hq.dropped]
  exact h hpc' id hid (hq.mine id hmine)

/-- Entries are handed out, and are in hand then. -/
theorem InSight.assign {s : State Id} (h : s.InSight) (hinHand : s.pc.inHand = [])
    (hended : s.pc ≠ .ended) {group : Group Id} {ids : List Id} {pc : Pc Id}
    (hmine : ∀ id, group.Mine id → id ∈ ids ∨ s.group.Mine id) (hpc : pc.inHand = ids) :
    ((s.assign group ids).withPc pc).InSight := by
  intro _ id hid hid'
  show s.Handled id ∨ id ∈ pc.inHand
  rw [hpc]
  rcases List.mem_append.1 hid with hid | hid
  · rcases hmine id hid' with hmem | hmine
    · exact .inr hmem
    · refine (h hended id hid hmine).imp_right (fun hmem => ?_)
      rw [hinHand] at hmem
      cases hmem
  · exact .inr hid

/-- **A command gives it entries**, which it will see in the reply. -/
theorem InSight.execute {s t : State Id} (h : s.InSight) (hs : s.execute cfg s.pc = some t) :
    t.InSight := by
  unfold State.execute at hs
  split at hs
  next hpc =>
    cases hs
    refine h.assign ?_ ?_ (fun _ hid => Group.mine_of_mine_assign hid) rfl
    · rw [hpc]
      rfl
    · rw [hpc]
      exact nofun
  next hpc =>
    cases hs
    refine h.assign ?_ ?_ (fun _ hid => Group.mine_of_mine_assign hid) rfl
    · rw [hpc]
      rfl
    · rw [hpc]
      exact nofun
  next => cases hs

/-- A call on its own hands out nothing that this source would not see. -/
theorem InSight.executeCall {s : State Id} (h : s.InSight) {call : Call Id} (i : ℕ)
    (hnone : s.pc ≠ .ended → s.handsOut cfg call = []) :
    InSight { s.executeCall cfg call with adrift := s.adrift.eraseIdx i } := by
  intro hpc id hid hmine
  have hpc : s.pc ≠ .ended := by cases call <;> exact hpc
  have hnil := hnone hpc
  cases call with
  | read =>
    have hnil : s.group.undelivered cfg.batchSize = [] := hnil
    have hid : id ∈ s.assigned ++ s.group.undelivered cfg.batchSize := hid
    have hmine : (s.group.assign true (s.group.undelivered cfg.batchSize)).Mine id := hmine
    rw [hnil] at hid hmine
    rw [List.append_nil] at hid
    exact h hpc id hid ((Group.mine_of_mine_assign hmine).resolve_left nofun)
  | reclaim cursor =>
    have hnil : (s.claimable cfg cursor).1 = [] := hnil
    have hid : id ∈ s.assigned ++ (s.claimable cfg cursor).1 := hid
    have hmine : (s.group.assign true (s.claimable cfg cursor).1).Mine id := hmine
    rw [hnil] at hid hmine
    rw [List.append_nil] at hid
    exact h hpc id hid ((Group.mine_of_mine_assign hmine).resolve_left nofun)

/-- **A reply that is lost** had nothing in it. -/
theorem InSight.fail {s t : State Id} (h : s.InSight) {retryable : Bool}
    (hlost : retryable = true → s.pc.inHand = []) (hs : s.fail retryable s.pc = some t) :
    t.InSight := by
  obtain ⟨adrift, pc, client, rfl, _, hpc, hne, _, _⟩ := fail_eq hs
  intro hended id hid hmine
  have hretry : retryable = true := by
    rw [← Bool.not_eq_false]
    exact fun hfalse => hended (hpc hfalse)
  refine .inl ((h hne id hid hmine).resolve_right (fun hmem => ?_))
  rw [hlost hretry] at hmem
  cases hmem

theorem InSight.take {s t : State Id} (h : s.InSight) {readable : Bool}
    (hs : s.take cfg readable s.pc = some t) : t.InSight := by
  unfold State.take at hs
  split at hs
  next x rest hpc =>
    have hold : ∀ id ∈ s.assigned, s.group.Mine id → s.Handled id ∨ id = x ∨ id ∈ rest := by
      intro id hid hmine
      have hne : s.pc ≠ .ended := by
        rw [hpc]
        exact nofun
      refine (h hne id hid hmine).imp_right (fun hmem => ?_)
      rw [hpc] at hmem
      exact List.mem_cons.1 hmem
    split at hs
    next =>
      cases hs
      intro _ id hid hmine
      rcases hold id hid hmine with hhandled | rfl | hrest
      · exact .inl (hhandled.imp_left (List.mem_append_left _))
      · exact .inl (.inl (List.mem_append_right _ (List.mem_singleton.2 rfl)))
      · exact .inr hrest
    next =>
      split at hs
      next =>
        cases hs
        intro _ id hid hmine
        rcases hold id hid hmine with hhandled | rfl | hrest
        · exact .inl (hhandled.imp_right (List.mem_append_left _))
        · exact .inl (.inr (List.mem_append_right _ (List.mem_singleton.2 rfl)))
        · exact .inr hrest
      next =>
        cases hs
        exact fun hended => absurd rfl hended
  next => cases hs

/-- **One step** that loses no reply keeps the invariant. -/
theorem InSight.step {s t : State Id} (h : s.InSight) {e : Event Id}
    (he : s.LosesNoReply cfg e) (hs : StreamSource.step cfg s e = some t) : t.InSight := by
  cases hquiet : e.isQuiet with
  | true => exact h.quiet (quiet_of_step cfg hquiet hs)
  | false =>
    cases e with
    | executed => exact h.execute hs
    | executedAdrift i =>
      obtain ⟨call, hcall, rfl⟩ := Option.map_eq_some_iff.1 hs
      exact h.executeCall i (fun hpc => he hpc call hcall)
    | raised retryable =>
      refine h.fail (fun hretry => ?_) hs
      subst hretry
      exact he
    | taken readable => exact h.take hs
    | _ => cases hquiet

end State

/-! ## What is lost without a reclaim -/

namespace State

/-- The group has delivered the entry, and it is neither handled nor in hand. -/
structure Stranded (s : State Id) (x : Id) : Prop where
  forward : s.Forward
  delivered : x ≤ s.group.lastDelivered
  inHand : x ∉ s.pc.inHand
  handled : ¬ s.Handled x

/-- **A source that does not reclaim never comes to it.** -/
theorem Stranded.step (hcfg : cfg.reclaimIdleMs = none) {s t : State Id} {x : Id}
    (h : s.Stranded x) {e : Event Id} (he : e.Smooth)
    (hs : StreamSource.step cfg s e = some t) : t.Stranded x := by
  have hforward : t.Forward := h.forward.step cfg hcfg hs
  have hdelivered : x ≤ t.group.lastDelivered :=
    h.delivered.trans (keeps_of_smooth cfg he hs).lastDelivered
  cases hquiet : e.isQuiet with
  | true =>
    have hq : s.Quiet t := quiet_of_step cfg hquiet hs
    refine ⟨hforward, hdelivered, fun hx => h.inHand (hq.inHand_sublist.subset hx), ?_⟩
    unfold Handled
    rw [hq.emitted, hq.dropped]
    exact h.handled
  | false =>
    cases e with
    | executed =>
      have hs : s.execute cfg s.pc = some t := hs
      unfold State.execute at hs
      split at hs
      next =>
        cases hs
        refine ⟨hforward, hdelivered, fun hx => ?_, h.handled⟩
        exact absurd (s.group.lt_of_mem_undelivered hx) (not_lt_of_ge h.delivered)
      next hpc => exact absurd hpc (h.forward.reclaiming _)
      next => cases hs
    | taken readable =>
      cases readable with
      | false => cases he
      | true =>
        have hs : s.take cfg true s.pc = some t := hs
        unfold State.take at hs
        split at hs
        next id rest hpc =>
          have hx : x ∉ id :: rest := by
            have := h.inHand
            rwa [hpc] at this
          cases hs
          refine ⟨hforward, hdelivered, fun hmem => hx (List.mem_cons_of_mem _ hmem), ?_⟩
          rintro (hemitted | hdropped)
          · rcases List.mem_append.1 hemitted with hemitted | hid
            · exact h.handled (.inl hemitted)
            · exact hx (List.mem_cons.2 (.inl (List.mem_singleton.1 hid)))
          · exact h.handled (.inr hdropped)
        next => cases hs
    | executedAdrift i => cases he
    | raised retryable => cases he
    | _ => cases hquiet

/-- **What is stranded is never handled**, if nothing is reclaimed. -/
theorem Stranded.not_handled_of_continues (hcfg : cfg.reclaimIdleMs = none) {s t : State Id}
    {x : Id} (h : s.Stranded x) (hst : Continues cfg s t) : ¬ t.Handled x := by
  suffices hstranded : t.Stranded x from hstranded.handled
  induction hst with
  | refl => exact h
  | tail _ hstep ih =>
    obtain ⟨e, he, hs⟩ := hstep
    exact ih.step hcfg he hs

/-- **Without a reclaim, an entry that is handed out in vain is left behind.** -/
theorem not_leavesNothing_of_stranded (hcfg : cfg.reclaimIdleMs = none) {s : State Id} {x : Id}
    (h : s.Stranded x) (hidle : s.pc ≠ .idle) (hended : s.pc ≠ .ended) (hx : x ∈ s.assigned)
    (hmine : s.group.Mine x) : ¬ s.LeavesNothing cfg := by
  intro hleaves
  obtain ⟨t, ht, hhandled⟩ := hleaves hidle hended x hx hmine
  exact h.not_handled_of_continues hcfg ht hhandled

end State

/-! ## Over a run -/

/-- **Nothing is left behind** in any run of a source that reads again, wherever its
commands fail, nor in a run of another one in which no reply is lost that hands out
something. -/
theorem allStates_leavesNothing (cfg : Config) (group : Group Id) (es : List (Event Id))
    (h : cfg.ReadsAgain
      ∨ AllSteps (step cfg) (fun s e _ => s.LosesNoReply cfg e) (.init group) es) :
    AllStates (step cfg) (State.LeavesNothing cfg) (.init group) es := by
  rcases h with hcfg | hlost
  · refine (allStates_of_invariant (I := fun _ => True) (fun _ _ _ _ _ => trivial) trivial
      es).mono (fun s _ => ?_)
    exact fun hidle hended id _ hmine =>
      State.exists_handled_of_pending hcfg hidle hended (s.group.pending_of_mine hmine)
  · have hstep : ∀ (s : State Id) (e : Event Id) (t : State Id), s.InSight →
        s.LosesNoReply cfg e → step cfg s e = some t → t.InSight :=
      fun _ _ _ hi he hs => hi.step he hs
    refine (allStates_of_step hstep (State.inSight_init group) hlost).mono (fun s hi => ?_)
    intro _ hended id hid hmine
    rcases hi hended id hid hmine with hhandled | hinHand
    · exact ⟨s, .refl, hhandled⟩
    · exact State.exists_handled_of_inHand cfg hinHand

/-- A source that reclaims reads the entry again whose reply was lost. -/
theorem allStates_leavesNothing_sample :
    AllStates (step Config.sample) (State.LeavesNothing Config.sample) (.init Group.sample)
      [.stream none, .executed, .answered, .executed, .raised true, .recovered] :=
  allStates_leavesNothing Config.sample Group.sample _ (.inl ⟨by decide, rfl⟩)

/-- One that does not. -/
def Config.withoutReclaim : Config := { Config.sample with reclaimIdleMs := none }

/-- **An entry can be left behind**: the server executes an `XREADGROUP`, the reply is lost,
and the source reads on without a reclaim. -/
theorem not_leavesNothing_reply_lost :
    ¬ AllStates (step Config.withoutReclaim) (State.LeavesNothing Config.withoutReclaim)
      (.init Group.sample) [.stream none, .executed, .raised true, .recovered] := by
  intro h
  let s : State MessageId :=
    { State.init Group.sample with
      group := Group.sample.readGroup true 10
      pc := .reading none
      assigned := [toLex (1, 1)] }
  have hrun : run (step Config.withoutReclaim) (.init Group.sample)
      [.stream none, .executed, .raised true, .recovered] = some s := rfl
  have hstranded : s.Stranded (toLex (1, 1)) :=
    ⟨⟨nofun, nofun, bot_le, nofun, .nil⟩, by decide, nofun, by rintro (h | h) <;> cases h⟩
  refine State.not_leavesNothing_of_stranded rfl hstranded nofun nofun
    (List.mem_singleton.2 rfl) ?_ (h.last hrun)
  exact ⟨⟨toLex (1, 1), some ⟨true, 0⟩⟩, .tail _ (.head _), rfl, rfl⟩

end StreamSource
