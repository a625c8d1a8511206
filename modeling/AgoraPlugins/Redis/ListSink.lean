import Mathlib.Data.List.Nodup
import AgoraPlugins.Dict
import AgoraPlugins.Json
import AgoraPlugins.Machine

/-!
# The list mode of the Redis sink

Each record of a call is pushed by a script of its own, which first sets a marker and
does nothing if it is set already. All commands of an attempt go out at once; what an
attempt that has failed has sent may still be executed, in part and later, and each
attempt sends the same commands again. So a record is pushed at most once, whatever the
attempts do.

It is pushed at least once if the call returns, unless the push itself raised an error:
a script that is stopped leaves behind what it has done, and the marker says from then
on that the record has been pushed.

Markers do not expire here. Other clients may do anything to the lists.
-/

open Machine

namespace ListSink

/-! ## Markers -/

/-- `_redis_hash_tag`. -/
def redisHashTag (key : String) : Option String :=
  match key.toList.dropWhile (fun c => c ≠ Json.openBrace) with
  | [] => none
  | _ :: rest =>
    if Json.closeBrace ∈ rest then
      match rest.takeWhile (fun c => c ≠ Json.closeBrace) with
      | [] => none
      | c :: tag => some (String.ofList (c :: tag))
    else none

/-- What a marker key starts with: its hash slot is that of the list. -/
def markerSlot (key : String) : String :=
  match redisHashTag key with
  | some tag => "\x7b" ++ tag ++ "\x7d"
  | none =>
    if Json.openBrace ∉ key.toList ∧ Json.closeBrace ∉ key.toList then "\x7b" ++ key ++ "\x7d"
    else key

/-- `_list_idempotency_key`. -/
def listIdempotencyKey (key operationId : String) : String :=
  markerSlot key ++ ":agora:list-write:" ++ operationId

/-- **Operations have markers of their own**, their ids being equally long. -/
theorem eq_of_listIdempotencyKey_eq {key key' id id' : String} (hlength : id.length = id'.length)
    (h : listIdempotencyKey key id = listIdempotencyKey key' id') : id = id' := by
  unfold listIdempotencyKey at h
  have htexts := congrArg String.toList h
  simp only [String.toList_append] at htexts
  exact String.toList_injective (List.append_inj_right' htexts
    (by rw [String.length_toList, String.length_toList, hlength]))

/-! ## The server -/

/-- At which end of the list a record is put in. -/
inductive Mode where
  | lpush
  | rpush
  deriving DecidableEq

/-- The lists and the markers that are set. -/
structure Server where
  lists : Dict String (List String)
  markers : Finset String

namespace Server

def list (server : Server) (key : String) : List String := (server.lists.lookup key).getD []

def setList (server : Server) (key : String) (items : List String) : Server :=
  { server with lists := server.lists.insert key items }

def mark (server : Server) (marker : String) : Server :=
  { server with markers := insert marker server.markers }

end Server

/-- `LPUSH` and `RPUSH`. -/
def push (mode : Mode) (value : String) (items : List String) : List String :=
  match mode with
  | .lpush => value :: items
  | .rpush => items ++ [value]

/-- `LTRIM` to the items pushed last. -/
def trim (mode : Mode) (maxlen : ℕ) (items : List String) : List String :=
  match mode with
  | .lpush => items.take maxlen
  | .rpush => items.drop (items.length - maxlen)

/-- A record of a call, with the id its writing has been given. -/
structure Operation where
  key : String
  value : String
  id : String

/-- **A call** of `write` or `write_batch`, with the server as it finds it. Operation ids
are the 32 digits of a random number. -/
structure Call where
  mode : Mode
  maxlen : Option ℕ
  operations : List Operation
  server : Server
  length_id : ∀ op ∈ operations, op.id.length = 32
  nodup : (operations.map Operation.id).Nodup
  fresh : ∀ op ∈ operations, listIdempotencyKey op.key op.id ∉ server.markers

/-- The command of a script that raises an error. -/
inductive Raising where
  | set
  | push
  | trim
  deriving DecidableEq

/-- What a script has done. It has raised, or it has returned. -/
structure Outcome where
  server : Server
  pushed : Bool
  raised : Bool

/-- **`_LIST_WRITE_SCRIPT`.** A command that is not reached raises nothing. -/
def listWriteScript (mode : Mode) (maxlen : Option ℕ) (op : Operation) (raising : Option Raising)
    (server : Server) : Outcome :=
  let marker := listIdempotencyKey op.key op.id
  if raising = some .set then ⟨server, false, true⟩
  else if marker ∈ server.markers then ⟨server, false, false⟩
  else if raising = some .push then ⟨server.mark marker, false, true⟩
  else
    let pushed := push mode op.value (server.list op.key)
    match maxlen with
    | none => ⟨(server.mark marker).setList op.key pushed, true, false⟩
    | some maxlen =>
      if raising = some .trim then ⟨(server.mark marker).setList op.key pushed, true, true⟩
      else ⟨(server.mark marker).setList op.key (trim mode maxlen pushed), true, false⟩

/-! ## Attempts -/

/-- **Where the commands of an attempt are**: not executed, or executed with or without
an error. -/
abbrev Attempt := List (Option Bool)

/-- **The server and the attempts**, with what has been pushed. -/
structure State where
  server : Server
  attempts : List Attempt
  returned : Bool
  /-- the records that were pushed, in the order in which they were -/
  pushes : List ℕ
  /-- the records whose push raised an error -/
  failed : List ℕ

/-- What can happen. -/
inductive Event where
  /-- the operation is tried, for the first time or again -/
  | attempted
  /-- the server executes a command of an attempt, whether or not anyone waits for it -/
  | executed (attempt command : ℕ) (raising : Option Raising)
  /-- all replies of the last attempt are in, and none is an error -/
  | returned
  /-- another client changes a list -/
  | other (key : String) (items : List String)

variable (call : Call)

def State.init : State := ⟨call.server, [], false, [], []⟩

/-- The marker of a record. -/
def Call.marker (i : ℕ) : Option String :=
  (call.operations[i]?).map (fun op => listIdempotencyKey op.key op.id)

/-- A command of an attempt is executed. -/
def State.execute (s : State) (a i : ℕ) (attempt : Attempt) (op : Operation)
    (raising : Option Raising) : State :=
  let outcome := listWriteScript call.mode call.maxlen op raising s.server
  { s with
    server := outcome.server
    attempts := s.attempts.set a (attempt.set i (some (! outcome.raised)))
    pushes := if outcome.pushed then s.pushes ++ [i] else s.pushes
    failed := if raising = some .push ∧ outcome.raised then s.failed ++ [i] else s.failed }

/-- **One event.** -/
def step (s : State) : Event → Option State
  | .attempted =>
    if s.returned then none
    else some { s with
      attempts := s.attempts ++ [List.replicate call.operations.length none] }
  | .executed a i raising =>
    match s.attempts[a]?, call.operations[i]? with
    | some attempt, some op =>
      if attempt[i]? = some none then some (s.execute call a i attempt op raising) else none
    | _, _ => none
  | .returned =>
    match s.attempts.getLast? with
    | some attempt =>
      if attempt.all (fun reply => reply = some true) then some { s with returned := true } else none
    | none => none
  | .other key items => some { s with server := s.server.setList key items }

/-! ## What is claimed -/

/-- **Exactly once**: when the call has returned, each record has been pushed once. -/
def State.Exact (s : State) : Prop :=
  s.returned = true → ∀ i < call.operations.length, s.pushes.count i = 1

/-- **In order**: a record is pushed after those before it. -/
def State.Ordered (s : State) : Prop := s.pushes.Pairwise (· < ·)

/-- A list with some records of the call pushed to it. -/
def Call.appended (key : String) (pushes : List ℕ) (items : List String) : List String :=
  pushes.foldl (fun items i =>
    match call.operations[i]? with
    | some op => if op.key = key then push call.mode op.value items else items
    | none => items) items

/-- Each list is what it was, with the records pushed to it that were. -/
def State.Appended (s : State) : Prop :=
  ∀ key, s.server.list key = call.appended key s.pushes (call.server.list key)

/-- The call does not return when a push has raised an error. -/
def Settled (s : State) : Event → Prop
  | .returned => s.failed = []
  | .attempted | .executed _ _ _ | .other _ _ => True

/-- A command is executed when those before it have been, without an error. -/
def InTurn (s : State) : Event → Prop
  | .executed a i _ => ∀ attempt ∈ s.attempts[a]?, ∀ j < i, attempt[j]? = some (some true)
  | .attempted | .returned | .other _ _ => True

/-- No other client changes a list. -/
def Alone (_ : State) : Event → Prop
  | .other _ _ => False
  | .attempted | .executed _ _ _ | .returned => True

instance (s : State) : DecidablePred (Settled s) := fun e => by
  cases e <;> unfold Settled <;> infer_instance

instance (s : State) : DecidablePred (InTurn s) := fun e => by
  cases e <;> unfold InTurn <;> infer_instance

instance (s : State) : DecidablePred (Alone s) := fun e => by
  cases e <;> unfold Alone <;> infer_instance

/-! ## What a script does -/

variable {call}

theorem Call.marker_eq {i : ℕ} {op : Operation} (h : call.operations[i]? = some op) :
    call.marker i = some (listIdempotencyKey op.key op.id) := by
  unfold Call.marker
  rw [h]
  rfl

/-- **A marker is that of one record.** -/
theorem Call.eq_of_marker_eq {i j : ℕ} {marker : String} (hi : call.marker i = some marker)
    (hj : call.marker j = some marker) : i = j := by
  obtain ⟨op, hop, rfl⟩ := Option.map_eq_some_iff.1 hi
  obtain ⟨op', hop', hkeys⟩ := Option.map_eq_some_iff.1 hj
  have hlength : op'.id.length = op.id.length := by
    rw [call.length_id op (List.mem_of_getElem? hop), call.length_id op' (List.mem_of_getElem? hop')]
  have hid := eq_of_listIdempotencyKey_eq hlength hkeys
  have hlt : i < (call.operations.map Operation.id).length := by
    rw [List.length_map]
    exact (List.getElem?_eq_some_iff.1 hop).1
  refine (List.getElem?_inj hlt call.nodup).1 ?_
  rw [List.getElem?_map, List.getElem?_map, hop, hop']
  exact congrArg some hid.symm

/-- The markers that are set when a command has been executed, and the records that have
been pushed and that have failed by then. -/
theorem listWriteScript_cases (mode : Mode) (maxlen : Option ℕ) (op : Operation)
    (raising : Option Raising) (server : Server) (o : Outcome)
    (ho : o = listWriteScript mode maxlen op raising server) :
    o.server = server ∧ o.pushed = false
        ∧ (raising = some .set ∧ o.raised = true
          ∨ listIdempotencyKey op.key op.id ∈ server.markers ∧ o.raised = false)
      ∨ listIdempotencyKey op.key op.id ∉ server.markers ∧ raising = some .push
        ∧ o = ⟨server.mark (listIdempotencyKey op.key op.id), false, true⟩
      ∨ listIdempotencyKey op.key op.id ∉ server.markers ∧ raising ≠ some .push
        ∧ o.pushed = true
        ∧ o.server.markers = insert (listIdempotencyKey op.key op.id) server.markers := by
  unfold listWriteScript at ho
  dsimp only at ho
  split at ho
  next hset =>
    subst ho
    exact .inl ⟨rfl, rfl, .inl ⟨hset, rfl⟩⟩
  next =>
    split at ho
    next hmarker =>
      subst ho
      exact .inl ⟨rfl, rfl, .inr ⟨hmarker, rfl⟩⟩
    next hmarker =>
      split at ho
      next hpush =>
        exact .inr (.inl ⟨hmarker, hpush, ho⟩)
      next hpush =>
        refine .inr (.inr ⟨hmarker, hpush, ?_⟩)
        split at ho
        next =>
          subst ho
          exact ⟨rfl, rfl⟩
        next =>
          split at ho
          next =>
            subst ho
            exact ⟨rfl, rfl⟩
          next =>
            subst ho
            exact ⟨rfl, rfl⟩

/-! ## The invariant -/

/-- The record has been pushed, or its push has raised an error. -/
def State.Done (s : State) (i : ℕ) : Prop := i ∈ s.pushes ∨ i ∈ s.failed

variable (call) in
/-- **The markers tell what has been done**, and what has been done once is not done
again. -/
structure State.Sound (s : State) : Prop where
  marked : ∀ i marker, call.marker i = some marker → (marker ∈ s.server.markers ↔ s.Done i)
  nodup : s.pushes.Nodup
  disjoint : ∀ i ∈ s.failed, i ∉ s.pushes
  lt : ∀ i, s.Done i → i < call.operations.length
  length : ∀ attempt ∈ s.attempts, attempt.length = call.operations.length
  replied : ∀ attempt ∈ s.attempts, ∀ i, attempt[i]? = some (some true) → s.Done i

namespace State

variable {s : State} {a i : ℕ} {attempt : Attempt} {op : Operation} {raising : Option Raising}

/-- **A command that is executed** changes nothing but its reply, or it is the first one of
its record: then the push is done, or has raised an error. -/
theorem Sound.execute_cases (h : s.Sound call) (a : ℕ) (attempt : Attempt)
    (raising : Option Raising) (hop : call.operations[i]? = some op) (t : State)
    (ht : t = s.execute call a i attempt op raising) :
    ∃ raised, t.attempts = s.attempts.set a (attempt.set i (some (! raised)))
      ∧ t.returned = s.returned
      ∧ (t.server = s.server ∧ t.pushes = s.pushes ∧ t.failed = s.failed
          ∧ (raised = false → s.Done i)
        ∨ ¬ s.Done i ∧ raised = true ∧ t.pushes = s.pushes ∧ t.failed = s.failed ++ [i]
          ∧ t.server = s.server.mark (listIdempotencyKey op.key op.id)
        ∨ ¬ s.Done i ∧ t.pushes = s.pushes ++ [i] ∧ t.failed = s.failed
          ∧ t.server.markers = insert (listIdempotencyKey op.key op.id) s.server.markers) := by
  have hmarked := h.marked i _ (Call.marker_eq hop)
  have hcases := listWriteScript_cases call.mode call.maxlen op raising s.server _ rfl
  unfold execute at ht
  generalize listWriteScript call.mode call.maxlen op raising s.server = o at hcases ht
  subst ht
  refine ⟨o.raised, rfl, rfl, ?_⟩
  dsimp only
  rcases hcases with ⟨hserver, hpushed, hreply⟩ | ⟨hmarker, hpush, ho⟩ | ⟨hmarker, hpush, hpushed, hm⟩
  · refine .inl ⟨hserver, by rw [hpushed]; rfl, ?_, ?_⟩
    · rcases hreply with ⟨hset, _⟩ | ⟨_, hraised⟩
      · simp [hset]
      · simp [hraised]
    · intro hraised
      rcases hreply with ⟨_, hraised'⟩ | ⟨hmarker, _⟩
      · rw [hraised] at hraised'
        cases hraised'
      · exact hmarked.1 hmarker
  · subst ho
    exact .inr (.inl ⟨fun hd => hmarker (hmarked.2 hd), rfl, rfl, by simp [hpush], rfl⟩)
  · refine .inr (.inr ⟨fun hd => hmarker (hmarked.2 hd), by rw [hpushed]; rfl, ?_, hm⟩)
    rw [if_neg (fun h => hpush h.1)]

/-- What has been done stays done. -/
theorem Sound.done_mono (h : s.Sound call) (hop : call.operations[i]? = some op) {j : ℕ}
    (hj : s.Done j) : (s.execute call a i attempt op raising).Done j := by
  obtain ⟨raised, _, _, hcases⟩ := h.execute_cases a attempt raising hop _ rfl
  unfold Done at hj ⊢
  rcases hcases with ⟨_, hpushes, hfailed, _⟩ | ⟨_, _, hpushes, hfailed, _⟩ | ⟨_, hpushes, hfailed, _⟩
    <;> rw [hpushes, hfailed]
  · exact hj
  · exact hj.imp_right (List.mem_append_left _)
  · exact hj.imp_left (List.mem_append_left _)

/-- A reply without an error that is there after a command was there before it, or is the
reply of this command. -/
theorem eq_of_replied {attempts : List Attempt} {attempt' : Attempt} {reply : Bool} {j : ℕ}
    (ha : attempts[a]? = some attempt)
    (h : attempt' ∈ attempts.set a (attempt.set i (some reply)))
    (hj : attempt'[j]? = some (some true)) :
    (∃ attempt ∈ attempts, attempt[j]? = some (some true)) ∨ j = i ∧ reply = true := by
  rcases List.mem_or_eq_of_mem_set h with h | rfl
  · exact .inl ⟨attempt', h, hj⟩
  · by_cases hij : i = j
    · subst hij
      rw [List.getElem?_set_self' ] at hj
      cases hi : attempt[i]? with
      | none =>
        rw [hi] at hj
        cases hj
      | some old =>
        rw [hi] at hj
        exact .inr ⟨rfl, Option.some.inj (Option.some.inj hj)⟩
    · rw [List.getElem?_set_ne hij] at hj
      exact .inl ⟨attempt, List.mem_of_getElem? ha, hj⟩

theorem Sound.execute (h : s.Sound call) (ha : s.attempts[a]? = some attempt)
    (hop : call.operations[i]? = some op) : (s.execute call a i attempt op raising).Sound call := by
  have hmono : ∀ j, s.Done j → (s.execute call a i attempt op raising).Done j :=
    fun j => h.done_mono hop
  have hlt : i < call.operations.length := (List.getElem?_eq_some_iff.1 hop).1
  have hmarker := Call.marker_eq hop
  obtain ⟨raised, hattempts, _, hcases⟩ := h.execute_cases a attempt raising hop _ rfl
  generalize s.execute call a i attempt op raising = t at hmono hattempts hcases ⊢
  have hlength : ∀ attempt ∈ t.attempts, attempt.length = call.operations.length := by
    intro attempt' hmem
    rw [hattempts] at hmem
    rcases List.mem_or_eq_of_mem_set hmem with hmem | rfl
    · exact h.length attempt' hmem
    · rw [List.length_set]
      exact h.length attempt (List.mem_of_getElem? ha)
  have hreplied : (raised = false → t.Done i) → ∀ attempt ∈ t.attempts, ∀ j,
      attempt[j]? = some (some true) → t.Done j := by
    intro hdone attempt' hmem j hj
    rw [hattempts] at hmem
    rcases eq_of_replied ha hmem hj with ⟨attempt, hmem, hj⟩ | ⟨rfl, hraised⟩
    · exact hmono j (h.replied attempt hmem j hj)
    · exact hdone (by simpa using hraised)
  -- a marker that has been set is that of this record
  have hinsert : t.server.markers = insert (listIdempotencyKey op.key op.id) s.server.markers →
      (∀ j, t.Done j ↔ s.Done j ∨ j = i) →
      ∀ j marker, call.marker j = some marker → (marker ∈ t.server.markers ↔ t.Done j) := by
    intro hmarkers hdone j marker hj
    rw [hmarkers, Finset.mem_insert, hdone, h.marked j marker hj, or_comm]
    refine or_congr_right ⟨?_, ?_⟩
    · rintro rfl
      exact Call.eq_of_marker_eq hj hmarker
    · rintro rfl
      exact Option.some.inj (hj.symm.trans hmarker)
  rcases hcases with ⟨hserver, hpushes, hfailed, hdone⟩ | ⟨hnew, hraised, hpushes, hfailed, hserver⟩
    | ⟨hnew, hpushes, hfailed, hserver⟩
  · have hsame : ∀ j, t.Done j ↔ s.Done j := fun j => by unfold Done; rw [hpushes, hfailed]
    refine ⟨?_, ?_, ?_, ?_, hlength, hreplied (fun hr => hmono i (hdone hr))⟩
    · intro j marker hj
      rw [hserver, hsame]
      exact h.marked j marker hj
    · rw [hpushes]
      exact h.nodup
    · rw [hfailed, hpushes]
      exact h.disjoint
    · intro j hj
      exact h.lt j ((hsame j).1 hj)
  · have hsame : ∀ j, t.Done j ↔ s.Done j ∨ j = i := by
      intro j
      unfold Done
      rw [hpushes, hfailed, List.mem_append, List.mem_singleton, or_assoc]
    refine ⟨hinsert (by rw [hserver]; rfl) hsame, ?_, ?_, ?_, hlength,
      hreplied (fun _ => (hsame i).2 (.inr rfl))⟩
    · rw [hpushes]
      exact h.nodup
    · intro j hj
      rw [hfailed, List.mem_append, List.mem_singleton] at hj
      rw [hpushes]
      rcases hj with hj | rfl
      · exact h.disjoint j hj
      · exact fun hmem => hnew (.inl hmem)
    · intro j hj
      rcases (hsame j).1 hj with hj | rfl
      · exact h.lt j hj
      · exact hlt
  · have hsame : ∀ j, t.Done j ↔ s.Done j ∨ j = i := by
      intro j
      unfold Done
      rw [hpushes, hfailed, List.mem_append, List.mem_singleton]
      tauto
    refine ⟨hinsert hserver hsame, ?_, ?_, ?_, hlength,
      hreplied (fun _ => (hsame i).2 (.inr rfl))⟩
    · rw [hpushes]
      refine List.nodup_append.2 ⟨h.nodup, List.nodup_singleton i, ?_⟩
      rintro j hj k hk rfl
      exact hnew (.inl (List.mem_singleton.1 hk ▸ hj))
    · intro j hj
      rw [hfailed] at hj
      rw [hpushes, List.mem_append, List.mem_singleton]
      rintro (hmem | rfl)
      · exact h.disjoint j hj hmem
      · exact hnew (.inr hj)
    · intro j hj
      rcases (hsame j).1 hj with hj | rfl
      · exact h.lt j hj
      · exact hlt

/-- **Exactly once, if nothing has failed**, and only then. -/
theorem Sound.exact_iff (h : s.Sound call) (hreturned : s.returned = true)
    (hall : ∀ j < call.operations.length, s.Done j) : s.Exact call ↔ s.failed = [] := by
  constructor
  · intro hexact
    refine List.eq_nil_iff_forall_not_mem.2 (fun j hj => ?_)
    have hcount := hexact hreturned j (h.lt j (.inr hj))
    rw [List.count_eq_zero.2 (h.disjoint j hj)] at hcount
    cases hcount
  · intro hfailed _ j hj
    refine List.count_eq_one_of_mem h.nodup ((hall j hj).resolve_right ?_)
    rw [hfailed]
    exact List.not_mem_nil

/-- What has been pushed once stays so. -/
theorem Exact.of_mono (hexact : s.Exact call) {t : State}
    (ht : t.Sound call) (hreturned : t.returned = s.returned)
    (hpushes : ∀ j ∈ s.pushes, j ∈ t.pushes) : t.Exact call := by
  intro hret j hj
  rw [hreturned] at hret
  refine List.count_eq_one_of_mem ht.nodup (hpushes j ?_)
  by_contra hmem
  have hcount := hexact hret j hj
  rw [List.count_eq_zero.2 hmem] at hcount
  cases hcount

end State

/-- **The invariant is kept**, whatever happens. -/
theorem State.Sound.step {s : State} (h : s.Sound call) {e : Event} {t : State}
    (hstep : ListSink.step call s e = some t) : t.Sound call := by
  unfold ListSink.step at hstep
  cases e with
  | attempted =>
    dsimp only at hstep
    split at hstep
    next => cases hstep
    next =>
      cases hstep
      refine ⟨h.marked, h.nodup, h.disjoint, h.lt, ?_, ?_⟩
      · intro attempt hmem
        rcases List.mem_append.1 hmem with hmem | hmem
        · exact h.length attempt hmem
        · rw [List.mem_singleton.1 hmem, List.length_replicate]
      · intro attempt hmem j hj
        rcases List.mem_append.1 hmem with hmem | hmem
        · exact h.replied attempt hmem j hj
        · rw [List.mem_singleton.1 hmem] at hj
          have hnone := List.eq_of_mem_replicate (List.mem_of_getElem? hj)
          cases hnone
  | executed a i raising =>
    dsimp only at hstep
    split at hstep
    next attempt op ha hop =>
      split at hstep
      next =>
        cases hstep
        exact h.execute ha hop
      next => cases hstep
    next => cases hstep
  | returned =>
    dsimp only at hstep
    split at hstep
    next =>
      split at hstep
      next =>
        cases hstep
        exact ⟨h.marked, h.nodup, h.disjoint, h.lt, h.length, h.replied⟩
      next => cases hstep
    next => cases hstep
  | other key items =>
    cases hstep
    exact ⟨h.marked, h.nodup, h.disjoint, h.lt, h.length, h.replied⟩

/-- **One event**: a call returns with every record pushed once just if no push has raised
an error. -/
theorem step_iff (s : State) (e : Event) (t : State) (h : s.Sound call) (hexact : s.Exact call)
    (hstep : step call s e = some t) : t.Sound call ∧ (t.Exact call ↔ Settled s e) := by
  have hsound := h.step hstep
  refine ⟨hsound, ?_⟩
  unfold step at hstep
  cases e with
  | attempted =>
    dsimp only at hstep
    split at hstep
    next => cases hstep
    next =>
      cases hstep
      exact iff_true_intro hexact
  | executed a i raising =>
    dsimp only at hstep
    split at hstep
    next attempt op ha hop =>
      split at hstep
      next =>
        cases hstep
        refine iff_true_intro (hexact.of_mono hsound rfl (fun j hj => ?_))
        obtain ⟨_, _, _, hcases⟩ := h.execute_cases a attempt raising hop _ rfl
        rcases hcases with ⟨_, hpushes, _⟩ | ⟨_, _, hpushes, _⟩ | ⟨_, hpushes, _⟩ <;> rw [hpushes]
        · exact hj
        · exact hj
        · exact List.mem_append_left _ hj
      next => cases hstep
    next => cases hstep
  | returned =>
    dsimp only at hstep
    split at hstep
    next attempt hlast =>
      split at hstep
      next hall =>
        cases hstep
        refine hsound.exact_iff rfl (fun j hj => ?_)
        have hmem : attempt ∈ s.attempts := List.mem_of_getLast? hlast
        have hlt : j < attempt.length := by rw [h.length attempt hmem]; exact hj
        have hreply := List.all_eq_true.1 hall attempt[j] (List.getElem_mem hlt)
        refine h.replied attempt hmem j ?_
        rw [List.getElem?_eq_getElem hlt, of_decide_eq_true hreply]
      next => cases hstep
    next => cases hstep
  | other key items =>
    cases hstep
    exact iff_true_intro hexact

theorem State.sound_init (call : Call) : (State.init call).Sound call := by
  refine ⟨fun i marker hi => ?_, List.nodup_nil, nofun, fun i hi => ?_, nofun, nofun⟩
  · obtain ⟨op, hop, rfl⟩ := Option.map_eq_some_iff.1 hi
    refine ⟨fun hmem => absurd hmem (call.fresh op (List.mem_of_getElem? hop)), fun hdone => ?_⟩
    exact hdone.elim nofun nofun
  · exact hi.elim nofun nofun

/-- **When every record is pushed exactly once**: exactly in the runs in which the call
does not return after a push has raised an error. -/
theorem exact_iff (call : Call) (es : List Event) :
    AllStates (step call) (State.Exact call) (.init call) es
      ↔ AllSteps (step call) (fun s e _ => Settled s e) (.init call) es :=
  allStates_iff_allSteps step_iff (State.sound_init call) nofun es

/-! ## The order of the pushes -/

namespace State

variable {s : State} {a i : ℕ} {attempt : Attempt} {op : Operation} {raising : Option Raising}

/-- **What is done is done from the first record on**, and pushed in this order. -/
structure InOrder (s : State) : Prop where
  ordered : s.Ordered
  down : ∀ i, s.Done i → ∀ j < i, s.Done j

theorem InOrder.execute (h : s.InOrder) (hs : s.Sound call) (ha : s.attempts[a]? = some attempt)
    (hop : call.operations[i]? = some op)
    (hturn : ∀ j < i, attempt[j]? = some (some true)) :
    (s.execute call a i attempt op raising).InOrder := by
  have hbefore : ∀ j < i, s.Done j :=
    fun j hj => hs.replied attempt (List.mem_of_getElem? ha) j (hturn j hj)
  obtain ⟨_, _, _, hcases⟩ := hs.execute_cases a attempt raising hop _ rfl
  generalize s.execute call a i attempt op raising = t at hcases ⊢
  have hdown : (∀ j, t.Done j ↔ s.Done j ∨ j = i) → ∀ k, t.Done k → ∀ j < k, t.Done j := by
    intro hdone k hk j hj
    rcases (hdone k).1 hk with hk | rfl
    · exact (hdone j).2 (.inl (h.down k hk j hj))
    · exact (hdone j).2 (.inl (hbefore j hj))
  rcases hcases with ⟨_, hpushes, hfailed, _⟩ | ⟨_, _, hpushes, hfailed, _⟩
    | ⟨hnew, hpushes, hfailed, _⟩
  · refine ⟨?_, fun k hk j hj => ?_⟩
    · unfold Ordered
      rw [hpushes]
      exact h.ordered
    · unfold Done at hk ⊢
      rw [hpushes, hfailed] at hk ⊢
      exact h.down k hk j hj
  · refine ⟨?_, hdown (fun j => ?_)⟩
    · unfold Ordered
      rw [hpushes]
      exact h.ordered
    · unfold Done
      rw [hpushes, hfailed, List.mem_append, List.mem_singleton, or_assoc]
  · refine ⟨?_, hdown (fun j => ?_)⟩
    · unfold Ordered
      rw [hpushes]
      refine List.pairwise_append.2 ⟨h.ordered, List.pairwise_singleton _ _, fun j hj k hk => ?_⟩
      rw [List.mem_singleton.1 hk]
      by_contra hle
      rcases Nat.lt_or_eq_of_le (Nat.le_of_not_lt hle) with hlt | rfl
      · exact hnew (h.down j (.inl hj) i hlt)
      · exact hnew (.inl hj)
    · unfold Done
      rw [hpushes, hfailed, List.mem_append, List.mem_singleton]
      tauto

/-! ## What is in the lists -/

theorem list_setList (server : Server) (key k : String) (items : List String) :
    (server.setList key items).list k = if key = k then items else server.list k := by
  unfold Server.setList Server.list
  split
  next h =>
    rw [← h, AList.lookup_insert]
    rfl
  next h => rw [AList.lookup_insert_ne (Ne.symm h)]

/-- Without a trim, a script changes a list by its push only. -/
theorem list_listWriteScript (mode : Mode) (op : Operation) (raising : Option Raising)
    (server : Server) (key : String) :
    (listWriteScript mode none op raising server).server.list key
      = if (listWriteScript mode none op raising server).pushed = true ∧ op.key = key then
          push mode op.value (server.list key)
        else server.list key := by
  unfold listWriteScript
  dsimp only
  split
  next => rfl
  next =>
    split
    next => rfl
    next =>
      split
      next => rfl
      next =>
        rw [list_setList]
        simp only [true_and]
        split
        next h => rw [h]
        next => rfl

theorem Appended.execute (h : s.Appended call) (hmaxlen : call.maxlen = none)
    (hop : call.operations[i]? = some op) :
    (s.execute call a i attempt op raising).Appended call := by
  intro key
  show (listWriteScript call.mode call.maxlen op raising s.server).server.list key
    = call.appended key (if (listWriteScript call.mode call.maxlen op raising s.server).pushed then
      s.pushes ++ [i] else s.pushes) (call.server.list key)
  rw [hmaxlen, list_listWriteScript, h key]
  cases (listWriteScript call.mode none op raising s.server).pushed with
  | false => rfl
  | true =>
    unfold Call.appended
    rw [if_pos rfl, List.foldl_append]
    simp [hop]

/-- A list of all numbers in order is the range of them. -/
theorem Sound.pushes_eq_range (h : s.Sound call) (hordered : s.Ordered) (hexact : s.Exact call)
    (hreturned : s.returned = true) : s.pushes = List.range call.operations.length := by
  refine List.Perm.eq_of_pairwise (fun _ _ _ _ h h' => absurd (h.trans h') (lt_irrefl _)) hordered
    List.pairwise_lt_range ?_
  refine (List.perm_ext_iff_of_nodup h.nodup List.nodup_range).2 (fun j => ?_)
  rw [List.mem_range]
  refine ⟨fun hj => h.lt j (.inl hj), fun hj => ?_⟩
  by_contra hmem
  have hcount := hexact hreturned j hj
  rw [List.count_eq_zero.2 hmem] at hcount
  cases hcount

end State

variable (call) in
/-- **What a whole call leaves**: with its records pushed in their order. -/
def State.Listed (s : State) : Prop :=
  s.returned = true → ∀ key, s.server.list key
    = call.appended key (List.range call.operations.length) (call.server.list key)

/-- **One event in its turn.** -/
theorem inOrder_step {s t : State} {e : Event} (h : s.Sound call) (hs : s.InOrder)
    (hturn : InTurn s e) (hstep : step call s e = some t) : t.InOrder := by
  cases e with
  | attempted =>
    unfold step at hstep
    dsimp only at hstep
    split at hstep
    next => cases hstep
    next =>
      cases hstep
      exact ⟨hs.ordered, hs.down⟩
  | executed a i raising =>
    unfold step at hstep
    dsimp only at hstep
    split at hstep
    next attempt op ha hop =>
      split at hstep
      next =>
        cases hstep
        exact hs.execute h ha hop (hturn attempt ha)
      next => cases hstep
    next => cases hstep
  | returned =>
    unfold step at hstep
    dsimp only at hstep
    split at hstep
    next =>
      split at hstep
      next =>
        cases hstep
        exact ⟨hs.ordered, hs.down⟩
      next => cases hstep
    next => cases hstep
  | other key items =>
    cases hstep
    exact ⟨hs.ordered, hs.down⟩

/-- One event, no other client being there. -/
theorem appended_step {s t : State} {e : Event} (hmaxlen : call.maxlen = none)
    (h : s.Appended call) (halone : Alone s e) (hstep : step call s e = some t) :
    t.Appended call := by
  cases e with
  | attempted =>
    unfold step at hstep
    dsimp only at hstep
    split at hstep
    next => cases hstep
    next =>
      cases hstep
      exact h
  | executed a i raising =>
    unfold step at hstep
    dsimp only at hstep
    split at hstep
    next attempt op _ hop =>
      split at hstep
      next =>
        cases hstep
        exact h.execute hmaxlen hop
      next => cases hstep
    next => cases hstep
  | returned =>
    unfold step at hstep
    dsimp only at hstep
    split at hstep
    next =>
      split at hstep
      next =>
        cases hstep
        exact h
      next => cases hstep
    next => cases hstep
  | other key items => exact halone.elim

theorem State.inOrder_init (call : Call) : (State.init call).InOrder :=
  ⟨List.Pairwise.nil, fun _ hi => hi.elim nofun nofun⟩

/-- **The pushes are in order**, if each attempt executes its commands in their turn. -/
theorem ordered_of_inTurn (call : Call) {es : List Event}
    (h : AllSteps (step call) (fun s e _ => InTurn s e) (.init call) es) :
    AllStates (step call) State.Ordered (.init call) es := by
  refine (allStates_of_step (I := fun s => s.Sound call ∧ s.InOrder) ?_
    ⟨State.sound_init call, State.inOrder_init call⟩ h).mono (fun s hs => hs.2.ordered)
  intro s e t hs hturn hstep
  exact ⟨hs.1.step hstep, inOrder_step hs.1 hs.2 hturn hstep⟩

/-- **So are the lists**, if besides nothing fails, nothing is trimmed, and no other client
is there. -/
theorem listed_of_inTurn (call : Call) (hmaxlen : call.maxlen = none) {es : List Event}
    (h : AllSteps (step call) (fun s e _ => InTurn s e ∧ Alone s e ∧ Settled s e) (.init call) es) :
    AllStates (step call) (State.Listed call) (.init call) es := by
  refine (allStates_of_step
    (I := fun s => s.Sound call ∧ s.InOrder ∧ s.Appended call ∧ s.Exact call) ?_
    ⟨State.sound_init call, State.inOrder_init call, fun _ => rfl, nofun⟩ h).mono ?_
  · rintro s e t ⟨hs, horder, happended, hexact⟩ ⟨hturn, halone, hsettled⟩ hstep
    exact ⟨hs.step hstep, inOrder_step hs horder hturn hstep,
      appended_step hmaxlen happended halone hstep,
      (step_iff s e t hs hexact hstep).2.2 hsettled⟩
  · rintro s ⟨hs, horder, happended, hexact⟩ hreturned key
    rw [happended key, hs.pushes_eq_range horder.ordered hexact hreturned]

/-- **What a call of the list mode does**, over every history of attempts: it pushes each
record exactly once just if it does not return after a push has raised an error; and
attempts that execute their commands in turn push the records in order, which is how they
are in the lists then. -/
theorem exact_iff_and_ordered (call : Call) (es : List Event) :
    (AllStates (step call) (State.Exact call) (.init call) es
      ↔ AllSteps (step call) (fun s e _ => Settled s e) (.init call) es)
    ∧ (AllSteps (step call) (fun s e _ => InTurn s e) (.init call) es →
      AllStates (step call) State.Ordered (.init call) es)
    ∧ (call.maxlen = none →
      AllSteps (step call) (fun s e _ => InTurn s e ∧ Alone s e ∧ Settled s e) (.init call) es →
      AllStates (step call) (State.Listed call) (.init call) es) :=
  ⟨exact_iff call es, ordered_of_inTurn call, fun hmaxlen => listed_of_inTurn call hmaxlen⟩

/-- Two records for one list. -/
def Call.sample : Call where
  mode := .rpush
  maxlen := none
  operations := [⟨"orders", "a", "00000000000000000000000000000001"⟩,
    ⟨"orders", "b", "00000000000000000000000000000002"⟩]
  server := ⟨∅, ∅⟩
  length_id := by decide
  nodup := by decide
  fresh := fun _ _ => Finset.notMem_empty _

/-- The first attempt is given up when its first command has been executed, and the second
goes through. -/
def retried : List Event :=
  [.attempted, .executed 0 0 none, .attempted, .executed 1 0 none, .executed 1 1 none, .returned]

/-- A retried batch is pushed in order. -/
theorem exact_iff_and_ordered_retried :
    AllStates (step .sample) State.Ordered (.init .sample) retried
      ∧ AllStates (step .sample) (State.Listed .sample) (.init .sample) retried :=
  ⟨(exact_iff_and_ordered .sample retried).2.1 (by decide +kernel),
    (exact_iff_and_ordered .sample retried).2.2 rfl (by decide +kernel)⟩

instance (s : State) : Decidable (s.Exact call) := inferInstanceAs (Decidable (_ → _))

/-- **A record is never pushed** whose push has raised an error, when the policy retries it:
the second attempt finds the marker. -/
theorem not_exact_retried_error :
    ¬ AllStates (step .sample) (State.Exact .sample) (.init .sample)
      [.attempted, .executed 0 0 (some .push), .attempted, .executed 1 0 none,
        .executed 1 1 none, .returned] := by
  decide +kernel

end ListSink
