import AgoraPlugins.Dict
import AgoraPlugins.Fallible

/-!
# The set mode of the Redis sink

A record is written by a `SET`, which replaces what the key had, its expiry included. A batch is
written by one `MSET` of a mapping, where nothing expires and there is no cluster, or by a `SET` for
each record in a pipeline. An attempt that fails may have executed some of its commands, and the
next one executes all of them again.

What is left of a key is its last record in the batch, whichever way it goes: the mapping has only
that one, the pipeline executes it last, and what an attempt that failed has left behind is
overwritten by the one that succeeds. Just when a key was written is not the same, and so when it
expires is the same only as counted from there.
-/

namespace SetSink

variable {T V E : Type}

/-! ## The server -/

/-- A value, how long it lives, and from when on. -/
structure Entry (V : Type) where
  value : V
  ttl : Option ℕ
  writtenAt : ℕ

/-- What an entry is, but for the moment it was written. -/
def Entry.content (e : Entry V) : V × Option ℕ := (e.value, e.ttl)

abbrev Store (V : Type) := Dict String (Entry V)

inductive Command (V : Type) where
  | set (key : String) (value : V) (ex : Option ℕ)
  | mset (mapping : Dict String V)

/-- The keys that a command sets. -/
def Command.settings : Command V → List (String × V × Option ℕ)
  | .set key value ex => [(key, value, ex)]
  | .mset mapping => mapping.entries.map (fun e => (e.1, e.2, none))

/-- The server executes a command. -/
def execute (store : Store V) (command : Command V) (time : ℕ) : Store V :=
  Dict.update store (command.settings.map (fun s => (s.1, ⟨s.2.1, s.2.2, time⟩)))

/-- **An attempt**: its commands are executed one after the other, those for which there is a
time. -/
def attempt : List (Command V) → List ℕ → Store V → Store V
  | command :: commands, time :: times, store =>
    attempt commands times (execute store command time)
  | _, _, store => store

/-! ## The sink -/

/-- **What becomes of a call**: the attempts that fail, and then one that does not, with the time of
each command, or an error that is raised. -/
structure History (E : Type) where
  failed : List (List ℕ)
  last : Except E (ℕ → ℕ)

/-- The call returns. -/
def History.Returns (history : History E) : Prop := ∃ times, history.last = .ok times

/-- **`_retry_redis_command`.** -/
def retryRedisCommand (commands : List (Command V)) (history : History E) (store : Store V) :
    Except E (Store V) :=
  history.last.map (fun times =>
    attempt commands ((List.range commands.length).map times)
      (history.failed.foldl (fun store times => attempt commands times store) store))

/-- **`RedisSink`** with `mode="set"`. The functions that it is given may raise. -/
structure Sink (T V E : Type) where
  keyFn : T → Except E String
  serializer : T → Except E V
  ttl : Option ℕ
  redisCluster : Bool
  ttl_pos : ∀ seconds ∈ ttl, 0 < seconds

namespace Sink

variable (sink : Sink T V E)

/-- What is written of a record. -/
def prepare (record : T) : Except E (String × V) :=
  (sink.keyFn record).bind (fun key => (sink.serializer record).map (fun value => (key, value)))

/-- **`write`.** -/
def write (record : T) (history : History E) (store : Store V) :
    Except E (Store V) :=
  (sink.prepare record).bind (fun p => retryRedisCommand [.set p.1 p.2 sink.ttl] history store)

/-- The commands of a batch. -/
def batchCommands (prepared : List (String × V)) : List (Command V) :=
  if sink.ttl = none ∧ sink.redisCluster = false then [.mset (Dict.update ∅ prepared)]
  else prepared.map (fun p => .set p.1 p.2 sink.ttl)

/-- **`write_batch`.** -/
def writeBatch (records : List T) (history : History E) (store : Store V) :
    Except E (Store V) :=
  match records with
  | [] => .ok store
  | record :: records =>
    ((record :: records).mapM sink.prepare).bind (fun prepared =>
      retryRedisCommand (sink.batchCommands prepared) history store)

/-- The records are written one at a time. -/
def writeAll : List (T × History E) → Store V → Except E (Store V)
  | [], store => .ok store
  | (record, history) :: writes, store => (sink.write record history store).bind (writeAll writes)

end Sink

/-! ## What is left of a key -/

/-- **What a key has**, but for when it was written. -/
def contents (store : Store V) (key : String) : Option (V × Option ℕ) :=
  (store.lookup key).map Entry.content

theorem last_map {α β : Type} (f : α → β) (key : String) (pairs : List (String × α)) :
    Dict.last key (pairs.map (fun p => (p.1, f p.2))) = (Dict.last key pairs).map f := by
  induction pairs with
  | nil => rfl
  | cons p pairs ih =>
    rw [List.map_cons, Dict.last, Dict.last, ih, Option.map_or]
    split_ifs <;> rfl

/-- In the entries of a dictionary the last one of a key is the only one. -/
theorem last_entries {α β : Type} (f : α → β) (key : String) (d : Dict String α) :
    Dict.last key (d.entries.map (fun e => (e.1, f e.2))) = (d.lookup key).map f := by
  obtain ⟨entries, hnodup⟩ := d
  show Dict.last key (entries.map _) = (List.dlookup key entries).map f
  induction entries with
  | nil => rfl
  | cons e entries ih =>
    obtain ⟨key', v⟩ := e
    rw [List.map_cons, Dict.last, ih hnodup.tail]
    by_cases hkey : key' = key
    · subst hkey
      have hnone : entries.dlookup key' = none :=
        List.dlookup_eq_none.2 (List.nodupKeys_cons.1 hnodup).1
      rw [hnone, List.dlookup_cons_eq, if_pos rfl]
      rfl
    · rw [if_neg hkey, Option.or_none, Dict.dlookup_cons_ne (Ne.symm hkey)]

theorem contents_execute (store : Store V) (command : Command V) (time : ℕ) (key : String) :
    contents (execute store command time) key
      = (Dict.last key command.settings).or (contents store key) := by
  unfold contents execute
  rw [Dict.lookup_update, last_map (fun s : V × Option ℕ => (⟨s.1, s.2, time⟩ : Entry V)),
    Option.map_or, Option.map_map]
  exact congrArg (fun o => Option.or o _) (congrFun Option.map_id _)

/-- What a list of commands sets. -/
def settings (commands : List (Command V)) : List (String × V × Option ℕ) :=
  commands.flatMap Command.settings

/-- **What an attempt sets** is what its commands do that were executed. -/
theorem contents_attempt (commands : List (Command V)) (times : List ℕ) (store : Store V)
    (key : String) :
    contents (attempt commands times store) key
      = (Dict.last key (settings (commands.take times.length))).or (contents store key) := by
  induction commands generalizing times store with
  | nil =>
    rw [List.take_nil]
    rfl
  | cons command commands ih =>
    cases times with
    | nil => rfl
    | cons time times =>
      rw [attempt, ih, contents_execute, ← Option.or_assoc, List.length_cons, List.take_succ_cons,
        settings, settings, List.flatMap_cons, Dict.last_append]

/-- **A key that no command sets** is left as it is. -/
theorem lookup_attempt {commands : List (Command V)} {key : String}
    (h : Dict.last key (settings commands) = none) (times : List ℕ) (store : Store V) :
    (attempt commands times store).lookup key = store.lookup key := by
  induction commands generalizing times store with
  | nil => rfl
  | cons command commands ih =>
    rw [settings, List.flatMap_cons, Dict.last_append, Option.or_eq_none_iff] at h
    cases times with
    | nil => rfl
    | cons time times =>
      rw [attempt, ih h.1, execute, Dict.lookup_update,
        last_map (fun s : V × Option ℕ => (⟨s.1, s.2, time⟩ : Entry V)), h.2]
      rfl

theorem lookup_retryRedisCommand {commands : List (Command V)} {history : History E}
    {store store' : Store V} (h : retryRedisCommand commands history store = .ok store')
    {key : String} (hkey : Dict.last key (settings commands) = none) :
    store'.lookup key = store.lookup key := by
  have hfailed : ∀ (failed : List (List ℕ)) (store : Store V),
      (failed.foldl (fun store times => attempt commands times store) store).lookup key
        = store.lookup key := by
    intro failed
    induction failed with
    | nil => exact fun _ => rfl
    | cons times failed ih => exact fun store => (ih _).trans (lookup_attempt hkey times store)
  obtain ⟨times, _, rfl⟩ := Fallible.map_eq_ok_iff.1 h
  rw [lookup_attempt hkey, hfailed]

/-- **What a prefix sets is overwritten.** -/
theorem or_last_take (commands : List (Command V)) (n : ℕ) (key : String)
    (o : Option (V × Option ℕ)) :
    (Dict.last key (settings commands)).or ((Dict.last key (settings (commands.take n))).or o)
      = (Dict.last key (settings commands)).or o := by
  have hsplit : settings commands = settings (commands.take n) ++ settings (commands.drop n) := by
    unfold settings
    rw [← List.flatMap_append, List.take_append_drop]
  rw [hsplit, Dict.last_append]
  cases Dict.last key (settings (commands.drop n)) with
  | some value => rfl
  | none =>
    rw [Option.none_or]
    cases Dict.last key (settings (commands.take n)) <;> rfl

/-- So is what all the attempts have set that failed. By induction on them. -/
theorem or_contents_failed (commands : List (Command V)) (failed : List (List ℕ))
    (store : Store V) (key : String) :
    (Dict.last key (settings commands)).or
        (contents (failed.foldl (fun store times => attempt commands times store) store) key)
      = (Dict.last key (settings commands)).or (contents store key) := by
  induction failed generalizing store with
  | nil => rfl
  | cons times failed ih => rw [List.foldl_cons, ih, contents_attempt, or_last_take]

/-- **A call that returns** leaves what its commands set last. -/
theorem contents_retryRedisCommand {commands : List (Command V)} {history : History E}
    {store store' : Store V} (h : retryRedisCommand commands history store = .ok store')
    (key : String) :
    contents store' key = (Dict.last key (settings commands)).or (contents store key) := by
  obtain ⟨times, _, rfl⟩ := Fallible.map_eq_ok_iff.1 h
  rw [contents_attempt, List.length_map, List.length_range, List.take_length, or_contents_failed]

theorem exists_retryRedisCommand {history : History E} (h : history.Returns)
    (commands : List (Command V)) (store : Store V) :
    ∃ store', retryRedisCommand commands history store = .ok store' := by
  obtain ⟨times, hlast⟩ := h
  unfold retryRedisCommand
  rw [hlast]
  exact ⟨_, rfl⟩

namespace Sink

variable (sink : Sink T V E)

/-- **Both ways of a batch set the same**, for each key what its last record has. -/
theorem last_settings_batchCommands (prepared : List (String × V)) (key : String) :
    Dict.last key (settings (sink.batchCommands prepared))
      = (Dict.last key prepared).map (fun value => (value, sink.ttl)) := by
  unfold batchCommands
  split_ifs with hfast
  · have hsettings : settings [Command.mset (Dict.update ∅ prepared)]
        = (Dict.update ∅ prepared).entries.map (fun e => (e.1, e.2, none)) :=
      List.flatMap_singleton ..
    rw [hsettings, last_entries (fun value => (value, none)), Dict.lookup_update, hfast.1]
    exact congrArg (Option.map _) (Option.or_none ..)
  · have hsettings : settings (prepared.map (fun p => Command.set p.1 p.2 sink.ttl))
        = prepared.map (fun p => (p.1, p.2, sink.ttl)) := by
      unfold settings
      rw [List.flatMap_map, List.map_eq_flatMap]
      rfl
    rw [hsettings, last_map (fun value => (value, sink.ttl))]

variable {sink}

/-- **The store after a batch or a write**: what a key has that was written, and what others
have. -/
structure Writes (sink : Sink T V E) (prepared : List (String × V)) (store store' : Store V) :
    Prop where
  contents : ∀ key, contents store' key
    = ((Dict.last key prepared).map (fun value => (value, sink.ttl))).or (contents store key)
  lookup : ∀ key, Dict.last key prepared = none → store'.lookup key = store.lookup key

theorem writes_writeBatch {records : List T} {history : History E} {store store' : Store V}
    (h : sink.writeBatch records history store = .ok store') :
    ∃ prepared, records.mapM sink.prepare = .ok prepared
      ∧ sink.Writes prepared store store' := by
  cases records with
  | nil =>
    cases h
    exact ⟨[], rfl, fun _ => rfl, fun _ _ => rfl⟩
  | cons record records =>
    obtain ⟨prepared, hprepared, h⟩ := Fallible.bind_eq_ok_iff.1 h
    refine ⟨prepared, hprepared, fun key => ?_, fun key hkey => ?_⟩
    · rw [contents_retryRedisCommand h, last_settings_batchCommands]
    · refine lookup_retryRedisCommand h ?_
      rw [last_settings_batchCommands, hkey]
      rfl

/-- **Written one at a time**, the records leave of each key the last one as well. By induction on
the records, from the first on. -/
theorem exists_writeAll :
    ∀ (writes : List (T × History E)) (prepared : List (String × V)) (store : Store V),
      (writes.map Prod.fst).mapM sink.prepare = .ok prepared →
      (∀ w ∈ writes, w.2.Returns) →
      ∃ store', sink.writeAll writes store = .ok store' ∧ sink.Writes prepared store store'
  | [], prepared, store, hprepared, _ => by
    cases hprepared
    exact ⟨store, rfl, fun _ => rfl, fun _ _ => rfl⟩
  | (record, history) :: writes, prepared, store, hprepared, hreturns => by
    rw [List.map_cons, List.mapM_cons] at hprepared
    obtain ⟨p, hp, hrest⟩ := Fallible.bind_eq_ok_iff.1 hprepared
    obtain ⟨rest, hmapM, heq⟩ := Fallible.bind_eq_ok_iff.1 hrest
    cases heq
    obtain ⟨middle, hmiddle⟩ := exists_retryRedisCommand (hreturns _ (List.mem_cons_self ..))
      [Command.set p.1 p.2 sink.ttl] store
    obtain ⟨store', hstore', hwrites⟩ := exists_writeAll writes rest middle hmapM
      (fun w hw => hreturns w (List.mem_cons_of_mem _ hw))
    have hset : ∀ key, Dict.last key (settings [Command.set p.1 p.2 sink.ttl])
        = (if p.1 = key then some p.2 else none).map (fun value => (value, sink.ttl)) := by
      intro key
      show Dict.last key [(p.1, p.2, sink.ttl)] = _
      rw [Dict.last, Dict.last]
      split_ifs <;> rfl
    refine ⟨store', ?_, fun key => ?_, fun key hkey => ?_⟩
    · have hwrite : sink.write record history store = .ok middle := by
        unfold write
        rw [hp]
        exact hmiddle
      rw [writeAll, hwrite]
      exact hstore'
    · rw [hwrites.contents, contents_retryRedisCommand hmiddle, hset, Dict.last, Option.map_or,
        Option.or_assoc]
    · rw [Dict.last, Option.or_eq_none_iff] at hkey
      rw [hwrites.lookup key hkey.1]
      exact lookup_retryRedisCommand hmiddle (by rw [hset, hkey.2]; rfl)

/-- **A batch is its records, one at a time.** If it returns, they are all written, whatever becomes
of the attempts; each key has what its last record has, for as long as the sink says, from when it
was written, and a key that none of them has is left as it is. -/
theorem writeBatch_eq_writeAll (sink : Sink T V E) (writes : List (T × History E))
    (history : History E) (store batch : Store V)
    (h : sink.writeBatch (writes.map Prod.fst) history store = .ok batch)
    (hreturns : ∀ w ∈ writes, w.2.Returns) :
    ∃ single, sink.writeAll writes store = .ok single
      ∧ (∀ key, contents batch key = contents single key)
      ∧ (∀ key, (∀ w ∈ writes, sink.keyFn w.1 ≠ .ok key) →
        batch.lookup key = store.lookup key ∧ single.lookup key = store.lookup key)
      ∧ ∃ prepared, (writes.map Prod.fst).mapM sink.prepare = .ok prepared
        ∧ sink.Writes prepared store batch ∧ sink.Writes prepared store single := by
  obtain ⟨prepared, hprepared, hbatch⟩ := writes_writeBatch h
  obtain ⟨single, hsingle, hwrites⟩ := exists_writeAll writes prepared store hprepared hreturns
  refine ⟨single, hsingle, fun key => (hbatch.contents key).trans (hwrites.contents key).symm,
    fun key hkey => ?_, prepared, hprepared, hbatch, hwrites⟩
  have hnone : Dict.last key prepared = none := by
    by_contra hsome
    obtain ⟨value, hvalue⟩ := Option.ne_none_iff_exists'.1 hsome
    obtain ⟨record, hrecord, hp⟩ :=
      Fallible.exists_of_mem_of_mapM_eq_ok hprepared _ (Dict.mem_of_last hvalue)
    obtain ⟨w, hw, rfl⟩ := List.mem_map.1 hrecord
    obtain ⟨key', hkey', hmap⟩ := Fallible.bind_eq_ok_iff.1 hp
    obtain ⟨_, _, heq⟩ := Fallible.map_eq_ok_iff.1 hmap
    cases heq
    exact hkey w hw hkey'
  exact ⟨hbatch.lookup key hnone, hwrites.lookup key hnone⟩

/-- Pairs of a key and a value, for five seconds. -/
def sample : Sink (String × ℕ) ℕ Unit where
  keyFn record := .ok record.1
  serializer record := .ok record.2
  ttl := some 5
  redisCluster := false
  ttl_pos := by
    rintro _ ⟨⟩
    decide

/-- Three records with two keys, after an attempt that got to the second one. -/
theorem writeBatch_eq_writeAll_sample :
    ∃ batch single : Store ℕ,
      sample.writeBatch [("a", 1), ("b", 2), ("a", 3)] ⟨[[0, 1]], .ok (fun i => i + 7)⟩ ∅
          = .ok batch
        ∧ sample.writeAll [(("a", 1), ⟨[], .ok (fun _ => 0)⟩), (("b", 2), ⟨[[]], .ok (fun _ => 1)⟩),
          (("a", 3), ⟨[[2]], .ok (fun _ => 3)⟩)] ∅ = .ok single
        ∧ (∀ key, contents batch key = contents single key)
        ∧ contents batch "a" = some (3, some 5) ∧ contents single "a" = some (3, some 5) := by
  obtain ⟨single, hsingle, hcontents, _, prepared, hprepared, hbatch, hwrites⟩ :=
    writeBatch_eq_writeAll sample
      [(("a", 1), ⟨[], .ok (fun _ => 0)⟩), (("b", 2), ⟨[[]], .ok (fun _ => 1)⟩),
        (("a", 3), ⟨[[2]], .ok (fun _ => 3)⟩)]
      ⟨[[0, 1]], .ok (fun i => i + 7)⟩ ∅ _ rfl
      (by
        simp only [List.forall_mem_cons]
        exact ⟨⟨_, rfl⟩, ⟨_, rfl⟩, ⟨_, rfl⟩, by simp⟩)
  cases hprepared
  exact ⟨_, single, rfl, hsingle, hcontents, hbatch.contents "a", hwrites.contents "a"⟩

end Sink

end SetSink
