import AgoraPlugins.Postgres.DsnRedaction

/-!
# What the pattern passes over

The pattern that takes passwords out of a text is tried at each blank. A match goes as far as its
value does: to a second quote, wherever this is, or to a blank. So what is left of a part of a text
depends on what follows it only if a match goes beyond its end; as long as none does
(`Dsn.Passes`), the part is left in the same way in every text (`Dsn.Passes.unique`).
-/

open Url

namespace Dsn

/-! ## One match -/

/-- A word that is taken is taken whatever follows it. -/
theorem takeWord_eq_some :
    ∀ {word cs w v : List Char}, takeWord word cs = some (w, v) →
      cs = w ++ v ∧ ∀ v', takeWord word (w ++ v') = some (w, v')
  | [], cs, w, v, h => by
    obtain ⟨rfl, rfl⟩ := Prod.mk.inj (Option.some.inj h)
    exact ⟨rfl, fun _ => rfl⟩
  | letter :: word, [], _, _, h => by cases h
  | letter :: word, c :: cs, w, v, h => by
    rw [takeWord] at h
    split_ifs at h with hc
    obtain ⟨⟨w', v''⟩, hword, hrest⟩ := Option.map_eq_some_iff.1 h
    obtain ⟨rfl, rfl⟩ := Prod.mk.inj hrest
    obtain ⟨rfl, hany⟩ := takeWord_eq_some hword
    refine ⟨rfl, fun v' => ?_⟩
    rw [List.cons_append, takeWord, if_pos hc, hany v']
    rfl

theorem head_dropWhile (p : Char → Bool) :
    ∀ cs : List Char, ∀ c ∈ (cs.dropWhile p).head?, p c = false
  | [], c, hc => by cases hc
  | d :: cs, c, hc => by
    rw [List.dropWhile_cons] at hc
    split_ifs at hc with hd
    · exact head_dropWhile p cs c hc
    · obtain rfl : d = c := Option.some.inj hc
      exact Bool.eq_false_iff.2 hd

/-- **A keyword that is taken** is taken whatever follows it but for blanks. -/
theorem takeKeyword_eq_some {cs kept v : List Char} (h : takeKeyword cs = some (kept, v)) :
    cs = kept ++ v ∧ (∀ c ∈ v.head?, isWhitespace c = false)
      ∧ ∀ v', (∀ c ∈ v'.head?, isWhitespace c = false) →
        takeKeyword (kept ++ v') = some (kept, v') := by
  unfold takeKeyword at h
  obtain ⟨⟨w, x⟩, hword, hmatch⟩ := Option.bind_eq_some_iff.1 h
  obtain ⟨rfl, hany⟩ := takeWord_eq_some hword
  dsimp only at hmatch
  cases hdrop : x.dropWhile isWhitespace with
  | nil =>
    rw [hdrop] at hmatch
    cases hmatch
  | cons c rest =>
    rw [hdrop] at hmatch
    dsimp only at hmatch
    split_ifs at hmatch with hc
    obtain ⟨rfl, rfl⟩ := Prod.mk.inj (Option.some.inj hmatch)
    subst hc
    have hx : x = x.takeWhile isWhitespace ++ '=' :: (rest.takeWhile isWhitespace
        ++ rest.dropWhile isWhitespace) := by
      rw [List.takeWhile_append_dropWhile, ← hdrop, List.takeWhile_append_dropWhile]
    refine ⟨?_, head_dropWhile _ rest, fun v' hv' => ?_⟩
    · rw [List.append_assoc, List.append_assoc, List.cons_append, ← hx]
    · have hblanks : ∀ cs : List Char, ∀ c ∈ cs.takeWhile isWhitespace, isWhitespace c = true :=
        fun _ => List.all_eq_true.1 List.all_takeWhile
      obtain ⟨htake, hrest⟩ := span_append (hblanks x)
        (b := '=' :: (rest.takeWhile isWhitespace ++ v')) (by rintro _ ⟨⟩; decide)
      obtain ⟨htake', hrest'⟩ := span_append (hblanks rest) hv'
      unfold takeKeyword
      rw [List.append_assoc, List.append_assoc, List.cons_append, hany]
      dsimp only [Option.bind_some]
      rw [hrest]
      dsimp only
      rw [if_pos rfl, htake, htake', hrest', List.append_assoc]

/-- Up to the first of some character. -/
theorem partition_of_mem {c : Char} {cs : List Char} (h : c ∈ cs) :
    ∃ p q, cs = p ++ c :: q ∧ c ∉ p ∧ ∀ rest, (partition c (p ++ c :: q ++ rest)).2
      = some (q ++ rest) := by
  obtain ⟨p, q, hcs, hp⟩ := List.eq_append_cons_of_mem h
  refine ⟨p, q, hcs, hp, fun rest => ?_⟩
  rw [List.append_assoc, List.cons_append, partition_append hp]

theorem length_takeValue {v r : List Char} (h : takeValue v = some r) : r.length < v.length := by
  cases v with
  | nil => cases h
  | cons c cs =>
    rw [takeValue] at h
    split_ifs at h with hquote hblank
    · obtain ⟨p, q, hcs, _, hfirst⟩ := partition_of_mem hquote.2
      have hr : q = r := by
        have hnil := hfirst []
        rw [List.append_nil, List.append_nil, ← hcs, h] at hnil
        exact (Option.some.inj hnil).symm
      rw [hcs, ← hr, List.length_cons, List.length_append, List.length_cons]
      omega
    · obtain rfl := Option.some.inj h
      rw [List.length_cons]
      exact Nat.lt_succ_of_le (List.dropWhile_sublist _).length_le

/-- **A value that ends in a text** ends there whatever follows the text, or beyond the end. -/
theorem takeValue_append {x after rest rest' : List Char} (hx : x ≠ [])
    (h : takeValue (x ++ rest) = some (after ++ rest))
    (hrest' : ∀ c ∈ rest'.head?, isWhitespace c = true) :
    takeValue (x ++ rest') = some (after ++ rest')
      ∨ ∃ r, takeValue (x ++ rest') = some r ∧ r.length < rest'.length := by
  obtain ⟨c, y, rfl⟩ := List.exists_cons_of_ne_nil hx
  rw [List.cons_append, takeValue] at h ⊢
  split_ifs at h with hquote hblank
  · -- in quotes; the second one is in the text, as something of it is left
    by_cases hy : c ∈ y
    · obtain ⟨p, q, hpq, _, hfirst⟩ := partition_of_mem hy
      rw [hpq, hfirst, Option.some.injEq] at h
      rw [if_pos ⟨hquote.1, List.mem_append_left _ hy⟩, hpq, hfirst, List.append_cancel_right h]
      exact .inl rfl
    · obtain ⟨p, q, hpq, hp, _⟩ := partition_of_mem ((List.mem_append.1 hquote.2).resolve_left hy)
      have hfree : c ∉ y ++ p := fun hmem => (List.mem_append.1 hmem).elim hy hp
      rw [hpq, ← List.append_assoc, partition_append hfree] at h
      have hlength := congrArg List.length (Option.some.inj h)
      simp only [List.length_append, List.length_cons] at hlength
      omega
  · have hsplit := List.takeWhile_append_dropWhile (p := fun d => !isWhitespace d) (l := y ++ rest)
    have hends := head_dropWhile (fun d => !isWhitespace d) (y ++ rest)
    have hinside : ∀ d ∈ (y ++ rest).takeWhile (fun d => !isWhitespace d),
        (fun d => !isWhitespace d) d = true := List.all_eq_true.1 List.all_takeWhile
    rw [Option.some.inj h] at hsplit hends
    generalize (y ++ rest).takeWhile (fun d => !isWhitespace d) = p at hsplit hinside
    obtain rfl : p ++ after = y := by
      rw [← List.append_assoc] at hsplit
      exact List.append_cancel_right hsplit
    by_cases hquote' : (c = '\x27' ∨ c = '"') ∧ c ∈ p ++ after ++ rest'
    · have hnot : c ∉ p ++ after := fun hmem => hquote ⟨hquote'.1, List.mem_append_left _ hmem⟩
      obtain ⟨p', q, hpq, hp', _⟩ :=
        partition_of_mem ((List.mem_append.1 hquote'.2).resolve_left hnot)
      have hfree : c ∉ p ++ after ++ p' := fun hmem => (List.mem_append.1 hmem).elim hnot hp'
      refine .inr ⟨q, ?_, ?_⟩
      · rw [if_pos hquote', hpq, ← List.append_assoc, partition_append hfree]
      · rw [hpq, List.length_append, List.length_cons]
        omega
    · refine .inl ?_
      rw [if_neg hquote', if_neg hblank, List.append_assoc, (span_append hinside ?_).2]
      intro d hd
      cases after with
      | nil => rw [hrest' d hd]; rfl
      | cons e after => exact hends d hd

/-- **A match that ends in a text** ends there whatever follows the text, or beyond the end. -/
theorem matchSetting_append {cs kept after rest rest' : List Char}
    (h : matchSetting (cs ++ rest) = some (kept, after ++ rest))
    (hrest' : ∀ c ∈ rest'.head?, isWhitespace c = true) :
    matchSetting (cs ++ rest') = some (kept, after ++ rest')
      ∨ ∃ r, matchSetting (cs ++ rest') = some (kept, r) ∧ r.length < rest'.length := by
  obtain ⟨⟨kept', v⟩, hkeyword, hmap⟩ := Option.bind_eq_some_iff.1 h
  obtain ⟨r, hvalue, hr⟩ := Option.map_eq_some_iff.1 hmap
  obtain ⟨rfl, rfl⟩ := Prod.mk.inj hr
  obtain ⟨hcs, hhead, hany⟩ := takeKeyword_eq_some hkeyword
  have hlt : (after ++ rest).length < v.length := length_takeValue hvalue
  rw [List.length_append] at hlt
  -- the value begins in the text, as it ends there
  rcases List.append_eq_append_iff.1 hcs with ⟨a, rfl, rfl⟩ | ⟨x, rfl, rfl⟩
  · rw [List.length_append] at hlt
    omega
  · have hx : x ≠ [] := by
      rintro rfl
      rw [List.nil_append] at hlt
      omega
    obtain ⟨d, y, rfl⟩ := List.exists_cons_of_ne_nil hx
    have hkeyword' := hany (d :: y ++ rest') hhead
    unfold matchSetting
    rw [List.append_assoc, hkeyword']
    rcases takeValue_append hx hvalue hrest' with heq | ⟨r, heq, hlt⟩
    · exact .inl (by rw [Option.bind_some, heq]; rfl)
    · exact .inr ⟨r, by rw [Option.bind_some, heq]; rfl, hlt⟩

theorem length_matchSetting {cs kept r : List Char} (h : matchSetting cs = some (kept, r)) :
    r.length < cs.length := by
  obtain ⟨⟨kept', v⟩, hkeyword, hmap⟩ := Option.bind_eq_some_iff.1 h
  obtain ⟨r', hvalue, hr⟩ := Option.map_eq_some_iff.1 hmap
  obtain ⟨rfl, rfl⟩ := Prod.mk.inj hr
  rw [(takeKeyword_eq_some hkeyword).1, List.length_append]
  exact (length_takeValue hvalue).trans_le (Nat.le_add_left _ _)

/-! ## Parts of a text -/

/-- **The pattern passes over a part** of a text, to its end, and this is what it leaves of it. -/
inductive Passes (rest : List Char) : List Char → List Char → Prop
  | nil : Passes rest [] []
  | skip {c : Char} {cs out : List Char}
    (h : isWhitespace c = true → matchSetting (cs ++ rest) = none) (tail : Passes rest cs out) :
    Passes rest (c :: cs) (c :: out)
  | take {c : Char} {cs kept after out : List Char} (hc : isWhitespace c = true)
    (h : matchSetting (cs ++ rest) = some (kept, after ++ rest)) (tail : Passes rest after out) :
    Passes rest (c :: cs) (c :: (kept ++ '*' :: '*' :: '*' :: out))

/-- **What follows makes no difference** to what is left of a part. -/
theorem Passes.unique {rest rest' cs out out' : List Char}
    (hrest : ∀ c ∈ rest.head?, isWhitespace c = true)
    (hrest' : ∀ c ∈ rest'.head?, isWhitespace c = true) (h : Passes rest cs out)
    (h' : Passes rest' cs out') : out = out' := by
  induction h generalizing out' with
  | nil =>
    cases h'
    rfl
  | skip hskip _ ih =>
    cases h' with
    | skip _ htail => rw [ih htail]
    | take hc htake _ =>
      have hnone := hskip hc
      rcases matchSetting_append htake hrest with heq | ⟨r, heq, _⟩
      · rw [heq] at hnone
        cases hnone
      · rw [heq] at hnone
        cases hnone
  | take hc htake _ ih =>
    rcases matchSetting_append htake hrest' with heq | ⟨r, heq, hlt⟩
    · cases h' with
      | skip hskip _ =>
        rw [hskip hc] at heq
        cases heq
      | take _ htake' htail =>
        rw [htake', Option.some.injEq, Prod.mk.injEq] at heq
        obtain ⟨rfl, hafter⟩ := heq
        obtain rfl := List.append_cancel_right hafter
        rw [ih htail]
    · cases h' with
      | skip hskip _ =>
        rw [hskip hc] at heq
        cases heq
      | take _ htake' htail =>
        rw [htake', Option.some.injEq, Prod.mk.injEq] at heq
        rw [← heq.2, List.length_append] at hlt
        omega

/-- A part without blanks is passed over. -/
theorem Passes.of_not_isWhitespace {rest : List Char} :
    ∀ {cs : List Char}, cs.all (fun c => !isWhitespace c) = true → Passes rest cs cs
  | [], _ => .nil
  | c :: cs, h => by
    rw [List.all_cons, Bool.and_eq_true, Bool.not_eq_true'] at h
    refine .skip (fun hc => ?_) (of_not_isWhitespace h.2)
    rw [h.1] at hc
    exact absurd hc Bool.false_ne_true

theorem subFrom_skip {fuel : ℕ} {c : Char} {cs : List Char}
    (h : isWhitespace c = true → matchSetting cs = none) :
    subFrom (fuel + 1) false (c :: cs) = c :: subFrom fuel false cs := by
  rw [subFrom.eq_def]
  dsimp only
  rw [if_neg Bool.false_ne_true]
  dsimp only
  by_cases hc : isWhitespace c = true
  · rw [if_pos hc, h hc]
  · rw [if_neg hc]

theorem subFrom_take {fuel : ℕ} {c : Char} {cs kept rest : List Char}
    (hc : isWhitespace c = true) (h : matchSetting cs = some (kept, rest)) :
    subFrom (fuel + 1) false (c :: cs)
      = c :: (kept ++ '*' :: '*' :: '*' :: subFrom fuel false rest) := by
  rw [subFrom.eq_def]
  dsimp only
  rw [if_neg Bool.false_ne_true]
  dsimp only
  rw [if_pos hc, h]
  rfl

/-- **A part, and what follows.** -/
theorem subFrom_of_passes {rest result : List Char}
    (hrest : ∀ fuel, rest.length < fuel → subFrom fuel false rest = result) {cs out : List Char}
    (h : Passes rest cs out) :
    ∀ fuel, (cs ++ rest).length < fuel → subFrom fuel false (cs ++ rest) = out ++ result := by
  induction h with
  | nil => exact hrest
  | @skip c cs out hskip _ ih =>
    intro fuel hfuel
    obtain ⟨fuel, rfl⟩ := Nat.exists_eq_succ_of_ne_zero (Nat.ne_zero_of_lt hfuel)
    rw [List.cons_append, subFrom_skip hskip, ih fuel (Nat.lt_of_succ_lt_succ hfuel),
      List.cons_append]
  | @take c cs kept after out hc htake _ ih =>
    intro fuel hfuel
    obtain ⟨fuel, rfl⟩ := Nat.exists_eq_succ_of_ne_zero (Nat.ne_zero_of_lt hfuel)
    have hshorter := length_matchSetting htake
    rw [List.cons_append, subFrom_take hc htake,
      ih fuel (hshorter.trans (Nat.lt_of_succ_lt_succ hfuel))]
    simp

end Dsn
