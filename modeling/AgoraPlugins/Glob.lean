import Mathlib.Data.List.Basic
import Mathlib.Data.List.Infix
import Mathlib.Tactic.Common

/-!
# Glob patterns

A pattern is a list of bytes, and so is what it is matched with. A star stands for any
bytes, a question mark for one, brackets for one of a class, and a backslash takes from the
next byte what it means. A bracket that is not closed goes on to the end of the pattern.

A pattern is read as a list of tokens first, and matched token by token. The question here
is what it takes to find the keys that start with a given text by the pattern that is this
text with a star after it: that the text has none of the four special bytes
(`Glob.matches_iff_isPrefix`).
-/

namespace Glob

/-! ## Reading a pattern -/

def star : UInt8 := 42
def question : UInt8 := 63
def openBracket : UInt8 := 91
def closeBracket : UInt8 := 93
def backslash : UInt8 := 92
def caret : UInt8 := 94
def dash : UInt8 := 45

/-- What stands between brackets. A byte alone is a range too. -/
structure Class where
  negated : Bool
  ranges : List (UInt8 × UInt8)

def Class.add (cl : Class) (a b : UInt8) : Class := { cl with ranges := (a, b) :: cl.ranges }

/-- What stands for one byte. -/
inductive One where
  | byte (b : UInt8)
  | any
  | oneOf (cl : Class)

/-- What a pattern consists of. -/
inductive Token where
  | one (o : One)
  | many

/-- **Where a reader of the pattern is.** -/
inductive Mode where
  | outside
  /-- after a backslash -/
  | escaped
  /-- after an opening bracket -/
  | opened
  | inside (cl : Class)
  /-- after a backslash between brackets -/
  | escapedInside (cl : Class)
  /-- after a byte between brackets, which a range may start with -/
  | after (cl : Class) (b : UInt8)
  /-- after a byte and a dash -/
  | dashed (cl : Class) (b : UInt8)

namespace Mode

/-- A byte between brackets. -/
def nextInside (cl : Class) (b : UInt8) : Mode × List Token :=
  if b = closeBracket then (outside, [.one (.oneOf cl)])
  else if b = backslash then (escapedInside cl, [])
  else (after cl b, [])

/-- The next byte of the pattern, and the token that ends with it if there is one. -/
def next : Mode → UInt8 → Mode × List Token
  | outside, b =>
    if b = star then (outside, [.many])
    else if b = question then (outside, [.one .any])
    else if b = openBracket then (opened, [])
    else if b = backslash then (escaped, [])
    else (outside, [.one (.byte b)])
  | escaped, b => (outside, [.one (.byte b)])
  | opened, b => if b = caret then (inside ⟨true, []⟩, []) else nextInside ⟨false, []⟩ b
  | inside cl, b => nextInside cl b
  | escapedInside cl, b => (inside (cl.add b b), [])
  | after cl c, b => if b = dash then (dashed cl c, []) else nextInside (cl.add c c) b
  | dashed cl c, b => (inside (cl.add c b), [])

/-- The token that the end of the pattern cuts off. -/
def finish : Mode → List Token
  | outside => []
  | escaped => [.one (.byte backslash)]
  | opened => [.one (.oneOf ⟨false, []⟩)]
  | inside cl => [.one (.oneOf cl)]
  | escapedInside cl => [.one (.oneOf (cl.add backslash backslash))]
  | after cl c => [.one (.oneOf (cl.add c c))]
  | dashed cl c => [.one (.oneOf ((cl.add c c).add dash dash))]

/-- A token has begun. -/
def pending : Mode → ℕ
  | outside => 0
  | escaped | opened | inside _ | escapedInside _ | after _ _ | dashed _ _ => 1

end Mode

/-- **The tokens of a pattern.** -/
def tokens : Mode → List UInt8 → List Token
  | m, [] => m.finish
  | m, b :: p => (m.next b).2 ++ tokens (m.next b).1 p

/-! ## Matching -/

def Class.accepts (cl : Class) (b : UInt8) : Bool :=
  cl.ranges.any (fun r => min r.1 r.2 ≤ b && b ≤ max r.1 r.2) != cl.negated

def One.accepts : One → UInt8 → Bool
  | .byte c, b => b = c
  | .any, _ => true
  | .oneOf cl, b => cl.accepts b

/-- The tokens stand for these bytes. -/
def covers : List Token → List UInt8 → Bool
  | [], k => k.isEmpty
  | .many :: ts, k => k.tails.any (covers ts)
  | .one _ :: _, [] => false
  | .one o :: ts, b :: k => o.accepts b && covers ts k

/-- **A key matches a pattern.** -/
def isMatch (pattern key : List UInt8) : Bool := covers (tokens .outside pattern) key

/-- A byte that stands for itself. -/
def Plain (b : UInt8) : Prop := b ≠ star ∧ b ≠ question ∧ b ≠ openBracket ∧ b ≠ backslash

/-- **A text in which every byte stands for itself.** -/
def Literal (p : List UInt8) : Prop := ∀ b ∈ p, Plain b

theorem covers_many {ts : List Token} {k : List UInt8} :
    covers (.many :: ts) k = true ↔ ∃ t, t <:+ k ∧ covers ts t = true := by
  rw [covers, List.any_eq_true]
  simp only [List.mem_tails]

theorem covers_one {o : One} {ts : List Token} {k : List UInt8} :
    covers (.one o :: ts) k = true ↔ ∃ b t, k = b :: t ∧ o.accepts b = true ∧ covers ts t = true := by
  cases k with
  | nil => simp [covers]
  | cons b k => simp [covers]

theorem tokens_plain {b : UInt8} (h : Plain b) (p : List UInt8) :
    tokens .outside (b :: p) = .one (.byte b) :: tokens .outside p := by
  rw [tokens, Mode.next, if_neg h.1, if_neg h.2.1, if_neg h.2.2.1, if_neg h.2.2.2]
  rfl

/-- A byte that stands for itself is matched with itself. -/
theorem isMatch_cons {b : UInt8} (h : Plain b) (p : List UInt8) (c : UInt8) (k : List UInt8) :
    isMatch (b :: p) (c :: k) = true ↔ b = c ∧ isMatch p k = true := by
  unfold isMatch
  rw [tokens_plain h, covers, Bool.and_eq_true_iff]
  exact and_congr_left' (by rw [One.accepts, decide_eq_true_iff, eq_comm])

theorem isMatch_star (k : List UInt8) : isMatch [star] k = true := by
  show covers [.many] k = true
  exact covers_many.2 ⟨[], List.nil_suffix, rfl⟩

/-! ## How long a match is -/

/-- A star can stand for nothing. -/
theorem exists_covers {ts : List Token} {k : List UInt8} (h : covers ts k = true) :
    ∃ l, covers ts l = true ∧ l.length ≤ ts.length
      ∧ (l.length = ts.length → k.length = ts.length) := by
  induction ts generalizing k with
  | nil =>
    have hk : k = [] := List.isEmpty_iff.1 h
    exact ⟨k, h, (congrArg List.length hk).le, fun hlen => hlen⟩
  | cons t ts ih =>
    cases t with
    | many =>
      obtain ⟨t, ht, hcovers⟩ := covers_many.1 h
      obtain ⟨l, hl, hlen, _⟩ := ih hcovers
      refine ⟨l, covers_many.2 ⟨l, List.suffix_rfl, hl⟩, hlen.trans (Nat.le_succ _), ?_⟩
      intro heq
      rw [List.length_cons] at heq
      omega
    | one o =>
      obtain ⟨b, t, rfl, hb, hcovers⟩ := covers_one.1 h
      obtain ⟨l, hl, hlen, heq⟩ := ih hcovers
      refine ⟨b :: l, covers_one.2 ⟨b, l, rfl, hb, hl⟩, Nat.succ_le_succ hlen, fun h => ?_⟩
      rw [List.length_cons, List.length_cons, heq (Nat.succ.inj h)]

/-- **What stands for texts of two lengths** stands for one that is shorter than itself. -/
theorem exists_shorter {ts : List Token} {k l : List UInt8} (hk : covers ts k = true)
    (hl : covers ts l = true) (hne : k.length ≠ l.length) :
    ∃ m, covers ts m = true ∧ m.length < ts.length := by
  obtain ⟨m, hm, hle, heq⟩ := exists_covers hk
  obtain ⟨m', hm', hle', heq'⟩ := exists_covers hl
  rcases hle.lt_or_eq with hlt | hlen
  · exact ⟨m, hm, hlt⟩
  · rcases hle'.lt_or_eq with hlt | hlen'
    · exact ⟨m', hm', hlt⟩
    · exact absurd ((heq hlen).trans (heq' hlen').symm) hne

/-- A byte ends at most one token, and none that begins with it if another has begun. -/
theorem Mode.length_next (m : Mode) (b : UInt8) :
    (m.next b).2.length + (m.next b).1.pending ≤ 1 := by
  have hinside : ∀ cl, (nextInside cl b).2.length + (nextInside cl b).1.pending ≤ 1 := by
    intro cl
    unfold nextInside
    split_ifs <;> exact le_rfl
  cases m with
  | outside =>
    rw [next]
    split_ifs <;> exact le_rfl
  | escaped => exact le_rfl
  | opened =>
    rw [next]
    split_ifs
    · exact le_rfl
    · exact hinside _
  | inside cl => exact hinside cl
  | escapedInside cl => exact le_rfl
  | after cl c =>
    rw [next]
    split_ifs
    · exact le_rfl
    · exact hinside _
  | dashed cl c => exact le_rfl

/-- **A token takes at least one byte**, and one that has begun is not counted again. -/
theorem length_tokens (m : Mode) (p : List UInt8) :
    (tokens m p).length ≤ max p.length m.pending := by
  induction p generalizing m with
  | nil => cases m <;> exact le_rfl
  | cons b p ih =>
    have hnext := m.length_next b
    have hrest := ih (m.next b).1
    rw [tokens, List.length_append, List.length_cons]
    omega

/-! ## Keys that start with a text -/

theorem isPrefix_of_isMatch_star {p k : List UInt8} (hp : Literal p)
    (h : isMatch (p ++ [star]) k = true) : p <+: k := by
  induction p generalizing k with
  | nil => exact List.nil_prefix
  | cons b p ih =>
    obtain ⟨hb, hp⟩ := List.forall_mem_cons.1 hp
    cases k with
    | nil =>
      unfold isMatch at h
      rw [List.cons_append, tokens_plain hb] at h
      cases h
    | cons c k =>
      obtain ⟨rfl, hk⟩ := (isMatch_cons hb _ c k).1 h
      exact List.cons_prefix_cons.2 ⟨rfl, ih hp hk⟩

theorem isMatch_star_of_isPrefix {p k : List UInt8} (hp : Literal p) (h : p <+: k) :
    isMatch (p ++ [star]) k = true := by
  induction p generalizing k with
  | nil => exact isMatch_star k
  | cons b p ih =>
    obtain ⟨hb, hp⟩ := List.forall_mem_cons.1 hp
    cases k with
    | nil => exact absurd (List.prefix_nil.1 h) (List.cons_ne_nil b p)
    | cons c k =>
      obtain ⟨rfl, hk⟩ := List.cons_prefix_cons.1 h
      exact (isMatch_cons hb _ b k).2 ⟨rfl, ih hp hk⟩

/-- A star at the start can stand for one byte more. -/
theorem isMatch_star_cons {p k : List UInt8} (h : isMatch (star :: p) k = true) (b : UInt8) :
    isMatch (star :: p) (b :: k) = true := by
  obtain ⟨t, ht, hcovers⟩ := covers_many.1 h
  exact covers_many.2 ⟨t, ht.trans (List.suffix_cons b k), hcovers⟩

/-- A question mark can stand for any other byte. -/
theorem isMatch_question {p k : List UInt8} {b : UInt8}
    (h : isMatch (question :: p) (b :: k) = true) (c : UInt8) :
    isMatch (question :: p) (c :: k) = true := by
  obtain ⟨b', t, heq, _, hcovers⟩ := covers_one.1 h
  cases heq
  exact covers_one.2 ⟨c, k, rfl, rfl, hcovers⟩

/-- **After a bracket or a backslash** there are fewer tokens than bytes before the last. -/
theorem length_tokens_of_pending {b : UInt8} (hb : b = openBracket ∨ b = backslash)
    (p : List UInt8) (c : UInt8) : (tokens .outside (b :: (p ++ [c]))).length ≤ p.length + 1 := by
  have hnext : (Mode.outside.next b).2 = [] := by rcases hb with rfl | rfl <;> rfl
  have hpending : (Mode.outside.next b).1.pending ≤ 1 :=
    (Nat.le_add_left _ _).trans (Mode.outside.length_next b)
  have hrest := length_tokens (Mode.outside.next b).1 (p ++ [c])
  rw [List.length_append, List.length_singleton] at hrest
  rw [tokens, hnext, List.nil_append]
  omega

/-- **The first special byte** makes a difference for some key. -/
theorem plain_of_matches {b : UInt8} {p : List UInt8}
    (h : ∀ k, isMatch (b :: p ++ [star]) k = true ↔ b :: p <+: k) : Plain b := by
  have hself : isMatch (b :: p ++ [star]) (b :: p) = true := (h _).2 List.prefix_rfl
  have hhead : ∀ c k, isMatch (b :: p ++ [star]) (c :: k) = true → b = c := by
    intro c k hc
    exact (List.cons_prefix_cons.1 ((h _).1 hc)).1
  have hmany : ¬ (b = openBracket ∨ b = backslash) := by
    intro hb
    have hlonger : isMatch (b :: p ++ [star]) (b :: p ++ [0]) = true :=
      (h _).2 (List.prefix_append _ _)
    obtain ⟨m, hm, hlt⟩ := exists_shorter hself hlonger (by simp)
    have hlen := ((h m).1 hm).length_le
    have htokens := length_tokens_of_pending hb p star
    rw [List.length_cons] at hlen
    exact absurd (hlt.trans_le htokens) (by omega)
  refine ⟨?_, ?_, fun hb => hmany (.inl hb), fun hb => hmany (.inr hb)⟩
  · rintro rfl
    exact absurd (hhead 0 _ (isMatch_star_cons hself 0)) (by decide)
  · rintro rfl
    exact absurd (hhead 0 _ (isMatch_question hself 0)) (by decide)

/-- **Only a literal text is found by its pattern**: if a text with a star after it matches
just the keys that start with the text, every byte of it stands for itself. -/
theorem literal_of_matches {p : List UInt8}
    (h : ∀ k, isMatch (p ++ [star]) k = true ↔ p <+: k) : Literal p := by
  induction p with
  | nil => exact nofun
  | cons b p ih =>
    have hb := plain_of_matches h
    refine List.forall_mem_cons.2 ⟨hb, ih (fun k => ?_)⟩
    have hcons := h (b :: k)
    rw [List.cons_append, isMatch_cons hb, List.cons_prefix_cons] at hcons
    exact ⟨fun hk => (hcons.1 ⟨rfl, hk⟩).2, fun hk => (hcons.2 ⟨rfl, hk⟩).2⟩

/-- **A text finds the keys that start with it**, by the pattern with a star after it, just
if none of its bytes is special. -/
theorem matches_iff_isPrefix (p : List UInt8) :
    (∀ k, isMatch (p ++ [star]) k = true ↔ p <+: k) ↔ Literal p :=
  ⟨literal_of_matches,
    fun hp _ => ⟨isPrefix_of_isMatch_star hp, isMatch_star_of_isPrefix hp⟩⟩

end Glob
