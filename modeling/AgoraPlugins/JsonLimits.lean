import AgoraPlugins.Json

/-!
# Reading JSON within limits

A reader in a real interpreter fails in more than one way. A text may be malformed. An integer may
have more digits than the interpreter converts, and arrays and objects may stand deeper in one
another than its stack allows; these two end the reading where they are met, whatever comes after
them. Callers often expect the first alone.

What is read within the limits is what is read without any (`Json.loads_of_loadsWithin`), and a
text that is found malformed is malformed.
-/

namespace Json

/-- **Why a text is not read.** -/
inductive Failure where
  | malformed
  | longInteger
  | tooDeep
  deriving DecidableEq

/-- **The limits of an interpreter**: how many digits an integer may have, if there is a bound, and
how deep arrays and objects may stand in one another. -/
structure Limits where
  digits : Option ℕ
  depth : ℕ

/-- A part that is read, or malformed. -/
def ofOption {α : Type} : Option α → Except Failure α
  | none => .error .malformed
  | some a => .ok a

variable (limits : Limits)

/-- A number is converted, if it is not too long an integer. -/
def convert (r : Json × List Char) : Except Failure (Json × List Char) :=
  match r.1 with
  | .num n =>
    if limits.digits.any (fun digits => digits < (Nat.toDigits 10 n.natAbs).length) then
      .error .longInteger
    else .ok r
  | _ => .ok r

mutual
/-- A value at the start of a text, and what follows it. The fuel is that of `read`, and the depth
is what is left of the stack. -/
def scan : ℕ → ℕ → List Char → Except Failure (Json × List Char)
  | 0, _, _ => .error .malformed
  | fuel + 1, depth, cs =>
    match skipBlanks cs with
    | [] => .error .malformed
    | c :: rest =>
      if c = quote then
        ofOption ((readString fuel rest).map (fun r => (.str (String.ofList r.1), r.2)))
      else if c = '[' then
        if depth = 0 then .error .tooDeep
        else
          match skipBlanks rest with
          | [] => .error .malformed
          | d :: rest =>
            if d = ']' then .ok (.arr [], rest)
            else (scanItems fuel (depth - 1) (d :: rest)).map (fun r => (.arr r.1, r.2))
      else if c = openBrace then
        if depth = 0 then .error .tooDeep
        else
          match skipBlanks rest with
          | [] => .error .malformed
          | d :: rest =>
            if d = closeBrace then .ok (.obj [], rest)
            else (scanMembers fuel (depth - 1) (d :: rest)).map (fun r => (.obj r.1, r.2))
      else if c = '-' ∨ c.isDigit = true then
        (ofOption (readNumber (c :: rest))).bind (convert limits)
      else ofOption (readWord (c :: rest))

/-- The items of an array up to its bracket. -/
def scanItems : ℕ → ℕ → List Char → Except Failure (List Json × List Char)
  | 0, _, _ => .error .malformed
  | fuel + 1, depth, cs =>
    (scan fuel depth cs).bind (fun r =>
      match skipBlanks r.2 with
      | [] => .error .malformed
      | d :: rest =>
        if d = ',' then (scanItems fuel depth rest).map (fun t => (r.1 :: t.1, t.2))
        else if d = ']' then .ok ([r.1], rest)
        else .error .malformed)

/-- The members of an object up to its brace. -/
def scanMembers : ℕ → ℕ → List Char → Except Failure (List (String × Json) × List Char)
  | 0, _, _ => .error .malformed
  | fuel + 1, depth, cs =>
    match skipBlanks cs with
    | [] => .error .malformed
    | q :: cs =>
      if q = quote then
        (ofOption (readString fuel cs)).bind (fun k =>
          match skipBlanks k.2 with
          | [] => .error .malformed
          | d :: rest =>
            if d = ':' then
              (scan fuel depth rest).bind (fun r =>
                match skipBlanks r.2 with
                | [] => .error .malformed
                | d :: rest =>
                  if d = ',' then
                    (scanMembers fuel depth rest).map (fun t =>
                      ((String.ofList k.1, r.1) :: t.1, t.2))
                  else if d = closeBrace then .ok ([(String.ofList k.1, r.1)], rest)
                  else .error .malformed)
            else .error .malformed)
      else .error .malformed
end

/-- **`json.loads`**, with what it raises. -/
def loadsWithin (text : String) : Except Failure Json :=
  (scan limits (text.toList.length + 1) limits.depth text.toList).bind (fun r =>
    if skipBlanks r.2 = [] then .ok r.1 else .error .malformed)

/-! ## The same reader -/

/-- **The same is read with and without limits**, unless one of them is met. -/
def Agrees {α : Type} : Except Failure α → Option α → Prop
  | .ok a, y => y = some a
  | .error .malformed, y => y = none
  | .error .longInteger, _ => True
  | .error .tooDeep, _ => True

section Agrees

variable {α β : Type}

theorem agrees_ofOption : ∀ y : Option α, Agrees (ofOption y) y
  | none => rfl
  | some _ => rfl

theorem Agrees.map {x : Except Failure α} {y : Option α} (h : Agrees x y) (f : α → β) :
    Agrees (x.map f) (y.map f) := by
  cases x with
  | ok a =>
    rw [show y = some a from h]
    rfl
  | error e =>
    cases e with
    | malformed =>
      rw [show y = none from h]
      rfl
    | longInteger => trivial
    | tooDeep => trivial

theorem Agrees.bind {x : Except Failure α} {y : Option α} (h : Agrees x y)
    {f : α → Except Failure β} {g : α → Option β} (hf : ∀ a, Agrees (f a) (g a)) :
    Agrees (x.bind f) (y.bind g) := by
  cases x with
  | ok a =>
    rw [show y = some a from h]
    exact hf a
  | error e =>
    cases e with
    | malformed =>
      rw [show y = none from h]
      rfl
    | longInteger => trivial
    | tooDeep => trivial

theorem agrees_convert (r : Json × List Char) : Agrees (convert limits r) (some r) := by
  obtain ⟨v, rest⟩ := r
  cases v with
  | num n =>
    unfold convert
    dsimp only
    split
    · trivial
    · rfl
  | _ => rfl

end Agrees

theorem readItems_nil : ∀ fuel : ℕ, readItems fuel [] = none
  | 0 => rfl
  | 1 => rfl
  | _ + 2 => rfl

variable {limits}

mutual
theorem agrees_scan : ∀ (fuel depth : ℕ) (cs : List Char),
    Agrees (scan limits fuel depth cs) (read fuel cs)
  | 0, _, _ => rfl
  | fuel + 1, depth, cs => by
    rw [scan, read]
    cases skipBlanks cs with
    | nil => rfl
    | cons c rest =>
      dsimp only
      split_ifs
      next => exact agrees_ofOption _
      next => trivial
      next =>
        cases skipBlanks rest with
        | nil =>
          show (readItems fuel []).map _ = none
          rw [readItems_nil fuel]
          rfl
        | cons d rest =>
          dsimp only
          split_ifs with hd
          next =>
            subst hd
            rfl
          next =>
            split
            next heq => exact absurd (List.cons.inj heq).1 hd
            next => exact (agrees_scanItems fuel (depth - 1) _).map _
      next => trivial
      next =>
        cases skipBlanks rest with
        | nil => rfl
        | cons d rest =>
          dsimp only
          split_ifs
          next => rfl
          next => exact (agrees_scanMembers fuel (depth - 1) _).map _
      next =>
        have hbind := (agrees_ofOption (readNumber (c :: rest))).bind (agrees_convert limits)
        rwa [Option.bind_fun_some] at hbind
      next => exact agrees_ofOption _

theorem agrees_scanItems : ∀ (fuel depth : ℕ) (cs : List Char),
    Agrees (scanItems limits fuel depth cs) (readItems fuel cs)
  | 0, _, _ => rfl
  | fuel + 1, depth, cs => by
    rw [scanItems, readItems]
    refine (agrees_scan fuel depth cs).bind (fun r => ?_)
    cases skipBlanks r.2 with
    | nil => rfl
    | cons d rest =>
      dsimp only
      split_ifs with hcomma hbracket
      next =>
        subst hcomma
        exact (agrees_scanItems fuel depth _).map _
      next =>
        subst hbracket
        rfl
      next =>
        split
        next heq => exact absurd (List.cons.inj heq).1 hcomma
        next heq => exact absurd (List.cons.inj heq).1 hbracket
        next => rfl

theorem agrees_scanMembers : ∀ (fuel depth : ℕ) (cs : List Char),
    Agrees (scanMembers limits fuel depth cs) (readMembers fuel cs)
  | 0, _, _ => rfl
  | fuel + 1, depth, cs => by
    rw [scanMembers, readMembers]
    cases skipBlanks cs with
    | nil => rfl
    | cons q cs =>
      dsimp only
      split_ifs
      next =>
        refine (agrees_ofOption (readString fuel cs)).bind (fun k => ?_)
        cases skipBlanks k.2 with
        | nil => rfl
        | cons d rest =>
          dsimp only
          split_ifs with hcolon
          next =>
            subst hcolon
            refine (agrees_scan fuel depth _).bind (fun r => ?_)
            cases skipBlanks r.2 with
            | nil => rfl
            | cons d rest =>
              dsimp only
              split_ifs
              next => exact (agrees_scanMembers fuel depth _).map _
              next => rfl
              next => rfl
          next =>
            split
            next heq => exact absurd (List.cons.inj heq).1 hcolon
            next => rfl
      next => rfl
end

/-- **The reader within limits** agrees with the one without. -/
theorem agrees_loadsWithin (text : String) : Agrees (loadsWithin limits text) (loads text) := by
  refine (agrees_scan _ _ _).bind (fun r => ?_)
  split_ifs
  next => rfl
  next => rfl

/-- What is read within limits is what is read. -/
theorem loads_of_loadsWithin {text : String} {v : Json} (h : loadsWithin limits text = .ok v) :
    loads text = some v := by
  have hagrees := @agrees_loadsWithin limits text
  rwa [h] at hagrees

end Json
