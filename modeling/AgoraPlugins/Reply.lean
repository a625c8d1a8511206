import AgoraPlugins.Effect

/-!
# What the world answers

A coroutine exits with a value or with what it raises (`Exc`); a cancellation
is kept apart from exceptions, as Python keeps it. Where it awaits something
the answer is a `Reply`, and the answers still to come are a script: one that
has run out means that nothing fails any more.
-/

/-- What a coroutine may raise: an exception with its type and text, or the
cancellation of the task, which is no `Exception` in Python and passes
`except Exception` by. -/
inductive Exc where
  | exception (type message : String)
  | cancelled
  deriving DecidableEq

/-- Whether `except Exception` catches it. -/
def Exc.isException : Exc → Bool
  | .exception _ _ => true
  | .cancelled => false

/-- A computation that has returned has returned at each of its steps. -/
theorem exists_of_bind_eq_ok {ε α β : Type} {x : Except ε α} {f : α → Except ε β} {b : β}
    (h : (x >>= f) = .ok b) : ∃ a, x = .ok a ∧ f a = .ok b := by
  cases x with
  | error e => cases h
  | ok a => exact ⟨a, rfl, h⟩

theorem eq_ok_of_toOption {ε α : Type} {x : Except ε α} {a : α} (h : x.toOption = some a) :
    x = .ok a := by
  cases x with
  | error e => cases h
  | ok b => exact congrArg Except.ok (Option.some.inj h)

/-- What an await point, or a callback, answers. -/
inductive Reply where
  | ok
  | raises (e : Exc)
  deriving DecidableEq

/-- **The next reply of a script.** -/
def nextReply : EStateM Exc (List Reply) PUnit := do
  match ← get with
  | [] => pure ⟨⟩
  | .ok :: script => modify (fun _ => script)
  | .raises e :: script => do
    modify (fun _ => script)
    throw e

/-- Whatever the reply, it is consumed. -/
theorem ensures_nextReply {script : List Reply}
    {Q : Except Exc PUnit → List Reply → Prop} (hok : ∀ rest, Q (.ok ⟨⟩) rest)
    (herror : ∀ e rest, Q (.error e) rest) : Effect.Ensures nextReply script Q := by
  unfold nextReply
  rw [Effect.ensures_bind, Effect.ensures_get]
  match script with
  | [] => exact hok []
  | .ok :: rest => exact hok rest
  | .raises e :: rest => exact herror e rest
