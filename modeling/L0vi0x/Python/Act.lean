import L0vi0x.Python.Exception

/-! Computations that act on a world and may raise; what they did stays when they raise. -/
namespace L0vi0x.Python

def Act (W α : Type) := W → Py α × W

namespace Act

variable {W α β : Type}

instance : Monad (Act W) where
  pure a w := (.ok a, w)
  bind first rest w := match first w with
    | (.ok a, next) => rest a next
    | (.error e, next) => (.error e, next)

/-- A value that is there without acting, or an error. -/
def ofPy (value : Py α) : Act W α := fun w => (value, w)

/-- `try body except kind: handler`, for the errors that `catches` selects. -/
def tryCatch (body : Act W α) (catches : ErrorKind → Bool) (handler : PyError → Act W α) :
    Act W α :=
  fun w => match body w with
    | (.ok a, next) => (.ok a, next)
    | (.error e, next) => if catches e.kind then handler e next else (.error e, next)

variable {w v : W}

/-- What returns is continued with its result. -/
theorem bind_ok {first : Act W α} {rest : α → Act W β} {a : α} (h : first w = (.ok a, v)) :
    (first >>= rest) w = rest a v := by
  simp only [Bind.bind, h]

theorem bind_error {first : Act W α} {rest : α → Act W β} {e : PyError}
    (h : first w = (.error e, v)) : (first >>= rest) w = (.error e, v) := by
  simp only [Bind.bind, h]

/-- A body that returns needs no handler. -/
theorem tryCatch_ok {body : Act W α} {handler : PyError → Act W α} {catches : ErrorKind → Bool}
    {a : α} (h : body w = (.ok a, v)) : tryCatch body catches handler w = (.ok a, v) := by
  simp only [tryCatch, h]

/-- A handler takes the errors that it selects. -/
theorem tryCatch_error {body : Act W α} {handler : PyError → Act W α} {catches : ErrorKind → Bool}
    {e : PyError} (h : body w = (.error e, v)) : tryCatch body catches handler w =
      if catches e.kind then handler e v else (.error e, v) := by
  simp only [tryCatch, h]

/-- A computation keeps a relation between the world before and the world after. -/
def Keeps (rel : W → W → Prop) (m : Act W α) : Prop := ∀ w, rel w (m w).2

variable {rel : W → W → Prop}

/-- What keeps a transitive relation may be continued with what does. -/
theorem Keeps.bind (hTrans : ∀ {w v u}, rel w v → rel v u → rel w u) {first : Act W α}
    {rest : α → Act W β} (hFirst : Keeps rel first) (hRest : ∀ a, Keeps rel (rest a)) :
    Keeps rel (first >>= rest) := by
  intro w
  have hStep := hFirst w
  rcases hRun : first w with ⟨result, v⟩
  rw [hRun] at hStep
  cases result with
  | ok a =>
      rw [bind_ok hRun]
      exact hTrans hStep (hRest a v)
  | error e =>
      rw [bind_error hRun]
      exact hStep

/-- A body and a handler that keep a transitive relation keep it together. -/
theorem Keeps.tryCatch (hTrans : ∀ {w v u}, rel w v → rel v u → rel w u) {body : Act W α}
    {handler : PyError → Act W α} {catches : ErrorKind → Bool} (hBody : Keeps rel body)
    (hHandler : ∀ e, Keeps rel (handler e)) : Keeps rel (tryCatch body catches handler) := by
  intro w
  have hStep := hBody w
  rcases hRun : body w with ⟨result, v⟩
  rw [hRun] at hStep
  cases result with
  | ok a =>
      rw [tryCatch_ok hRun]
      exact hStep
  | error e =>
      rw [tryCatch_error hRun]
      split
      · exact hTrans hStep (hHandler e v)
      · exact hStep

end Act
end L0vi0x.Python
