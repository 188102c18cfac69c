import Mathlib.Data.List.Forall2

/-! Exceptions as values. A function that may raise returns `Py`; an `except`
clause is a test on the kind of the error, subclasses included. -/
namespace L0vi0x.Python

/-- The exception classes that the modelled functions raise or catch. -/
inductive ErrorKind
  | valueError | unicodeDecodeError | jsonDecodeError | tracePolicyError
  | environmentMismatch | foundryTraceFormatError | cheatcodeDecodeError
  | typeError | keyError | indexError | attributeError | overflowError
  | assertionError | runtimeError | osError | yamlError | sqliteError
  | ladderError | illegalTransition | validationError
  | sandboxPathError | fileNotFoundError
  | modelUnavailable | rateLimited | notFound | noCandidatesAvailable
  | timeout | malformedStructuredOutput | harnessIdentityError | policyViolation
  deriving DecidableEq, Repr

/-- The classes derived from `ValueError`. -/
def ErrorKind.isValueError : ErrorKind → Bool
  | .valueError | .unicodeDecodeError | .jsonDecodeError | .tracePolicyError
  | .environmentMismatch | .foundryTraceFormatError | .cheatcodeDecodeError
  | .ladderError | .illegalTransition | .validationError | .harnessIdentityError
  | .policyViolation => true
  | _ => false

/-- An exception with the text that `str(exc)` gives. -/
structure PyError where
  kind : ErrorKind
  message : String
  deriving DecidableEq, Repr

abbrev Py (α : Type) := Except PyError α

def raise {α : Type} (kind : ErrorKind) (message : String) : Py α :=
  .error ⟨kind, message⟩

/-- `if condition: raise kind(message)`. -/
def raiseIf (condition : Bool) (kind : ErrorKind) (message : String) : Py Unit :=
  if condition then raise kind message else pure ()

/-- `raise` under a condition returns when the condition fails. -/
@[simp] theorem raiseIf_eq_ok {condition : Bool} {kind : ErrorKind} {message : String}
    {u : Unit} : raiseIf condition kind message = .ok u ↔ condition = false := by
  cases condition <;> simp [raiseIf, raise, pure, Except.pure]

@[simp] theorem raise_ne_ok {α : Type} {kind : ErrorKind} {message : String} {a : α} :
    (raise kind message : Py α) = .ok a ↔ False := by
  simp [raise]

/-- A block that returns is one whose first statement returns, and whose rest
then returns. Every inversion of a modelled function goes through this. -/
theorem bind_eq_ok {α β : Type} {first : Py α} {rest : α → Py β} {b : β} :
    (first >>= rest) = .ok b ↔ ∃ a, first = .ok a ∧ rest a = .ok b := by
  cases first with
  | error e => simp [bind, Except.bind]
  | ok a => simp [bind, Except.bind]

/-- What is computed from a result returns when that does. -/
theorem map_eq_ok {α β : Type} {f : α → β} {first : Py α} {b : β} :
    (f <$> first) = .ok b ↔ ∃ a, first = .ok a ∧ f a = b := by
  cases first with
  | error e => simp [Functor.map, Except.map]
  | ok a => simp [Functor.map, Except.map]

@[simp] theorem pure_eq_ok {α : Type} {a b : α} : (pure a : Py α) = .ok b ↔ a = b := by
  simp [pure, Except.pure]

/-- `except` over the classes that `catches` selects; others pass through. -/
def except {α : Type} (body : Py α) (catches : ErrorKind → Bool)
    (handler : PyError → Py α) : Py α :=
  match body with
  | .ok a => .ok a
  | .error e => if catches e.kind then handler e else .error e

def returns {α : Type} (call : Py α) : Prop := ∃ a, call = .ok a

@[simp] theorem returns_ok {α : Type} (a : α) : returns (.ok a : Py α) := ⟨a, rfl⟩

@[simp] theorem not_returns_error {α : Type} (e : PyError) :
    ¬ returns (.error e : Py α) := by
  rintro ⟨a, h⟩
  cases h

/-- Two steps return when the first does and the second does on its result. -/
theorem returns_bind {α β : Type} {first : Py α} {rest : α → Py β} :
    returns (first >>= rest) ↔ ∃ a, first = .ok a ∧ returns (rest a) := by
  cases first with
  | error e => simp [bind, Except.bind]
  | ok a => simp [bind, Except.bind]

/-- A guarded body returns by itself, or by the handler of an error that is caught. -/
theorem except_eq_ok {α : Type} {body : Py α} {catches : ErrorKind → Bool}
    {handler : PyError → Py α} {a : α} :
    except body catches handler = .ok a ↔
      body = .ok a ∨ ∃ e, body = .error e ∧ catches e.kind = true ∧ handler e = .ok a := by
  cases body with
  | ok b => simp [except]
  | error e => by_cases h : catches e.kind = true <;> simp [except, h]

section Loops

variable {α β : Type}

/-- A loop that returns has kept every relation between the items done so far and
the state that each pass keeps. -/
theorem foldlM_induction {step : β → α → Py β} (motive : List α → β → Prop)
    {items : List α} {init final : β} (hInit : motive [] init)
    (hStep : ∀ done state item next, motive done state → step state item = .ok next →
      motive (done ++ [item]) next)
    (h : items.foldlM step init = .ok final) : motive items final := by
  have hRun : ∀ (rest done : List α) (state : β), motive done state →
      rest.foldlM step state = .ok final → motive (done ++ rest) final := by
    intro rest
    induction rest with
    | nil =>
        intro done state hDone hRest
        rw [List.foldlM_nil, pure_eq_ok] at hRest
        simpa [← hRest] using hDone
    | cons item rest ih =>
        intro done state hDone hRest
        rw [List.foldlM_cons, bind_eq_ok] at hRest
        obtain ⟨next, hNext, hRest⟩ := hRest
        simpa using ih (done ++ [item]) next (hStep done state item next hDone hNext) hRest
  simpa using hRun items [] init hInit h

/-- A list is mapped when each of its items is. -/
theorem mapM_eq_ok {f : α → Py β} {xs : List α} {ys : List β} :
    xs.mapM f = .ok ys ↔ List.Forall₂ (fun x y => f x = .ok y) xs ys := by
  induction xs generalizing ys with
  | nil =>
      rw [List.mapM_nil, pure_eq_ok, List.forall₂_nil_left_iff]
      exact eq_comm
  | cons x xs ih =>
      rw [List.mapM_cons, bind_eq_ok]
      constructor
      · rintro ⟨y, hy, h⟩
        rw [bind_eq_ok] at h
        obtain ⟨more, hMore, h⟩ := h
        rw [pure_eq_ok] at h
        rw [← h]
        exact .cons hy (ih.mp hMore)
      · rintro (_ | ⟨hy, hMore⟩)
        rename_i y more
        refine ⟨y, hy, ?_⟩
        rw [bind_eq_ok]
        exact ⟨more, ih.mpr hMore, rfl⟩

/-- What a loop returned for some item. -/
theorem forall₂_exists_left {r : α → β → Prop} {xs : List α} {ys : List β}
    (h : List.Forall₂ r xs ys) {y : β} (hy : y ∈ ys) : ∃ x ∈ xs, r x y := by
  induction h with
  | nil => cases hy
  | cons hHead _ ih =>
      rcases List.mem_cons.mp hy with rfl | hy
      · exact ⟨_, List.mem_cons_self .., hHead⟩
      · obtain ⟨x, hx, hRel⟩ := ih hy
        exact ⟨x, List.mem_cons_of_mem _ hx, hRel⟩

/-- A loop returns when each of its steps does. -/
theorem forM_eq_ok {f : α → Py Unit} {xs : List α} {u : Unit} :
    xs.forM f = .ok u ↔ ∀ x ∈ xs, f x = .ok () := by
  induction xs with
  | nil => simp [List.forM, pure, Except.pure]
  | cons x xs ih =>
      rw [List.forM, bind_eq_ok, List.forall_mem_cons, ← ih]
      constructor
      · rintro ⟨_, hx, hRest⟩
        exact ⟨hx, hRest⟩
      · rintro ⟨hx, hRest⟩
        exact ⟨(), hx, hRest⟩

end Loops
end L0vi0x.Python
