namespace PluginRegistry

inductive ExcClass
  | valueError | unicodeError | jsonDecodeError
  | keyError | indexError | typeError | attributeError | overflowError
  | runtimeError | recursionError | notImplementedError
  | osError | timeoutError | eofError
  | badZipFile | zlibError
  | httpError | httpStatusError | invalidUrl
  | integrityError | dataError | pendingRollbackError | staleDataError
  | multipleResultsFound | invalidRequestError
  | gitError | yamlError | redisError | clientError
  | registryError | notFoundError | conflictError | invalidStateError | validationError
  | configValidationError | zipValidationError
  | registrationError | registrationClosedError
  deriving DecidableEq, Repr

/-- The class an exception class derives from, `Exception` left out. -/
def ExcClass.base : ExcClass → Option ExcClass
  | .unicodeError | .jsonDecodeError | .configValidationError | .zipValidationError
  | .registrationError => some .valueError
  | .registrationClosedError => some .registrationError
  | .recursionError | .notImplementedError | .gitError => some .runtimeError
  | .timeoutError => some .osError
  | .httpStatusError => some .httpError
  | .notFoundError | .conflictError | .invalidStateError | .validationError => some .registryError
  | _ => none

/-- An exception value. `status` is the response status of an `HTTPStatusError`. -/
structure PyErr where
  cls : ExcClass
  text : String
  status : Nat := 0
  deriving DecidableEq, Repr

/-- `isinstance(e, classes)`: no handler of the model names a class that another
derives from in more than one step. -/
def PyErr.isA (e : PyErr) (classes : List ExcClass) : Bool :=
  classes.contains e.cls || e.cls.base.any classes.contains

/-- A sequence that returns has returned from both of its parts. -/
theorem except_bind_ok {α β : Type} {x : Except PyErr α} {f : α → Except PyErr β} {b : β}
    (h : (x >>= f) = .ok b) : ∃ a, x = .ok a ∧ f a = .ok b := by
  cases x with
  | ok a => exact ⟨a, rfl, h⟩
  | error e => cases h

theorem except_bind_eq {α β : Type} {x : Except PyErr α} {f : α → Except PyErr β} {a : α}
    (h : x = .ok a) : (x >>= f) = f a := by
  rw [h]
  rfl

def valueError (text : String) : PyErr := ⟨.valueError, text, 0⟩
def notFound (text : String) : PyErr := ⟨.notFoundError, text, 0⟩
def conflict (text : String) : PyErr := ⟨.conflictError, text, 0⟩
def invalidState (text : String) : PyErr := ⟨.invalidStateError, text, 0⟩
def validation (text : String) : PyErr := ⟨.validationError, text, 0⟩

end PluginRegistry
