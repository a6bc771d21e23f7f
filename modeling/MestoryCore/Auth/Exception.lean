import MestoryCore.Python.Json

/-!
# Exceptions of the token check

An exception has a class, its `args`, its `__dict__`, and the exception it was
raised from. The classes are grouped as the `except` clauses of the package see
them: `httpxError` is `httpx.HTTPError` and its descendants, `decodeError` and
`invalidToken` together are `jwt.InvalidTokenError`, and so on. Two classes are
the package's own; a library cannot raise them, which `LibraryExn` states.
-/

namespace MestoryCore.Auth

open Python

/-- Classes of exceptions. A name tells the descendants of one base class apart. -/
inductive ExnClass where
  | httpxError (name : String)
  | malformedJwksDocument
  | unknownSigningKey
  | decodeError (name : String)
  | invalidToken (name : String)
  | invalidKey
  | pyJwkError (name : String)
  | typeError
  | valueError (name : String)
  | validationError
  | runtimeError
  | other (name : String)
  deriving DecidableEq, Repr

namespace ExnClass

/-- The classes that no library can raise. -/
def isOwn : ExnClass → Bool
  | .malformedJwksDocument | .unknownSigningKey => true
  | _ => false

def isHttpxError : ExnClass → Bool
  | .httpxError _ => true
  | _ => false

/-- `jwt.InvalidTokenError` and its descendants, `jwt.DecodeError` among them. -/
def isInvalidToken : ExnClass → Bool
  | .decodeError _ | .invalidToken _ => true
  | _ => false

def isDecodeError : ExnClass → Bool
  | .decodeError _ => true
  | _ => false

def isValueError : ExnClass → Bool
  | .valueError _ => true
  | _ => false

/-- The classes that `_to_pem` wraps: `TypeError`, `jwt.InvalidKeyError`, and
`jwt.PyJWKError`. -/
def isKeyError : ExnClass → Bool
  | .typeError | .invalidKey | .pyJwkError _ => true
  | _ => false

/-- `(httpx.HTTPError, MalformedJwksDocumentError)`: the source of keys could
not give a usable document. -/
def isSourceError : ExnClass → Bool
  | .httpxError _ | .malformedJwksDocument => true
  | _ => false

theorem isSourceError_of_isHttpxError {c : ExnClass} (h : c.isHttpxError = true) :
    c.isSourceError = true := by
  cases c <;> simp_all [isHttpxError, isSourceError]

theorem isInvalidToken_of_isSourceError {c : ExnClass} (h : c.isSourceError = true) :
    c.isInvalidToken = false := by
  cases c <;> simp_all [isInvalidToken, isSourceError]

end ExnClass

/-- A Python value held by an exception: a text, or some other object by its identity. -/
inductive Value where
  | str (value : String)
  | object (id : Nat)
  deriving DecidableEq, Repr

/-- The `__dict__` of an exception. -/
abbrev Attributes := Finmap fun _ : String => Value

structure Exn where
  cls : ExnClass
  args : List Value
  attributes : Attributes := ∅
  cause : Option Exn := none

/-- An exception raised by a library. -/
abbrev LibraryExn := { e : Exn // e.cls.isOwn = false }

namespace Exn

/-- `raise MalformedJwksDocumentError(message) from cause`. -/
def malformed (message : String) (cause : Option Exn) : Exn :=
  { cls := .malformedJwksDocument, args := [.str message], cause }

/-- `raise TypeError(message)`. -/
def typeError (message : String) : Exn :=
  { cls := .typeError, args := [.str message] }

/-- `raise ValueError(message)`. -/
def valueError (message : String) : Exn :=
  { cls := .valueError "ValueError", args := [.str message] }

/-- `raise jwt.InvalidTokenError(message) from cause`. -/
def invalidToken (message : String) (cause : Option Exn) : Exn :=
  { cls := .invalidToken "InvalidTokenError", args := [.str message], cause }

@[simp] theorem malformed_cls (message : String) (cause : Option Exn) :
    (malformed message cause).cls = .malformedJwksDocument := rfl

@[simp] theorem typeError_cls (message : String) : (typeError message).cls = .typeError := rfl

@[simp] theorem invalidToken_cls (message : String) (cause : Option Exn) :
    (invalidToken message cause).cls = .invalidToken "InvalidTokenError" := rfl

end Exn
end MestoryCore.Auth
