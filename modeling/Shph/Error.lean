/-
The error type every fallible operation returns, and the two combinators the
models of those operations are written with.
-/
import Mathlib

namespace Shph

/-- The kinds of operating-system failure the transport code distinguishes. -/
inductive IoErrorKind where
  | notFound
  | permissionDenied
  | alreadyExists
  | invalidInput
  | invalidData
  | interrupted
  | timedOut
  | wouldBlock
  | unexpectedEof
  | brokenPipe
  | connectionAborted
  | connectionReset
  | notConnected
  | other
deriving Repr, DecidableEq

inductive ShphError where
  | io (kind : IoErrorKind)
  | config (message : String)
  | crypto (message : String)
  | protocol (message : String)
  | handshake (message : String)
  | auth (message : String)
  | keyStore (message : String)
  | tun (message : String)
  | transport (message : String)
  | obfuscation (message : String)
  | stealth (message : String)
  | serialization (message : String)
  | invalidArgument (message : String)
  | notConnected
  | alreadyConnected
  | connectionClosed
  | timeout
  | resourceExhausted (message : String)
  | permissionDenied (message : String)
  | unsupported (message : String)
  | internal (message : String)
deriving Repr, DecidableEq

/-- A condition on an optional value is decided on the value it holds, and not
by going through the type. -/
instance (priority := 2000) decidableOfOptional {α : Type} (value : Option α)
    (condition : α → Prop) [DecidablePred condition] :
    Decidable (∀ item ∈ value, condition item) :=
  Option.decidableForallMem value

/-- Return `error` unless `condition` holds: the shape of an early return. -/
def ensure (condition : Prop) [Decidable condition] (error : ShphError) :
    Except ShphError Unit :=
  if condition then .ok () else .error error

@[simp] theorem ensure_eq_ok_iff {condition : Prop} [Decidable condition]
    {error : ShphError} {result : Unit} :
    ensure condition error = .ok result ↔ condition := by
  unfold ensure
  split <;> simp_all

/-- `Option::ok_or`. -/
def okOr {α : Type} (value : Option α) (error : ShphError) :
    Except ShphError α :=
  match value with
  | some value => .ok value
  | none => .error error

@[simp] theorem okOr_eq_ok_iff {α : Type} {value : Option α}
    {error : ShphError} {result : α} :
    okOr value error = .ok result ↔ value = some result := by
  cases value <;> simp [okOr]

theorem pure_eq_ok_iff {α : Type} {value result : α} :
    (pure value : Except ShphError α) = .ok result ↔ value = result :=
  ⟨Except.ok.inj, congrArg _⟩

/-- The rule that peels one fallible call off a computation that succeeded. -/
theorem bind_eq_ok_iff {α β : Type} {first : Except ShphError α}
    {rest : α → Except ShphError β} {result : β} :
    (first >>= rest) = .ok result ↔
      ∃ value, first = .ok value ∧ rest value = .ok result := by
  cases first with
  | error error => simp [bind, Except.bind]
  | ok value => simp [bind, Except.bind]

/-- The value of a computation that succeeds. -/
def valueOf {α : Type} : (result : Except ShphError α) →
    result.isOk = true → α
  | .ok value, _ => value

theorem eq_ok_valueOf {α : Type} {result : Except ShphError α}
    (hok : result.isOk = true) : result = .ok (valueOf result hok) := by
  cases result with
  | error error => simp [Except.isOk, Except.toBool] at hok
  | ok value => rfl

end Shph
