/-
ViewContract.Event — what is noted while templates are compiled and rendered.

Work that may note something returns a `Logged` value: the events in order,
and the value, whether or not the work failed.
-/
import ViewContract.Value.Registry

namespace ViewContract

open Text (asString)

/-- Something worth noting. -/
inductive Event where
  /-- A tag in a doc comment declares nothing. -/
  | ignoredTag (name : Text) (line : Nat)
  /-- A one-line annotation lies inside a block. -/
  | skippedNested (offset : Nat)
  /-- A template has annotations. -/
  | found (count : Nat)
  /-- Annotations are removed, since checks are disabled. -/
  | stripped (count : Nat)
  /-- An annotation has been read. -/
  | declared (offset count : Nat)
  /-- A class path names no class. -/
  | unresolvedClass (path : Text) (fault : ClassFault)
  deriving DecidableEq, Repr

namespace Event

/-- How important an event is. -/
def level : Event → String
  | .ignoredTag .. | .found _ | .declared .. => "DEBUG"
  | .stripped _ => "INFO"
  | .skippedNested _ | .unresolvedClass .. => "WARNING"

/-- The wording of an event. -/
def message : Event → String
  | .ignoredTag name line => s!"Ignoring @{asString name} tag on line {line}"
  | .skippedNested offset =>
    s!"Skipping @expects(...) nested in an @expects block at offset {offset}"
  | .found count => s!"Found {count} @expects annotation(s)"
  | .stripped count => s!"@expects disabled; stripping {count} annotation(s)"
  | .declared offset count => s!"@expects at offset {offset} declares {count} variable(s)"
  | .unresolvedClass path fault =>
    s!"{unresolvedMessage path fault}; treating value as not an instance"

end Event

/-- A value with the events noted on the way to it. -/
structure Logged (α : Type) where
  log : List Event := []
  value : α

namespace Logged

/-- Work on the value, with its events after the ones before. -/
def andThen (x : Logged α) (f : α → Logged β) : Logged β :=
  let y := f x.value
  { log := x.log ++ y.log, value := y.value }

instance : Monad Logged where
  pure value := { value }
  bind := andThen

/-- The value of work after work depends on the value before, not on its events. -/
@[simp] theorem value_bind {α β : Type} (x : Logged α) (f : α → Logged β) :
    (x >>= f).value = (f x.value).value :=
  rfl

/-- Events are noted in the order of the work. -/
@[simp] theorem log_bind {α β : Type} (x : Logged α) (f : α → Logged β) :
    (x >>= f).log = x.log ++ (f x.value).log :=
  rfl

end Logged

end ViewContract
