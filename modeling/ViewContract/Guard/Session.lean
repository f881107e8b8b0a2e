/-
ViewContract.Guard.Session — a writer used over and over.

`Writer.write` puts the guards of a declaration in place at once. Here a
writer takes one guard at a time, and a guard that has no text ends the call
that wrote it: whatever the call wrote before stays.
-/
import ViewContract.Guard.Writer

namespace ViewContract

/-- What is asked of a writer: to write one declaration or several. -/
inductive Call where
  | one (d : Declaration)
  | batch (ds : List Declaration)
  deriving DecidableEq, Repr

/-- The declarations of a call. -/
def Call.declarations : Call → List Declaration
  | .one d => [d]
  | .batch ds => ds

namespace Writer

/-- Write one guard, once its text is there. -/
def put (w : Writer) (g : Guard) : Writer × Except RangeFault Unit :=
  match g.statement w.delimiters (0 < w.count) with
  | .ok statement =>
    ({ w with
        text := w.text ++ (if 0 < w.count then ['\n'] else []) ++ statement
        count := w.count + 1 }, .ok ())
  | .error fault => (w, .error fault)

/-- Write one thing after another, up to the first that fails. -/
def each {α : Type} (step : Writer → α → Writer × Except RangeFault Unit) (w : Writer) :
    List α → Writer × Except RangeFault Unit
  | [] => (w, .ok ())
  | x :: xs =>
    match step w x with
    | (w, .ok ()) => w.each step xs
    | (w, .error fault) => (w, .error fault)

/-- Write a declaration guard by guard. -/
def declare (w : Writer) (d : Declaration) : Writer × Except RangeFault Unit :=
  w.each put d.guards

/-- Answer a call. -/
def perform (w : Writer) : Call → Writer × Except RangeFault Unit
  | .one d => w.declare d
  | .batch ds => w.each declare ds

/-- A new writer after calls, whether they failed or not. -/
def session (δ : Delimiters) (calls : List Call) : Writer :=
  calls.foldl (fun w call => (w.perform call).1) { delimiters := δ }

end Writer

end ViewContract
