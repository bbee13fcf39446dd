import FindSelect.Literal.Parse
import FindSelect.Shell.Arguments
import FindSelect.Shell.Call
import FindSelect.Shell.Filter
import FindSelect.Shell.Projection

/-!
# Reading a query of the shell

A call has at most two arguments: the filter document and the projection document. Without a filter
every document is meant. Both arguments are read, and the projection is understood, before the
method and the meaning of the filter are looked at.

`parse` models `parse` of `MongoDialect`.
-/

namespace FindSelect.Shell

/-- The first empty argument, counted from `position`. -/
def emptyArgument? (position : Nat) : List (List Char) → Option Nat
  | [] => none
  | [] :: _ => some position
  | _ :: rest => emptyArgument? (position + 1) rest

/-- Accepts at most two arguments, none of them empty. -/
def checkArguments (arguments : List (List Char)) : Except Error Unit :=
  if 2 < arguments.length then .error (.format (.tooManyArguments arguments.length))
  else
    match emptyArgument? 1 arguments with
    | some position => .error (.format (.emptyArgument position))
    | none => .ok ()

/-- The value of the first argument; without one, the empty document. -/
def filterDocument (arguments : List (List Char)) : Except Error Value :=
  match arguments[0]? with
  | none => .ok (.object [])
  | some argument => Literal.parse (String.ofList argument)

/-- The projection of the second argument, if there is one. -/
def wantedProjection (arguments : List (List Char)) : Except Error (Option (List String)) :=
  match arguments[1]? with
  | none => .ok none
  | some argument => do projection (← Literal.parse (String.ofList argument))

/-- The query that a text writes. -/
def parse (text : String) : Except Error Query := do
  let some call := Call.read? text.toList | .error (.format .notACall)
  let arguments := arguments call.arguments
  checkArguments arguments
  let document ← filterDocument arguments
  let projection ← wantedProjection arguments
  let method ← method (String.ofList call.method)
  let filter ← filter document
  return ⟨String.ofList call.collection, method, filter, projection⟩

end FindSelect.Shell
