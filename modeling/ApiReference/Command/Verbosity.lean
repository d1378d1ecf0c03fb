/-
# What is shown of the log

How often the user asks for more detail decides the least important level that
is shown, unless the environment names one.

Key definitions: `shownLevel?`, `shown`.
-/
import ApiReference.Log

namespace ApiReference
namespace Command

/-- The least important level that is shown: the environment may name one, else
the verbosity decides. An empty name shows errors, a name that is no level shows
nothing. -/
def shownLevel? (verbosity : Nat) (environment : Option String) : Option Level :=
  match environment with
  | none => some (if verbosity = 0 then .info else if verbosity = 1 then .debug else .trace)
  | some text =>
    let name := text.toLower
    if name = "" ∨ name = "error" ∨ name = "1" then some .error
    else if name = "warn" ∨ name = "2" then some .warn
    else if name = "info" ∨ name = "3" then some .info
    else if name = "debug" ∨ name = "4" then some .debug
    else if name = "trace" ∨ name = "5" then some .trace
    else none

/-- The events of a level that is shown. -/
def shown (least : Option Level) (events : List Event) : List Event :=
  match least with
  | none => []
  | some least => events.filter fun e => e.level.detail ≤ least.detail

end Command
end ApiReference
