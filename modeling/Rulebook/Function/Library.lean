import Rulebook.Function.Collection
import Rulebook.Function.Day
import Rulebook.Function.Number
import Rulebook.Function.Text

/-!
# The built-in functions
-/
namespace Rulebook

def Builtin.all : List (String × Function) :=
  [("Count", Builtin.count),
    ("Sum", Builtin.sum),
    ("Avg", Builtin.average),
    ("Min", Builtin.minimum),
    ("Max", Builtin.maximum),
    ("Round", Builtin.round),
    ("RoundEven", Builtin.roundEven),
    ("Floor", Builtin.floor),
    ("Ceil", Builtin.ceil),
    ("Abs", Builtin.abs),
    ("InNumberSet", Builtin.inNumberSet),
    ("Today", Builtin.today),
    ("Now", Builtin.now),
    ("Date", Builtin.date),
    ("DateTime", Builtin.dateTime),
    ("PlusDays", Builtin.plusDays),
    ("Year", Builtin.year),
    ("IsEmpty", Builtin.isEmpty),
    ("Concat", Builtin.concat),
    ("Upper", Builtin.upper),
    ("Lower", Builtin.lower),
    ("Length", Builtin.length),
    ("Flat", Builtin.flat)]

/-- The registry of the built-in functions. -/
def FunctionRegistry.builtins : FunctionRegistry :=
  ⟨Builtin.all⟩

end Rulebook
